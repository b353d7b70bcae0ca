import Switchboard.Error

namespace Switchboard

structure Options where
  /-- `n`: the pair is never taken out of the call. -/
  noOptimization : Bool := false
  /-- `j`: the owner-side gets a jitterbuffer. It needs `n`. -/
  jitterbuffer : Bool := false
  /-- `b`: the channel at the far end is reported as the bridged one. -/
  bridgeReport : Bool := false
  /-- `m`: hold and unhold are relayed and play no music here. -/
  mohPassthru : Bool := false
deriving DecidableEq, Inhabited

def Options.ofLetters (letters : List Char) : Options where
  noOptimization := letters.contains 'n'
  jitterbuffer := letters.contains 'n' && letters.contains 'j'
  bridgeReport := letters.contains 'b'
  mohPassthru := letters.contains 'm'

structure Destination where
  exten : String
  context : String
  options : Options
deriving DecidableEq, Inhabited

namespace Destination

def targetAndOptions (text : String) : String × Options :=
  match Text.cut '/' text with
  | some (target, letters) => (target, .ofLetters letters.toList)
  | none => (text, {})

def parse (text defaultContext : String) : Except ChannelError Destination :=
  let (target, options) := targetAndOptions text
  let (exten, context) := (Text.cut '@' target).getD (target, defaultContext)
  if exten = "" then .error (.invalidDestination text "missing extension")
  else if context = "" then .error (.invalidDestination text "empty context")
  else .ok ⟨exten, context, options⟩

def parseDevice (text : String) : Option (String × String) :=
  (Text.cut '@' text).map fun (exten, rest) =>
    (exten, ((Text.cut '/' rest).map Prod.fst).getD rest)

def display (d : Destination) : String := d.exten ++ "@" ++ d.context

end Destination
end Switchboard
