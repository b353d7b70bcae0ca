namespace Switchboard

inductive Glare
  | idle
  | detected (relays : Nat)
  | cancelled (relays : Nat)
deriving DecidableEq, Inhabited

namespace Glare

/-- What a relay does with the record when it is done. -/
inductive Exit
  | proceed
  | destroy
  | abandon
deriving DecidableEq, Inhabited

def inFlight : Glare → Nat
  | idle => 0
  | detected relays | cancelled relays => relays

def isCancelled : Glare → Bool
  | cancelled _ => true
  | _ => false

def enter : Glare → Glare
  | idle => detected 1
  | detected relays => detected (relays + 1)
  | cancelled relays => cancelled (relays + 1)

def leave : Glare → Exit × Glare
  | idle => (.proceed, idle)
  | detected relays => (.proceed, if relays ≤ 1 then idle else detected (relays - 1))
  | cancelled 0 => (.abandon, cancelled 0)
  | cancelled 1 => (.destroy, cancelled 0)
  | cancelled (relays + 2) => (.abandon, cancelled (relays + 1))

/-- A teardown finds both endpoints gone. It answers whether relays in flight take over the
destruction. -/
def cancel : Glare → Bool × Glare
  | detected (relays + 1) => (true, cancelled (relays + 1))
  | g => (false, g)

inductive Step
  | enter
  | leave
  | cancel
deriving DecidableEq, Inhabited

inductive Answer
  | entered
  | left (exit : Exit)
  | cancelled (deferred : Bool)
deriving DecidableEq, Inhabited

def apply (g : Glare) : Step → Answer × Glare
  | .enter => (.entered, g.enter)
  | .leave => let (exit, g) := g.leave; (.left exit, g)
  | .cancel => let (deferred, g) := g.cancel; (.cancelled deferred, g)

def trace (g : Glare) : List Step → List (Answer × Glare)
  | [] => []
  | s :: rest => let r := g.apply s; r :: trace r.2 rest

end Glare
end Switchboard
