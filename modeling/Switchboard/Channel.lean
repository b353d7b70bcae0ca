import Switchboard.Config
import Switchboard.Error
import Switchboard.Frame
import Switchboard.Id
import Switchboard.Lock

namespace Switchboard

inductive Technology
  | proxy
  | test
  | sip
deriving DecidableEq, Inhabited

def Technology.name : Technology → String
  | proxy => "Local"
  | test => "Test"
  | sip => "SIP"

def Technology.proxyDescription : String := "Local Proxy Channel Driver"

def Technology.proxyCapabilities : FormatMask := .all

structure CallerId where
  num : Option String := none
  name : Option String := none
  dnid : Option String := none
  rdnis : Option String := none
  ani : Option String := none
  presentation : Int32 := 0
  ani2 : Int32 := 0
  ton : Int32 := 0
  tns : Int32 := 0
deriving DecidableEq, Inhabited

structure CallProfile where
  language : String := ""
  accountcode : String := ""
  musicclass : String := ""
  cdrFlags : UInt32 := 0
  application : Option String := none
deriving DecidableEq, Inhabited

structure Location where
  context : String := ""
  exten : String := ""
  priority : UInt32 := 0
deriving DecidableEq, Inhabited

/-- What the driver keeps with a channel. -/
inductive Slot
  | empty
  | pair (p : PairId)
  | foreign
deriving DecidableEq, Inhabited

inductive Music
  | silent
  | playing (musicclass : Option String)
deriving DecidableEq, Inhabited

/-- Who can hold a channel's lock: the thread that runs the session, or one beside it. -/
inductive Party
  | main
  | helper
deriving DecidableEq, Inhabited

structure Channel where
  name : String
  technology : Technology
  state : ChannelState := .down
  formats : ChannelFormats := .uniform .empty
  location : Location := {}
  slot : Slot := .empty
  frames : List Frame := []
  /-- What was written to the channel while it had no driver. -/
  written : List Frame := []
  generator : Bool := false
  caller : CallerId := {}
  profile : CallProfile := {}
  answeredElsewhere : Bool := false
  vars : List (String × String) := []
  datastores : List String := []
  groups : List String := []
  music : Music := .silent
  bridge : Option ChannelId := none
  monitor : Option String := none
  audiohooks : List String := []
  /-- The channel whose place this one is to take. -/
  pendingMasquerade : Option ChannelId := none
  softHangup : Option SoftHangupCause := none
  hangupCause : UInt32 := 0
  hungup : Bool := false
  zombie : Bool := false
  jitterbuffer : Option Jitterbuffer := none
  dialplanStarted : Bool := false
  lock : RecursiveLock Party := {}
deriving DecidableEq, Inhabited

namespace Channel

def hangingUp (c : Channel) : Bool := c.softHangup.isSome || c.hungup || c.zombie

def getVar (c : Channel) (name : String) : Option String :=
  (c.vars.find? (·.1 = name)).map Prod.snd

def setFirst (name value : String) : List (String × String) → List (String × String)
  | [] => [(name, value)]
  | v :: rest => if v.1 = name then (name, value) :: rest else v :: setFirst name value rest

def setVar (c : Channel) (name value : String) : Channel :=
  { c with vars := setFirst name value c.vars }

def pushVar (c : Channel) (name value : String) : Channel :=
  { c with vars := c.vars ++ [(name, value)] }

theorem find?_setFirst (name value : String) (vars : List (String × String)) :
    (setFirst name value vars).find? (·.1 = name) = some (name, value) := by
  induction vars with
  | nil => simp [setFirst]
  | cons v rest ih => by_cases h : v.1 = name <;> simp [setFirst, h, ih]

theorem getVar_setVar (c : Channel) (name value : String) :
    (c.setVar name value).getVar name = some value := by
  simp [getVar, setVar, find?_setFirst]

theorem getVar_setVar_of_ne (c : Channel) {name other : String} (value : String)
    (h : other ≠ name) :
    (c.setVar name value).getVar other = c.getVar other := by
  suffices ∀ vars, (setFirst name value vars).find? (·.1 = other) = vars.find? (·.1 = other) by
    simp [getVar, setVar, this]
  intro vars
  induction vars with
  | nil => simp [setFirst, Ne.symm h]
  | cons v rest ih =>
    by_cases hv : v.1 = name
    · simp [setFirst, hv, Ne.symm h]
    · simp [setFirst, hv, List.find?_cons, ih]

end Channel
end Switchboard
