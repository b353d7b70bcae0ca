import Switchboard.Channel
import Switchboard.Pair
import Switchboard.Registry
import Switchboard.Table

namespace Switchboard

structure Lookup where
  context : String
  exten : String
  priority : UInt32
  caller : Option String
  found : Bool
deriving DecidableEq, Inhabited

structure Allocation where
  technology : Technology
  name : String
  state : ChannelState := .down
  accountcode : String := ""
  exten : String := ""
  context : String := ""
  amaFlags : UInt32 := 0
deriving DecidableEq, Inhabited

/-- Outcomes laid down in advance, as if another thread were in the way. -/
structure Contention where
  attempts : List (ChannelId × Bool) := []
  allocations : List (Option HostError) := []
deriving DecidableEq, Inhabited

structure Exchange where
  config : Config := {}
  proxyRegistered : Bool := true
  channels : Table Channel := {}
  pairs : Table Pair := {}
  /-- The channels that have neither been hung up nor released. -/
  listed : List ChannelId := []
  extensions : List (String × String) := []
  /-- How many more channels may be allocated, where there is a limit. -/
  allocationLimit : Option Nat := none
  released : Nat := 0
  dialplanRefused : Bool := false
  registry : Registry := {}
  moduleUse : ModuleUse := {}
  contention : Contention := {}
  lookups : List Lookup := []
  allocations : List Allocation := []
deriving DecidableEq, Inhabited

namespace Exchange

def start (config : Config) : Except Config.Defect Exchange :=
  config.validate.map fun _ => { config }

def channel (e : Exchange) (c : ChannelId) : Channel := e.channels.get c.number

def pair (e : Exchange) (p : PairId) : Pair := e.pairs.get p.number

def modifyChannel (e : Exchange) (c : ChannelId) (f : Channel → Channel) : Exchange :=
  { e with channels := e.channels.modify c.number f }

def modifyPair (e : Exchange) (p : PairId) (f : Pair → Pair) : Exchange :=
  { e with pairs := e.pairs.modify p.number f }

def channelIds (e : Exchange) : List ChannelId := e.channels.numbers.map ChannelId.mk

def pairIds (e : Exchange) : List PairId := e.pairs.numbers.map PairId.mk

def isDriven (e : Exchange) (c : ChannelId) : Bool :=
  (e.channel c).technology = .proxy && e.proxyRegistered

def lock? (e : Exchange) (c : ChannelId) : Option Exchange :=
  ((e.channel c).lock.lock? .main).map fun l => e.modifyChannel c ({ · with lock := l })

def attemptLock (e : Exchange) (c : ChannelId) : Bool × Exchange :=
  match e.lock? c with
  | some e => (true, e)
  | none => (false, e)

/-- The driver's attempt on a lock. A failure laid down for it leaves the lock alone. -/
def tryLock (e : Exchange) (c : ChannelId) : Bool × Exchange :=
  let attempts := e.contention.attempts
  let e := { e with contention := { e.contention with attempts := attempts.eraseP (·.1 = c) } }
  if (attempts.find? (·.1 = c)).any (!·.2) then (false, e) else e.attemptLock c

def unlock (e : Exchange) (c : ChannelId) : Exchange :=
  e.modifyChannel c fun x => { x with lock := x.lock.unlock .main }

/-- Gives the channel's lock up for a moment, if it is held, and takes it back. -/
def avoidDeadlock (e : Exchange) (c : ChannelId) : Exchange :=
  e.modifyChannel c fun x => { x with lock := x.lock.cycle .main }

def addChannel (e : Exchange) (x : Channel) : ChannelId × Exchange :=
  let c : ChannelId := ⟨e.channels.next⟩
  (c, { e with channels := e.channels.push x, listed := e.listed ++ [c] })

def delist (e : Exchange) (c : ChannelId) : Exchange :=
  { e with listed := e.listed.filter (· ≠ c) }

def allocateWithin (e : Exchange) (r : Allocation) : Except HostError ChannelId × Exchange :=
  if e.allocationLimit = some 0 then (.error (.refused "channel limit reached"), e)
  else
    let (c, e) := { e with allocationLimit := e.allocationLimit.map (· - 1) }.addChannel
      { name := r.name, technology := r.technology, state := r.state,
        location := ⟨r.context, r.exten, 0⟩, profile := { accountcode := r.accountcode } }
    (.ok c, { e with allocations := e.allocations ++ [r] })

def allocate (e : Exchange) (r : Allocation) : Except HostError ChannelId × Exchange :=
  match e.contention.allocations with
  | [] => e.allocateWithin r
  | outcome :: rest =>
    let e := { e with contention := { e.contention with allocations := rest } }
    match outcome with
    | some refusal => (.error refusal, e)
    | none => e.allocateWithin r

def release (e : Exchange) (c : ChannelId) : Exchange :=
  let e := (e.delist c).modifyChannel c ({ · with slot := .empty })
  { e with released := e.released + 1 }

def findChannel (e : Exchange) (name : String) : Option ChannelId :=
  e.listed.find? fun c => (e.channel c).name = name

def hasExtension (e : Exchange) (context exten : String) : Bool :=
  e.extensions.contains (context, exten)

def addExtension (e : Exchange) (context exten : String) : Exchange :=
  if e.hasExtension context exten then e
  else { e with extensions := e.extensions ++ [(context, exten)] }

/-- The driver's question whether an extension can be called, which is put on record. -/
def extensionExists (e : Exchange) (context exten : String) (caller : Option String) :
    Bool × Exchange :=
  let found := e.hasExtension context exten
  (found, { e with lookups := e.lookups ++ [⟨context, exten, 1, caller, found⟩] })

def startDialplan (e : Exchange) (c : ChannelId) : Except HostError Unit × Exchange :=
  if e.dialplanRefused then (.error (.other "unable to start PBX"), e)
  else (.ok (), e.modifyChannel c ({ · with dialplanStarted := true }))

def setState (e : Exchange) (c : ChannelId) (s : ChannelState) : Exchange :=
  e.modifyChannel c ({ · with state := s })

def softHangup (e : Exchange) (c : ChannelId) (cause : SoftHangupCause) : Exchange :=
  e.modifyChannel c ({ · with softHangup := some cause })

def setSlot (e : Exchange) (c : ChannelId) (s : Slot) : Exchange :=
  e.modifyChannel c ({ · with slot := s })

def queueFrame (e : Exchange) (c : ChannelId) (f : Frame) : Exchange :=
  e.modifyChannel c fun x => { x with frames := x.frames ++ [f] }

def setVar (e : Exchange) (c : ChannelId) (name value : String) : Exchange :=
  e.modifyChannel c (·.setVar name value)

def setAnsweredElsewhere (e : Exchange) (c : ChannelId) : Exchange :=
  e.modifyChannel c ({ · with answeredElsewhere := true })

def setBridge (e : Exchange) (a b : ChannelId) : Exchange :=
  (e.modifyChannel a ({ · with bridge := some b })).modifyChannel b ({ · with bridge := some a })

def inheritDatastores (e : Exchange) (source target : ChannelId) : Exchange :=
  let stores := (e.channel source).datastores
  e.modifyChannel target fun x => { x with datastores := x.datastores ++ stores }

def moveGroups (e : Exchange) (source target : ChannelId) : Exchange :=
  let groups := (e.channel source).groups
  (e.modifyChannel source ({ · with groups := [] })).modifyChannel target
    fun x => { x with groups := x.groups ++ groups }

def swapMonitors (e : Exchange) (a b : ChannelId) : Exchange :=
  let ofA := (e.channel a).monitor
  let e := e.modifyChannel a ({ · with monitor := none })
  let ofB := (e.channel b).monitor
  (e.modifyChannel b ({ · with monitor := ofA })).modifyChannel a ({ · with monitor := ofB })

def swapAudiohooks (e : Exchange) (a b : ChannelId) : Exchange :=
  let ofA := (e.channel a).audiohooks
  let e := e.modifyChannel a ({ · with audiohooks := [] })
  let ofB := (e.channel b).audiohooks
  (e.modifyChannel b ({ · with audiohooks := ofA })).modifyChannel a ({ · with audiohooks := ofB })

def masquerade (e : Exchange) (survivor clone : ChannelId) : Except HostError Unit × Exchange :=
  if (e.channel survivor).pendingMasquerade.isSome then
    (.error (.masqueradePending (e.channel survivor).name), e)
  else (.ok (), e.modifyChannel survivor ({ · with pendingMasquerade := some clone }))

def recordOf (e : Exchange) (c : ChannelId) : Option PairId :=
  match (e.channel c).slot with
  | .pair p => some p
  | _ => none

def membership (e : Exchange) (c : ChannelId) : Option (PairId × Side) :=
  (e.recordOf c).bind fun p => ((e.pair p).sideOf c).map fun side => (p, side)

def notLocal (e : Exchange) (c : ChannelId) : ChannelError := .notLocal (e.channel c).name

def ownerActive (e : Exchange) (exten context : String) : Bool :=
  e.registry.pairs.any fun p =>
    let record := e.pair p
    record.destination.exten = exten && record.destination.context = context && record.owner.isSome

def clearSide (e : Exchange) (p : PairId) (side : Side) : Exchange :=
  let token := (e.pair p).token side
  { e.modifyPair p (·.clear side) with moduleUse := e.moduleUse.drop token }

/-- The end of a record, which comes once. -/
def destroy (e : Exchange) (p : PairId) : Exchange :=
  let record := e.pair p
  if record.destroyed then e
  else
    let e := e.modifyPair p fun r =>
      { r with owner := none, chan := none, ownerUse := .dropped, chanUse := .dropped, destroyed := true }
    { e with
      moduleUse := (e.moduleUse.drop record.ownerUse).drop record.chanUse
      registry := e.registry.noteDestroyed }

end Exchange
end Switchboard
