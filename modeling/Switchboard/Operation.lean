import Switchboard.Diagnostics

namespace Switchboard

inductive Signal
  /-- The destination was fixed by the request: what is dialled now, and for how long, is not used.
  -/
  | call (dialled : String) (milliseconds : Option Nat)
  | hangup
  | answer
  | write (frame : Frame)
  | indicate (kind : ControlKind) (data : Bytes)
  | beginDigit (digit : Char)
  | endDigit (digit : Char) (milliseconds : UInt32)
  | sendText (text : String)
  | sendHtml (subclass : Int32) (data : Bytes)
deriving DecidableEq, Inhabited

/-- How a driver is reached: by the exchange, with the channel locked, or at once. -/
inductive Route
  | dispatched
  | direct
deriving DecidableEq, Inhabited

inductive Edit
  | state (s : ChannelState)
  | formats (m : FormatMask)
  | location (l : Location)
  | caller (c : CallerId)
  | profile (p : CallProfile)
  | answeredElsewhere
  | setVar (name value : String)
  | pushVar (name value : String)
  | datastore (store : String)
  | group (group : String)
  | audiohook (hook : String)
  | monitor (monitor : String)
  | generator (active : Bool)
  | hangupCause (cause : UInt32)
  | softHangup (cause : SoftHangupCause)
  | queue (frame : Frame)
  | startMusic (musicclass : Option String)
  | stopMusic
  | slot (s : Slot)
deriving DecidableEq, Inhabited

inductive Transfer
  | bridge
  | datastores
  | groups
  | monitors
  | audiohooks
deriving DecidableEq, Inhabited

/-- What is done to a channel's lock. Others may try it, and one of them may keep it. -/
inductive Locking
  | lock
  | tryLock
  | unlock
  | avoidDeadlock
  | otherTryLock
  | otherUnlock
  | hold
  | releaseHold
deriving DecidableEq, Inhabited

inductive Reference
  | channel (c : ChannelId)
  | pair (p : PairId)
deriving DecidableEq, Inhabited

inductive Operation
  | request (route : Route) (technology destination : String) (format : FormatMask)
  | deviceState (route : Route) (technology device : String)
  | signal (route : Route) (c : ChannelId) (s : Signal)
  /-- A hangup that does not say what came of it. -/
  | hangupQuietly (c : ChannelId)
  | read (c : ChannelId)
  | fixup (old new : ChannelId)
  | bridgedChannel (c : ChannelId)
  | bridgedThrough (c bridge : ChannelId)
  | relay (p : PairId) (side : Side) (frame : Frame) (source : Option ChannelId)
      (sourceLocked : Bool)
  | sideOf (p : PairId) (c : ChannelId)
  | unload
  | showChannels
  | stats
  | registered (p : PairId)
  | snapshots
  | snapshotsText
  | ownerActive (exten context : String)
  | unregister (technology : String)
  | register
  | addExtension (context exten : String)
  | newChannel (name : String)
  | allocate (request : Allocation)
  | release (c : ChannelId)
  | limitAllocations (n : Nat)
  | refuseDialplan (refused : Bool)
  | edit (c : ChannelId) (change : Edit)
  | transfer (what : Transfer) (a b : ChannelId)
  | getVar (c : ChannelId) (name : String)
  | masquerade (survivor clone : ChannelId)
  | completeMasquerade (c : ChannelId)
  | drain (c : ChannelId)
  | startDialplan (c : ChannelId)
  | find (name : String)
  | describe (c : ChannelId)
  | dump (c : ChannelId)
  | locking (c : ChannelId) (what : Locking)
  /-- Lays down how the driver's next attempts on the channel's lock turn out. -/
  | scriptLocks (c : ChannelId) (outcomes : List Bool)
  | scriptAllocations (outcomes : List (Option HostError))
  /-- Lays down what runs while the driver backs off. -/
  | onBackOff (script : List Operation)
  | onResolution (script : List Operation)
  | takeLookups
  | takeAllocations
  | malformed (references : List Reference) (what : String)
deriving Inhabited

def Operation.references : Operation → List Reference
  | edit c (.slot (.pair p)) => [.pair p, .channel c]
  | signal _ c _ | hangupQuietly c | read c | bridgedChannel c | release c | edit c _ | getVar c _
  | completeMasquerade c | drain c | startDialplan c | describe c | dump c | locking c _
  | scriptLocks c _ => [.channel c]
  | fixup a b | bridgedThrough a b | transfer _ a b | masquerade a b => [.channel a, .channel b]
  | relay p _ _ source _ => .pair p :: source.toList.map .channel
  | sideOf p c => [.pair p, .channel c]
  | registered p => [.pair p]
  | malformed references _ => references
  | _ => []

inductive Answer
  | done
  | wouldBlock
  | relayed
  | recordDestroyed
  | flag (b : Bool)
  | number (n : Nat)
  | text (s : String)
  | value (s : Option String)
  | made (c : ChannelId)
  | channel (c : Option ChannelId)
  | device (s : Option DeviceState)
  | frame (f : Frame)
  | frames (fs : List Frame)
  | requested (p : PairId) (record : Pair) (occurrences : Nat) (name : String)
  | side (side : Option Side) (peer : Option ChannelId) (record : Pair)
  | listing (contained : Bool) (occurrences : Nat) (empty : Bool)
  | stats (s : RegistryStats)
  | snapshots (all : List Snapshot)
  | lookups (all : List Lookup)
  | allocations (all : List Allocation)
  | dump (c : ChannelId) (x : Channel)
  | failed (why : ChannelError)
  | refused (why : HostError)
  | noChannel
  | noPair
  | malformed (what : String)
deriving DecidableEq, Inhabited

end Switchboard
