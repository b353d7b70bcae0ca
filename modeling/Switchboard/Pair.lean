import Switchboard.Config
import Switchboard.Destination
import Switchboard.Format
import Switchboard.Id
import Switchboard.ModuleUse
import Switchboard.Pair.Glare

namespace Switchboard

inductive Side
  /-- Given to the requester; it faces the outer call. -/
  | owner
  /-- Runs the dialplan. -/
  | chan
deriving DecidableEq, Inhabited

def Side.peer : Side → Side
  | owner => chan
  | chan => owner

/-- What has become of a pair. An optimised pair stays one. -/
inductive Phase
  | fresh
  | dialplanLaunched
  | optimized
  | torn
deriving DecidableEq, Inhabited

namespace Phase

def dialplanStarted : Phase → Bool
  | dialplanLaunched | optimized => true
  | _ => false

def isMasqueraded : Phase → Bool
  | optimized => true
  | _ => false

def chanDeparted : Phase → Phase
  | optimized => optimized
  | _ => torn

end Phase

structure Pair where
  destination : Destination
  requested : FormatMask
  jitterbuffer : Jitterbuffer
  owner : Option ChannelId := none
  chan : Option ChannelId := none
  ownerUse : ModuleUse.Token := .dropped
  chanUse : ModuleUse.Token := .dropped
  phase : Phase := .fresh
  glare : Glare := .idle
  destroyed : Bool := false
deriving DecidableEq, Inhabited

namespace Pair

def endpoint (p : Pair) : Side → Option ChannelId
  | .owner => p.owner
  | .chan => p.chan

def token (p : Pair) : Side → ModuleUse.Token
  | .owner => p.ownerUse
  | .chan => p.chanUse

def sideOf (p : Pair) (c : ChannelId) : Option Side :=
  if p.chan = some c then some .chan
  else if p.owner = some c then some .owner
  else none

def isVacant (p : Pair) : Bool := p.owner.isNone && p.chan.isNone

def clear (p : Pair) : Side → Pair
  | .owner => { p with owner := none, ownerUse := .dropped }
  | .chan => { p with chan := none, chanUse := .dropped, phase := p.phase.chanDeparted }

end Pair
end Switchboard
