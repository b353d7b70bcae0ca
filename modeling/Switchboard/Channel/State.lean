namespace Switchboard

inductive ChannelState
  | down
  | reserved
  | offHook
  | dialing
  | ring
  | ringing
  | up
  | busy
deriving DecidableEq, Inhabited

namespace ChannelState

def canPlaceCall : ChannelState → Bool
  | down | reserved => true
  | _ => false

def word : ChannelState → String
  | down => "Down"
  | reserved => "Reserved"
  | offHook => "OffHook"
  | dialing => "Dialing"
  | ring => "Ring"
  | ringing => "Ringing"
  | up => "Up"
  | busy => "Busy"

end ChannelState

inductive DeviceState
  | unknown
  | notInUse
  | inUse
  | invalid
deriving DecidableEq, Inhabited

inductive SoftHangupCause
  | device
  | appUnload
  | explicit
deriving DecidableEq, Inhabited

end Switchboard
