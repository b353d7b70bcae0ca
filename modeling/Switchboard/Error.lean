import Switchboard.Channel.State
import Switchboard.Text.Quoted

namespace Switchboard

inductive HostError
  | outOfMemory
  | refused (why : String)
  | masqueradePending (name : String)
  | other (what : String)
deriving DecidableEq, Inhabited

def HostError.message : HostError → String
  | outOfMemory => "out of memory"
  | refused why => "allocation refused: " ++ why
  | masqueradePending name => "masquerade already pending on " ++ name
  | other what => what

inductive ChannelError
  | outOfMemory
  | allocationFailed (what : String)
  | invalidDestination (destination reason : String)
  | stateViolation (name : String) (state : ChannelState)
  | extensionUnreachable (exten context : String)
  | dialplanFailed (name : String)
  | notLocal (name : String)
  | endpointGone (name : String)
  | fixupMismatch (name : String)
  | invalidConfig (what : String)
  | serialization (what : String)
deriving DecidableEq, Inhabited

namespace ChannelError

def message : ChannelError → String
  | outOfMemory => "out of memory"
  | allocationFailed what => "host refused to allocate " ++ what
  | invalidDestination destination reason =>
    "invalid destination " ++ Text.quoted destination ++ ": " ++ reason
  | stateViolation name state =>
    "channel " ++ name ++ " is " ++ state.word ++ ", expected down or reserved"
  | extensionUnreachable exten context => "no such extension/context " ++ exten ++ "@" ++ context
  | dialplanFailed name => "unable to launch dialplan on " ++ name
  | notLocal name => name ++ " is not a local endpoint"
  | endpointGone name => "peer endpoint of " ++ name ++ " is gone"
  | fixupMismatch name => "fixup: " ++ name ++ " is not part of this local pair"
  | invalidConfig what => "invalid configuration: " ++ what
  | serialization what => "serialization failed: " ++ what

def ofHost : HostError → ChannelError
  | .outOfMemory => outOfMemory
  | e => allocationFailed e.message

end ChannelError
end Switchboard
