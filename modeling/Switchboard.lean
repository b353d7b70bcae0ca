import Switchboard.Config.Reader
import Switchboard.Proofs.Accounting
import Switchboard.Proofs.AcquisitionProgress
import Switchboard.Proofs.Addressing
import Switchboard.Proofs.Admission
import Switchboard.Proofs.Agreement
import Switchboard.Proofs.Calling
import Switchboard.Proofs.ChanService
import Switchboard.Proofs.Destruction
import Switchboard.Proofs.Detachment
import Switchboard.Proofs.DeviceState
import Switchboard.Proofs.DialStatus
import Switchboard.Proofs.Dialling
import Switchboard.Proofs.Exclusion
import Switchboard.Proofs.Export
import Switchboard.Proofs.Handover
import Switchboard.Proofs.Hangup
import Switchboard.Proofs.HangupAll
import Switchboard.Proofs.HangupNews
import Switchboard.Proofs.Independence
import Switchboard.Proofs.ListedChannels
import Switchboard.Proofs.Listing
import Switchboard.Proofs.LockRestoration
import Switchboard.Proofs.Optimization
import Switchboard.Proofs.OptimizeCondition
import Switchboard.Proofs.Optimized
import Switchboard.Proofs.Order
import Switchboard.Proofs.Overtaking
import Switchboard.Proofs.PeerTold
import Switchboard.Proofs.Preference
import Switchboard.Proofs.RelayDelivery
import Switchboard.Proofs.Settings
import Switchboard.Proofs.Strangers
import Switchboard.Session
