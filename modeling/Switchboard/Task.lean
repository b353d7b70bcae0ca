import Switchboard.Operation

namespace Switchboard

inductive Purpose
  | relay (frame : Frame) (source : Option ChannelId)
  | dialStatus (leaver : ChannelId) (status : String)
  | ownerLeaving (leaver : ChannelId)
deriving DecidableEq, Inhabited

/-- An endpoint that is being locked while the record is held. When somebody else holds its lock the
record is given up, and with it the lock of `source`, before the next attempt. -/
structure Acquisition where
  pair : PairId
  side : Side
  source : Option ChannelId
  purpose : Purpose
deriving DecidableEq, Inhabited

/-- Where a driver lets others go first. -/
inductive Point
  | backOff
  | resolution
deriving DecidableEq, Inhabited

inductive Task
  | operate (op : Operation)
  | dispatch (c : ChannelId) (s : Signal)
  | hangup (c : ChannelId)
  | delist (c : ChannelId)
  | raise (c : ChannelId)
  | unlock (c : ChannelId)
  | retry (a : Acquisition)
  | write (p : PairId) (c : ChannelId) (frame : Frame) (third : Option ChannelId)
  | complete (survivor : ChannelId)
  | takeOver (survivor clone : ChannelId)
  | pause (point : Point)
  | settle (a : Answer)
  | closeScript
  | report
deriving Inhabited

abbrev Turn := Exchange × List Task

def Exchange.settled (e : Exchange) (a : Answer) : Turn := (e, [.settle a])

def Exchange.refused (e : Exchange) (why : ChannelError) : Turn := (e, [.settle (.failed why)])

/-- What follows an attempt that met a held lock. Only a driver that gives up a lock of its own lets
others run before it tries again. -/
def Acquisition.wait (a : Acquisition) : List Task :=
  if a.source.isSome then [.pause .backOff, .retry a] else [.retry a]

end Switchboard
