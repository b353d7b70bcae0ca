import Switchboard.Task

namespace Switchboard.Exchange

def busyPeer : String := "Busy-Peer"

/-- What became of an attempt on the endpoint of one side. -/
inductive Sought
  | gone
  | taken (peer : ChannelId)
  | busy
deriving DecidableEq, Inhabited

def seek (e : Exchange) (p : PairId) (side : Side) : Sought × Exchange :=
  match (e.pair p).endpoint side with
  | none => (.gone, e)
  | some peer =>
    match e.tryLock peer with
    | (true, e) => (.taken peer, e)
    | (false, e) => (.busy, e)

def releasePeer (e : Exchange) : Option ChannelId → Exchange
  | some peer => e.unlock peer
  | none => e

/-- The relay leaves the glare cell and does what the cell tells it. -/
def leaveGlare (e : Exchange) (p : PairId) : Exchange :=
  let (exit, glare) := (e.pair p).glare.leave
  let e := e.modifyPair p ({ · with glare := glare })
  if exit = .destroy then e.destroy p else e

def place (e : Exchange) (frame : Frame) (source : Option ChannelId) (peer : ChannelId) :
    Exchange :=
  let e := match source.bind fun s => (e.channel s).getVar busyPeer with
    | some busy => e.setVar peer busyPeer busy
    | none => e
  let e := if frame.isControl .ringing then e.setState peer .ringing else e
  e.queueFrame peer frame

/-- The end of a relay, with the peer locked if it is still there. A cell that was cancelled
meanwhile takes the record away. -/
def deliver (e : Exchange) (p : PairId) (frame : Frame) (source peer : Option ChannelId) : Turn :=
  if (e.pair p).glare.isCancelled then
    ((e.leaveGlare p).releasePeer peer).settled .recordDestroyed
  else
    let e := match peer with
      | some c => if (e.pair p).phase.isMasqueraded then e else e.place frame source c
      | none => e
    ((e.releasePeer peer).modifyPair p
    fun r => { r with glare := r.glare.leave.2 }).settled .relayed

def feedsBoth (e : Exchange) (source : Option ChannelId) (other : ChannelId) : Bool :=
  source.any fun s => (e.channel s).generator && (e.channel other).generator

/-- A frame sent from one side to the other. It is dropped where the peer is gone, the pair has been
masqueraded, or generators feed both endpoints. -/
def relay (e : Exchange) (p : PairId) (side : Side) (frame : Frame) (source : Option ChannelId)
    (sourceLocked : Bool) : Turn :=
  match (e.pair p).endpoint side.peer with
  | none => e.settled .relayed
  | some other =>
    if (e.pair p).phase.isMasqueraded || e.feedsBoth source other then e.settled .relayed
    else
      let e := e.modifyPair p fun r => { r with glare := r.glare.enter }
      match e.seek p side.peer with
      | (.taken peer, e) => e.deliver p frame source (some peer)
      | (.gone, e) => e.deliver p frame source none
      | (.busy, e) =>
        (e, Acquisition.wait
          ⟨p, side.peer, if sourceLocked then source else none, .relay frame source⟩)

end Switchboard.Exchange
