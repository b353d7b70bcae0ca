import Switchboard.Exchange.Relay

namespace Switchboard.Exchange

def dialStatus : String := "DIALSTATUS"

def channelStatus : String := "CHANLOCALSTATUS"

/-- The end of a record that both endpoints have left, unless relays in flight are to end it. -/
def retire (e : Exchange) (p : PairId) : Exchange :=
  let e := { e with registry := e.registry.unlink p }
  let (deferred, glare) := (e.pair p).glare.cancel
  let e := e.modifyPair p ({ · with glare := glare })
  if deferred then e else e.destroy p

/-- The chan-side that nothing will ever serve, since no dialplan was started on it. -/
def unserved (record : Pair) : Option ChannelId :=
  if record.phase.dialplanStarted then none else record.chan

/-- What follows when a channel has left its side: the record ends if nobody is left, a chan-side
that nothing serves is hung up, and any other endpoint is sent the cause. -/
def depart (e : Exchange) (p : PairId) (side : Side) (leaver : ChannelId) : Turn :=
  let e := e.setSlot leaver .empty
  if (e.pair p).isVacant then (e.retire p, [])
  else
    match unserved (e.pair p) with
    | some chan => (e, [.hangup chan])
    | none => e.relay p side (.hangup (e.channel leaver).hangupCause) none false

def chanLeaves (e : Exchange) (p : PairId) (leaver : ChannelId) (status : String) :
    Option ChannelId → Turn
  | some owner =>
    (((e.setVar owner channelStatus status).unlock owner).clearSide p .chan).depart p .chan leaver
  | none => (e.clearSide p .chan).depart p .chan leaver

def ownerLeaves (e : Exchange) (p : PairId) (leaver : ChannelId) : Option ChannelId → Turn
  | some chan =>
    (((e.clearSide p .owner).queueFrame chan (.bare .hangup)).unlock chan).depart p .owner leaver
  | none => (e.clearSide p .owner).depart p .owner leaver

def proceed (e : Exchange) (a : Acquisition) (peer : Option ChannelId) : Turn :=
  match a.purpose with
  | .relay frame source => e.deliver a.pair frame source peer
  | .dialStatus leaver status => e.chanLeaves a.pair leaver status peer
  | .ownerLeaving leaver => e.ownerLeaves a.pair leaver peer

def acquire (e : Exchange) (a : Acquisition) : Turn :=
  match e.seek a.pair a.side with
  | (.taken peer, e) => e.proceed a (some peer)
  | (.gone, e) => e.proceed a none
  | (.busy, e) => (e, a.wait)

def retry (e : Exchange) (a : Acquisition) : Turn :=
  match a.source with
  | some source => (e.avoidDeadlock source).acquire a
  | none => e.acquire a

def passAnsweredElsewhere (e : Exchange) (p : PairId) (leaver : ChannelId) : Exchange :=
  if (e.channel leaver).answeredElsewhere then
    match (e.pair p).chan with
    | some chan => e.setAnsweredElsewhere chan
    | none => e
  else e

def teardown (e : Exchange) (leaver : ChannelId) : Turn :=
  match e.membership leaver with
  | none => e.refused (e.notLocal leaver)
  | some (p, .chan) =>
    let (e, tasks) := match (e.channel leaver).getVar dialStatus with
      | some status => e.acquire ⟨p, .owner, some leaver, .dialStatus leaver status⟩
      | none => (e.clearSide p .chan).depart p .chan leaver
    (e, tasks ++ [.settle .done])
  | some (p, .owner) =>
    let (e, tasks) :=
      (e.passAnsweredElsewhere p leaver).acquire ⟨p, .chan, some leaver, .ownerLeaving leaver⟩
    (e, tasks ++ [.settle .done])

end Switchboard.Exchange
