import Switchboard.Exchange.Relay

namespace Switchboard.Exchange

/-- The channel that a proxy endpoint stands for when it is somebody's bridge. With the option for
it, this is what its peer is bridged to, or else the peer. -/
def farEnd (e : Exchange) (bridge : ChannelId) : Option ChannelId :=
  (e.recordOf bridge).map fun p =>
    let record := e.pair p
    if record.destination.options.bridgeReport then
      match (record.sideOf bridge).bind fun side => record.endpoint side.peer with
      | some other => (e.channel other).bridge.getD other
      | none => bridge
    else bridge

/-- The channel that somebody is talking to, as the driver of the bridge tells it. -/
def bridgedChannel (e : Exchange) (c : ChannelId) : Option ChannelId :=
  (e.channel c).bridge.bind fun bridge =>
    if e.isDriven bridge then e.farEnd bridge else some bridge

/-- What a masquerade of the owner-side takes along: the monitor, if the third channel has none, and
the hooks and groups of the chan-side. -/
def gatherAttachments (e : Exchange) (owner chan third : ChannelId) : Exchange :=
  let e :=
    if (e.channel owner).monitor.isSome && (e.channel third).monitor.isNone then
      e.swapMonitors owner third
    else e
  let e := if (e.channel chan).audiohooks.isEmpty then e else e.swapAudiohooks chan owner
  e.moveGroups chan owner

/-- The masquerade of the owner-side into the third channel, requested with both locked. The pair is
optimised from then on, whatever the exchange says to the request. -/
def requestMasquerade (e : Exchange) (p : PairId) (owner chan third : ChannelId) :
    Bool × Exchange :=
  match (e.gatherAttachments owner chan third).masquerade owner third with
  | (.ok _, e) => (true, e.modifyPair p ({ · with phase := .optimized }))
  | (.error _, e) => (false, e.modifyPair p ({ · with phase := .optimized }))

def candidates (e : Exchange) (p : PairId) (side : Side) (third : Option ChannelId) :
    Option (ChannelId × ChannelId × ChannelId) :=
  let record := e.pair p
  if side = .owner || record.destination.options.noOptimization || record.phase.isMasqueraded then
    none
  else
    match third, record.owner, record.chan with
    | some third, some owner, some chan =>
      if (e.channel chan).bridge = some third && (e.channel owner).frames.isEmpty then
        some (owner, chan, third)
      else none
    | _, _, _ => none

/-- An attempt to take the pair out of the call. Any held lock and any channel that is hanging up
puts it off. It gives the owner-side where a masquerade is to be completed. -/
def tryOptimize (e : Exchange) (p : PairId) (side : Side) (third : Option ChannelId) :
    Option ChannelId × Exchange :=
  match e.candidates p side third with
  | none => (none, e)
  | some (owner, chan, third) =>
    match e.tryLock third with
    | (false, e) => (none, e)
    | (true, e) =>
      if (e.channel third).hangingUp then (none, e.unlock third)
      else
        match e.tryLock owner with
        | (false, e) => (none, e.unlock third)
        | (true, e) =>
          if (e.channel owner).hangingUp then (none, (e.unlock owner).unlock third)
          else
            let (accepted, e) := e.requestMasquerade p owner chan third
            (if accepted then some owner else none, (e.unlock owner).unlock third)

/-- The old channel's place in its pair goes to the new one, which holds the record already. -/
def fixup (e : Exchange) (old new : ChannelId) : Except ChannelError Unit × Exchange :=
  match e.recordOf new with
  | none => (.error (e.notLocal new), e)
  | some p =>
    if (e.pair p).owner = some old then (.ok (), e.modifyPair p ({ · with owner := some new }))
    else if (e.pair p).chan = some old then (.ok (), e.modifyPair p ({ · with chan := some new }))
    else (.error (.fixupMismatch (e.channel old).name), e)

/-- Name, driver, slot and formats change places, and so do the monitors. The clone is left a zombie
under the name that the survivor had. -/
def swapIdentities (e : Exchange) (survivor clone : ChannelId) : Exchange :=
  let there := e.channel clone
  let e := e.modifyChannel clone ({ · with slot := .empty })
  let here := e.channel survivor
  let e := e.modifyChannel survivor fun x =>
    { x with name := there.name, technology := there.technology, slot := there.slot,
             formats := there.formats }
  (e.swapMonitors survivor clone).modifyChannel clone fun x =>
    { x with name := here.name ++ "<ZOMBIE>", technology := here.technology, slot := here.slot,
             formats := here.formats, zombie := true, bridge := none }

/-- The survivor takes the clone's place, and the clone is hung up. The clone's lock is waited for.
-/
def takeOver (e : Exchange) (survivor clone : ChannelId) : Turn :=
  match e.lock? clone with
  | none => (e, [.takeOver survivor clone])
  | some e =>
    let e := e.swapIdentities survivor clone
    let e := if e.isDriven clone then (e.fixup survivor clone).2 else e
    (e.softHangup clone .device, [.hangup clone, .unlock clone])

def completeMasquerade (e : Exchange) (survivor : ChannelId) : Turn :=
  match (e.channel survivor).pendingMasquerade with
  | none => (e, [])
  | some clone =>
    (e.modifyChannel survivor ({ · with pendingMasquerade := none }), [.takeOver survivor clone])

/-- Completion after a write. A survivor whose lock is held keeps its masquerade for later. -/
def complete (e : Exchange) (survivor : ChannelId) : Turn :=
  match e.tryLock survivor with
  | (false, e) => (e, [])
  | (true, e) =>
    let (e, tasks) := e.completeMasquerade survivor
    (e, tasks ++ [.unlock survivor])

/-- A frame written with its direct bridge known. Media from the chan-side may take the pair out of
the call; the frame itself is relayed like any other. -/
def writeKnowing (e : Exchange) (p : PairId) (c : ChannelId) (frame : Frame)
    (third : Option ChannelId) : Turn :=
  match (e.pair p).sideOf c with
  | none => e.refused (e.notLocal c)
  | some side =>
    let (survivor, e) := if frame.isMedia then e.tryOptimize p side third else (none, e)
    let (e, tasks) := e.relay p side frame (some c) true
    (e, tasks ++ (survivor.map .complete).toList ++ [.settle .done])

/-- A frame written to a pair. For media on a pair that may be optimised the writer's bridge is
resolved first, and counts only if it resolves to itself. -/
def writeFrame (e : Exchange) (c : ChannelId) (frame : Frame) : Turn :=
  match e.recordOf c with
  | none => e.refused (e.notLocal c)
  | some p =>
    if frame.isMedia && !(e.pair p).destination.options.noOptimization then
      match (e.channel c).bridge with
      | some bridge =>
        let third := if e.bridgedChannel c = some bridge then some bridge else none
        (e, [.pause .resolution, .write p c frame third])
      | none => e.writeKnowing p c frame none
    else e.writeKnowing p c frame none

end Switchboard.Exchange
