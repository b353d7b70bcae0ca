import Switchboard.Exchange.Dispatch

namespace Switchboard

def Edit.apply : Edit → Channel → Channel
  | state s, x => { x with state := s }
  | formats m, x => { x with formats := .uniform m }
  | location l, x => { x with location := l }
  | caller c, x => { x with caller := c }
  | profile p, x => { x with profile := p }
  | answeredElsewhere, x => { x with answeredElsewhere := true }
  | setVar name value, x => x.setVar name value
  | pushVar name value, x => x.pushVar name value
  | datastore d, x => { x with datastores := x.datastores ++ [d] }
  | group g, x => { x with groups := x.groups ++ [g] }
  | audiohook h, x => { x with audiohooks := x.audiohooks ++ [h] }
  | monitor m, x => { x with monitor := some m }
  | generator active, x => { x with generator := active }
  | hangupCause cause, x => { x with hangupCause := cause }
  | softHangup cause, x => { x with softHangup := some cause }
  | queue frame, x => { x with frames := x.frames ++ [frame] }
  | startMusic musicclass, x => { x with music := .playing musicclass }
  | stopMusic, x => { x with music := .silent }
  | slot s, x => { x with slot := s }

namespace Exchange

def transfer (e : Exchange) (a b : ChannelId) : Transfer → Exchange
  | .bridge => e.setBridge a b
  | .datastores => e.inheritDatastores a b
  | .groups => e.moveGroups a b
  | .monitors => e.swapMonitors a b
  | .audiohooks => e.swapAudiohooks a b

def applyLocking (e : Exchange) (c : ChannelId) (what : Locking) : Exchange × Answer :=
  let lock := (e.channel c).lock
  match what with
  | .lock =>
    match e.lock? c with
    | some e => (e, .done)
    | none => (e, .wouldBlock)
  | .tryLock => let (got, e) := e.attemptLock c; (e, .flag got)
  | .unlock => (e.unlock c, .done)
  | .avoidDeadlock => if lock.openTo .main then (e.avoidDeadlock c, .done) else (e, .wouldBlock)
  | .otherTryLock => (e, .flag lock.holder.isNone)
  | .otherUnlock => (e, .done)
  | .hold =>
    if lock.holder.isNone then
        (e.modifyChannel c ({ · with lock := lock.take .helper }), .flag true)
    else (e, .flag false)
  | .releaseHold =>
    (e.modifyChannel c ({ · with lock := lock.unlock .helper }), .flag (lock.heldBy .helper))

def request (e : Exchange) (route : Route) (technology text : String) (format : FormatMask) :
    Except ChannelError PairId × Exchange :=
  if route = .direct || (technology = Technology.proxy.name && e.proxyRegistered) then
    e.createPair text format
  else (.error (.ofHost (.other ("no technology " ++ technology))), e)

def requested (e : Exchange) (p : PairId) : Answer :=
  let record := e.pair p
  .requested p record (e.registry.occurrences p)
    (((record.owner.map e.channel).map Channel.name).getD "")

def unload (e : Exchange) : Nat × Exchange :=
  let owners := e.registry.pairs.filterMap fun p => (e.pair p).owner
  (owners.length, owners.foldl (fun e c => e.softHangup c .appUnload) e)

def describe (e : Exchange) (c : ChannelId) : String :=
  "ChannelRef(" ++ toString c.number ++ ", " ++ (e.channel c).name ++ ")"

def perform (e : Exchange) : Operation → Turn
  | .request route technology text format =>
    match e.request route technology text format with
    | (.ok p, e) => e.settled (e.requested p)
    | (.error why, e) => e.refused why
  | .deviceState route technology device =>
    if route = .direct || (technology = Technology.proxy.name && e.proxyRegistered) then
      let (state, e) := e.deviceState device
      e.settled (.device (some state))
    else e.settled (.device none)
  | .signal .dispatched c s => e.send c s
  | .signal .direct c s => e.signal c s
  | .hangupQuietly c => (e, [.hangup c, .settle .done])
  | .read _ => e.settled (.frame .null)
  | .fixup old new =>
    match e.fixup old new with
    | (.ok _, e) => e.settled .done
    | (.error why, e) => e.refused why
  | .bridgedChannel c => e.settled (.channel (e.bridgedChannel c))
  | .bridgedThrough _ bridge => e.settled (.channel (e.farEnd bridge))
  | .relay p side frame source sourceLocked => e.relay p side frame source sourceLocked
  | .sideOf p c =>
    let record := e.pair p
    let side := record.sideOf c
    e.settled (.side side (side.bind fun s => record.endpoint s.peer) record)
  | .unload => let (n, e) := e.unload; e.settled (.number n)
  | .showChannels => e.settled (.text e.showChannels)
  | .stats => e.settled (.stats e.registry.stats)
  | .registered p =>
    e.settled (.listing (e.registry.contains p) (e.registry.occurrences p) e.registry.pairs.isEmpty)
  | .snapshots => e.settled (.snapshots e.snapshots)
  | .snapshotsText => e.settled (.text (Snapshot.writeAll e.snapshots))
  | .ownerActive exten context => e.settled (.flag (e.ownerActive exten context))
  | .unregister technology =>
    if technology = Technology.proxy.name then
      ({ e with proxyRegistered := false }).settled (.flag e.proxyRegistered)
    else e.settled (.flag false)
  | .register => ({ e with proxyRegistered := true }).settled .done
  | .addExtension context exten => (e.addExtension context exten).settled .done
  | .newChannel name =>
    let (c, e) := e.addChannel { name, technology := .test }
    e.settled (.made c)
  | .allocate r =>
    match e.allocate r with
    | (.ok c, e) => e.settled (.made c)
    | (.error why, e) => e.settled (.refused why)
  | .release c => (e.release c).settled .done
  | .limitAllocations n => ({ e with allocationLimit := some n }).settled .done
  | .refuseDialplan refused => ({ e with dialplanRefused := refused }).settled .done
  | .edit c change => (e.modifyChannel c change.apply).settled .done
  | .transfer what a b => (e.transfer a b what).settled .done
  | .getVar c name => e.settled (.value ((e.channel c).getVar name))
  | .masquerade survivor clone =>
    match e.masquerade survivor clone with
    | (.ok _, e) => e.settled .done
    | (.error why, e) => e.settled (.refused why)
  | .completeMasquerade c =>
    match e.lock? c with
    | none => (e, [.operate (.completeMasquerade c)])
    | some e =>
      let (e, tasks) := e.completeMasquerade c
      (e, tasks ++ [.unlock c, .settle .done])
  | .drain c =>
    (e.modifyChannel c ({ · with frames := [] })).settled (.frames (e.channel c).frames)
  | .startDialplan c =>
    match e.startDialplan c with
    | (.ok _, e) => e.settled .done
    | (.error why, e) => e.settled (.refused why)
  | .find name => e.settled (.channel (e.findChannel name))
  | .describe c => e.settled (.text (e.describe c))
  | .dump c => e.settled (.dump c (e.channel c))
  | .locking c what => let (e, a) := e.applyLocking c what; e.settled a
  | .scriptLocks c outcomes =>
    let attempts := e.contention.attempts ++ outcomes.map fun outcome => (c, outcome)
    ({ e with contention := { e.contention with attempts := attempts } }).settled .done
  | .scriptAllocations outcomes =>
    let allocations := e.contention.allocations ++ outcomes
    ({ e with contention := { e.contention with allocations := allocations } }).settled .done
  | .onBackOff _ | .onResolution _ => e.settled .done
  | .takeLookups => ({ e with lookups := [] }).settled (.lookups e.lookups)
  | .takeAllocations => ({ e with allocations := [] }).settled (.allocations e.allocations)
  | .malformed _ what => e.settled (.malformed what)

def knows (e : Exchange) : Reference → Bool
  | .channel c => (e.channels.get? c.number).isSome
  | .pair p => (e.pairs.get? p.number).isSome

def missing (e : Exchange) (op : Operation) : Option Answer :=
  (op.references.find? (!e.knows ·)).map fun
    | .channel _ => .noChannel
    | .pair _ => .noPair

end Exchange
end Switchboard
