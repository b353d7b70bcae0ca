import Switchboard.Proofs.Parties
import Switchboard.Proofs.RelayDelivery

namespace Switchboard

namespace Channel

def takingPlaceOf (x chan third : Channel) : Channel :=
  { x with
    name := third.name
    technology := third.technology
    formats := third.formats
    slot := .empty
    monitor := third.monitor.or x.monitor
    audiohooks := if chan.audiohooks = [] then x.audiohooks else chan.audiohooks
    groups := x.groups ++ chan.groups }

def withoutAttachments (x owner : Channel) : Channel :=
  { x with audiohooks := if x.audiohooks = [] then [] else owner.audiohooks, groups := [] }

def toldThirdLeft (x owner third : Channel) : Channel :=
  { x.withoutAttachments owner with
    frames := x.frames ++ [.bare .hangup]
    answeredElsewhere := x.answeredElsewhere || third.answeredElsewhere }

def displacedBy (x owner : Channel) : Channel :=
  { x with
    name := owner.name ++ "<ZOMBIE>"
    technology := owner.technology
    formats := owner.formats
    monitor := if x.monitor.isSome then owner.monitor else none
    bridge := none
    softHangup := some .device
    hungup := true
    zombie := true }

end Channel

namespace Exchange

/-- Nothing stands in the way of an optimisation when the chan-side writes media: both endpoints are
in their pair and behind the driver, the chan-side is bridged to a channel that is not and that
keeps nothing in its slot, and every lock is to be had. -/
structure Optimizable (e : Exchange) (p : PairId) (owner chan third : ChannelId) : Prop where
  ownerSide : (e.pair p).owner = some owner
  chanSide : (e.pair p).chan = some chan
  apart : owner ≠ chan
  ownerSlot : (e.channel owner).slot = .pair p
  chanSlot : (e.channel chan).slot = .pair p
  ownerDriven : e.isDriven owner = true
  chanDriven : e.isDriven chan = true
  bridge : (e.channel chan).bridge = some third
  thirdPlain : e.isDriven third = false
  thirdSlot : (e.channel third).slot = .empty
  permitted : (e.pair p).destination.options.noOptimization = false
  inCall : (e.pair p).phase.isMasqueraded = false
  read : (e.channel owner).frames = []
  ownerStays : (e.channel owner).hangingUp = false
  thirdStays : (e.channel third).hangingUp = false
  unclaimed : (e.channel owner).pendingMasquerade = none
  thirdFree : e.refuses third = false
  ownerFree : e.refuses owner = false
  /-- The owner-side's lock is taken twice. -/
  ownerFreeAgain : (e.spent owner).refuses owner = false
  /-- The writer's own lock is free, or it is the writer that holds it. -/
  chanOpen : (e.channel chan).lock.openTo .main = true

end Exchange

namespace Parties

open Exchange

variable {e : Exchange} (k : Parties e) (v : PartiesState)

abbrev owner : ChannelId := k.member .owner
abbrev chan : ChannelId := k.member .chan
abbrev third : ChannelId := k.member .third

def requestedState : PartiesState where
  __ := v
  channel
    | .owner =>
        { v.withMonitorsSwapped.withAudiohooksSwapped.withGroupsMoved.channel .owner with
        pendingMasquerade := some k.third }
    | r => v.withMonitorsSwapped.withAudiohooksSwapped.withGroupsMoved.channel r
  record := { v.record with phase := .optimized }

variable {k v} {frame : Frame}

theorem requestMasquerade_put (h : (v.channel .owner).pendingMasquerade = none) :
    (k.put v).requestMasquerade k.pair k.owner k.chan k.third =
      (true, k.put (k.requestedState v)) := by
  have hfree :
    (v.withMonitorsSwapped.withAudiohooksSwapped.withGroupsMoved.channel .owner).pendingMasquerade =
    none := h
  rw [requestMasquerade]
  rw [gatherAttachments_put, masquerade, channel_put, hfree, Option.isSome_none,
    if_neg Bool.false_ne_true]
  simp only [modifyChannel_put, modifyPair_put]
  refine congrArg (fun w => (true, k.put w)) (PartiesState.eq_of_channel (fun t => ?_) rfl)
  cases t <;> rfl

theorem candidates_eq (h : e.Optimizable k.pair k.owner k.chan k.third) :
    e.candidates k.pair .chan (some k.third) = some (k.owner, k.chan, k.third) := by
  simp [candidates, h.permitted, h.inCall, h.ownerSide, h.chanSide, h.bridge, h.read]

/-- The parties once `tryOptimize` has taken and given back both locks. -/
def attemptedState (k : Parties e) : PartiesState :=
  k.requestedState (k.spend (k.spend k.current .third) .owner)

theorem tryOptimize_eq (h : e.Optimizable k.pair k.owner k.chan k.third) (hsound : e.locks.Sound) :
    e.tryOptimize k.pair .chan (some k.third) = (some k.owner, k.put k.attemptedState) := by
  have hthird : e.tryLock k.third = (true, k.put ((k.spend k.current .third).locked .third)) := by
    have hfree : (k.put k.current).refuses k.third = false := by
      rw [put_current]
      exact h.thirdFree
    have htaken := k.tryLock_put k.current hfree
    rwa [put_current] at htaken
  have howner : (k.put ((k.spend k.current .third).locked .third)).refuses k.owner = false := by
    have hsame := k.refuses_put_of_ne k.current (r := .owner) (s := .third) (by decide)
      (w := (k.spend k.current .third).locked .third) rfl rfl
    rw [hsame, put_current]
    exact h.ownerFree
  have hthirdStays : (((k.spend k.current .third).locked .third).channel .third).hangingUp =
    false := h.thirdStays
  have hownerStays :
      (((k.spend ((k.spend k.current .third).locked .third) .owner).locked .owner).channel
        .owner).hangingUp = false :=
    h.ownerStays
  rw [tryOptimize]
  rw [candidates_eq h]
  dsimp only
  rw [hthird]
  dsimp only
  rw [channel_put, hthirdStays, if_neg Bool.false_ne_true, tryLock_put _ _ howner]
  dsimp only
  rw [channel_put, hownerStays, if_neg Bool.false_ne_true, requestMasquerade_put h.unclaimed]
  dsimp only
  rw [if_pos rfl, unlock_put, unlock_put]
  have howner := (hsound k.owner).unlock_take (openTo_of_noScriptedFailure e h.ownerFree)
  have hthird := (hsound k.third).unlock_take (openTo_of_noScriptedFailure e h.thirdFree)
  refine congrArg (fun w => (some k.owner, k.put w)) (PartiesState.eq_of_channel (fun t => ?_) rfl)
  cases t <;> simp [attemptedState, requestedState, PartiesState.unlocked, PartiesState.locked,
    PartiesState.alter, Function.update, spend,
    PartiesState.withMonitorsSwapped, PartiesState.withAudiohooksSwapped,
    PartiesState.withGroupsMoved, current]
  · exact howner
  · exact hthird

theorem lock_attemptedState (r : Role) :
    (k.attemptedState.channel r).lock = (e.channel (k.member r)).lock := by
  cases r <;> simp only [attemptedState, requestedState, PartiesState.withGroupsMoved,
    PartiesState.withAudiohooksSwapped, PartiesState.withMonitorsSwapped, spend, current]

theorem refuses_owner_attemptedState (h : e.Optimizable k.pair k.owner k.chan k.third) :
    (k.put k.attemptedState).refuses k.owner = false := by
  have hattempts : k.attemptedState.attempts =
    (k.spend (k.spend k.current .owner) .third).attempts := by
    apply List.eraseP_comm
    intro attempt _
    by_cases howner : attempt.1 = k.owner
    · exact .inl (by simpa [howner] using k.member_ne (r := .owner) (s := .third) (by decide))
    · exact .inr (by simpa using howner)
  have hspent : k.put (k.spend k.current .owner) = e.spent k.owner := by
    rw [← spent_put, put_current]
  rw [k.refuses_put_of_ne (k.spend k.current .owner) (by decide) hattempts
    (lock_attemptedState .owner), hspent]
  exact h.ownerFreeAgain

theorem writeKnowing_eq (h : e.Optimizable k.pair k.owner k.chan k.third) (hsound : e.locks.Sound)
    (hmedia : frame.isMedia = true) :
    e.writeKnowing k.pair k.chan frame (some k.third) =
      (k.put k.attemptedState, [.settle .relayed, .complete k.owner, .settle .done]) := by
  have hside : (e.pair k.pair).sideOf k.chan = some .chan := by rw [Pair.sideOf, if_pos h.chanSide]
  have hbarred : (k.put k.attemptedState).Barred k.pair .chan (some k.chan) := by
    refine .inr (.inl ?_)
    rw [pair_put]
    rfl
  simp only [writeKnowing, hside, hmedia, if_true, tryOptimize_eq h hsound, relay_barred hbarred]
  rfl

def begunState (k : Parties e) (v : PartiesState) : PartiesState where
  __ := k.spend v .owner
  channel
    | .owner => { v.channel .owner with lock := (v.channel .owner).lock.take .main, pendingMasquerade := none }
    | r => v.channel r

theorem complete_put (hfree : (k.put v).refuses k.owner = false)
    (hpending : (v.channel .owner).pendingMasquerade = some k.third) :
    (k.put v).complete k.owner =
      (k.put (k.begunState v), [.takeOver k.owner k.third, .unlock k.owner]) := by
  have hstill : (((k.spend v .owner).locked .owner).channel .owner).pendingMasquerade = some k.third := hpending
  rw [complete]
  rw [tryLock_put _ _ hfree]
  dsimp only
  rw [completeMasquerade, channel_put, hstill]
  dsimp only
  rw [modifyChannel_put]
  refine congrArg (fun w => (k.put w, _)) (PartiesState.eq_of_channel (fun t => ?_) rfl)
  cases t <;> rfl

/-- Nobody has moved by then. -/
theorem begunState_keeps (r : Role) :
    ((k.begunState k.attemptedState).channel r).slot = (e.channel (k.member r)).slot ∧
      ((k.begunState k.attemptedState).channel r).technology = (e.channel (k.member r)).technology ∧
      ((k.begunState k.attemptedState).channel r).hungup = (e.channel (k.member r)).hungup ∧
      (r = .third → ((k.begunState k.attemptedState).channel r).lock = (e.channel (k.member r)).lock) := by
  cases r <;> simp [begunState, attemptedState, requestedState, PartiesState.withGroupsMoved,
    PartiesState.withAudiohooksSwapped, PartiesState.withMonitorsSwapped, spend, current]

/-- The owner-side has taken the third channel's place, and the third channel is on the owner's side
of the pair instead. -/
def takenOverState (k : Parties e) (v : PartiesState) : PartiesState where
  __ := v
  channel
    | .owner => { v.channel .owner with
        name := (v.channel .third).name
        technology := (v.channel .third).technology
        slot := (v.channel .third).slot
        formats := (v.channel .third).formats
        monitor := (v.channel .third).monitor }
    | .chan => v.channel .chan
    | .third => { v.channel .third with
        name := (v.channel .owner).name ++ "<ZOMBIE>"
        technology := (v.channel .owner).technology
        slot := (v.channel .owner).slot
        formats := (v.channel .owner).formats
        monitor := (v.channel .owner).monitor
        bridge := none
        zombie := true
        softHangup := some .device
        lock := (v.channel .third).lock.take .main }
  record := { v.record with owner := some k.third }

theorem takeOver_put (hopen : (v.channel .third).lock.openTo .main = true)
    (hslot : (v.channel .owner).slot = .pair k.pair)
    (hproxy : (v.channel .owner).technology = .proxy)
    (hregistered : e.proxyRegistered = true) (hseat : v.record.owner = some k.owner) :
    (k.put v).takeOver k.owner k.third =
      (k.put (k.takenOverState v), [.hangup k.third, .unlock k.third]) := by
  have hdriven : (k.put ((v.locked .third).withIdentitiesSwapped .owner .third)).isDriven k.third =
    true := by
    rw [isDriven_put, hregistered, Bool.and_true, decide_eq_true_eq]
    exact hproxy
  have hrecord : (k.put ((v.locked .third).withIdentitiesSwapped .owner .third)).recordOf k.third =
    some k.pair :=
    k.recordOf_put _ hslot
  have hfixup :
    ((k.put ((v.locked .third).withIdentitiesSwapped .owner .third)).fixup k.owner k.third).2 =
      (k.put ((v.locked .third).withIdentitiesSwapped .owner .third)).modifyPair k.pair
      ({ · with owner := some k.third }) := by
    rw [fixup]
    rw [hrecord]
    dsimp only
    rw [pair_put]
    exact congrArg Prod.snd (if_pos hseat)
  rw [takeOver]
  rw [lock?_put _ _ hopen]
  dsimp only
  rw [swapIdentities_put _ _ (by decide), if_pos hdriven, hfixup, modifyPair_put, softHangup,
    modifyChannel_put]
  refine congrArg (fun w => (k.put w, _)) (PartiesState.eq_of_channel (fun t => ?_) rfl)
  cases t <;> rfl

theorem hangup_put (hup : (v.channel .third).hungup = false)
    (hdriven : (k.put v).isDriven k.third = true) :
    (k.put v).hangup k.third =
      (k.put (v.alter .third ({ · with hungup := true })),
      [.dispatch k.third .hangup, .delist k.third]) := by
  have hstill : (k.put (v.alter .third ({ · with hungup := true }))).isDriven k.third = true := by
    rw [isDriven_put] at hdriven ⊢
    rwa [PartiesState.channel_alter_self]
  rw [hangup]
  rw [channel_put, hup, if_neg Bool.false_ne_true, modifyChannel_put]
  dsimp only
  rw [hstill, if_pos rfl]

def thirdDeparture (k : Parties e) : Acquisition :=
  ⟨k.pair, .chan, some k.third, .ownerLeaving k.third⟩

def passedState (v : PartiesState) : PartiesState :=
  v.alter .chan fun x => { x with
    answeredElsewhere := x.answeredElsewhere || (v.channel .third).answeredElsewhere }

def thirdLeftState (v : PartiesState) : PartiesState where
  __ := v
  channel
    | .owner => v.channel .owner
    | .chan => { v.channel .chan with frames := (v.channel .chan).frames ++ [.bare .hangup] }
    | .third => { v.channel .third with slot := .empty }
  record := v.record.clear .owner
  moduleUse := v.moduleUse.drop v.record.ownerUse

theorem passAnsweredElsewhere_put (hchan : v.record.chan = some k.chan) :
    (k.put v).passAnsweredElsewhere k.pair k.third = k.put (passedState v) := by
  rw [passAnsweredElsewhere]
  rw [channel_put, pair_put, hchan]
  dsimp only
  cases helsewhere : (v.channel .third).answeredElsewhere with
  | false =>
      rw [if_neg Bool.false_ne_true, passedState, helsewhere, v.alter_eq_self]
      simp only [Bool.or_false]
  | true =>
      rw [if_pos rfl, passedState, helsewhere, setAnsweredElsewhere, modifyChannel_put]
      simp only [Bool.or_true]

theorem clearSide_put (side : Side) :
    (k.put v).clearSide k.pair side =
      k.put { v with record := v.record.clear side, moduleUse := v.moduleUse.drop (v.record.token side) } := by
  rw [clearSide]
  rw [pair_put, modifyPair_put]
  rfl

theorem depart_put (hphase : v.record.phase = .optimized) (hchan : v.record.chan = some k.chan) :
    (k.put v).depart k.pair .owner k.third =
      (k.put (v.alter .third ({ · with slot := .empty })), [.settle .relayed]) := by
  have hvacant : v.record.isVacant = false := by
    rw [Pair.isVacant, hchan, Option.isNone_some, Bool.and_false]
  have hserved : unserved v.record = none := by
    rw [unserved, hphase, Phase.dialplanStarted, if_pos rfl]
  have hbarred :
    (k.put (v.alter .third ({ · with slot := .empty }))).Barred k.pair .owner none := by
    refine .inr (.inl ?_)
    rw [pair_put]
    exact congrArg Phase.isMasqueraded hphase
  rw [depart]
  rw [setSlot, modifyChannel_put, pair_put, PartiesState.record_alter, hvacant,
    if_neg Bool.false_ne_true, hserved]
  exact relay_barred hbarred false

theorem acquire_put (hphase : v.record.phase = .optimized) (hchan : v.record.chan = some k.chan)
    (hfree : (k.put v).refuses k.chan = false) (hsound : (v.channel .chan).lock.Sound) :
    (k.put v).acquire k.thirdDeparture =
      (k.put (thirdLeftState (k.spend v .chan)), [.settle .relayed]) := by
  have hend : v.record.endpoint .chan = some k.chan := hchan
  have hback := hsound.unlock_take (by rw [refuses_put] at hfree; simp at hfree; exact hfree.2)
  rw [acquire]
  rw [thirdDeparture, seek, pair_put, hend]
  dsimp only
  rw [tryLock_put _ _ hfree]
  dsimp only
  rw [proceed]
  dsimp only
  rw [ownerLeaves]
  rw [clearSide_put, queueFrame, modifyChannel_put, unlock_put, depart_put]
  · refine congrArg (fun w => (k.put w, [Task.settle .relayed])) (PartiesState.eq_of_channel (fun t => ?_) rfl)
    cases t <;> simp [thirdLeftState, PartiesState.unlocked, PartiesState.locked,
      PartiesState.alter, Function.update, spend]
    exact hback
  · exact hphase
  · exact hchan

theorem acquire_put_refused (hchan : v.record.chan = some k.chan)
    (hrefuses : (k.put v).refuses k.chan = true) :
    (k.put v).acquire k.thirdDeparture = (k.put (k.spend v .chan), k.thirdDeparture.wait) := by
  have hend : v.record.endpoint .chan = some k.chan := hchan
  rw [acquire]
  rw [thirdDeparture, seek, pair_put, hend]
  dsimp only
  rw [tryLock_eq, hrefuses, if_pos rfl]
  rfl

theorem teardown_put (hslot : (v.channel .third).slot = .pair k.pair)
    (hseat : v.record.owner = some k.third)
    (hchan : v.record.chan = some k.chan) :
    (k.put v).teardown k.third =
      (((k.put (passedState v)).acquire k.thirdDeparture).1,
        ((k.put (passedState v)).acquire k.thirdDeparture).2 ++ [Task.settle .done]) := by
  have hside : v.record.sideOf k.third = some .owner := by
    have hne : v.record.chan ≠ some k.third := by
      rw [hchan]
      exact fun h => k.member_ne (by decide) (Option.some.inj h)
    rw [Pair.sideOf, if_neg hne, if_pos hseat]
  have hmember : (k.put v).membership k.third = some (k.pair, .owner) := by
    rw [membership, k.recordOf_put v hslot, Option.bind_some, pair_put, hside, Option.map_some]
  rw [teardown]
  rw [hmember]
  dsimp only
  rw [passAnsweredElsewhere_put hchan]
  rfl

theorem dispatch_put (hdriven : (k.put v).isDriven k.third = true)
    (hopen : (v.channel .third).lock.openTo .main = true)
    (hslot : (v.channel .third).slot = .pair k.pair) (hseat : v.record.owner = some k.third)
    (hchan : v.record.chan = some k.chan) :
    (k.put v).dispatch k.third .hangup =
      (((k.put (passedState (v.locked .third))).acquire k.thirdDeparture).1,
        ((k.put (passedState (v.locked .third))).acquire k.thirdDeparture).2 ++
        [Task.settle .done] ++ [Task.unlock k.third]) := by
  rw [dispatch]
  rw [if_pos hdriven, lock?_put _ _ hopen]
  dsimp only
  rw [signal, teardown_put (v := v.locked .third) hslot hseat hchan]

def thirdHungUpState (k : Parties e) : PartiesState where
  channel
    | .owner => { (e.channel k.owner).takingPlaceOf (e.channel k.chan) (e.channel k.third) with
        lock := (e.channel k.owner).lock.take .main }
    | .chan => (e.channel k.chan).withoutAttachments (e.channel k.owner)
    | .third => { (e.channel k.third).displacedBy (e.channel k.owner) with
        slot := (e.channel k.owner).slot
        lock := (e.channel k.third).lock.take .main }
  record := { e.pair k.pair with owner := some k.third, phase := .optimized }
  attempts := (k.spend k.attemptedState .owner).attempts
  listed := e.listed
  moduleUse := e.moduleUse

theorem thirdHungUpState_eq (h : e.Optimizable k.pair k.owner k.chan k.third) :
    (k.takenOverState (k.begunState k.attemptedState)).alter .third
      ({ · with hungup := true }) = k.thirdHungUpState := by
  refine PartiesState.eq_of_channel (fun t => ?_) rfl
  cases t
  · cases hthird : (e.channel k.third).monitor <;>
      simp [thirdHungUpState, Channel.takingPlaceOf, takenOverState, begunState, attemptedState,
        requestedState, PartiesState.alter, Function.update,
        PartiesState.withGroupsMoved, PartiesState.withAudiohooksSwapped,
        PartiesState.withMonitorsSwapped, spend, current, hthird, h.thirdSlot, h.unclaimed]
  · rfl
  · cases hthird : (e.channel k.third).monitor <;>
      simp [thirdHungUpState, Channel.displacedBy, takenOverState, begunState, attemptedState,
        requestedState, PartiesState.alter,
        PartiesState.withGroupsMoved, PartiesState.withAudiohooksSwapped,
        PartiesState.withMonitorsSwapped, spend, current, hthird]

theorem refuses_chan_thirdHungUpState :
    (k.put (passedState (k.thirdHungUpState.locked .third))).refuses k.chan = e.refuses k.chan := by
  have hchan : Role.chan ≠ .owner := by decide
  calc (k.put (passedState (k.thirdHungUpState.locked .third))).refuses k.chan
    _ = (k.put k.attemptedState).refuses k.chan :=
      k.refuses_put_of_ne k.attemptedState hchan rfl (lock_attemptedState .chan).symm
    _ = (k.put (k.spend k.current .third)).refuses k.chan :=
      k.refuses_put_of_ne (k.spend k.current .third) hchan rfl (lock_attemptedState .chan)
    _ = (k.put k.current).refuses k.chan :=
      k.refuses_put_of_ne k.current (s := .third) (by decide) rfl rfl
    _ = e.refuses k.chan := by rw [put_current]

/-- The parties at the end of the optimisation. -/
def optimizedState (k : Parties e) (attempts : List (ChannelId × Bool)) : PartiesState where
  channel
    | .owner => (e.channel k.owner).takingPlaceOf (e.channel k.chan) (e.channel k.third)
    | .chan => (e.channel k.chan).toldThirdLeft (e.channel k.owner) (e.channel k.third)
    | .third => (e.channel k.third).displacedBy (e.channel k.owner)
  record := { e.pair k.pair with owner := none, ownerUse := .dropped, phase := .optimized }
  attempts
  listed := e.listed.filter (· ≠ k.third)
  moduleUse := e.moduleUse.drop (e.pair k.pair).ownerUse

theorem optimizedState_eq (h : e.Optimizable k.pair k.owner k.chan k.third) (hsound : e.locks.Sound)
    (attempts : List (ChannelId × Bool)) :
    (PartiesState.unlocked
      {
      (PartiesState.unlocked { thirdLeftState (passedState (k.thirdHungUpState.locked .third)) with
      attempts } .third) with
      listed := e.listed.filter (· ≠ k.third) } .third).unlocked .owner =
      k.optimizedState attempts := by
  have howner : ((e.channel k.owner).lock.take .main).unlock .main = (e.channel k.owner).lock :=
    (hsound k.owner).unlock_take (openTo_of_noScriptedFailure e h.ownerFree)
  have hthird : ((e.channel k.third).lock.take .main).unlock .main = (e.channel k.third).lock :=
    (hsound k.third).unlock_take (openTo_of_noScriptedFailure e h.thirdFree)
  have hagain : (((e.channel k.third).lock.take .main).take .main).unlock .main =
    (e.channel k.third).lock.take .main :=
    RecursiveLock.sound_take.unlock_take rfl
  refine PartiesState.eq_of_channel (fun t => ?_) rfl
  cases t
  · simp [optimizedState, thirdHungUpState, thirdLeftState, passedState, PartiesState.unlocked,
      PartiesState.locked, PartiesState.alter, Function.update,
      Channel.takingPlaceOf, howner]
  · rfl
  · simp [optimizedState, thirdHungUpState, thirdLeftState, passedState, PartiesState.unlocked,
      PartiesState.locked, PartiesState.alter, Function.update,
      Channel.displacedBy, hthird, hagain, h.thirdSlot]

theorem delist_put (c : ChannelId) :
    (k.put v).delist c = k.put { v with listed := v.listed.filter (· ≠ c) } := rfl

end Parties
end Switchboard
