import Switchboard.Proofs.RelayDelivery
import Switchboard.Proofs.Optimization

namespace Switchboard

/-- The frames that a leaver has for the other side, in the order in which they are queued. -/
def Pair.lastFrames (x : Pair) (side : Side) (cause : UInt32) : List Frame :=
  match side, x.phase with
  | .owner, .dialplanLaunched => [.bare .hangup, .hangup cause]
  | .owner, _ => [.bare .hangup]
  | .chan, .optimized => []
  | .chan, _ => [.hangup cause]

/-- A chan-side on which no dialplan was started is left behind. -/
def Pair.leavesChanUnserved (x : Pair) (side : Side) : Bool :=
  side = .owner && x.chan.isSome && !x.phase.dialplanStarted

theorem Pair.leavesChanUnserved_owner {x : Pair} {d : ChannelId} (h : x.chan = some d) :
    x.leavesChanUnserved .owner = !x.phase.dialplanStarted := by
  simp [leavesChanUnserved, h]

theorem Pair.phase_clear {x : Pair} {side : Side} (h : x.leavesChanUnserved side = false) :
    (x.clear side).phase =
      if side = .chan ∨ x.leavesChanUnserved side = true then if x.phase = .optimized then
        .optimized else .torn
      else x.phase := by
  rw [h]
  cases side with
  | owner => simp [clear]
  | chan => cases hphase : x.phase <;> simp [clear, Phase.chanDeparted, hphase]

namespace Channel

def afterLeaving (x : Channel) : Channel := { x with slot := .empty, hungup := true }

def afterBareHangup (x leaver : Channel) (side : Side) : Channel :=
  match side with
  | .owner =>
    { x with
      answeredElsewhere := x.answeredElsewhere || leaver.answeredElsewhere
      frames := x.frames ++ [.bare .hangup] }
  | .chan =>
    match leaver.getVar Exchange.dialStatus with
    | some status => x.setVar Exchange.channelStatus status
    | none => x

/-- Whoever is left behind, with all that it has heard of the leaver. -/
def afterPeerLeft (x leaver : Channel) (record : Pair) (side : Side) : Channel :=
  match side with
  | .owner =>
    { x with
      answeredElsewhere := x.answeredElsewhere || leaver.answeredElsewhere
      frames := x.frames ++ record.lastFrames .owner leaver.hangupCause }
  | .chan =>
    { x with
      vars := match leaver.getVar Exchange.dialStatus with
        | some status => setFirst Exchange.channelStatus status x.vars
        | none => x.vars
      frames := x.frames ++ record.lastFrames .chan leaver.hangupCause }

theorem lock_afterBareHangup (x leaver : Channel) (side : Side) :
    (x.afterBareHangup leaver side).lock = x.lock := by
  cases side with
  | owner => rfl
  | chan =>
      rw [afterBareHangup]
      split <;> rfl

theorem afterBareHangup_of_leavesChanUnserved {record : Pair} (x leaver : Channel)
    (h : record.leavesChanUnserved .owner = true) :
    x.afterBareHangup leaver .owner = x.afterPeerLeft leaver record .owner := by
  rw [Pair.leavesChanUnserved, Bool.and_eq_true, Bool.not_eq_true'] at h
  cases hphase : record.phase <;>
    simp_all [afterBareHangup, afterPeerLeft, Pair.lastFrames, Phase.dialplanStarted]

theorem afterBareHangup_then_told {record : Pair} {side : Side} {d : ChannelId} (x leaver : Channel)
    (hend : record.endpoint side.peer = some d) (h : record.leavesChanUnserved side = false) :
    { x.afterBareHangup leaver side with
      frames := (x.afterBareHangup leaver side).frames ++
        if (record.clear side).phase.isMasqueraded then [] else [.hangup leaver.hangupCause] } =
      x.afterPeerLeft leaver record side := by
  cases side with
  | owner =>
      rw [Pair.leavesChanUnserved_owner hend] at h
      cases hphase : record.phase <;>
        simp_all [afterBareHangup, afterPeerLeft, Pair.lastFrames, Pair.clear,
          Phase.dialplanStarted, Phase.isMasqueraded]
  | chan =>
      cases hphase : record.phase <;> cases hstatus : leaver.getVar Exchange.dialStatus <;>
        simp [afterBareHangup, afterPeerLeft, setVar, Pair.lastFrames, Pair.clear,
          Phase.chanDeparted, Phase.isMasqueraded, hphase,
          hstatus]

end Channel

namespace Exchange

/-- The driver gets the channel's lock whenever it tries. -/
structure LockFree (e : Exchange) (c : ChannelId) : Prop where
  lock : (e.channel c).lock.openTo .main = true
  attempts : ∀ a ∈ e.contention.attempts, a.1 = c → a.2 = true

def scripted (e : Exchange) (attempts : List (ChannelId × Bool)) : Exchange :=
  { e with contention := { e.contention with attempts } }

variable {e x : Exchange} {p : PairId} {side : Side} {c d : ChannelId}

theorem LockFree.noScriptedFailure (h : e.LockFree c) : e.refuses c = false := by
  rw [refuses, h.lock, Bool.not_true, Bool.or_false, Option.any_eq_false]
  intro a ha
  have hfound := List.find?_some (p := fun a : ChannelId × Bool => decide (a.1 = c)) ha
  rw [h.attempts a (List.mem_of_find?_eq_some ha) (of_decide_eq_true hfound)]
  rfl

theorem LockFree.mono (h : e.LockFree c) (hlock : (x.channel c).lock = (e.channel c).lock)
    (hattempts : x.contention.attempts.Sublist e.contention.attempts) : x.LockFree c :=
  ⟨hlock ▸ h.lock, fun a ha => h.attempts a (hattempts.subset ha)⟩

theorem visit_eq (hfree : e.LockFree d) (hsound : (e.channel d).lock.Sound) {f : Channel → Channel}
    (hf : ∀ x l, f { x with lock := l } = { f x with lock := l }) :
    ∃ attempts, attempts.Sublist e.contention.attempts ∧
      ((e.taken d).modifyChannel d f).unlock d = (e.scripted attempts).modifyChannel d f :=
  ⟨_, List.eraseP_sublist, unlock_taken e hfree.noScriptedFailure hsound hf⟩

theorem leaveGlare_entered (hp : p ∈ e.pairIds) (hidle : (e.pair p).glare = .idle) :
    (e.modifyPair p Pair.entered).leaveGlare p = e := by
  have hentered : (e.modifyPair p Pair.entered).pair p = (e.pair p).entered :=
    (revised_modifyPair hp _).here
  have hglare : (e.pair p).entered.glare = .detected 1 := by rw [Pair.entered, hidle]; rfl
  rw [leaveGlare_of_live (by rw [hentered, hglare]; rfl), modifyPair_comp, hentered, hglare]
  apply modifyPair_eq_self
  change { e.pair p with glare := Glare.idle } = e.pair p
  rw [← hidle]

theorem relay_cause (hend : (e.pair p).endpoint side.peer = some d)
    (hidle : (e.pair p).glare = .idle)
    (hfree : e.LockFree d) (hsound : (e.channel d).lock.Sound) (cause : UInt32) :
    ∃ attempts, attempts.Sublist e.contention.attempts ∧
      e.relay p side (.hangup cause) none false =
        ((e.scripted attempts).modifyChannel d fun x =>
          { x with frames := x.frames ++ if (e.pair p).phase.isMasqueraded then []
            else [.hangup cause] },
          [.settle .relayed]) := by
  cases hphase : (e.pair p).phase.isMasqueraded with
  | true =>
      refine ⟨e.contention.attempts, .refl _, ?_⟩
      rw [relay_barred (.inr (.inl hphase)), modifyChannel_eq_self]
      · rfl
      · simp
  | false =>
      have hopen : ¬ e.Barred p side none := by
        rintro (hnone | hmasqueraded | ⟨-, -, s, hs, -⟩)
        · rw [hend] at hnone
          cases hnone
        · rw [hphase] at hmasqueraded
          cases hmasqueraded
        · cases hs
      have hp := mem_pairIds_of_attached hend
      have hentered : (e.modifyPair p Pair.entered).pair p = (e.pair p).entered :=
        (revised_modifyPair hp _).here
      have hconvey := convey_taken (e := e.modifyPair p Pair.entered) (.hangup cause) none none
        (by rw [hentered]; exact hend) hfree.noScriptedFailure
        (by rw [hentered, Pair.entered, hidle]; rfl) hsound
      rw [relay_entered hopen, if_neg Bool.false_ne_true, hconvey, hentered,
        show (e.pair p).entered.phase = (e.pair p).phase from rfl, hphase,
          if_neg Bool.false_ne_true]
      have hleft :=
        leaveGlare_entered (e := (e.spent d).modifyChannel d
        (·.receive (.hangup cause) none)) hp hidle
      exact ⟨_, List.eraseP_sublist, Prod.ext hleft rfl⟩

def sideEmptied (e : Exchange) (p : PairId) (side : Side) (c : ChannelId) : Exchange :=
  (e.clearSide p side).setSlot c .empty

theorem pair_sideEmptied (hp : p ∈ e.pairIds) (side : Side) (c : ChannelId) :
    (e.sideEmptied p side c).pair p = (e.pair p).clear side := (revised_clearSide hp side).here

theorem depart_last (hp : p ∈ e.pairIds) (hnone : (e.pair p).endpoint side.peer = none) :
    (e.clearSide p side).depart p side c = ((e.sideEmptied p side c).retire p, []) := by
  have hvacant : ((e.pair p).clear side).isVacant = true := by
    cases side <;> simp_all [Pair.clear, Pair.isVacant, Pair.endpoint, Side.peer]
  rw [depart]
  rw [← sideEmptied, pair_sideEmptied hp, hvacant, if_pos rfl]

theorem not_isVacant_clear {x : Pair} (hend : x.endpoint side.peer = some d) :
    (x.clear side).isVacant = false :=
  Pair.not_isVacant_iff.2
    ⟨side.peer, by cases side <;> simp_all [Pair.clear, Pair.endpoint, Side.peer]⟩

theorem unserved_clear {x : Pair} (hend : x.endpoint side.peer = some d) :
    unserved (x.clear side) = if x.leavesChanUnserved side then some d else none := by
  cases side with
  | owner =>
      have hsame : unserved (x.clear .owner) = if x.phase.dialplanStarted then none else x.chan :=
        rfl
      rw [hsame, Pair.leavesChanUnserved_owner hend, show x.chan = some d from hend]
      cases x.phase.dialplanStarted <;> rfl
  | chan => exact ite_self none

theorem depart_leavesChanUnserved (hend : (e.pair p).endpoint side.peer = some d)
    (hleaves : (e.pair p).leavesChanUnserved side = true) :
    (e.clearSide p side).depart p side c = (e.sideEmptied p side c, [.hangup d]) := by
  have hp := mem_pairIds_of_attached hend
  have hunserved : unserved ((e.pair p).clear side) = some d :=
    (unserved_clear hend).trans (if_pos hleaves)
  rw [depart]
  rw [← sideEmptied, pair_sideEmptied hp, not_isVacant_clear hend,
    if_neg Bool.false_ne_true, hunserved]

/-- Somebody is left who can be told the cause. -/
theorem depart_told (hend : (e.pair p).endpoint side.peer = some d)
    (hleaves : (e.pair p).leavesChanUnserved side = false)
    (hidle : (e.pair p).glare = .idle) (hdc : d ≠ c) (hfree : e.LockFree d)
    (hsound : (e.channel d).lock.Sound) :
    ∃ attempts, attempts.Sublist e.contention.attempts ∧
      (e.clearSide p side).depart p side c =
        (((e.sideEmptied p side c).scripted attempts).modifyChannel d fun x =>
          { x with frames := x.frames ++
            if ((e.pair p).clear side).phase.isMasqueraded then []
            else [.hangup (e.channel c).hangupCause] },
          [.settle .relayed]) := by
  have hp := mem_pairIds_of_attached hend
  have hunserved : unserved ((e.pair p).clear side) = none :=
    (unserved_clear hend).trans (if_neg (Bool.not_eq_true _ ▸ hleaves))
  have hchannel : (e.sideEmptied p side c).channel d = e.channel d :=
    channel_modifyChannel_of_ne _ _ hdc
  have hcause : ((e.sideEmptied p side c).channel c).hangupCause = (e.channel c).hangupCause :=
    channel_modifyChannel_congr Channel.hangupCause (e.clearSide p side) c c rfl
  have hend' : ((e.sideEmptied p side c).pair p).endpoint side.peer = some d := by
    rw [pair_sideEmptied hp]
    cases side <;> exact hend
  have hrelay := relay_cause hend' (by rw [pair_sideEmptied hp, Pair.glare_clear, hidle])
    (hfree.mono (congrArg Channel.lock hchannel) (.refl _)) (hchannel ▸ hsound)
    (e.channel c).hangupCause
  rw [pair_sideEmptied hp] at hrelay
  rw [depart]
  rw [← sideEmptied, pair_sideEmptied hp, not_isVacant_clear hend, if_neg Bool.false_ne_true,
    hunserved, hcause]
  exact hrelay

theorem teardown_last (hm : e.membership c = some (p, side))
    (hnone : (e.pair p).endpoint side.peer = none) :
    e.teardown c = ((e.sideEmptied p side c).retire p, [.settle .done]) := by
  have hdepart := depart_last (c := c) (mem_pairIds_of_attached (membership_eq_some hm).2) hnone
  rw [teardown]
  rw [hm]
  cases side with
  | owner =>
      have hchan : (e.pair p).endpoint .chan = none := hnone
      have hpass : e.passAnsweredElsewhere p c = e := by
        rw [passAnsweredElsewhere]
        simp only [show (e.pair p).chan = none from hchan, ite_self]
      simp only [hpass, acquire, seek, hchan, proceed, ownerLeaves, hdepart, List.nil_append]
  | chan =>
      have howner : (e.pair p).endpoint .owner = none := hnone
      cases (e.channel c).getVar dialStatus with
      | none => simp only [hdepart, List.nil_append]
      | some status =>
          simp only [acquire, seek, howner, proceed, chanLeaves, hdepart, List.nil_append]

theorem passAnsweredElsewhere_eq (hchan : (e.pair p).chan = some d) (c : ChannelId) :
    e.passAnsweredElsewhere p c = e.modifyChannel d fun x =>
      { x with answeredElsewhere := x.answeredElsewhere || (e.channel c).answeredElsewhere } := by
  rw [passAnsweredElsewhere]
  simp only [hchan]
  cases (e.channel c).answeredElsewhere with
  | true =>
      rw [if_pos rfl, setAnsweredElsewhere]
      simp only [Bool.or_true]
  | false =>
      rw [if_neg Bool.false_ne_true, modifyChannel_eq_self]
      simp

theorem teardown_afterBareHangup (hm : e.membership c = some (p, side))
    (hend : (e.pair p).endpoint side.peer = some d)
    (hfree : e.LockFree d) (hsound : (e.channel d).lock.Sound) :
    ∃ attempts, attempts.Sublist e.contention.attempts ∧ ∃ x, x =
        ((e.scripted attempts).modifyChannel d (·.afterBareHangup (e.channel c) side)).clearSide p
        side ∧
      e.teardown c = ((x.depart p side c).1, (x.depart p side c).2 ++ [Task.settle .done]) := by
  rw [teardown]
  rw [hm]
  cases side with
  | owner =>
      have hchan : (e.pair p).endpoint .chan = some d := hend
      dsimp only
      rw [passAnsweredElsewhere_eq hchan]
      generalize hy : (e.modifyChannel d fun x => { x with answeredElsewhere :=
        x.answeredElsewhere || (e.channel c).answeredElsewhere }) = y
      have hlock : (y.channel d).lock = (e.channel d).lock :=
        hy ▸ channel_modifyChannel_congr Channel.lock e d d rfl
      have hcontention : y.contention = e.contention := hy ▸ rfl
      have hpair : y.pair p = e.pair p := hy ▸ rfl
      have hfree' : y.LockFree d := hfree.mono hlock (hcontention ▸ .refl _)
      obtain ⟨attempts, hattempts, hvisit⟩ := visit_eq hfree' (hlock ▸ hsound)
        (f := fun x => { x with frames := x.frames ++ [Frame.bare .hangup] }) fun _ _ => rfl
      have hwarned : (y.scripted attempts).modifyChannel d
          (fun x => { x with frames := x.frames ++ [Frame.bare .hangup] }) =
            (e.scripted attempts).modifyChannel d (·.afterBareHangup (e.channel c) .owner) := by
        subst hy
        exact modifyChannel_comp (e.scripted attempts) d _ _
      refine ⟨attempts, hcontention ▸ hattempts, _, rfl, ?_⟩
      rw [← hwarned, ← hvisit]
      simp only [acquire, seek, hpair, hchan, tryLock_eq, hfree'.noScriptedFailure,
        Bool.false_eq_true, if_false, proceed,
        ownerLeaves]
      rfl
  | chan =>
      have howner : (e.pair p).endpoint .owner = some d := hend
      dsimp only
      cases hstatus : (e.channel c).getVar dialStatus with
      | none =>
          refine ⟨e.contention.attempts, .refl _, _, rfl, ?_⟩
          rw [modifyChannel_eq_self]
          · rfl
          · simp only [Channel.afterBareHangup, hstatus]
      | some status =>
          obtain ⟨attempts, hattempts, hvisit⟩ := visit_eq hfree hsound
            (f := (·.setVar channelStatus status)) fun _ _ => rfl
          have hwarned : (e.scripted attempts).modifyChannel d (·.setVar channelStatus status) =
              (e.scripted attempts).modifyChannel d (·.afterBareHangup (e.channel c) .chan) := by
            simp only [Channel.afterBareHangup, hstatus]
          refine ⟨attempts, hattempts, _, rfl, ?_⟩
          rw [← hwarned, ← hvisit]
          simp only [acquire, seek, howner, tryLock_eq, hfree.noScriptedFailure, Bool.false_eq_true,
            if_false, proceed,
            chanLeaves]
          rfl

def leaving (e : Exchange) (c : ChannelId) : Exchange :=
  e.modifyChannel c fun x => { x with hungup := true, lock := x.lock.take .main }

theorem channel_leaving (hc : c.Among e.channels.size) :
    (e.leaving c).channel c =
      { e.channel c with hungup := true, lock := (e.channel c).lock.take .main } :=
  channel_modifyChannel e _ hc

theorem afterBareHangup_leaving (hc : c.Among e.channels.size) (x : Channel) (side : Side) :
    x.afterBareHangup ((e.leaving c).channel c) side = x.afterBareHangup (e.channel c) side := by
  rw [channel_leaving hc]
  rfl

theorem membership_leaving (c d : ChannelId) : (e.leaving c).membership d = e.membership d := by
  have hslot : ((e.leaving c).channel d).slot = (e.channel d).slot :=
    channel_modifyChannel_congr Channel.slot e c d rfl
  simp only [membership, recordOf, hslot]
  rfl

theorem isDriven_marked (c d : ChannelId) :
    (e.modifyChannel c ({ · with hungup := true })).isDriven d = e.isDriven d := by
  rw [isDriven, channel_modifyChannel_congr Channel.technology e c d rfl]
  rfl

theorem hangup_live (hdriven : e.isDriven c = true) (hlive : (e.channel c).hungup = false) :
    e.hangup c = (e.modifyChannel c ({ · with hungup := true }),
      [.dispatch c .hangup, .delist c]) := by
  rw [hangup]
  simp only [hlive, isDriven_marked, hdriven, Bool.false_eq_true, if_false, if_true]

theorem dispatch_leaving (hdriven : e.isDriven c = true)
    (hopen : (e.channel c).lock.openTo .main = true) :
    (e.modifyChannel c ({ · with hungup := true })).dispatch c .hangup =
      (((e.leaving c).teardown c).1, ((e.leaving c).teardown c).2 ++ [Task.unlock c]) := by
  have hlock :=
    channel_modifyChannel_congr Channel.lock e c c (f := ({ · with hungup := true })) rfl
  refine dispatch_of_lock ((isDriven_marked c c).trans hdriven) ?_
  rw [lock?_eq, hlock, hopen, if_pos rfl, modifyChannel_comp]
  rfl

theorem teardown_leaving (hm : e.membership c = some (p, side))
    (hend : (e.pair p).endpoint side.peer = some d)
    (hdc : d ≠ c) (hfree : e.LockFree d) (hsound : (e.channel d).lock.Sound) :
    ∃ attempts, attempts.Sublist e.contention.attempts ∧ ∃ y,
      y = ((e.leaving c).scripted attempts).modifyChannel d (·.afterBareHangup (e.channel c) side) ∧
      (e.leaving c).teardown c = (((y.clearSide p side).depart p side c).1,
        ((y.clearSide p side).depart p side c).2 ++ [Task.settle .done]) ∧
      y.LockFree d ∧ (y.channel d).lock.Sound ∧
      (y.channel c).hangupCause = (e.channel c).hangupCause := by
  have hc : c.Among e.channels.size := among_of_slot e (slot_of_recordOf (membership_eq_some hm).1)
  have hbeside : (e.leaving c).channel d = e.channel d := channel_modifyChannel_of_ne e _ hdc
  obtain ⟨attempts, hattempts, _, rfl, hteardown⟩ :=
    teardown_afterBareHangup ((membership_leaving c c).trans hm) hend
    (hfree.mono (congrArg Channel.lock hbeside) (.refl _)) (hbeside ▸ hsound)
  simp only [afterBareHangup_leaving hc] at hteardown
  have hlock :
    ((((e.leaving c).scripted attempts).modifyChannel d
    (·.afterBareHangup (e.channel c) side)).channel d).lock =
      (e.channel d).lock :=
    (channel_modifyChannel_congr Channel.lock _ d d (Channel.lock_afterBareHangup _ _ _)).trans
      (congrArg Channel.lock hbeside)
  refine ⟨attempts, hattempts, _, rfl, hteardown, hfree.mono hlock hattempts, hlock ▸ hsound, ?_⟩
  rw [channel_modifyChannel_of_ne _ _ hdc.symm]
  exact channel_modifyChannel_congr Channel.hangupCause e c c rfl

theorem retire_modifyChannel (e : Exchange) (c : ChannelId) (f : Channel → Channel) (p : PairId) :
    (e.modifyChannel c f).retire p = (e.retire p).modifyChannel c f := by
  have hdestroy : ∀ x : Exchange, (x.modifyChannel c f).destroy p =
    (x.destroy p).modifyChannel c f := by
    intro x
    unfold destroy
    by_cases hdestroyed : (x.pair p).destroyed = true
    · rw [if_pos hdestroyed]
      exact if_pos hdestroyed
    · rw [if_neg hdestroyed]
      exact if_neg hdestroyed
  rw [retire_eq, retire_eq]
  by_cases hdefer : (e.pair p).glare.cancel.1 = true
  · rw [if_pos hdefer]
    exact if_pos hdefer
  · rw [if_neg hdefer, ← hdestroy]
    exact if_neg hdefer

theorem unlock_leaving (hopen : (e.channel c).lock.openTo .main = true)
    (hsound : (e.channel c).lock.Sound) :
    ((e.leaving c).setSlot c .empty).unlock c = e.modifyChannel c Channel.afterLeaving := by
  rw [leaving, setSlot, unlock, modifyChannel_comp, modifyChannel_comp]
  apply modifyChannel_congr
  have hback := hsound.unlock_take hopen
  dsimp only [Channel.afterLeaving]
  rw [hback]

theorem unlock_leaving_between (hcd : c ≠ d) (hopen : (e.channel c).lock.openTo .main = true)
    (hsound : (e.channel c).lock.Sound) (f g : Channel → Channel) :
    ((((e.leaving c).modifyChannel d f).setSlot c .empty).modifyChannel d g).unlock c =
      (e.modifyChannel d fun x => g (f x)).modifyChannel c Channel.afterLeaving := by
  have hsame : (e.modifyChannel d fun x => g (f x)).channel c = e.channel c :=
    channel_modifyChannel_of_ne e _ hcd
  have hback :=
    unlock_leaving (e := e.modifyChannel d fun x => g (f x)) (hsame ▸ hopen) (hsame ▸ hsound)
  rw [← hback, setSlot, modifyChannel_comm _ hcd, ← setSlot, leaving, modifyChannel_comm _ hcd,
    modifyChannel_comm _ hcd, modifyChannel_comp]
  rfl

end Exchange
end Switchboard
