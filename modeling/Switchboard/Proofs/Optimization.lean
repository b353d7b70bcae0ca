import Switchboard.Proofs.Accounting
import Switchboard.Proofs.OptimizationSteps

namespace Switchboard

namespace Channel

theorem monitors_kept (owner chan third : Channel) :
    ((owner.takingPlaceOf chan third).monitor.toList : Multiset String) +
      (chan.toldThirdLeft owner third).monitor.toList +
      (third.displacedBy owner).monitor.toList =
      owner.monitor.toList + chan.monitor.toList + third.monitor.toList := by
  cases hthird : third.monitor with
  | none => simp [takingPlaceOf, toldThirdLeft, withoutAttachments, displacedBy, hthird]
  | some m =>
      simp only [takingPlaceOf, toldThirdLeft, withoutAttachments, displacedBy, hthird,
        Option.some_or, Option.isSome_some, if_true]
      rw [Multiset.add_comm, Multiset.add_comm (Multiset.ofList (some m).toList),
        Multiset.add_assoc]

theorem audiohooks_kept (owner chan third : Channel) :
    ((owner.takingPlaceOf chan third).audiohooks : Multiset String) +
      (chan.toldThirdLeft owner third).audiohooks +
      (third.displacedBy owner).audiohooks =
      owner.audiohooks + chan.audiohooks + third.audiohooks := by
  by_cases hnone : chan.audiohooks = []
  · simp [takingPlaceOf, toldThirdLeft, withoutAttachments, displacedBy, hnone]
  · simp only [takingPlaceOf, toldThirdLeft, withoutAttachments, displacedBy, hnone, if_false]
    rw [Multiset.add_comm (chan.audiohooks : Multiset String)]

theorem groups_kept (owner chan third : Channel) :
    ((owner.takingPlaceOf chan third).groups : Multiset String) +
      (chan.toldThirdLeft owner third).groups +
      (third.displacedBy owner).groups =
      owner.groups + chan.groups + third.groups := by
  simp [takingPlaceOf, toldThirdLeft, withoutAttachments, displacedBy, ← Multiset.coe_add]

end Channel

namespace Exchange

/-- What some channels have of a kind, all together. -/
def holdings (e : Exchange) (of : Channel → List String) (cs : List ChannelId) : Multiset String :=
  (cs.flatMap fun c => of (e.channel c) : List String)

/-- The owner-side is in the place of the third channel, which is hung up in its stead, and the pair
is out of the call with only its chan-side left. -/
structure OptimizedInto (e e' : Exchange) (p : PairId) (owner chan third : ChannelId) : Prop where
  record : e'.pair p = { e.pair p with owner := none, ownerUse := .dropped, phase := .optimized }
  attached : (e'.pair p).chan = some chan ∧ (e'.channel chan).slot = .pair p
  registered : e'.registry = e.registry ∧ p ∈ e'.registry.pairs
  inUse : e'.moduleUse.inUse + 1 = e.moduleUse.inUse
  ownerHandle : e'.channel owner =
    (e.channel owner).takingPlaceOf (e.channel chan) (e.channel third)
  unread : (e'.channel owner).frames = []
  thirdHandle : e'.channel third = (e.channel third).displacedBy (e.channel owner)
  vacated : (e'.channel third).slot = .empty
  listed : e'.listed = e.listed.filter (· ≠ third)
  chanHandle : e'.channel chan = (e.channel chan).toldThirdLeft (e.channel owner) (e.channel third)
  told : (e'.channel chan).frames = (e.channel chan).frames ++ [.bare .hangup]
  monitors : e'.holdings (·.monitor.toList) [owner, chan, third] =
    e.holdings (·.monitor.toList) [owner, chan, third]
  audiohooks : e'.holdings (·.audiohooks) [owner, chan, third] =
    e.holdings (·.audiohooks) [owner, chan, third]
  groups : e'.holdings (·.groups) [owner, chan, third] = e.holdings (·.groups) [owner, chan, third]
  channels : ∀ c, c ≠ owner → c ≠ chan → c ≠ third → e'.channel c = e.channel c
  pairs : ∀ q ≠ p, e'.pair q = e.pair q

variable {e e' : Exchange} {p : PairId} {owner chan third : ChannelId}

theorem Optimizable.registered (h : e.Optimizable p owner chan third) :
    e.proxyRegistered = true := by
  have hdriven := h.ownerDriven
  rw [isDriven, Bool.and_eq_true] at hdriven
  exact hdriven.2

theorem Optimizable.proxy (h : e.Optimizable p owner chan third) :
    (e.channel owner).technology = .proxy := by
  have hdriven := h.ownerDriven
  rw [isDriven, Bool.and_eq_true, decide_eq_true_eq] at hdriven
  exact hdriven.1

theorem Optimizable.third_ne (h : e.Optimizable p owner chan third) {c : ChannelId}
    (hc : e.isDriven c = true) :
    third ≠ c := by
  rintro rfl
  exact absurd (h.thirdPlain.symm.trans hc) Bool.false_ne_true

theorem among_of_not_driven {c : ChannelId} (hregistered : e.proxyRegistered = true)
    (hplain : e.isDriven c = false) :
    c.Among e.channels.size := by
  by_contra hnone
  rw [isDriven, channel_of_not_among e hnone, hregistered] at hplain
  cases hplain

def Optimizable.parties (h : e.Optimizable p owner chan third) : Parties e where
  pair := p
  member
    | .owner => owner
    | .chan => chan
    | .third => third
  known := by
    have hend : (e.pair p).endpoint .owner = some owner := h.ownerSide
    exact mem_pairIds_of_attached hend
  made r := by
    cases r with
    | owner => exact among_of_slot e h.ownerSlot
    | chan => exact among_of_slot e h.chanSlot
    | third => exact among_of_not_driven h.registered h.thirdPlain
  different := Role.injective_of_ne h.apart (h.third_ne h.ownerDriven) (h.third_ne h.chanDriven)

theorem holdings_three (of : Channel → List String) (a b c : ChannelId) :
    e.holdings of [a, b, c] = (of (e.channel a) : Multiset String) + of (e.channel b) +
      of (e.channel c) := by
  simp [holdings, ← Multiset.coe_add, Multiset.add_assoc]

theorem Optimizable.inUse (h : e.Optimizable p owner chan third) (htallied : e.Tallied) :
    (e.moduleUse.drop (e.pair p).ownerUse).inUse + 1 = e.moduleUse.inUse := by
  have hknown : p ∈ e.pairIds := h.parties.known
  have hheld : (e.pair p).ownerUse = .held :=
    (htallied.tokens p hknown .owner).2
      (by rw [Pair.endpoint, h.ownerSide]; exact Option.some_ne_none owner)
  have hpos := holds_le hknown
  rw [Pair.holds, hheld, ← htallied.inUse] at hpos
  rw [hheld, ModuleUse.inUse_drop]
  simp only [ModuleUse.Token.weight] at hpos ⊢
  omega

theorem Optimizable.optimizedState (h : e.Optimizable p owner chan third) (htallied : e.Tallied)
    (hlisted : e.registry.pairs = e.pairIds.filter fun p => !(e.pair p).isVacant)
    (attempts : List (ChannelId × Bool)) :
    e.OptimizedInto (h.parties.put (h.parties.optimizedState attempts)) p owner chan third := by
  have howner : (h.parties.put (h.parties.optimizedState attempts)).channel owner =
      (e.channel owner).takingPlaceOf (e.channel chan) (e.channel third) :=
        h.parties.channel_put _ .owner
  have hchan : (h.parties.put (h.parties.optimizedState attempts)).channel chan =
      (e.channel chan).toldThirdLeft (e.channel owner) (e.channel third) :=
        h.parties.channel_put _ .chan
  have hthird : (h.parties.put (h.parties.optimizedState attempts)).channel third =
      (e.channel third).displacedBy (e.channel owner) := h.parties.channel_put _ .third
  have hpair : (h.parties.put (h.parties.optimizedState attempts)).pair p =
      { e.pair p with owner := none, ownerUse := .dropped, phase := .optimized } :=
        h.parties.pair_put _
  have hregistered : p ∈ e.registry.pairs := by
    rw [hlisted]
    refine List.mem_filter.2 ⟨h.parties.known, ?_⟩
    rw [Pair.isVacant, h.chanSide, Option.isNone_some, Bool.and_false, Bool.not_false]
  exact {
    record := hpair
    attached := ⟨by rw [hpair, h.chanSide], by rw [hchan]; exact h.chanSlot⟩
    registered := ⟨rfl, hregistered⟩
    inUse := h.inUse htallied
    ownerHandle := howner
    unread := by
      rw [howner]
      exact h.read
    thirdHandle := hthird
    vacated := by
      rw [hthird]
      exact h.thirdSlot
    listed := rfl
    chanHandle := hchan
    told := by
      rw [hchan]
      rfl
    monitors := by
      rw [holdings_three, holdings_three, howner, hchan, hthird]
      exact Channel.monitors_kept _ _ _
    audiohooks := by
      rw [holdings_three, holdings_three, howner, hchan, hthird]
      exact Channel.audiohooks_kept _ _ _
    groups := by
      rw [holdings_three, holdings_three, howner, hchan, hthird]
      exact Channel.groups_kept _ _ _
    channels := fun c hfirst hsecond hlast => h.parties.channel_put_of_ne _ fun r => by
      cases r with
      | owner => exact hfirst
      | chan => exact hsecond
      | third => exact hlast
    pairs := fun q hq => h.parties.pair_put_of_ne _ hq }

def writing (e : Exchange) (c : ChannelId) : Exchange :=
  e.modifyChannel c fun x => { x with lock := x.lock.take .main }

theorem view_writing (e : Exchange) (c : ChannelId) : (e.writing c).view = e.view :=
  view_modifyChannel e c rfl

theorem lock?_writing {c : ChannelId} (h : (e.channel c).lock.openTo .main = true) :
    e.lock? c = some (e.writing c) := by
  rw [lock?_eq, if_pos h]
  rfl

theorem unlock_writing {c : ChannelId} (h : (e.channel c).lock.openTo .main = true)
    (hsound : (e.channel c).lock.Sound) : (e.writing c).unlock c = e := by
  rw [unlock, writing, modifyChannel_comp]
  apply modifyChannel_eq_self
  rw [hsound.unlock_take h]

theorem holdings_congr {e e' : Exchange} {of : Channel → List String} {cs : List ChannelId}
    (h : ∀ c, of (e'.channel c) = of (e.channel c)) : e'.holdings of cs = e.holdings of cs := by
  simp only [holdings, h]

theorem channel_writing_self {c : ChannelId} (hc : c.Among e.channels.size) :
    (e.writing c).channel c = { e.channel c with lock := (e.channel c).lock.take .main } :=
  channel_modifyChannel e _ hc

theorem channel_writing_of_ne {c d : ChannelId} (h : d ≠ c) :
    (e.writing c).channel d = e.channel d :=
  channel_modifyChannel_of_ne e _ h

theorem channel_writing {β : Type} (g : Channel → β) (hg : ∀ x l, g { x with lock := l } = g x)
    (c d : ChannelId) :
    g ((e.writing c).channel d) = g (e.channel d) :=
  channel_modifyChannel_congr g e c d (hg _ _)

theorem isDriven_writing (c d : ChannelId) : (e.writing c).isDriven d = e.isDriven d := by
  rw [isDriven, isDriven, channel_writing Channel.technology fun _ _ => rfl]
  rfl

theorem refuses_writing {c : ChannelId} (hc : c.Among e.channels.size)
    (h : (e.channel c).lock.openTo .main = true)
    (d : ChannelId) : (e.writing c).refuses d = e.refuses d := by
  rw [refuses, refuses]
  by_cases hd : d = c
  · subst hd
    rw [channel_writing_self hc, h]
    rfl
  · rw [channel_writing_of_ne hd]
    rfl

theorem Optimizable.writing (h : e.Optimizable p owner chan third) :
    (e.writing chan).Optimizable p owner chan third where
  ownerSide := h.ownerSide
  chanSide := h.chanSide
  apart := h.apart
  ownerSlot := by rw [channel_writing Channel.slot fun _ _ => rfl, h.ownerSlot]
  chanSlot := by rw [channel_writing Channel.slot fun _ _ => rfl, h.chanSlot]
  ownerDriven := by rw [isDriven_writing, h.ownerDriven]
  chanDriven := by rw [isDriven_writing, h.chanDriven]
  bridge := by rw [channel_writing Channel.bridge fun _ _ => rfl, h.bridge]
  thirdPlain := by rw [isDriven_writing, h.thirdPlain]
  thirdSlot := by rw [channel_writing Channel.slot fun _ _ => rfl, h.thirdSlot]
  permitted := h.permitted
  inCall := h.inCall
  read := by rw [channel_writing Channel.frames fun _ _ => rfl, h.read]
  ownerStays := by rw [channel_writing Channel.hangingUp fun _ _ => rfl, h.ownerStays]
  thirdStays := by rw [channel_writing Channel.hangingUp fun _ _ => rfl, h.thirdStays]
  unclaimed := by rw [channel_writing Channel.pendingMasquerade fun _ _ => rfl, h.unclaimed]
  thirdFree := by rw [refuses_writing (among_of_slot e h.chanSlot) h.chanOpen, h.thirdFree]
  ownerFree := by rw [refuses_writing (among_of_slot e h.chanSlot) h.chanOpen, h.ownerFree]
  ownerFreeAgain := by
    have hspent : (e.writing chan).spent owner = (e.spent owner).writing chan := rfl
    have hsame := refuses_writing (e := e.spent owner) (among_of_slot e h.chanSlot) h.chanOpen owner
    rw [hspent, hsame, h.ownerFreeAgain]
  chanOpen := by
    rw [channel_writing_self (among_of_slot e h.chanSlot)]
    rfl

theorem writeFrame_eq {frame : Frame} (h : e.Optimizable p owner chan third)
    (hmedia : frame.isMedia = true) :
    e.writeFrame chan frame = (e, [.pause .resolution, .write p chan frame (some third)]) := by
  have hrecord : e.recordOf chan = some p := by simp only [recordOf, h.chanSlot]
  have hbridged : e.bridgedChannel chan = some third := by
    rw [bridgedChannel, h.bridge, Option.bind_some, h.thirdPlain, if_neg Bool.false_ne_true]
  rw [writeFrame]
  rw [hrecord]
  dsimp only
  rw [hmedia, h.permitted, h.bridge, Bool.not_false, Bool.true_and, if_pos rfl]
  dsimp only
  rw [if_pos hbridged]

theorem OptimizedInto.written {e' : Exchange} (h : e.Optimizable p owner chan third)
    (hsound : e.locks.Sound)
    (hoptimized : (e.writing chan).OptimizedInto e' p owner chan third) :
    e.OptimizedInto (e'.unlock chan) p owner chan third := by
  have hwriter : (e.writing chan).channel chan =
    { e.channel chan with lock := (e.channel chan).lock.take .main } :=
    channel_writing_self (among_of_slot e h.chanSlot)
  have howner : (e.writing chan).channel owner = e.channel owner := channel_writing_of_ne h.apart
  have hthird : (e.writing chan).channel third = e.channel third :=
    channel_writing_of_ne (h.third_ne h.chanDriven)
  have howner' : (e'.unlock chan).channel owner = e'.channel owner :=
    channel_modifyChannel_of_ne e' _ h.apart
  have hthird' : (e'.unlock chan).channel third = e'.channel third :=
    channel_modifyChannel_of_ne e' _ (h.third_ne h.chanDriven)
  have hchan : (e'.unlock chan).channel chan =
    (e.channel chan).toldThirdLeft (e.channel owner) (e.channel third) := by
    rw [unlock, channel_modifyChannel e' _ (among_of_slot e' hoptimized.attached.2),
      hoptimized.chanHandle, hwriter, howner,
      hthird]
    have hback : ((e.channel chan).lock.take .main).unlock .main = (e.channel chan).lock :=
      (hsound chan).unlock_take h.chanOpen
    change { (e.channel chan).toldThirdLeft (e.channel owner) (e.channel third) with
      lock := ((e.channel chan).lock.take .main).unlock .main } = _
    rw [hback]
    rfl
  have hkept : ∀ of : Channel → List String, (∀ x l, of { x with lock := l } = of x) →
      e'.holdings of [owner, chan, third] = (e.writing chan).holdings of [owner, chan, third] →
      (e'.unlock chan).holdings of [owner, chan, third] = e.holdings of [owner, chan, third] := by
    intro of hof hsame
    have hback : (e'.unlock chan).holdings of [owner, chan, third] =
      e'.holdings of [owner, chan, third] :=
      holdings_congr fun c => channel_modifyChannel_congr of e' chan c
        (f := fun x => { x with lock := x.lock.unlock .main }) (hof _ _)
    rw [hback, hsame, holdings_congr fun c => channel_writing of hof chan c]
  exact {
    record := hoptimized.record
    attached := ⟨hoptimized.attached.1, by rw [hchan]; exact h.chanSlot⟩
    registered := hoptimized.registered
    inUse := hoptimized.inUse
    ownerHandle := by
      rw [howner', hoptimized.ownerHandle, howner, hthird, hwriter]
      rfl
    unread := by rw [howner', hoptimized.unread]
    thirdHandle := by rw [hthird', hoptimized.thirdHandle, howner, hthird]
    vacated := by rw [hthird', hoptimized.vacated]
    listed := hoptimized.listed
    chanHandle := hchan
    told := by
      rw [hchan]
      rfl
    monitors := hkept _ (fun _ _ => rfl) hoptimized.monitors
    audiohooks := hkept _ (fun _ _ => rfl) hoptimized.audiohooks
    groups := hkept _ (fun _ _ => rfl) hoptimized.groups
    channels := fun c hfirst hsecond hlast => by
      have hsame : (e'.unlock chan).channel c = e'.channel c :=
        channel_modifyChannel_of_ne e' _ hsecond
      rw [hsame, hoptimized.channels c hfirst hsecond hlast, channel_writing_of_ne hsecond]
    pairs := hoptimized.pairs }

end Exchange

namespace Session

open Exchange Parties

/-- On its own the session comes to be `t`. -/
def RunsTo (s t : Session) : Prop := ∃ n, s.run n = t

def updated (s : Session) (e : Exchange) (a : Answer) (tasks : List Task) : Session :=
  { s with exchange := e, answer := a, agenda := tasks }

variable {s t u : Session} {e e' : Exchange} {a b : Answer} {tasks rest : List Task} {frame : Frame}

theorem RunsTo.refl (s : Session) : s.RunsTo s := ⟨0, rfl⟩

theorem RunsTo.trans (h : s.RunsTo t) (h' : t.RunsTo u) : s.RunsTo u := by
  obtain ⟨n, rfl⟩ := h
  obtain ⟨m, rfl⟩ := h'
  exact ⟨n + m, run_add s n m⟩

theorem runsTo_of_step (h : s.step = t) : s.RunsTo t := ⟨1, (run_succ s 0).trans h⟩

theorem runsTo_settle : (s.updated e a (.settle b :: rest)).RunsTo (s.updated e b rest) := ⟨1, rfl⟩

theorem runsTo_resume {t : Task} (hturn : ∀ x : Session, x.perform t = x.turn (x.exchange.resume t))
    (h : e.resume t = (e', tasks)) :
    (s.updated e a (t :: rest)).RunsTo (s.updated e' a (tasks ++ rest)) := by
  apply runsTo_of_step
  rw [step_perform rfl, hturn, updated]
  dsimp only
  rw [h]
  rfl

theorem runsTo_unlock {c : ChannelId} :
    (s.updated e a (.unlock c :: rest)).RunsTo (s.updated (e.unlock c) a rest) :=
  runsTo_of_step rfl

theorem runsTo_retry {x : Acquisition} (hscripts : s.backOffScripts = [])
    (hsource : x.source.isSome = true) :
    (s.updated e a (x.wait ++ rest)).RunsTo
      (s.updated (e.acquire x).1 a ((e.acquire x).2 ++ rest)) := by
  have hpause : (s.updated e a (.pause .backOff :: .retry x :: rest)).step =
    s.updated e a (.retry x :: rest) := by
    simp only [updated, Session.step, perform, pause, hscripts]
  rw [Acquisition.wait, if_pos hsource]
  exact (runsTo_of_step hpause).trans (runsTo_of_step (step_retry rfl))

variable {k : Parties e} {v : PartiesState}

variable (rest) in
/-- However often the chan-side's lock is not to be had, it hears at last, unless others get in
between. -/
theorem thirdDeparture_heard (hscripts : s.backOffScripts = [] ∨ (k.put v).refuses k.chan = false)
    (hopen : (v.channel .chan).lock.openTo .main = true) (hsound : (v.channel .chan).lock.Sound)
    (hphase : v.record.phase = .optimized) (hchan : v.record.chan = some k.chan) :
    ∃ attempts,
      (s.updated ((k.put v).acquire k.thirdDeparture).1 a
      (((k.put v).acquire k.thirdDeparture).2 ++ rest)).RunsTo
      (s.updated (k.put { thirdLeftState v with attempts }) a (.settle .relayed :: rest)) := by
  induction hlength : v.attempts.length using Nat.strong_induction_on generalizing v with
  | _ n ih =>
      cases hrefuses : (k.put v).refuses k.chan with
      | false =>
          rw [acquire_put hphase hchan hrefuses hsound]
          exact ⟨(k.spend v .chan).attempts, .refl _⟩
      | true =>
          have hquiet : s.backOffScripts = [] := hscripts.resolve_right (by simp [hrefuses])
          -- The lock itself is to be had, so it is an outcome that was laid down that stood in the way.
          have hless : (k.spend v .chan).attempts.length < n := by
            rw [refuses_put, hopen, Bool.not_true, Bool.or_false, Option.any_eq_true] at hrefuses
            obtain ⟨x, hx, -⟩ := hrefuses
            have hlaid := List.mem_of_find?_eq_some hx
            have hpos := List.length_pos_of_mem hlaid
            rw [spend, List.length_eraseP_of_mem hlaid (List.find?_some hx), ← hlength]
            exact Nat.sub_one_lt_of_lt hpos
          rw [acquire_put_refused hchan hrefuses]
          obtain ⟨attempts, hheard⟩ :=
            ih _ hless (v := k.spend v .chan) (.inl hquiet) hopen hsound hphase hchan rfl
          exact ⟨attempts, (runsTo_retry hquiet rfl).trans hheard⟩

def closing (k : Parties e) : List Task :=
  [.settle .done, .unlock k.third, .delist k.third, .unlock k.third, .unlock k.owner, .settle .done]

theorem closing_runsTo (h : e.Optimizable k.pair k.owner k.chan k.third) (hsound : e.locks.Sound)
    (attempts : List (ChannelId × Bool)) :
    (s.updated (k.put { thirdLeftState (passedState (k.thirdHungUpState.locked .third)) with
      attempts }) a (closing k ++ rest)).RunsTo
      (s.updated (k.put (k.optimizedState attempts)) .done rest) := by
  generalize hv :
    { thirdLeftState (passedState (k.thirdHungUpState.locked .third)) with attempts } = v
  have hlisted : v.listed = e.listed := by
    subst hv
    rfl
  have hend := optimizedState_eq h hsound attempts
  rw [hv, ← hlisted] at hend
  rw [← hend]
  refine runsTo_settle.trans (runsTo_unlock.trans ?_)
  rw [unlock_put]
  refine (runsTo_resume (t := .delist _) (fun _ => rfl)
    (congrArg (·, []) (delist_put k.third))).trans ?_
  refine runsTo_unlock.trans ?_
  rw [unlock_put]
  refine runsTo_unlock.trans ?_
  rw [unlock_put]
  exact runsTo_settle

theorem takeOver_runsTo (h : e.Optimizable k.pair k.owner k.chan k.third) :
    (s.updated (k.put (k.begunState k.attemptedState)) a (.takeOver k.owner k.third :: rest)).RunsTo
      (s.updated (k.put k.thirdHungUpState) a
      (.dispatch k.third .hangup :: .delist k.third :: .unlock k.third :: rest)) := by
  have hopen : ((k.begunState k.attemptedState).channel .third).lock.openTo .main = true := by
    rw [(begunState_keeps .third).2.2.2 rfl]
    exact openTo_of_noScriptedFailure e h.thirdFree
  have hslot : ((k.begunState k.attemptedState).channel .owner).slot = .pair k.pair := by
    rw [(begunState_keeps .owner).1, h.ownerSlot]
  have hproxy : ((k.begunState k.attemptedState).channel .owner).technology = .proxy := by
    rw [(begunState_keeps .owner).2.1, h.proxy]
  have hdriven : (k.put (k.takenOverState (k.begunState k.attemptedState))).isDriven k.third =
    true := by
    rw [isDriven_put, h.registered, Bool.and_true, decide_eq_true_eq]
    exact hproxy
  have hup : ((k.takenOverState (k.begunState k.attemptedState)).channel .third).hungup =
    false := by
    have hstays := h.thirdStays
    rw [Channel.hangingUp, Bool.or_eq_false_iff, Bool.or_eq_false_iff] at hstays
    change ((k.begunState k.attemptedState).channel .third).hungup = false
    rw [(begunState_keeps .third).2.2.1, hstays.1.2]
  refine (runsTo_resume (t := .takeOver _ _) (fun _ => rfl)
    (takeOver_put hopen hslot hproxy h.registered
    h.ownerSide)).trans ?_
  have hfelled := hangup_put hup hdriven
  rw [thirdHungUpState_eq h] at hfelled
  exact runsTo_resume (t := .hangup _) (fun _ => rfl) hfelled

variable (rest) in
theorem dispatch_runsTo (h : e.Optimizable k.pair k.owner k.chan k.third) (hsound : e.locks.Sound)
    (hscripts : s.backOffScripts = [] ∨ e.refuses k.chan = false) :
    ∃ attempts,
      (s.updated (k.put k.thirdHungUpState) a
      (.dispatch k.third .hangup :: .delist k.third :: .unlock k.third ::
        .unlock k.owner :: .settle .done :: rest)).RunsTo
      (s.updated (k.put (k.optimizedState attempts)) .done rest) := by
  have hscripts' : s.backOffScripts = [] ∨
    (k.put (passedState (k.thirdHungUpState.locked .third))).refuses k.chan = false :=
    hscripts.imp_right fun hfree => refuses_chan_thirdHungUpState.trans hfree
  have hdriven : (k.put k.thirdHungUpState).isDriven k.third = true := by
    rw [isDriven_put, h.registered, Bool.and_true, decide_eq_true_eq]
    exact h.proxy
  have hslot : (k.thirdHungUpState.channel .third).slot = .pair k.pair := h.ownerSlot
  have hchan : k.thirdHungUpState.record.chan = some k.chan := h.chanSide
  obtain ⟨attempts, hheard⟩ := thirdDeparture_heard (closing k ++ rest) (s := s) (a := a)
    (v := passedState (k.thirdHungUpState.locked .third)) hscripts' h.chanOpen
    (hsound k.chan) rfl hchan
  refine ⟨attempts, ?_⟩
  refine (runsTo_resume (t := .dispatch _ _) (fun _ => rfl)
    (dispatch_put hdriven rfl hslot rfl hchan)).trans ?_
  rw [List.append_assoc, List.append_assoc]
  exact hheard.trans (runsTo_settle.trans (closing_runsTo h hsound attempts))

variable (a rest) in
theorem optimize_runsTo (h : e.Optimizable k.pair k.owner k.chan k.third) (hsound : e.locks.Sound)
    (hmedia : frame.isMedia = true) (hscripts : s.backOffScripts = [] ∨ e.refuses k.chan = false) :
    ∃ attempts, (s.updated e a (.write k.pair k.chan frame (some k.third) :: rest)).RunsTo
      (s.updated (k.put (k.optimizedState attempts)) .done rest) := by
  obtain ⟨attempts, hleft⟩ := dispatch_runsTo rest (s := s) (a := .relayed) h hsound hscripts
  refine ⟨attempts, ?_⟩
  refine (runsTo_resume (t := .write _ _ _ _) (fun _ => rfl)
    (writeKnowing_eq h hsound hmedia)).trans ?_
  refine runsTo_settle.trans ?_
  refine (runsTo_resume (t := .complete _) (fun _ => rfl)
    (complete_put (refuses_owner_attemptedState h) rfl)).trans ?_
  exact (takeOver_runsTo h).trans hleft

/-- The chan-side writes a frame. The exchange is told of it, and does not swallow it, or the driver
is at once, and nothing is laid down for when the bridge has been resolved; or that has been done,
whatever went on meanwhile. -/
inductive WritesFrame (s : Session) (p : PairId) (chan third : ChannelId) (frame : Frame)
    (rest : List Task) : Prop
  | dispatched (hagenda : s.agenda = .operate (.signal .dispatched chan (.write frame)) :: rest)
      (hscripts : s.resolutionScripts = []) (hheard : (s.exchange.channel chan).zombie = false)
  | direct (hagenda : s.agenda = .operate (.signal .direct chan (.write frame)) :: rest)
      (hscripts : s.resolutionScripts = [])
  | resolved (hagenda : s.agenda = .write p chan frame (some third) :: rest)

variable {p : PairId} {owner chan third : ChannelId} {n : Nat}

theorem resolved_optimizedState (hs : s.Reachable n) (h : s.exchange.Optimizable p owner chan third)
    (hmedia : frame.isMedia = true)
    (hscripts : s.backOffScripts = [] ∨ s.exchange.refuses chan = false)
    (hagenda : s.agenda = .write p chan frame (some third) :: rest) :
    ∃ e', s.RunsTo { s with exchange := e', answer := .done, agenda := rest } ∧
      s.exchange.OptimizedInto e' p owner chan third := by
  obtain ⟨attempts, hruns⟩ :=
    optimize_runsTo s.answer rest (k := h.parties) h hs.locks_sound hmedia hscripts
  have hstanding : s.updated s.exchange s.answer (.write p chan frame (some third) :: rest) =
    s := by
    rw [← hagenda]
    rfl
  refine ⟨h.parties.put (h.parties.optimizedState attempts), ?_,
    h.optimizedState hs.tallied hs.sound.listed attempts⟩
  change (s.updated s.exchange s.answer (.write p chan frame (some third) :: rest)).RunsTo _ at hruns
  rwa [hstanding] at hruns

theorem writes_runsTo (h : s.exchange.Optimizable p owner chan third)
    (hmedia : frame.isMedia = true)
    (hwrites : s.WritesFrame p chan third frame rest) :
    s.RunsTo { s with agenda := .write p chan frame (some third) :: rest } ∨
    s.RunsTo { s with
      exchange := s.exchange.writing chan
      agenda := .write p chan frame (some third) :: .unlock chan :: rest } := by
  have hrecord : s.exchange.recordOf chan = some p := by simp only [recordOf, h.chanSlot]
  have hpause : ∀ (e : Exchange) (rest : List Task), s.resolutionScripts = [] →
      (s.updated e s.answer (.pause .resolution :: rest)).RunsTo (s.updated e s.answer rest) := by
    intro e rest hscripts
    apply runsTo_of_step
    simp only [updated, Session.step, perform, pause, hscripts]
  cases hwrites with
  | dispatched hagenda hscripts hheard =>
      have hsend : s.exchange.send chan (.write frame) =
        (s.exchange, [.dispatch chan (.write frame)]) := by
        simp only [send, hheard, h.chanDriven, Bool.false_eq_true, if_false, if_true]
      have hdispatch : s.exchange.dispatch chan (.write frame) = (s.exchange.writing chan,
          [.pause .resolution, .write p chan frame (some third), .unlock chan]) := by
        rw [dispatch]
        rw [if_pos h.chanDriven, lock?_writing h.chanOpen]
        dsimp only
        rw [signal, writeFrame_eq h.writing hmedia]
        rfl
      have hfirst :
        s.step = s.updated s.exchange s.answer (.dispatch chan (.write frame) :: rest) := by
        rw [step_signal_of_record hagenda hrecord, Exchange.perform, hsend]
        rfl
      refine .inr ((runsTo_of_step hfirst).trans ?_)
      exact (runsTo_resume (t := .dispatch _ _) (fun _ => rfl) hdispatch).trans
        (hpause _ _ hscripts)
  | direct hagenda hscripts =>
      have hfirst : s.step =
          s.updated s.exchange s.answer
          (.pause .resolution :: .write p chan frame (some third) :: rest) := by
        rw [step_signal_of_record hagenda hrecord, Exchange.perform, signal, writeFrame_eq h hmedia]
        rfl
      exact .inl ((runsTo_of_step hfirst).trans (hpause _ _ hscripts))
  | resolved hagenda =>
      refine .inl ⟨0, ?_⟩
      rw [← hagenda]
      rfl

/-- When the chan-side writes media and nothing stands in the way of an optimisation, the write
comes to its end, and so does the optimisation: the owner-side has become what the third channel
was, the third channel is a zombie that has been hung up in its stead, and of what was attached to
the three of them nothing is lost. -/
theorem optimisation_loses_nothing (hs : s.Reachable n)
    (h : s.exchange.Optimizable p owner chan third)
    (hmedia : frame.isMedia = true) (hwrites : s.WritesFrame p chan third frame rest)
    (hscripts : s.backOffScripts = [] ∨ s.exchange.refuses chan = false) :
    ∃ e', s.RunsTo { s with exchange := e', answer := .done, agenda := rest } ∧
      s.exchange.OptimizedInto e' p owner chan third := by
  rcases writes_runsTo h hmedia hwrites with ⟨k, hk⟩ | ⟨k, hk⟩
  · have hreachable := hs.run k
    rw [hk] at hreachable
    obtain ⟨e', hruns, hoptimized⟩ := resolved_optimizedState hreachable h hmedia hscripts rfl
    exact ⟨e', RunsTo.trans ⟨k, hk⟩ hruns, hoptimized⟩
  · have hreachable := hs.run k
    rw [hk] at hreachable
    obtain ⟨e', hruns, hoptimized⟩ := resolved_optimizedState hreachable h.writing hmedia
      (hscripts.imp_right (refuses_writing (among_of_slot _ h.chanSlot) h.chanOpen chan).trans) rfl
    refine ⟨e'.unlock chan, RunsTo.trans ⟨k, hk⟩ (hruns.trans ?_),
      hoptimized.written h hs.locks_sound⟩
    exact runsTo_unlock (s := s)

/-- The owner-side is monitored and the chan-side has a hook and a group. The chan-side's lock is
laid down to be refused once, when the third channel leaves. -/
def merging : List Operation :=
  [.request .dispatched "Local" "100@internal" ⟨4⟩, .newChannel "SIP/third",
    .transfer .bridge ⟨2⟩ ⟨3⟩,
    .edit ⟨1⟩ (.monitor "mixmonitor"), .edit ⟨2⟩ (.audiohook "chanspy"), .edit ⟨2⟩ (.group "sales"),
    .scriptLocks ⟨2⟩ [false], .signal .dispatched ⟨2⟩ (.write (.voice ⟨⟨4⟩, [0]⟩))]

theorem merging_loses_nothing :
    ∃ s, start {} merging = .ok s ∧ (s.run 21).exchange.Optimizable ⟨1⟩ ⟨1⟩ ⟨2⟩ ⟨3⟩ ∧
    (Frame.voice ⟨⟨4⟩, [0]⟩).isMedia = true ∧
    (s.run 21).WritesFrame ⟨1⟩ ⟨2⟩ ⟨3⟩ (.voice ⟨⟨4⟩, [0]⟩) [.report] ∧
    (s.run 21).backOffScripts = [] ∧
    (s.run 21).exchange.refuses ⟨2⟩ = true ∧
    ∃ e', (s.run 21).RunsTo { s.run 21 with exchange := e', answer := .done, agenda := [.report] } ∧
      (e'.channel ⟨1⟩).name = "SIP/third" ∧ (e'.channel ⟨1⟩).monitor = some "mixmonitor" ∧
      (e'.channel ⟨3⟩).name = "Local/100@internal-0001;1<ZOMBIE>" ∧
      e'.holdings (·.audiohooks) [⟨1⟩, ⟨2⟩, ⟨3⟩] = {"chanspy"} ∧ e'.moduleUse.inUse = 1 := by
  have hstart : start {} merging = .ok { exchange := {}, agenda := tasksOf merging } := rfl
  generalize hs : ({ exchange := {}, agenda := tasksOf merging } : Session) = s at hstart
  have hready : (s.run 21).exchange.Optimizable ⟨1⟩ ⟨1⟩ ⟨2⟩ ⟨3⟩ := by
    subst hs
    constructor <;> decide +kernel
  have hmedia : (Frame.voice ⟨⟨4⟩, [0]⟩).isMedia = true := rfl
  have hwrites : (s.run 21).WritesFrame ⟨1⟩ ⟨2⟩ ⟨3⟩ (.voice ⟨⟨4⟩, [0]⟩) [.report] := by
    subst hs
    exact .dispatched rfl (by decide +kernel) (by decide +kernel)
  have hscripts : (s.run 21).backOffScripts = [] := by
    subst hs
    rfl
  have hrefuses : (s.run 21).exchange.refuses ⟨2⟩ = true := by
    subst hs
    decide +kernel
  obtain ⟨e', hruns, hoptimized⟩ :=
    optimisation_loses_nothing ((Reachable.start hstart).run 21) hready hmedia hwrites
    (.inl hscripts)
  refine ⟨s, hstart, hready, hmedia, hwrites, hscripts, hrefuses, e', hruns, ?_, ?_, ?_, ?_, ?_⟩
  · rw [hoptimized.ownerHandle]
    subst hs
    decide +kernel
  · rw [hoptimized.ownerHandle]
    subst hs
    decide +kernel
  · rw [hoptimized.thirdHandle]
    subst hs
    decide +kernel
  · rw [hoptimized.audiohooks]
    subst hs
    decide +kernel
  · have huse : (s.run 21).exchange.moduleUse.inUse = 2 := by
      subst hs
      decide +kernel
    have hless := hoptimized.inUse
    omega

end Session
end Switchboard
