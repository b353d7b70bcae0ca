import Switchboard.Proofs.TurnState.Service

namespace Switchboard

namespace Pair

variable (x : Pair)

@[simp] theorem phase_finished : x.finished.phase = x.phase := by
  rw [finished]
  split <;> rfl

@[simp] theorem phase_left : x.left.phase = x.phase := by
  rw [left]
  split
  · exact phase_finished _
  · rfl

@[simp] theorem phase_retired : x.retired.phase = x.phase := by
  rw [retired]
  split
  · rfl
  · exact phase_finished _

@[simp] theorem phase_detached (side : Side) : (x.detached side).phase = (x.clear side).phase := by
  rw [detached]
  split
  · exact phase_retired _
  · rfl

theorem phase_clear_of_optimized {x : Pair} (h : x.phase = .optimized) (side : Side) :
    (x.clear side).phase = .optimized := by
  cases side with
  | owner => exact h
  | chan =>
      change x.phase.chanDeparted = .optimized
      rw [h]
      rfl

theorem endpoint_finished (s : Side) :
    x.finished.endpoint s = x.endpoint s ∨ x.finished.isVacant = true := by
  rw [finished]
  split
  · exact .inl rfl
  · exact .inr rfl

theorem endpoint_left (s : Side) : x.left.endpoint s = x.endpoint s ∨ x.left.isVacant = true := by
  rw [left]
  split
  · exact endpoint_finished _ s
  · exact .inl rfl

theorem endpoint_detached (side s : Side) :
    (x.detached side).endpoint s = if s = side then none else x.endpoint s := by
  rw [detached]
  rw [← Exchange.endpoint_clear]
  split
  · next hv =>
      rw [Exchange.endpoint_of_isVacant (isVacant_retired hv), Exchange.endpoint_of_isVacant hv]
  · rfl

end Pair

namespace Exchange

variable (e : Exchange)

theorem pairs_modifyPair_of_not_mem {p : PairId} (hp : p ∉ e.pairIds) (f : Pair → Pair) :
    (e.modifyPair p f).pairs = e.pairs := by
  rw [mem_pairIds] at hp
  obtain ⟨_ | i⟩ := p
  · rfl
  · have hlength : e.pairs.rows.length ≤ i := by simpa [Table.size, Nat.succ_le_iff] using hp
    simp only [modifyPair, Table.modify, List.modify_eq_set, List.set_eq_of_length_le hlength]

theorem pairs_destroy_of_not_mem {p : PairId} (hp : p ∉ e.pairIds) :
    (e.destroy p).pairs = e.pairs := by
  rw [destroy]
  split
  · rfl
  · exact pairs_modifyPair_of_not_mem e hp _

theorem pairs_leaveGlare_of_not_mem {p : PairId} (hp : p ∉ e.pairIds) :
    (e.leaveGlare p).pairs = e.pairs := by
  have hmodify := fun f => pairs_modifyPair_of_not_mem e hp f
  rw [leaveGlare]
  dsimp only
  split
  · rw [pairs_destroy_of_not_mem, hmodify]
    rwa [pairIds_eq_of_size (congrArg Table.size (hmodify _))]
  · exact hmodify _

theorem pairs_detach_of_not_mem {p : PairId} (hp : p ∉ e.pairIds) (side : Side) :
    (e.detach p side).pairs = e.pairs := by
  have hclear : (e.clearSide p side).pairs = e.pairs := pairs_modifyPair_of_not_mem e hp _
  have hout : p ∉ (e.clearSide p side).pairIds := by
    rwa [pairIds_eq_of_size (congrArg Table.size hclear)]
  have hcancel : ((e.clearSide p side).cancelGlare p).pairs = e.pairs :=
    (pairs_modifyPair_of_not_mem { e.clearSide p side with registry := _ } hout _).trans hclear
  rw [detach]
  split
  · rw [retire_eq]
    split
    · exact hcancel
    · rw [pairs_destroy_of_not_mem, hcancel]
      rwa [pairIds_eq_of_size (congrArg Table.size hcancel)]
  · exact hclear

theorem channels_destroy (p : PairId) : (e.destroy p).channels = e.channels := by
  rw [destroy]
  split <;> rfl

theorem channels_leaveGlare (p : PairId) : (e.leaveGlare p).channels = e.channels := by
  rw [leaveGlare]
  dsimp only
  split
  · exact channels_destroy _ p
  · rfl

theorem channels_retire (p : PairId) : (e.retire p).channels = e.channels := by
  rw [retire_eq]
  split
  · rfl
  · exact channels_destroy _ p

theorem channels_detach (p : PairId) (side : Side) : (e.detach p side).channels = e.channels := by
  rw [detach]
  split
  · exact channels_retire _ p
  · rfl

theorem pair_modifyPair_or (p q : PairId) (f : Pair → Pair) :
    (e.modifyPair p f).pair q = e.pair q ∨ q = p ∧ (e.modifyPair p f).pair q = f (e.pair q) := by
  by_cases hq : q = p
  · subst hq
    by_cases hp : q ∈ e.pairIds
    · exact .inr ⟨rfl, (revised_modifyPair hp f).here⟩
    · refine .inl ?_
      simp only [pair, pairs_modifyPair_of_not_mem e hp]
  · exact .inl (pair_modifyPair_of_ne e f hq)

theorem pair_leaveGlare_or (p q : PairId) :
    (e.leaveGlare p).pair q = e.pair q ∨ q = p ∧ (e.leaveGlare p).pair q = (e.pair q).left := by
  by_cases hp : p ∈ e.pairIds
  · have hrevised := revised_leaveGlare hp
    by_cases hq : q = p
    · subst hq
      exact .inr ⟨rfl, hrevised.here⟩
    · exact .inl (hrevised.elsewhere q hq)
  · refine .inl ?_
    simp only [pair, pairs_leaveGlare_of_not_mem e hp]

theorem pair_vacate_or (p q : PairId) (side : Side) (leaver : ChannelId) :
    (e.vacate p side leaver).pair q = e.pair q ∧ (q = p → p ∉ e.pairIds) ∨
      q = p ∧ (e.vacate p side leaver).pair q = (e.pair q).detached side := by
  have hslot : (e.vacate p side leaver).pair q = (e.detach p side).pair q := rfl
  rw [hslot]
  by_cases hp : p ∈ e.pairIds
  · have hrevised := revised_detach hp side
    by_cases hq : q = p
    · subst hq
      exact .inr ⟨rfl, hrevised.here⟩
    · exact .inl ⟨hrevised.elsewhere q hq, fun h => absurd h hq⟩
  · refine .inl ⟨?_, fun _ => hp⟩
    simp only [pair, pairs_detach_of_not_mem e hp]

theorem endpoint_leaveGlare {p q : PairId} {s : Side} {c : ChannelId}
    (h : ((e.leaveGlare p).pair q).endpoint s = some c) : (e.pair q).endpoint s = some c := by
  rcases pair_leaveGlare_or e p q with hq | ⟨-, hq⟩ <;> rw [hq] at h
  · exact h
  · rcases Pair.endpoint_left (e.pair q) s with hs | hv
    · exact hs ▸ h
    · rw [endpoint_of_isVacant hv] at h
      cases h

theorem endpoint_vacate {p q : PairId} {side s : Side} {leaver c : ChannelId}
    (h : ((e.vacate p side leaver).pair q).endpoint s = some c) :
    (e.pair q).endpoint s = some c ∧ (q = p → s ≠ side) := by
  rcases pair_vacate_or e p q side leaver with ⟨hq, hnot⟩ | ⟨rfl, hq⟩ <;> rw [hq] at h
  · refine ⟨h, fun hqp => ?_⟩
    rw [pair_of_not_mem (hqp ▸ hnot hqp)] at h
    cases s <;> cases h
  · rw [Pair.endpoint_detached] at h
    split at h
    · cases h
    · next hs => exact ⟨h, fun _ => hs⟩

@[simp] theorem phase_leaveGlare (p q : PairId) :
    ((e.leaveGlare p).pair q).phase = (e.pair q).phase := by
  rcases pair_leaveGlare_or e p q with hq | ⟨-, hq⟩ <;> rw [hq]
  exact Pair.phase_left _

theorem channel_swapIdentities_congr {β : Type} (g : ChannelView → β)
    (hg : ∀ x s t, g { x with slot := s, technology := t } = g x) (survivor clone c : ChannelId) :
    g ((e.swapIdentities survivor clone).channel c).channelView = g (e.channel c).channelView := by
  have hmodify : ∀ (x : Exchange) (d : ChannelId) (f : Channel → Channel),
      (∀ y : Channel, ∃ s t, (f y).channelView =
      { y.channelView with slot := s, technology := t }) →
      g ((x.modifyChannel d f).channel c).channelView = g (x.channel c).channelView := by
    intro x d f hf
    refine channel_modifyChannel_congr (fun y => g y.channelView) x d c ?_
    obtain ⟨s, t, hst⟩ := hf (x.channel d)
    rw [hst, hg]
  rw [swapIdentities]
  rw [hmodify, channelView_eq_of_view (view_swapMonitors _ survivor clone), hmodify, hmodify]
  · exact fun y => ⟨.empty, y.technology, rfl⟩
  · exact fun y => ⟨(e.channel clone).slot, (e.channel clone).technology, rfl⟩
  · exact fun y => ⟨_, _, rfl⟩

theorem channelView_swapIdentities_of_ne {survivor clone c : ChannelId} (hs : c ≠ survivor)
    (hc : c ≠ clone) :
    ((e.swapIdentities survivor clone).channel c).channelView = (e.channel c).channelView := by
  rw [swapIdentities]
  rw [channel_modifyChannel_of_ne _ _ hc,
    channelView_eq_of_view (view_swapMonitors _ survivor clone),
    channel_modifyChannel_of_ne _ _ hs, channel_modifyChannel_of_ne _ _ hc]

@[simp] theorem size_swapIdentities (survivor clone : ChannelId) :
    (e.swapIdentities survivor clone).channels.size = e.channels.size := by
  rw [swapIdentities]
  rw [size_modifyChannel, size_eq_of_view (view_swapMonitors _ survivor clone), size_modifyChannel,
    size_modifyChannel]

theorem channelView_of_not_among {e : Exchange} {c : ChannelId} (h : ¬ c.Among e.channels.size) :
    (e.channel c).channelView = .unused .empty .proxy := by
  rw [channel_of_not_among e h]
  rfl

end Exchange

namespace TurnState

open Exchange

variable {may : Effect → Prop} {x y : TurnState}

/-- Every endpoint of a record is a channel that was made. -/
def Seated (e : Exchange) : Prop :=
  ∀ p side c, (e.pair p).endpoint side = some c → c.Among e.channels.size

theorem Step.seated (hs : Step may x y) (h : Seated x.exchange) : Seated y.exchange := by
  intro p side c hc
  cases hs with
  | quiet hview =>
      rw [pair_eq_of_view hview] at hc
      rw [size_eq_of_view hview]
      exact h p side c hc
  | enter e w d a =>
      rw [pair_modifyPair_congr Pair.endpoint e a.pair p rfl] at hc
      exact h p side c hc
  | leave e w d a =>
      rw [channels_leaveGlare]
      exact h p side c (endpoint_leaveGlare e hc)
  | @depart e w d a s leaver =>
      rw [vacate]
      rw [setSlot, size_modifyChannel, channels_detach]
      exact h p side c (endpoint_vacate e hc).1
  | call e w d q chan =>
      rw [pair_modifyPair_congr Pair.endpoint (e.serve chan) q p rfl] at hc
      rw [show ((e.serve chan).modifyPair q _).channels.size =
        e.channels.size from size_modifyChannel chan _]
      exact h p side c hc
  | optimize e w d q =>
      rw [pair_modifyPair_congr Pair.endpoint e q p rfl] at hc
      exact h p side c hc
  | swap e w d survivor clone =>
      rw [size_swapIdentities]
      exact h p side c hc
  | reseat e w d q s old new _ hslot =>
      rcases pair_modifyPair_or e q p (·.replaced s new) with hp | ⟨-, hp⟩ <;> rw [hp] at hc
      · exact h p side c hc
      · rw [endpoint_replaced] at hc
        split at hc
        · obtain rfl := Option.some.inj hc
          exact among_of_slot e (slot_of_recordOf hslot)
        · exact h p side c hc
  | grow hgrown =>
      rw [hgrown.pair] at hc
      exact (h p side c hc).mono hgrown.channels
  | @opened e e' w d q owner chan hopened =>
      by_cases hp : p = q
      · subst hp
        obtain ⟨_, _, _, hrecord⟩ := hopened.record
        rw [hrecord] at hc
        cases side with
        | owner => exact Option.some.inj hc ▸ (hopened.made owner (.inl rfl)).2.1
        | chan => exact Option.some.inj hc ▸ (hopened.made chan (.inr rfl)).2.1
      · rw [hopened.elsewhere p hp] at hc
        exact (h p side c hc).mono hopened.channels
  | start | scheduleHangup | register => exact h p side c hc
  | queue e w d a c' =>
      rw [queueFrame]
      rw [size_modifyChannel]
      exact h p side c hc
  | serve e w d c' | mark e w d c' | feed e w d c' | refit e w d c' =>
      refine ChannelId.Among.mono (h p side c hc) (Nat.le_of_eq ?_)
      exact (size_modifyChannel c' _).symm

theorem Leads.seated (hs : Leads may x y) (h : Seated x.exchange) : Seated y.exchange := by
  induction hs with
  | refl => exact h
  | tail _ hstep ih => exact hstep.seated ih

theorem Step.frames (hs : Step may x y) :
    (∀ c, (y.exchange.channel c).frames = (x.exchange.channel c).frames) ∨
    (∃ a rest c f, may (.carries a) ∧ x.waiting = a :: rest ∧ y.waiting = a :: rest ∧
      (x.exchange.pair a.pair).endpoint a.side = some c ∧ a.purpose.message = some f ∧
      (a.purpose.isRelay = true → (x.exchange.pair a.pair).phase.isMasqueraded = false) ∧
      y.exchange = x.exchange.queueFrame c f) ∨
    ∃ c, may (.feeds c) ∧ x.waiting = y.waiting ∧
      ∀ d ≠ c, (y.exchange.channel d).frames = (x.exchange.channel d).frames := by
  have hmodify : ∀ (e : Exchange) (d : ChannelId) (f : Channel → Channel),
    (∀ z, (f z).frames = z.frames) →
      ∀ c, ((e.modifyChannel d f).channel c).frames = (e.channel c).frames :=
    fun e d f hf c => channel_modifyChannel_congr Channel.frames e d c (hf _)
  cases hs with
  | quiet h => exact .inl fun c => congrArg ChannelView.frames (channelView_eq_of_view h c)
  | enter | start | optimize | scheduleHangup | reseat | register => exact .inl fun c => rfl
  | queue e w d a c f hmay hend hmessage hphase =>
      exact .inr (.inl ⟨a, w, c, f, hmay, rfl, rfl, hend, hmessage, hphase, rfl⟩)
  | leave e w d a =>
      exact .inl fun c => congrArg Channel.frames
        (channel_eq_of_channels (channels_leaveGlare e a.pair) c)
  | @depart e w d a s leaver =>
      refine .inl fun c => ?_
      have hdetach := channel_eq_of_channels (channels_detach e a.pair s) c
      exact (hmodify (e.detach a.pair s) leaver ({ · with slot := .empty }) (fun _ => rfl) c).trans
        (congrArg Channel.frames hdetach)
  | call e w d p chan => exact .inl (hmodify e chan _ fun _ => rfl)
  | serve e w d c | mark e w d c | refit e w d c => exact .inl (hmodify e c _ fun _ => rfl)
  | swap e w d survivor clone =>
      exact .inl (channel_swapIdentities_congr e ChannelView.frames
        (fun _ _ _ => rfl) survivor clone)
  | feed e w d c g hmay =>
      refine .inr (.inr ⟨c, hmay, rfl, fun c' hc' => ?_⟩)
      exact congrArg Channel.frames (channel_modifyChannel_of_ne e _ hc')
  | grow h =>
      refine .inl fun c => ?_
      rcases h.channelView c with hc | ⟨hnew, t, hc⟩
      · exact congrArg ChannelView.frames hc
      · exact (congrArg ChannelView.frames hc).trans
          (congrArg ChannelView.frames (channelView_of_not_among hnew)).symm
  | @opened e e' w d p owner chan h =>
      refine .inl fun c => ?_
      by_cases hc : c = owner ∨ c = chan
      · obtain ⟨hnew, -, hchannelView⟩ := h.made c hc
        exact (congrArg ChannelView.frames hchannelView).trans
          (congrArg ChannelView.frames (channelView_of_not_among hnew)).symm
      · rw [not_or] at hc
        exact congrArg ChannelView.frames (h.channelView c hc.1 hc.2)

/-- What is put on a queue is the message of somebody who may carry it. -/
theorem Step.brings (hs : Step may x y) {c : ChannelId} (hfeeds : ¬ may (.feeds c)) :
    ∃ l, (y.exchange.channel c).frames = (x.exchange.channel c).frames ++ l ∧
      ∀ f ∈ l, ∃ a, may (.carries a) ∧ a.purpose.message = some f := by
  have hnone : (y.exchange.channel c).frames = (x.exchange.channel c).frames →
      ∃ l, (y.exchange.channel c).frames = (x.exchange.channel c).frames ++ l ∧
        ∀ f ∈ l, ∃ a, may (.carries a) ∧ a.purpose.message = some f :=
    fun hsame => ⟨[], by rw [hsame, List.append_nil], List.forall_mem_nil _⟩
  rcases hs.frames with hsame | ⟨a, rest, b, f, hmay, -, -, -, hmessage, -, hy⟩ |
    ⟨b, hmay, -, hothers⟩
  · exact hnone (hsame c)
  · rw [hy, queueFrame] at hnone ⊢
    rcases channel_modifyChannel_or x.exchange b c
      (fun z => { z with frames := z.frames ++ [f] }) with hc | ⟨-, hc⟩
    · exact hnone (by rw [hc])
    · exact ⟨[f], by rw [hc], List.forall_mem_singleton.2 ⟨a, hmay, hmessage⟩⟩
  · have hne : c ≠ b := fun hc => hfeeds (hc ▸ hmay)
    exact hnone (hothers c hne)

theorem Leads.brings (hs : Leads may x y) {c : ChannelId} (hfeeds : ¬ may (.feeds c)) :
    ∃ l, (y.exchange.channel c).frames = (x.exchange.channel c).frames ++ l ∧
      ∀ f ∈ l, ∃ a, may (.carries a) ∧ a.purpose.message = some f := by
  induction hs with
  | refl => exact ⟨[], (List.append_nil _).symm, List.forall_mem_nil _⟩
  | tail _ hstep ih =>
      obtain ⟨l, hl, hbrought⟩ := ih
      obtain ⟨more, hmore, hbrings⟩ := hstep.brings hfeeds
      refine ⟨l ++ more, by rw [hmore, hl, List.append_assoc], fun f hf => ?_⟩
      rcases List.mem_append.1 hf with hf | hf
      · exact hbrought f hf
      · exact hbrings f hf

theorem Leads.grows (hs : Leads may x y) {c : ChannelId} (hfeeds : ¬ may (.feeds c)) :
    (x.exchange.channel c).frames <+: (y.exchange.channel c).frames :=
  let ⟨l, hl, _⟩ := hs.brings hfeeds
  ⟨l, hl.symm⟩

theorem Step.carries (hs : Step may x y) {a : Acquisition} (ha : a ∈ y.waiting) :
    a ∈ x.waiting ∨ may (.carries a) := by
  cases hs with
  | enter e w d b hmay | start e w d b hmay =>
      rcases List.mem_cons.1 ha with rfl | ha
      · exact .inr hmay
      · exact .inl ha
  | leave | depart => exact .inl (.tail _ ha)
  | _ => exact .inl ha

theorem Leads.carries (hs : Leads may x y) {a : Acquisition} (ha : a ∈ y.waiting) :
    a ∈ x.waiting ∨ may (.carries a) := by
  induction hs with
  | refl => exact .inl ha
  | tail _ hstep ih => exact (hstep.carries ha).elim ih .inr

theorem Step.pairs (hs : Step may x y) : x.exchange.pairs.size ≤ y.exchange.pairs.size := by
  have hmodify : ∀ (e : Exchange) (p : PairId) (f : Pair → Pair),
      e.pairs.size ≤ (e.modifyPair p f).pairs.size := fun e p f => (Table.size_modify _ _ _).ge
  cases hs with
  | quiet h => exact (congrArg (·.pairs.size) h).ge
  | enter e w d a => exact hmodify e a.pair _
  | leave e w d a =>
      by_cases hp : a.pair ∈ e.pairIds
      · exact (revised_leaveGlare hp).size.ge
      · exact (congrArg Table.size (pairs_leaveGlare_of_not_mem e hp)).ge
  | @depart e w d a side leaver =>
      by_cases hp : a.pair ∈ e.pairIds
      · exact (revised_detach hp side).size.ge
      · exact (congrArg Table.size (pairs_detach_of_not_mem e hp side)).ge
  | call e w d p chan => exact hmodify (e.serve chan) p _
  | optimize e w d p => exact hmodify e p _
  | reseat e w d p side old new => exact hmodify e p _
  | grow h => exact (congrArg Table.size h.pairs).ge
  | opened h => exact h.pairs
  | start | queue | serve | mark | scheduleHangup | swap | feed | refit | register =>
      exact Nat.le_refl _

theorem Step.gone (hs : Step may x y) {p : PairId} {s : Side} (hp : p ∈ x.exchange.pairIds)
    (h : (x.exchange.pair p).endpoint s = none) : (y.exchange.pair p).endpoint s = none := by
  cases hs with
  | quiet hview => rwa [pair_eq_of_view hview]
  | enter e w d a => exact (congrFun (pair_modifyPair_congr Pair.endpoint e a.pair p rfl) s).trans h
  | call e w d q chan =>
      exact (congrFun (pair_modifyPair_congr Pair.endpoint (e.serve chan) q p rfl) s).trans h
  | optimize e w d q => exact (congrFun (pair_modifyPair_congr Pair.endpoint e q p rfl) s).trans h
  | leave e w d a =>
      by_contra hsome
      obtain ⟨c, hc⟩ := Option.ne_none_iff_exists'.1 hsome
      exact hsome (hc.trans ((endpoint_leaveGlare e hc).symm.trans h))
  | @depart e w d a side leaver =>
      by_contra hsome
      obtain ⟨c, hc⟩ := Option.ne_none_iff_exists'.1 hsome
      exact hsome (hc.trans ((endpoint_vacate e hc).1.symm.trans h))
  | reseat e w d q side old new _ _ hend =>
      rcases pair_modifyPair_or e q p (·.replaced side new) with hq | ⟨rfl, hq⟩ <;>
        dsimp only <;> rw [hq]
      · exact h
      · rw [endpoint_replaced]
        split
        · next hs =>
            subst hs
            rw [h] at hend
            cases hend
        · exact h
  | grow hgrown => rwa [hgrown.pair]
  | @opened e e' w d q owner chan hopened =>
      have hne : p ≠ q := fun hpq => hopened.new (hpq ▸ hp)
      dsimp only
      rwa [hopened.elsewhere p hne]
  | start | queue | serve | mark | scheduleHangup | swap | feed | refit | register => exact h

theorem Leads.known (hs : Leads may x y) {p : PairId} (hp : p ∈ x.exchange.pairIds) :
    p ∈ y.exchange.pairIds := by
  induction hs with
  | refl => exact hp
  | tail _ hstep ih =>
      rw [mem_pairIds] at ih ⊢
      exact ⟨ih.1, Nat.le_trans ih.2 hstep.pairs⟩

theorem Leads.gone (hs : Leads may x y) {p : PairId} {s : Side} (hp : p ∈ x.exchange.pairIds)
    (h : (x.exchange.pair p).endpoint s = none) : (y.exchange.pair p).endpoint s = none := by
  induction hs with
  | refl => exact h
  | tail hsteps hstep ih => exact hstep.gone (Leads.known hsteps hp) ih

end TurnState
end Switchboard
