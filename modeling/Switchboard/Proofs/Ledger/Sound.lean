import Mathlib.Data.List.Count
import Switchboard.Proofs.Glare
import Switchboard.Proofs.Ledger

namespace Switchboard

namespace Registry

/-- What was registered and not unlinked is listed, and once. -/
structure Balanced (r : Registry) : Prop where
  nodup : r.pairs.Nodup
  size : r.stats.unlinked + r.size = r.stats.registered

variable {r : Registry} {p : PairId}

theorem register_of_not_mem (h : p ∉ r.pairs) :
    r.register p = ⟨r.pairs ++ [p], { r.stats with registered := r.stats.registered + 1 }⟩ := by
  simp [register, contains, h]

theorem unlink_of_not_mem (h : p ∉ r.pairs) : r.unlink p = r := by
  simp [unlink, contains, h]

theorem unlink_of_mem (h : p ∈ r.pairs) :
    r.unlink p = ⟨r.pairs.filter (· ≠ p), { r.stats with unlinked := r.stats.unlinked + 1 }⟩ := by
  simp [unlink, contains, h]

theorem pairs_unlink : (r.unlink p).pairs = r.pairs.filter (· ≠ p) := by
  by_cases h : p ∈ r.pairs
  · rw [unlink_of_mem h]
  · rw [unlink_of_not_mem h, eq_comm, List.filter_eq_self]
    intro q hq
    simpa using fun hqp : q = p => h (hqp ▸ hq)

theorem stats_unlink : (r.unlink p).stats.registered = r.stats.registered ∧
    (r.unlink p).stats.destroyed = r.stats.destroyed := by
  rw [unlink]
  split <;> exact ⟨rfl, rfl⟩

theorem Balanced.register (h : r.Balanced) (hp : p ∉ r.pairs) : (r.register p).Balanced := by
  rw [register_of_not_mem hp]
  constructor
  · rw [List.nodup_append]
    refine ⟨h.nodup, List.nodup_singleton p, fun q hq q' hq' hqq => hp ?_⟩
    rwa [hqq, List.mem_singleton.1 hq'] at hq
  · have hsize := h.size
    simp only [Registry.size, List.length_append, List.length_singleton] at hsize ⊢
    omega

theorem Balanced.unlink (h : r.Balanced) (p : PairId) : (r.unlink p).Balanced := by
  by_cases hp : p ∈ r.pairs
  · rw [unlink_of_mem hp]
    refine ⟨h.nodup.filter _, ?_⟩
    have herase : r.pairs.filter (· ≠ p) = r.pairs.erase p := by
      rw [h.nodup.erase_eq_filter]
      exact List.filter_congr fun q _ => by simp [bne, beq_eq_decide]
    have hlength := List.length_erase_of_mem hp
    have hpos := List.length_pos_of_mem hp
    have hsize := h.size
    simp only [Registry.size, herase] at hsize ⊢
    omega
  · rwa [unlink_of_not_mem hp]

theorem Balanced.noteDestroyed (h : r.Balanced) : r.noteDestroyed.Balanced := ⟨h.nodup, h.size⟩

end Registry

theorem filter_eq_filter_ne {α : Type} [DecidableEq α] {f g : α → Bool} {a : α} (l : List α)
    (ha : g a = false) (h : ∀ b ≠ a, g b = f b) : l.filter g = (l.filter f).filter (· ≠ a) := by
  rw [List.filter_filter]
  apply List.filter_congr
  intro b _
  by_cases hb : b = a
  · simp [hb, ha]
  · simp [hb, h b hb]

theorem countP_eq_succ {α : Type} [DecidableEq α] {f g : α → Bool} {a : α} {l : List α}
    (hl : l.Nodup) (hmem : a ∈ l) (hf : f a = false) (hg : g a = true) (h : ∀ b ≠ a, g b = f b) :
    l.countP g = l.countP f + 1 := by
  have hperm := List.perm_cons_erase hmem
  have hrest : (l.erase a).countP g = (l.erase a).countP f := by
    apply List.countP_congr
    intro b hb
    rw [h b fun hba => hl.not_mem_erase (hba ▸ hb)]
  rw [hperm.countP_eq g, hperm.countP_eq f, List.countP_cons_of_pos hg,
    List.countP_cons_of_neg (by simp [hf]), hrest]

def Registry.noting (r : Registry) (p : PairId) (before after : Pair) : Registry :=
  let r := if after.isVacant then r.unlink p else r
  if after.destroyed = before.destroyed then r else r.noteDestroyed

structure Ledger.Sound (l : Ledger) : Prop where
  record : ∀ p ∈ l.exchange.pairIds, (l.exchange.pair p).Sound (l.pendingRetries.count (p, true))
  known : ∀ k ∈ l.pendingRetries, k.1 ∈ l.exchange.pairIds
  listed : l.exchange.registry.pairs =
    l.exchange.pairIds.filter fun p => !(l.exchange.pair p).isVacant
  balanced : l.exchange.registry.Balanced
  registered : l.exchange.registry.stats.registered = l.exchange.pairs.size
  destroyed : l.exchange.registry.stats.destroyed =
    l.exchange.pairIds.countP fun p => (l.exchange.pair p).destroyed

namespace Registry

variable {r : Registry} {p : PairId} {before after : Pair}

theorem Balanced.noting (h : r.Balanced) : (r.noting p before after).Balanced := by
  rw [Registry.noting]
  split <;> split
  · exact h.unlink p
  · exact h
  · exact (h.unlink p).noteDestroyed
  · exact h.noteDestroyed

theorem noting_of_unlisted (h : after.isVacant = true → p ∉ r.pairs) :
    r.noting p before after = if after.destroyed = before.destroyed then r
      else r.noteDestroyed := by
  rw [Registry.noting]
  by_cases hv : after.isVacant = true
  · rw [if_pos hv, unlink_of_not_mem (h hv)]
  · rw [if_neg hv]

theorem noting_of_kept (h : after.isVacant = true → p ∉ r.pairs)
    (hd : after.destroyed = before.destroyed) : r.noting p before after = r := by
  rw [noting_of_unlisted h, if_pos hd]

theorem pairs_noting :
    (r.noting p before after).pairs = if after.isVacant then r.pairs.filter
      (· ≠ p) else r.pairs := by
  rw [Registry.noting]
  split <;> split
  · exact pairs_unlink
  · rfl
  · exact pairs_unlink
  · rfl

theorem stats_noting :
    (r.noting p before after).stats.registered = r.stats.registered ∧
    (r.noting p before after).stats.destroyed =
      r.stats.destroyed + if after.destroyed = before.destroyed then 0 else 1 := by
  have hunlink := stats_unlink (r := r) (p := p)
  rw [Registry.noting]
  split <;> split
  · exact hunlink
  · exact ⟨rfl, rfl⟩
  · exact ⟨hunlink.1, congrArg (· + 1) hunlink.2⟩
  · exact ⟨rfl, rfl⟩

end Registry

namespace Ledger

open Exchange

theorem registry_detach {e : Exchange} {p : PairId} (hp : p ∈ e.pairIds) (side : Side) :
    (e.detach p side).registry = e.registry.noting p (e.pair p) ((e.pair p).detached side) := by
  have hc := revised_clearSide hp side
  unfold detach Pair.detached
  rw [hc.here]
  by_cases hv : ((e.pair p).clear side).isVacant = true
  · rw [if_pos hv, if_pos hv, registry_retire (hc.pairIds ▸ hp), hc.here, Pair.destroyed_clear]
    rw [Registry.noting]
    rw [if_pos (Pair.isVacant_retired hv)]
    rfl
  · rw [if_neg hv, if_neg hv, Registry.noting_of_kept (fun h => absurd h hv)
      (Pair.destroyed_clear side)]
    rfl

/-- One record has become `x`, with the retries pending on it and the registry's note of it. -/
structure Revision (l l' : Ledger) (p : PairId) (x : Pair) : Prop where
  known : p ∈ l.exchange.pairIds
  revised : Revised l.exchange l'.exchange p x
  sound : x.Sound (l'.pendingRetries.count (p, true))
  others : ∀ q ≠ p, l'.pendingRetries.count (q, true) = l.pendingRetries.count (q, true)
  pendingRetries : ∀ k ∈ l'.pendingRetries, k ∈ l.pendingRetries ∨ k.1 = p
  registry : l'.exchange.registry = l.exchange.registry.noting p (l.exchange.pair p) x
  vacant : (l.exchange.pair p).isVacant = true → x.isVacant = true
  destroyed : (l.exchange.pair p).destroyed = true → x.destroyed = true

variable {found : Pair → Prop} {l l' : Ledger} {p : PairId} {x : Pair}

theorem Revision.ended (h : Revision l l' p x) {q : PairId}
    (hq : (l.exchange.pair q).destroyed = true) :
    (l'.exchange.pair q).destroyed = true := by
  by_cases hqp : q = p
  · subst hqp
    rw [h.revised.here]
    exact h.destroyed hq
  · rwa [h.revised.elsewhere q hqp]

theorem Sound.revise (h : l.Sound) (hr : Revision l l' p x) : l'.Sound where
  record q hq := by
    rw [hr.revised.pairIds] at hq
    by_cases hqp : q = p
    · subst hqp
      rw [hr.revised.here]
      exact hr.sound
    · rw [hr.revised.elsewhere q hqp, hr.others q hqp]
      exact h.record q hq
  known k hk := by
    rw [hr.revised.pairIds]
    rcases hr.pendingRetries k hk with hm | rfl
    · exact h.known k hm
    · exact hr.known
  listed := by
    rw [hr.registry, Registry.pairs_noting, hr.revised.pairIds, h.listed]
    by_cases hv : x.isVacant = true
    · rw [if_pos hv, eq_comm]
      apply filter_eq_filter_ne _ (by simp [hr.revised.here, hv])
      intro q hq
      rw [hr.revised.elsewhere q hq]
    · rw [if_neg hv]
      apply List.filter_congr
      intro q _
      by_cases hq : q = p
      · have hbefore : ¬ (l.exchange.pair p).isVacant = true := fun hb => hv (hr.vacant hb)
        rw [hq, hr.revised.here, Bool.eq_false_iff.2 hv, Bool.eq_false_iff.2 hbefore]
      · rw [hr.revised.elsewhere q hq]
  balanced := by
    rw [hr.registry]
    exact h.balanced.noting
  registered := by
    rw [hr.registry, Registry.stats_noting.1, hr.revised.size]
    exact h.registered
  destroyed := by
    rw [hr.registry, Registry.stats_noting.2, h.destroyed, hr.revised.pairIds]
    by_cases hd : x.destroyed = (l.exchange.pair p).destroyed
    · rw [if_pos hd]
      apply List.countP_congr
      intro q _
      by_cases hq : q = p
      · rw [hq, hr.revised.here, hd]
      · rw [hr.revised.elsewhere q hq]
    · rw [if_neg hd]
      have hbefore : (l.exchange.pair p).destroyed = false := by
        refine Bool.eq_false_iff.2 fun hb => hd ?_
        rw [hr.destroyed hb, hb]
      have hafter : (l'.exchange.pair p).destroyed = true := by
        rw [hbefore] at hd
        rw [hr.revised.here]
        simpa using hd
      refine (countP_eq_succ (nodup_pairIds _) hr.known hbefore hafter fun q hq => ?_).symm
      rw [hr.revised.elsewhere q hq]

theorem Sound.not_listed (h : l.Sound) (hv : (l.exchange.pair p).isVacant = true) :
    p ∉ l.exchange.registry.pairs := by
  rw [h.listed]
  simp [hv]

theorem Sound.revision_modifyPair {e : Exchange} {m m' : Multiset (PairId × Bool)}
    (h : Sound ⟨e, m⟩)
    (hp : p ∈ e.pairIds) (f : Pair → Pair) (hsound : (f (e.pair p)).Sound (m'.count (p, true)))
    (hothers : ∀ q ≠ p, m'.count (q, true) = m.count (q, true))
    (herrands : ∀ k ∈ m', k ∈ m ∨ k.1 = p)
    (hvacant : (f (e.pair p)).isVacant = (e.pair p).isVacant)
    (hdestroyed : (f (e.pair p)).destroyed = (e.pair p).destroyed) :
    Revision ⟨e, m⟩ ⟨e.modifyPair p f, m'⟩ p (f (e.pair p)) where
  known := hp
  revised := revised_modifyPair hp f
  sound := hsound
  others := hothers
  pendingRetries := herrands
  registry := (Registry.noting_of_kept (fun hv => h.not_listed (hvacant ▸ hv)) hdestroyed).symm
  vacant hv := hvacant ▸ hv
  destroyed hd := hdestroyed ▸ hd

theorem Step.revision (hs : Step found l l') (h : l.Sound) : ∃ p x, Revision l l' p x := by
  cases hs with
  | enter e m p side hend =>
      have hp := mem_pairIds_of_endpoint hend
      refine ⟨p, _, h.revision_modifyPair hp Pair.entered ?_ ?_ ?_ rfl rfl⟩
      · rw [Multiset.count_cons_self]
        exact (h.record p hp).entered (Pair.not_isVacant_iff.2 ⟨side, hend⟩)
      · intro q hq
        rw [Multiset.count_cons_of_ne (by simpa using hq)]
      · intro k hk
        rcases Multiset.mem_cons.1 hk with rfl | hm
        · exact .inr rfl
        · exact .inl hm
  | leave e m p =>
      have hp := h.known (p, true) (Multiset.mem_cons_self _ _)
      have hrecord := h.record p hp
      rw [Multiset.count_cons_self] at hrecord
      refine ⟨p, (e.pair p).left, hp, revised_leaveGlare hp, hrecord.left, ?_, ?_, ?_, ?_, ?_⟩
      · intro q hq
        rw [Multiset.count_cons_of_ne (by simpa using hq)]
      · exact fun k hk => .inl (Multiset.mem_cons_of_mem hk)
      · rw [Registry.noting_of_unlisted, registry_leaveGlare hp]
        exact fun hv => h.not_listed (hrecord.isVacant_left ▸ hv)
      · exact fun hv => hrecord.isVacant_left ▸ hv
      · exact Pair.destroyed_left
  | await e m p side hend =>
      have hp := mem_pairIds_of_endpoint hend
      have hkept : e.registry.noting p (e.pair p) (e.pair p) = e.registry :=
        Registry.noting_of_kept (fun hv => h.not_listed hv) rfl
      refine ⟨p, e.pair p, hp, ⟨rfl, rfl, fun _ _ => rfl⟩, ?_, ?_, ?_, hkept.symm, id, id⟩
      · rw [Multiset.count_cons_of_ne (by simp)]
        exact h.record p hp
      · exact fun q _ => Multiset.count_cons_of_ne (by simp) m
      · intro k hk
        rcases Multiset.mem_cons.1 hk with rfl | hm
        · exact .inr rfl
        · exact .inl hm
  | detach e m p side hfrom =>
      have hp := h.known (p, false) (Multiset.mem_cons_self _ _)
      have hrecord := h.record p hp
      rw [Multiset.count_cons_of_ne (by simp)] at hrecord
      refine ⟨p, _, hp, revised_detach hp side, hrecord.detached side, ?_, ?_, ?_, ?_, ?_⟩
      · exact fun q _ => (Multiset.count_cons_of_ne (by simp) m).symm
      · exact fun k hk => .inl (Multiset.mem_cons_of_mem hk)
      · exact registry_detach hp side
      · exact Pair.isVacant_detached side
      · exact Pair.destroyed_detached side
  | replace e m p side c hend =>
      have hp := mem_pairIds_of_endpoint hend
      have hvacant : (e.pair p).isVacant = false := Pair.not_isVacant_iff.2 ⟨side, hend⟩
      refine ⟨p, _, h.revision_modifyPair hp (·.replaced side c) ?_ (fun _ _ => rfl)
        (fun _ hk => .inl hk)
        ?_ ?_⟩
      · exact (h.record p hp).replaced hvacant side c
      · rw [hvacant]
        cases side <;> simp [Pair.replaced, Pair.isVacant]
      · cases side <;> rfl
  | rephase e m p phase hp =>
      have hrecord := h.record p hp
      refine ⟨p, _, h.revision_modifyPair hp ({ · with phase := phase }) ?_ (fun _ _ => rfl)
        (fun _ hk => .inl hk) rfl rfl⟩
      exact ⟨hrecord.inFlight, hrecord.detected, hrecord.cancelled, hrecord.destroyed,
        hrecord.vacant⟩

theorem Step.sound (hs : Step found l l') (h : l.Sound) : l'.Sound := by
  obtain ⟨p, x, hr⟩ := hs.revision h
  exact h.revise hr

theorem Steps.sound (hs : Steps found l l') (h : l.Sound) : l'.Sound := by
  induction hs with
  | refl => exact h
  | tail _ hstep ih => exact hstep.sound ih

theorem Steps.ended (hs : Steps found l l') (h : l.Sound) {p : PairId}
    (hp : (l.exchange.pair p).destroyed = true) : (l'.exchange.pair p).destroyed = true := by
  induction hs with
  | refl => exact hp
  | tail hsteps hstep ih =>
      obtain ⟨q, x, hr⟩ := hstep.revision (Steps.sound hsteps h)
      exact hr.ended ih

theorem sound_empty (config : Config) : Sound ⟨{ config }, 0⟩ where
  record _ hp := absurd hp List.not_mem_nil
  known k hk := absurd hk (Multiset.notMem_zero k)
  listed := rfl
  balanced := ⟨List.nodup_nil, rfl⟩
  registered := rfl
  destroyed := rfl

theorem Sound.count_next (h : l.Sound) :
    l.pendingRetries.count (⟨l.exchange.pairs.next⟩, true) = 0 :=
  Multiset.count_eq_zero_of_notMem fun hm => next_not_mem_pairIds l.exchange (h.known _ hm)

theorem Sound.opened {e : Exchange} {m : Multiset (PairId × Bool)} (h : Sound ⟨e, m⟩)
    (d : Destination)
    (format : FormatMask) (j : Jitterbuffer) (owner chan : ChannelId) :
    Sound ⟨e.opened (.opened d format j owner chan), m⟩ := by
  have hnew := Pair.sound_opened d format j owner chan
  have hlive : (Pair.opened d format j owner chan).isVacant = false := rfl
  have hrunning : (Pair.opened d format j owner chan).destroyed = false := rfl
  generalize Pair.opened d format j owner chan = x at hnew hlive hrunning ⊢
  have hnext : (⟨e.pairs.next⟩ : PairId) ∉ e.registry.pairs := by
    rw [h.listed]
    exact fun hm => next_not_mem_pairIds e (List.mem_of_mem_filter hm)
  have hold : ∀ q ∈ e.pairIds, (e.opened x).pair q = e.pair q := fun q hq => pair_opened_of_mem x hq
  refine ⟨?_, ?_, ?_, h.balanced.register hnext, ?_, ?_⟩
  · intro q hq
    dsimp only at hq ⊢
    rw [pairIds_opened, List.mem_append, List.mem_singleton] at hq
    rcases hq with hq | rfl
    · rw [hold q hq]
      exact h.record q hq
    · rw [pair_opened_next, h.count_next]
      exact hnew
  · intro k hk
    dsimp only
    rw [pairIds_opened, List.mem_append]
    exact .inl (h.known k hk)
  · have hlisted := h.listed
    dsimp only at hlisted ⊢
    rw [pairIds_opened, List.filter_append, List.filter_congr fun q hq => by rw [hold q hq]]
    have hpairs : (e.opened x).registry.pairs = e.registry.pairs ++ [⟨e.pairs.next⟩] := by
      rw [Exchange.opened, Registry.register_of_not_mem hnext]
    simp [hpairs, hlisted, pair_opened_next, hlive]
  · have hregistered := h.registered
    dsimp only at hregistered ⊢
    rw [Exchange.opened, Registry.register_of_not_mem hnext, Table.size_push]
    exact congrArg (· + 1) hregistered
  · have hdestroyed := h.destroyed
    dsimp only at hdestroyed ⊢
    rw [pairIds_opened, List.countP_append, List.countP_congr fun q hq => by rw [hold q hq]]
    have hstats : (e.opened x).registry.stats.destroyed = e.registry.stats.destroyed := by
      rw [Exchange.opened, Registry.register_of_not_mem hnext]
    simp [hstats, hdestroyed, pair_opened_next, hrunning]

end Ledger
end Switchboard
