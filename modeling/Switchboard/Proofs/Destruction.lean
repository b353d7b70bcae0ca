import Switchboard.Proofs.Moves

namespace Switchboard.Session

theorem Leads.ended {s t : Session} (h : s.Leads t) (hs : s.ledger.Sound) {p : PairId}
    (hp : (s.exchange.pair p).destroyed = true) : (t.exchange.pair p).destroyed = true := by
  suffices t.ledger.Sound ∧ (t.exchange.pair p).destroyed = true from this.2
  induction h with
  | refl => exact ⟨hs, hp⟩
  | tail _ hm ih => exact ⟨hm.sound ih.1, hm.ended ih.1 ih.2⟩

theorem AtRest.pendingRetries {s : Session} (h : s.AtRest) : pendingRetries s.agenda = 0 := by
  have hnone : s.agenda.filterMap Task.pendingRetry = [] := by
    apply List.filterMap_eq_nil_iff.2
    intro t ht
    have hawaits := h t ht
    cases t <;> first | rfl | cases hawaits
  rw [Switchboard.pendingRetries, hnone, Multiset.coe_nil]

theorem Reachable.record {n : Nat} {s : Session} (hs : s.Reachable n) {p : PairId}
    (hp : p ∈ s.exchange.pairIds) :
    (s.exchange.pair p).Sound ((pendingRetries s.agenda).count (p, true)) :=
  hs.sound.record p hp

theorem mem_pairIds_of_destroyed {e : Exchange} {p : PairId} (h : (e.pair p).destroyed = true) :
    p ∈ e.pairIds := by
  by_contra hp
  rw [Exchange.pair_of_not_mem hp] at h
  cases h

/-- Whatever gets in between, a record ends at most once, is counted when it does, and is off the
registry by then. When nothing is going on, every record that both endpoints have left has ended,
and no relay is in flight. -/
theorem destroyed_once {n : Nat} {s : Session} (hs : s.Reachable n) :
    (∀ t, s.Leads t → ∀ p, (s.exchange.pair p).destroyed = true →
      (t.exchange.pair p).destroyed = true) ∧
    s.exchange.registry.stats.destroyed =
      s.exchange.pairIds.countP (fun p => (s.exchange.pair p).destroyed) ∧
    (∀ p, (s.exchange.pair p).destroyed = true →
      (s.exchange.pair p).owner = none ∧ (s.exchange.pair p).chan = none ∧
        p ∉ s.exchange.registry.pairs) ∧
    (s.AtRest → ∀ p ∈ s.exchange.pairIds,
      ((s.exchange.pair p).owner = none → (s.exchange.pair p).chan = none →
        (s.exchange.pair p).destroyed = true) ∧
      (s.exchange.pair p).glare.inFlight = 0) := by
  refine ⟨fun t ht p hp => ht.ended hs.sound hp, hs.sound.destroyed, ?_, ?_⟩
  · intro p hp
    have hvacant := (hs.record (mem_pairIds_of_destroyed hp)).destroyed hp
    obtain ⟨howner, hchan⟩ := Pair.isVacant_iff.1 hvacant
    exact ⟨howner, hchan, hs.sound.not_listed hvacant⟩
  · intro hrest p hp
    have hrecord := hs.record hp
    rw [hrest.pendingRetries, Multiset.count_zero] at hrecord
    refine ⟨fun howner hchan => ?_, hrecord.inFlight⟩
    rcases hrecord.vacant (Pair.isVacant_iff.2 ⟨howner, hchan⟩) with hd | ⟨_, hpos⟩
    · exact hd
    · exact absurd hpos (Nat.lt_irrefl 0)

def farewell : List Operation :=
  [.request .dispatched "Local" "100@internal" ⟨4⟩, .signal .dispatched ⟨1⟩ .hangup]

theorem farewell_destroys_once : ∃ s, start {} farewell = .ok s ∧ (s.run 20).AtRest ∧
    ((s.run 20).exchange.pair ⟨1⟩).destroyed = true ∧
    ((s.run 20).exchange.pair ⟨1⟩).glare.inFlight = 0 ∧
    ⟨1⟩ ∉ (s.run 20).exchange.registry.pairs ∧
    ∀ t, (s.run 20).Leads t → (t.exchange.pair ⟨1⟩).destroyed = true := by
  have hstart : start {} farewell = .ok { exchange := {}, agenda := tasksOf farewell } := rfl
  refine ⟨_, hstart, by decide +kernel, by decide +kernel, ?_⟩
  obtain ⟨hstays, -, hended, hrest⟩ := destroyed_once ((Reachable.start hstart).run 20)
  have hdestroyed := hrest (by decide +kernel) ⟨1⟩ (by decide +kernel)
  have hgone := hdestroyed.1 (by decide +kernel) (by decide +kernel)
  exact ⟨hdestroyed.2, (hended ⟨1⟩ hgone).2.2, fun t ht => hstays t ht ⟨1⟩ hgone⟩

end Switchboard.Session
