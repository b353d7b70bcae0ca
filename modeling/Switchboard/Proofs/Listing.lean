import Switchboard.Proofs.Moves

namespace Switchboard

theorem Ledger.Steps.size {found : Pair → Prop} {l l' : Ledger} (hs : Steps found l l')
    (h : l.Sound) : l'.exchange.pairs.size = l.exchange.pairs.size := by
  induction hs with
  | refl => rfl
  | tail hsteps hstep ih =>
      obtain ⟨p, x, hr⟩ := hstep.revision (Steps.sound hsteps h)
      exact hr.revised.size.trans ih

theorem Ledger.Sound.destroyed_le {l : Ledger} (h : l.Sound) :
    l.exchange.registry.stats.destroyed ≤ l.exchange.registry.stats.unlinked := by
  have hended : l.exchange.pairIds.countP (fun p => (l.exchange.pair p).destroyed) ≤
      l.exchange.pairIds.countP fun p => (l.exchange.pair p).isVacant :=
    List.countP_mono_left fun p hp => (h.record p hp).destroyed
  have hlength := List.length_eq_countP_add_countP (fun p => (l.exchange.pair p).isVacant)
    (l := l.exchange.pairIds)
  have hlisted : l.exchange.registry.size =
      l.exchange.pairIds.countP fun p => !(l.exchange.pair p).isVacant := by
    rw [Registry.size, h.listed, List.countP_eq_length_filter]
  have hnot : (l.exchange.pairIds.countP fun p => !(l.exchange.pair p).isVacant) =
      l.exchange.pairIds.countP fun p => ¬ (l.exchange.pair p).isVacant = true := by
    apply List.countP_congr
    intro p _
    simp
  have hbalanced := h.balanced.size
  rw [h.registered] at hbalanced
  rw [Exchange.length_pairIds] at hlength
  rw [h.destroyed]
  omega

namespace Session

theorem Reachable.size {n : Nat} {s : Session} (hs : s.Reachable n) :
    s.exchange.pairs.size = n := by
  induction hs with
  | start h =>
      rw [eq_of_start h]
      rfl
  | @next n s t hs hm ih =>
      change t.ledger.exchange.pairs.size = n + s.grants.toNat
      rcases hm.cases with ⟨hg, d, format, j, owner, chan, ht⟩ | ⟨hg, hsteps⟩
      · rw [ht, hg, ← ih]
        exact Table.size_push _ _
      · rw [hsteps.size hs.sound, hg]
        exact ih

/-- After any number of moves the registry holds exactly the pairs that have an endpoint, each once
and in the order they were made. It has counted every request that was granted, and what it has
unlinked is what it does not hold any more; no more than that has ended. -/
theorem listed_exactly {n : Nat} {s : Session} (hs : s.Reachable n) :
    s.exchange.registry.pairs =
      s.exchange.pairIds.filter (fun p =>
        (s.exchange.pair p).owner.isSome || (s.exchange.pair p).chan.isSome) ∧
    (∀ p ∈ s.exchange.registry.pairs, s.exchange.registry.occurrences p = 1) ∧
    s.exchange.registry.pairs.Pairwise (·.number < ·.number) ∧
    s.exchange.pairIds.length = n ∧ s.exchange.registry.stats.registered = n ∧
    s.exchange.registry.stats.unlinked + s.exchange.registry.size =
      s.exchange.registry.stats.registered ∧
    s.exchange.registry.stats.destroyed ≤ s.exchange.registry.stats.unlinked := by
  have hsound := hs.sound
  have hlisted : s.exchange.registry.pairs =
      s.exchange.pairIds.filter fun p => !(s.exchange.pair p).isVacant := hsound.listed
  have hbalanced : s.exchange.registry.Balanced := hsound.balanced
  refine ⟨?_, ?_, ?_, ?_, hsound.registered.trans hs.size, hbalanced.size, hsound.destroyed_le⟩
  · rw [hlisted]
    apply List.filter_congr
    intro p _
    cases ho : (s.exchange.pair p).owner <;> simp [Pair.isVacant, ho]
  · exact fun p hp => List.count_eq_one_of_mem hbalanced.nodup hp
  · rw [hlisted]
    exact (Exchange.pairIds_ordered _).filter _
  · rw [Exchange.length_pairIds, hs.size]

def passing : List Operation :=
  [.request .dispatched "Local" "100@internal" ⟨4⟩, .request .dispatched "Local" "200@internal" ⟨4⟩,
    .signal .dispatched ⟨1⟩ .hangup]

theorem passing_leaves_second : ∃ s, start {} passing = .ok s ∧ s.granted 20 = 2 ∧
    (s.run 20).exchange.registry.pairs = [⟨2⟩] ∧
    (s.run 20).exchange.registry.stats.registered = 2 ∧
    (s.run 20).exchange.registry.stats.unlinked = 1 := by
  have hstart : start {} passing = .ok { exchange := {}, agenda := tasksOf passing } := rfl
  have hgranted : granted { exchange := {}, agenda := tasksOf passing } 20 = 2 := by decide +kernel
  have hs := (Reachable.start hstart).run 20
  rw [hgranted] at hs
  obtain ⟨hlisted, -, -, -, hregistered, hbalance, -⟩ := listed_exactly hs
  have hpairs : (run 20 { exchange := {}, agenda := tasksOf passing }).exchange.registry.pairs =
    [⟨2⟩] := by
    rw [hlisted]
    decide +kernel
  rw [Registry.size, hpairs, hregistered] at hbalance
  exact ⟨_, hstart, hgranted, hpairs, hregistered, Nat.succ.inj hbalance⟩

end Session
end Switchboard
