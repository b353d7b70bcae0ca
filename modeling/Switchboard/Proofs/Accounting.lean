import Mathlib
import Switchboard.Proofs.Moves

namespace Switchboard

namespace ModuleUse

def Token.weight : Token → Nat
  | held => 1
  | dropped => 0

theorem inUse_drop (m : ModuleUse) (t : Token) : (m.drop t).inUse = m.inUse - t.weight := by
  cases t <;> rfl

end ModuleUse

namespace Pair

def holds (x : Pair) : Nat := x.ownerUse.weight + x.chanUse.weight

/-- Each side holds the module exactly while it names an endpoint. -/
def Tallied (x : Pair) : Prop := ∀ side, x.token side = .held ↔ x.endpoint side ≠ none

def attached (x : Pair) : Nat := x.owner.toList.length + x.chan.toList.length

variable {x : Pair}

theorem holds_eq_attached (h : x.Tallied) : x.holds = x.attached := by
  have hside (t : ModuleUse.Token) (c : Option ChannelId) (ht : t = .held ↔ c ≠ none) :
      t.weight = c.toList.length := by
    cases t <;> cases c <;> simp_all [ModuleUse.Token.weight]
  have howner := hside _ _ (h .owner)
  have hchan := hside _ _ (h .chan)
  exact congrArg₂ (· + ·) howner hchan

theorem Tallied.clear (h : x.Tallied) (side : Side) : (x.clear side).Tallied := by
  have howner := h .owner
  have hchan := h .chan
  intro other
  cases side <;> cases other <;> simp_all [Pair.clear, token, endpoint]

theorem holds_clear (x : Pair) (side : Side) :
    (x.clear side).holds + (x.token side).weight = x.holds := by
  cases side <;> simp [holds, clear, token, ModuleUse.Token.weight, Nat.add_comm]

theorem Tallied.finished (h : x.Tallied) : x.finished.Tallied := by
  unfold Pair.finished
  split
  · exact h
  · intro side
    cases side <;> simp [token, endpoint]

theorem Tallied.replaced (h : x.Tallied) {side : Side} (hside : x.endpoint side ≠ none)
    (c : ChannelId) :
    (x.replaced side c).Tallied := by
  have howner := h .owner
  have hchan := h .chan
  intro other
  cases side <;> cases other <;> simp_all [Pair.replaced, token, endpoint]

theorem tallied_opened (d : Destination) (format : FormatMask) (j : Jitterbuffer)
    (owner chan : ChannelId) :
    (opened d format j owner chan).Tallied := by
  intro side
  cases side <;> simp [opened, token, endpoint]

end Pair

namespace Exchange

/-- The holds of all records together. -/
def holds (e : Exchange) : Nat := (e.pairIds.map fun p => (e.pair p).holds).sum

structure Tallied (e : Exchange) : Prop where
  tokens : ∀ p ∈ e.pairIds, (e.pair p).Tallied
  inUse : e.moduleUse.inUse = e.holds

variable {e e' : Exchange} {p : PairId} {x : Pair}

theorem Revised.holds (h : Revised e e' p x) (hp : p ∈ e.pairIds) :
    e'.holds + (e.pair p).holds = e.holds + x.holds := by
  have hrest : (e.pairIds.erase p).map (fun q => (e'.pair q).holds) =
      (e.pairIds.erase p).map fun q => (e.pair q).holds := by
    apply List.map_congr_left
    intro q hq
    have hne : q ≠ p := fun hqp => (nodup_pairIds e).not_mem_erase (hqp ▸ hq)
    rw [h.elsewhere q hne]
  unfold Exchange.holds
  rw [h.pairIds, ← List.sum_map_erase _ hp,
    ← List.sum_map_erase (fun q => (e.pair q).holds) hp, hrest,
    h.here]
  omega

theorem holds_le (hp : p ∈ e.pairIds) : (e.pair p).holds ≤ e.holds := by
  have h := List.sum_map_erase (fun q => (e.pair q).holds) hp
  unfold Exchange.holds
  omega

theorem Tallied.revise (h : e.Tallied) (hp : p ∈ e.pairIds) (hr : Revised e e' p x)
    (hx : x.Tallied)
    (huse : e'.moduleUse.inUse + (e.pair p).holds = e.moduleUse.inUse + x.holds) : e'.Tallied where
  tokens q hq := by
    rw [hr.pairIds] at hq
    by_cases hqp : q = p
    · rwa [hqp, hr.here]
    · rw [hr.elsewhere q hqp]
      exact h.tokens q hq
  inUse := by
    have hholds := hr.holds hp
    have hbefore := h.inUse
    omega

theorem Tallied.modifyPair (h : e.Tallied) (hp : p ∈ e.pairIds) (f : Pair → Pair)
    (hf : (f (e.pair p)).Tallied) (hholds : (f (e.pair p)).holds = (e.pair p).holds) :
    (e.modifyPair p f).Tallied :=
  h.revise hp (revised_modifyPair hp f) hf (congrArg _ hholds.symm)

theorem Tallied.clearSide (h : e.Tallied) (hp : p ∈ e.pairIds) (side : Side) :
    (e.clearSide p side).Tallied := by
  refine h.revise hp (revised_clearSide hp side) ((h.tokens p hp).clear side) ?_
  have huse : (e.clearSide p side).moduleUse.inUse =
    e.moduleUse.inUse - ((e.pair p).token side).weight :=
    ModuleUse.inUse_drop _ _
  have hle := holds_le hp
  have hclear := (e.pair p).holds_clear side
  have hbefore := h.inUse
  omega

theorem Tallied.destroy (h : e.Tallied) (hp : p ∈ e.pairIds) : (e.destroy p).Tallied := by
  refine h.revise hp (revised_destroy hp) (h.tokens p hp).finished ?_
  unfold Exchange.destroy Pair.finished
  by_cases hd : (e.pair p).destroyed = true
  · rw [if_pos hd, if_pos hd]
  · rw [if_neg hd, if_neg hd]
    have hle := holds_le hp
    have hbefore := h.inUse
    simp only [Pair.holds, ModuleUse.inUse_drop, ModuleUse.Token.weight,
      Exchange.modifyPair] at hle ⊢
    omega

theorem Tallied.leaveGlare (h : e.Tallied) (hp : p ∈ e.pairIds) : (e.leaveGlare p).Tallied := by
  have hm : (e.modifyPair p fun r => { r with glare := (e.pair p).glare.leave.2 }).Tallied :=
    h.modifyPair hp _ (h.tokens p hp) rfl
  unfold Exchange.leaveGlare
  by_cases hexit : (e.pair p).glare.leave.1 = .destroy
  · simp only [hexit, if_true]
    exact hm.destroy ((revised_modifyPair hp _).pairIds ▸ hp)
  · simpa only [hexit, if_false] using hm

theorem Tallied.retire (h : e.Tallied) (hp : p ∈ e.pairIds) : (e.retire p).Tallied := by
  have hr := revised_cancelGlare hp
  have hc : (e.cancelGlare p).Tallied := h.revise hp hr (h.tokens p hp) rfl
  rw [retire_eq]
  split
  · exact hc
  · exact hc.destroy (hr.pairIds ▸ hp)

theorem Tallied.detach (h : e.Tallied) (hp : p ∈ e.pairIds) (side : Side) :
    (e.detach p side).Tallied := by
  have hc := h.clearSide hp side
  rw [Exchange.detach]
  split
  · exact hc.retire ((revised_clearSide hp side).pairIds ▸ hp)
  · exact hc

theorem Tallied.opened (h : e.Tallied) (hx : x.Tallied) (hholds : x.holds = 2) :
    (e.opened x).Tallied where
  tokens q hq := by
    rw [pairIds_opened, List.mem_append, List.mem_singleton] at hq
    rcases hq with hq | rfl
    · rw [pair_opened_of_mem x hq]
      exact h.tokens q hq
    · rwa [pair_opened_next]
  inUse := by
    have hold : e.pairIds.map (fun q => ((e.opened x).pair q).holds) =
        e.pairIds.map fun q => (e.pair q).holds := by
      apply List.map_congr_left
      intro q hq
      rw [pair_opened_of_mem x hq]
    rw [Exchange.holds, pairIds_opened, List.map_append, List.sum_append, hold]
    simp only [List.map_cons, List.map_nil, List.sum_singleton, pair_opened_next, hholds]
    exact congrArg (· + 2) h.inUse

end Exchange

namespace Ledger

variable {found : Pair → Prop} {l l' : Ledger}

theorem Step.tallied (hs : Step found l l') (hsound : l.Sound) (h : l.exchange.Tallied) :
    l'.exchange.Tallied := by
  cases hs with
  | enter e m p side hend =>
      have hp := Exchange.mem_pairIds_of_endpoint hend
      exact h.modifyPair hp Pair.entered (h.tokens p hp) rfl
  | leave e m p => exact h.leaveGlare (hsound.known (p, true) (Multiset.mem_cons_self _ _))
  | await => exact h
  | detach e m p side hfrom =>
      exact h.detach (hsound.known (p, false) (Multiset.mem_cons_self _ _)) side
  | replace e m p side c hend =>
      have hp := Exchange.mem_pairIds_of_endpoint hend
      refine h.modifyPair hp (·.replaced side c) ((h.tokens p hp).replaced hend c) ?_
      cases side <;> rfl
  | rephase e m p phase hp => exact h.modifyPair hp _ (h.tokens p hp) rfl

theorem Steps.tallied (hs : Steps found l l') (hsound : l.Sound) (h : l.exchange.Tallied) :
    l'.exchange.Tallied := by
  induction hs with
  | refl => exact h
  | tail hsteps hstep ih => exact hstep.tallied (Steps.sound hsteps hsound) ih

end Ledger

namespace Session

theorem Moves.tallied {s t : Session} (hm : Moves s t) (hsound : s.ledger.Sound)
    (h : s.exchange.records.Tallied) : t.exchange.records.Tallied := by
  change t.ledger.exchange.Tallied
  rcases hm.cases with ⟨_, d, format, j, owner, chan, ht⟩ | ⟨_, hsteps⟩
  · rw [ht]
    exact h.opened (Pair.tallied_opened d format j owner chan) rfl
  · exact hsteps.tallied hsound h

theorem Reachable.tallied {n : Nat} {s : Session} (hs : s.Reachable n) : s.exchange.Tallied := by
  suffices s.exchange.records.Tallied from ⟨this.tokens, this.inUse⟩
  induction hs with
  | @start config ops s h =>
      rw [eq_of_start h]
      exact ⟨fun p hp => absurd hp List.not_mem_nil, rfl⟩
  | next hs hm ih => exact hm.tallied hs.sound ih

/-- After any number of moves each side of each record holds the module exactly while it names an
endpoint, and the counter is the number of endpoints that all records name. So what a record gives
back was always counted, and the counter never stops short at nothing. -/
theorem module_accounted {n : Nat} {s : Session} (hs : s.Reachable n) :
    (∀ p ∈ s.exchange.pairIds, ∀ side, (s.exchange.pair p).token side = .held ↔
      (s.exchange.pair p).endpoint side ≠ none) ∧
    s.exchange.moduleUse.inUse = (s.exchange.pairIds.map fun p =>
      (s.exchange.pair p).owner.toList.length + (s.exchange.pair p).chan.toList.length).sum ∧
    ∀ p ∈ s.exchange.pairIds,
      ((s.exchange.moduleUse.drop (s.exchange.pair p).ownerUse).drop
      (s.exchange.pair p).chanUse).inUse +
        ((s.exchange.pair p).owner.toList.length + (s.exchange.pair p).chan.toList.length) =
      s.exchange.moduleUse.inUse := by
  have h := hs.tallied
  refine ⟨h.tokens, ?_, ?_⟩
  · rw [h.inUse]
    apply congrArg List.sum
    apply List.map_congr_left
    intro p hp
    exact Pair.holds_eq_attached (h.tokens p hp)
  · intro p hp
    have hle := Exchange.holds_le hp
    have hattached := Pair.holds_eq_attached (h.tokens p hp)
    rw [Pair.attached] at hattached
    rw [← hattached, ModuleUse.inUse_drop, ModuleUse.inUse_drop, h.inUse]
    rw [Pair.holds] at hle ⊢
    omega

def parting : List Operation :=
  [.request .dispatched "Local" "100@internal" ⟨4⟩, .request .dispatched "Local" "200@internal" ⟨4⟩,
    .scriptLocks ⟨2⟩ [false], .onBackOff [.signal .dispatched ⟨1⟩ .hangup],
    .signal .dispatched ⟨1⟩ (.sendText "hello")]

theorem parting_accounted : ∃ s, start {} parting = .ok s ∧
    ((s.run 20).exchange.pair ⟨1⟩).destroyed = false ∧
    ((s.run 20).exchange.pair ⟨1⟩).token .owner ≠ .held ∧
    ((s.run 20).exchange.pair ⟨1⟩).token .chan ≠ .held ∧
    ((s.run 20).exchange.pair ⟨2⟩).token .chan = .held ∧
    (s.run 20).exchange.moduleUse.inUse = 2 := by
  have hstart : start {} parting = .ok { exchange := {}, agenda := tasksOf parting } := rfl
  obtain ⟨htokens, huse, -⟩ := module_accounted ((Reachable.start hstart).run 20)
  refine ⟨_, hstart, by decide +kernel, ?_, ?_, ?_, ?_⟩
  · exact fun h => (htokens ⟨1⟩ (by decide +kernel) .owner).1 h (by decide +kernel)
  · exact fun h => (htokens ⟨1⟩ (by decide +kernel) .chan).1 h (by decide +kernel)
  · exact (htokens ⟨2⟩ (by decide +kernel) .chan).2 (by decide +kernel)
  · rw [huse]
    decide +kernel

end Session
end Switchboard
