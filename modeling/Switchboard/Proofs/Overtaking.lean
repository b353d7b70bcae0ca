import Switchboard.Proofs.Moves

namespace Switchboard

namespace Pair

variable {x : Pair} {relays : Nat}

/-- The record was left to relays that are still in flight. -/
def LeftToRelays (x : Pair) : Prop := x.glare.isCancelled = true ∧ 0 < x.glare.inFlight

theorem Sound.inFlight_left (h : x.Sound (relays + 1))
    (hw : x.destroyed = true → x.glare.inFlight = 0)
    (hd : x.left.destroyed = true) : x.left.glare.inFlight = 0 := by
  rw [Pair.left] at hd ⊢
  by_cases hexit : x.glare.leave.1 = .destroy
  · rw [if_pos hexit, glare_finished]
    exact (Glare.inFlight_leave _).trans (by rw [Glare.leave_destroy_iff.1 hexit]; rfl)
  · rw [if_neg hexit] at hd
    have hin := h.inFlight
    rw [hw hd] at hin
    cases hin

theorem inFlight_detached (hb : ¬ x.LeftToRelays) (hw : x.destroyed = true → x.glare.inFlight = 0)
    (side : Side) (hd : (x.detached side).destroyed = true) :
    (x.detached side).glare.inFlight = 0 := by
  have hglare := glare_clear (x := x) side
  have hdestroyed := destroyed_clear (x := x) side
  unfold Pair.detached Pair.retired at hd ⊢
  by_cases hv : (x.clear side).isVacant = true
  · rw [if_pos hv] at hd ⊢
    by_cases hdefer : (x.clear side).glare.cancel.1 = true
    · rw [if_pos hdefer] at hd ⊢
      exact (Glare.inFlight_cancel _).trans (hglare ▸ hw (hdestroyed ▸ hd))
    · rw [if_neg hdefer, glare_finished]
      refine (Glare.inFlight_cancel _).trans ?_
      rw [hglare] at hdefer ⊢
      by_contra hpos
      -- Relays in flight put the end off, unless the cell was cancelled before.
      refine hb ⟨?_, Nat.pos_of_ne_zero hpos⟩
      by_contra hc
      exact hdefer (Glare.cancel_deferred_iff.2 ⟨Bool.eq_false_iff.2 hc, Nat.pos_of_ne_zero hpos⟩)
  · rw [if_neg hv] at hd ⊢
    exact hglare ▸ hw (hdestroyed ▸ hd)

theorem LeftToRelays.detached (hb : x.LeftToRelays) (hv : x.isVacant = true) (side : Side) :
    (x.detached side).destroyed = true ∧ 0 < (x.detached side).glare.inFlight := by
  have hglare := glare_clear (x := x) side
  have hdefer : ¬ (x.clear side).glare.cancel.1 = true := by
    rw [hglare, Glare.cancel_deferred_iff, hb.1]
    exact fun h => Bool.noConfusion h.1
  unfold Pair.detached Pair.retired
  rw [if_pos (isVacant_clear hv), if_neg hdefer]
  refine ⟨destroyed_finished _, ?_⟩
  rw [glare_finished]
  exact (Glare.inFlight_cancel _).symm ▸ hglare ▸ hb.2

end Pair

namespace Ledger

open Exchange

def Waits (l : Ledger) : Prop :=
  ∀ p, (l.exchange.pair p).destroyed = true → (l.exchange.pair p).glare.inFlight = 0

variable {l l' : Ledger}

theorem Waits.revise (hw : l.Waits) {p : PairId} {x : Pair}
    (hx : Revised l.exchange l'.exchange p x)
    (h : x.destroyed = true → x.glare.inFlight = 0) : l'.Waits := by
  intro q hq
  by_cases hqp : q = p
  · subst hqp
    rw [hx.here] at hq ⊢
    exact h hq
  · rw [hx.elsewhere q hqp] at hq ⊢
    exact hw q hq

theorem Step.waits (hs : Step (¬ ·.LeftToRelays) l l') (h : l.Sound) (hw : l.Waits) : l'.Waits := by
  cases hs with
  | enter e m p side hend =>
      have hp := mem_pairIds_of_endpoint hend
      apply hw.revise (revised_modifyPair hp _)
      intro hd
      have hlive := (h.record p hp).live (Pair.not_isVacant_iff.2 ⟨side, hend⟩)
      exact absurd hd (Bool.eq_false_iff.1 hlive.1)
  | leave e m p =>
      have hp := h.known (p, true) (Multiset.mem_cons_self _ _)
      have hrecord := h.record p hp
      rw [Multiset.count_cons_self] at hrecord
      exact hw.revise (revised_leaveGlare hp) (hrecord.inFlight_left (hw p))
  | await => exact hw
  | detach e m p side hfrom =>
      have hp := h.known (p, false) (Multiset.mem_cons_self _ _)
      refine hw.revise (revised_detach hp side) (Pair.inFlight_detached ?_ (hw p) side)
      rcases hfrom with hend | hfound
      · have hlive := (h.record p hp).live (Pair.not_isVacant_iff.2 ⟨side, hend⟩)
        exact fun hb => absurd hb.1 (Bool.eq_false_iff.1 hlive.2)
      · exact hfound
  | replace e m p side c hend =>
      have hp := mem_pairIds_of_endpoint hend
      refine hw.revise (revised_modifyPair hp _) ?_
      cases side <;> exact hw p
  | rephase e m p phase hp => exact hw.revise (revised_modifyPair hp _) (hw p)

theorem Steps.waits (hs : Steps (¬ ·.LeftToRelays) l l') (h : l.Sound) (hw : l.Waits) :
    l'.Waits := by
  induction hs with
  | refl => exact hw
  | tail hsteps hstep ih => exact hstep.waits (Steps.sound hsteps h) ih

theorem Waits.opened {e : Exchange} {m : Multiset (PairId × Bool)} (hw : Waits ⟨e, m⟩) {x : Pair}
    (hx : x.destroyed = false) : Waits ⟨e.opened x, m⟩ := by
  intro q hq
  by_cases hnext : q = ⟨e.pairs.next⟩
  · subst hnext
    rw [pair_opened_next, hx] at hq
    cases hq
  · rw [pair_opened_of_ne x hnext] at hq ⊢
    exact hw q hq

end Ledger

namespace Exchange

variable (e : Exchange)

theorem records_depart_of_vacant {p : PairId} {side : Side} {leaver : ChannelId}
    (hv : (e.pair p).isVacant = true) :
    ((e.clearSide p side).depart p side leaver).1.records = e.records.detach p side := by
  have hclear : ((e.clearSide p side).pair p).isVacant = true := by
    by_cases hp : p ∈ e.pairIds
    · rw [(revised_clearSide hp side).here]
      exact Pair.isVacant_clear hv
    · have hout : p ∉ (e.clearSide p side).pairIds := by
        rwa [pairIds_eq_of_size (e := e) (Table.size_modify _ _ _)]
      rw [pair_of_not_mem hout]
      rfl
  unfold depart
  rw [← records_detach, detach, if_pos hclear]
  dsimp only
  rw [if_pos (show ((((e.clearSide p side).setSlot leaver .empty).pair p).isVacant =
    true) from hclear)]
  simp only [records_retire]
  rfl

theorem records_retry_of_vacant {a : Acquisition} (ha : a.purpose.isRelay = false)
    (hv : (e.pair a.pair).isVacant = true) :
    ∃ side, (e.retry a).1.records = e.records.detach a.pair side := by
  obtain ⟨p, at_, source, purpose⟩ := a
  obtain ⟨howner, hchan⟩ := Pair.isVacant_iff.1 hv
  have hgone : ∀ e' : Exchange, e'.pair p = e.pair p →
      e'.acquire ⟨p, at_, source, purpose⟩ = e'.proceed ⟨p, at_, source, purpose⟩ none := by
    intro e' he'
    have hend : (e'.pair p).endpoint at_ = none := by
      rw [he']
      cases at_
      · exact howner
      · exact hchan
    simp only [acquire, seek, hend]
  have hretry : ∃ e' : Exchange, e'.records = e.records ∧
      e.retry ⟨p, at_, source, purpose⟩ = e'.proceed ⟨p, at_, source, purpose⟩ none := by
    cases source with
    | none => exact ⟨e, rfl, hgone e rfl⟩
    | some c => exact ⟨e.avoidDeadlock c, rfl, hgone (e.avoidDeadlock c) rfl⟩
  obtain ⟨e', he', hproceed⟩ := hretry
  have hv' : (e'.pair p).isVacant = true := by rwa [pair_eq_of_records he']
  rw [hproceed, ← he']
  cases purpose with
  | relay => cases ha
  | dialStatus leaver status => exact ⟨.chan, records_depart_of_vacant e' hv'⟩
  | ownerLeaving leaver => exact ⟨.owner, records_depart_of_vacant e' hv'⟩

end Exchange

namespace Session

/-- No record has ended while relays that entered its cell are in flight. -/
def Waits (s : Session) : Prop :=
  ∀ p, (s.exchange.pair p).destroyed = true → (s.exchange.pair p).glare.inFlight = 0

/-- A departure comes back from backing off to a record that was left to relays in flight. -/
def Overtaken (s : Session) : Prop := s.Resumes Pair.LeftToRelays

theorem Moves.waits {s t : Session} (hm : Moves s t) (hs : s.ledger.Sound) (hw : s.Waits)
    (h : s.Overtaken → t ≠ s.step) : t.Waits := by
  change t.ledger.Waits
  cases hm with
  | step =>
      cases hg : s.grants with
      | true =>
          obtain ⟨d, format, j, owner, chan, hstep⟩ := step_granted s hg
          rw [hstep]
          exact Ledger.Waits.opened (m := pendingRetries s.agenda) hw rfl
      | false =>
          refine Ledger.Steps.waits (step_steps s hg ?_) hs hw
          rintro ⟨a, rest, ha, hleaving, hb⟩
          exact h ⟨a, rest, ha, hleaving, not_not.1 hb⟩ rfl
  | others a rest ops _ =>
      rw [ledger_interrupt]
      exact hw

theorem not_waits_of_overtaken {s : Session} (hs : s.ledger.Sound) (h : s.Overtaken) :
    ¬ s.step.Waits := by
  obtain ⟨a, rest, hagenda, ha, hb⟩ := h
  have hp : a.pair ∈ s.exchange.pairIds := by
    refine hs.known (a.pair, false) ?_
    dsimp only [ledger]
    rw [hagenda, pendingRetries_retry, ha]
    exact Multiset.mem_cons_self _ _
  have hv := (hs.record a.pair hp).cancelled hb.1
  obtain ⟨side, hdetach⟩ := Exchange.records_retry_of_vacant s.exchange ha hv
  have hstep : s.step.exchange = (s.exchange.retry a).1 := congrArg exchange (step_perform hagenda)
  have hafter : s.step.exchange.pair a.pair = (s.exchange.pair a.pair).detached side := by
    rw [hstep, ← Exchange.pair_records, hdetach]
    exact (Exchange.revised_detach (e := s.exchange.records) hp side).here
  obtain ⟨hended, hpos⟩ := hb.detached hv side
  intro hw
  have hzero := hw a.pair (by rw [hafter, hended])
  rw [hafter] at hzero
  exact absurd hzero (Nat.ne_of_gt hpos)

/-- Along any run, with any operations of others wherever a driver has backed off, destruction waits
for the relays in flight exactly as long as no departure comes back to a record that was left to
them. -/
theorem waits_iff {config : Config} {ops : List Operation} {s : Nat → Session} {n : Nat}
    (hstart : start config ops = .ok (s 0)) (hmoves : ∀ k < n, Moves (s k) (s (k + 1))) :
    (∀ k ≤ n, (s k).Waits) ↔ ∀ k < n, (s k).Overtaken → s (k + 1) ≠ (s k).step := by
  have hsound : ∀ k ≤ n, (s k).ledger.Sound := by
    intro k
    induction k with
    | zero => exact fun _ => (Reachable.start hstart).sound
    | succ k ih => exact fun hk => (hmoves k hk).sound (ih (Nat.le_of_succ_le hk))
  constructor
  · intro hw k hk hover hstep
    refine not_waits_of_overtaken (hsound k (Nat.le_of_lt hk)) hover ?_
    rw [← hstep]
    exact hw (k + 1) hk
  · intro hover k
    induction k with
    | zero =>
        intro _ p hp
        rw [eq_of_start hstart] at hp
        have hnone : (({ config } : Exchange).pair p) = default :=
          Exchange.pair_of_not_mem List.not_mem_nil
        rw [hnone] at hp
        cases hp
    | succ k ih =>
        intro hk
        have hk' := Nat.le_of_succ_le hk
        exact (hmoves k hk).waits (hsound k hk') (ih hk') (hover k hk)

/-- While a text is on its way to the chan-side, that side leaves and has to back off for the
owner-side; meanwhile it leaves once more, and the owner-side with it. -/
def overtaking : List Operation :=
  [.request .dispatched "Local" "100@internal" ⟨4⟩, .edit ⟨2⟩ (.setVar "DIALSTATUS" "ANSWER"),
    .scriptLocks ⟨2⟩ [false], .scriptLocks ⟨1⟩ [false], .onBackOff [.signal .direct ⟨2⟩ .hangup],
    .onBackOff [.signal .direct ⟨2⟩ .hangup, .signal .direct ⟨1⟩ .hangup],
    .relay ⟨1⟩ .owner (.text "hello") (some ⟨1⟩) true]

theorem overtaking_destroys : ∃ s, start {} overtaking = .ok s ∧
    ((s.run 30).exchange.pair ⟨1⟩).destroyed = true ∧
    ((s.run 30).exchange.pair ⟨1⟩).glare.inFlight = 1 :=
  ⟨_, rfl, by decide +kernel, by decide +kernel⟩

theorem overtaking_overtakes :
    ∃ s, start {} overtaking = .ok s ∧ ∃ k < 30, (s.run k).Overtaken := by
  refine ⟨_, rfl, ?_⟩
  by_contra hnone
  have hstart : start {} overtaking = .ok { exchange := {}, agenda := tasksOf overtaking } := rfl
  have hwaits := (waits_iff (s := fun k => run k { exchange := {}, agenda := tasksOf overtaking })
    (n := 30) hstart
    (fun k _ => run_succ _ k ▸ .step _)).2 fun k hk hover => absurd ⟨k, hk, hover⟩ hnone
  have hzero := hwaits 30 (Nat.le_refl 30) ⟨1⟩ (by decide +kernel)
  exact absurd hzero (by decide +kernel)

end Session
end Switchboard
