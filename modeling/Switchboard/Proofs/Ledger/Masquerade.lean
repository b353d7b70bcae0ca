import Switchboard.Proofs.Ledger.Teardown

namespace Switchboard.Exchange

variable {found : Pair → Prop} (e : Exchange) (m : Multiset (PairId × Bool))

theorem records_startDialplan (c : ChannelId) : (e.startDialplan c).2.records = e.records := by
  rw [startDialplan]
  split <;> rfl

theorem launch_alters (c : ChannelId) : Alters found e (e.launch c).2 := by
  rw [launch]
  rcases hm : e.membership c with _ | ⟨p, _ | _⟩
  · exact alters_of_eq rfl
  · have hp : p ∈ e.pairIds :=
      @mem_pairIds_of_endpoint e p .owner (by simp [(membership_eq_some hm).2])
    dsimp only
    cases (e.pair p).chan with
    | none => exact alters_of_eq rfl
    | some chan =>
        dsimp only
        split
        · exact alters_of_eq rfl
        · split
          · exact alters_of_eq rfl
          · generalize hx : ((e.handOver c chan).extensionExists _ _ _).2 = x
            have hx' : x.records = e.records := by rw [← hx]; rfl
            have hstart := records_startDialplan x chan
            rcases hs : x.startDialplan chan with ⟨_ | _, y⟩ <;> rw [hs, hx'] at hstart
            · exact alters_of_eq hstart
            · refine (alters_of_eq hstart).trans (alters_rephase .dialplanLaunched ?_)
              rwa [pairIds_eq_of_records hstart]
  · exact alters_of_eq rfl

theorem records_gatherAttachments (owner chan third : ChannelId) :
    (e.gatherAttachments owner chan third).records = e.records := by
  rw [gatherAttachments]
  split <;> split <;> rfl

theorem records_masquerade (survivor clone : ChannelId) :
    (e.masquerade survivor clone).2.records = e.records := by
  rw [masquerade]
  split <;> rfl

theorem requestMasquerade_alters {e : Exchange} {p : PairId} (hp : p ∈ e.pairIds)
    (owner chan third : ChannelId) : Alters found e (e.requestMasquerade p owner chan third).2 := by
  have hrec := (records_masquerade (e.gatherAttachments owner chan third) owner third).trans
    (records_gatherAttachments e owner chan third)
  rw [requestMasquerade]
  rcases hm : (e.gatherAttachments owner chan third).masquerade owner third with ⟨_ | _, e'⟩ <;>
    rw [hm] at hrec
  all_goals
    exact (alters_of_eq hrec).trans
      (alters_rephase .optimized (by rwa [pairIds_eq_of_records hrec]))

theorem candidates_known {e : Exchange} {p : PairId} {side : Side} {third : Option ChannelId}
    {owner chan c : ChannelId} (h : e.candidates p side third = some (owner, chan, c)) :
    (e.pair p).owner = some owner ∧ (e.pair p).chan = some chan ∧ third = some c := by
  unfold candidates at h
  dsimp only at h
  split at h
  · cases h
  · split at h
    · next ho hc =>
        split at h
        · cases h
          exact ⟨ho, hc, rfl⟩
        · cases h
    · cases h

theorem tryOptimize_alters (p : PairId) (side : Side) (third : Option ChannelId) :
    Alters found e (e.tryOptimize p side third).2 := by
  rw [tryOptimize]
  rcases hc : e.candidates p side third with _ | ⟨owner, chan, third⟩
  · exact alters_of_eq rfl
  · dsimp only
    have hp : p ∈ e.pairIds :=
      @mem_pairIds_of_endpoint e p .owner (by simp [Pair.endpoint, (candidates_known hc).1])
    have hthird := records_tryLock e third
    rcases h₁ : e.tryLock third with ⟨_ | _, e₁⟩ <;> rw [h₁] at hthird
    · exact alters_of_eq hthird
    · dsimp only at hthird ⊢
      split
      · exact alters_of_eq hthird
      · have howner := (records_tryLock e₁ owner).trans hthird
        rcases h₂ : e₁.tryLock owner with ⟨_ | _, e₂⟩ <;> rw [h₂] at howner
        · exact alters_of_eq howner
        · dsimp only at howner ⊢
          split
          · exact alters_of_eq howner
          · have hp₂ : p ∈ e₂.pairIds := by rwa [pairIds_eq_of_records howner]
            exact ((alters_of_eq howner).trans
              (requestMasquerade_alters hp₂ owner chan third)).trans
              (alters_of_eq rfl)

theorem fixup_alters (old new : ChannelId) : Alters found e (e.fixup old new).2 := by
  rw [fixup]
  cases e.recordOf new with
  | none => exact alters_of_eq rfl
  | some p =>
      dsimp only
      split
      · next h =>
          exact fun m => .single (.replace e.records m p .owner new (by simp [Pair.endpoint, h]))
      · split
        · next h =>
            exact fun m => .single (.replace e.records m p .chan new (by simp [Pair.endpoint, h]))
        · exact alters_of_eq rfl

theorem takeOver_steps (survivor clone : ChannelId) :
    Ledger.Steps found ⟨e.records, m⟩ ((e.takeOver survivor clone).ledger m) := by
  rw [takeOver]
  cases hl : e.lock? clone with
  | none => exact quiet_steps rfl rfl
  | some e₁ =>
      dsimp only
      have hlock := lock_records hl
      have hswap : (e₁.swapIdentities survivor clone).records = e.records := hlock
      refine Alters.steps ((alters_of_eq hswap).trans ?_) rfl m
      split
      · exact (fixup_alters _ survivor clone).trans (alters_of_eq rfl)
      · exact alters_of_eq rfl

theorem completeMasquerade_steps (survivor : ChannelId) :
    Ledger.Steps found ⟨e.records, m⟩ ((e.completeMasquerade survivor).ledger m) := by
  rw [completeMasquerade]
  cases (e.channel survivor).pendingMasquerade <;> exact quiet_steps rfl rfl

theorem complete_steps (survivor : ChannelId) :
    Ledger.Steps found ⟨e.records, m⟩ ((e.complete survivor).ledger m) := by
  have hlock := records_tryLock e survivor
  rw [complete]
  rcases h : e.tryLock survivor with ⟨_ | _, e'⟩ <;> rw [h] at hlock
  · exact quiet_steps hlock rfl
  · dsimp only at hlock ⊢
    rw [Turn.ledger_append _ _ _ rfl, ← hlock]
    exact completeMasquerade_steps e' m survivor

theorem writeKnowing_steps (p : PairId) (c : ChannelId) (frame : Frame) (third : Option ChannelId) :
    Ledger.Steps found ⟨e.records, m⟩ ((e.writeKnowing p c frame third).ledger m) := by
  rw [writeKnowing]
  cases (e.pair p).sideOf c with
  | none => exact quiet_steps rfl rfl
  | some side =>
      dsimp only
      generalize hx : (if frame.isMedia then e.tryOptimize p side third else (none, e)) = x
      have hopt : Alters found e x.2 := by
        rw [← hx]
        split
        · exact tryOptimize_alters e p side third
        · exact alters_of_eq rfl
      refine Relation.ReflTransGen.trans (hopt m) ?_
      rw [List.append_assoc, Turn.ledger_append]
      · exact relay_steps x.2 m p side frame (some c) true
      · cases x.1 <;> rfl

theorem writeFrame_steps (c : ChannelId) (frame : Frame) :
    Ledger.Steps found ⟨e.records, m⟩ ((e.writeFrame c frame).ledger m) := by
  rw [writeFrame]
  cases e.recordOf c with
  | none => exact quiet_steps rfl rfl
  | some p =>
      dsimp only
      split
      · cases (e.channel c).bridge with
        | none => exact writeKnowing_steps e m p c frame none
        | some bridge => exact quiet_steps rfl rfl
      · exact writeKnowing_steps e m p c frame none

end Switchboard.Exchange
