import Switchboard.Proofs.Ledger.Masquerade
import Switchboard.Proofs.Places.Turns

namespace Switchboard.Exchange

open Turn

variable {e : Exchange}

theorem places_handOver (owner chan : ChannelId) : (e.handOver owner chan).places = e.places := by
  rw [handOver]
  rw [places_inheritDatastores]
  exact places_modifyChannel e chan rfl

theorem places_launch (c : ChannelId) : (e.launch c).2.places = e.places := by
  rw [launch]
  rcases e.membership c with _ | ⟨p, _ | _⟩
  · rfl
  · dsimp only
    cases (e.pair p).chan with
    | none => rfl
    | some chan =>
        have hquiet : ∀ d exten caller,
          ((e.handOver c chan).extensionExists d exten caller).2.places =
            e.places := fun _ _ _ => places_handOver c chan
        dsimp only
        split
        · rfl
        · split
          · exact hquiet _ _ _
          · generalize hx : ((e.handOver c chan).extensionExists _ _ _).2 = x
            have hplaces : x.places = e.places := hx ▸ hquiet _ _ _
            have hstart := (places_startDialplan x chan).trans hplaces
            rcases hs : x.startDialplan chan with ⟨_ | _, y⟩ <;> rw [hs] at hstart
            · exact hstart
            · exact (places_modifyPair y p rfl rfl).trans hstart
  · rfl

theorem places_gatherAttachments (owner chan third : ChannelId) :
    (e.gatherAttachments owner chan third).places = e.places := by
  rw [gatherAttachments]
  split <;> split <;> simp

theorem masquerade_matched (h : e.places.Matched) (survivor : ChannelId) {clone : ChannelId}
    (hclone : clone.Among e.channels.size) :
    (e.masquerade survivor clone).2.places.Matched ∧
      (e.masquerade survivor clone).2.places.channels = e.places.channels := by
  rw [masquerade]
  split
  · exact ⟨h, rfl⟩
  · refine matched_modifyChannel h rfl rfl (h.bridged survivor) ?_
    rintro b ⟨⟩
    exact hclone

theorem requestMasquerade_matched (h : e.places.Matched) (p : PairId) (owner chan : ChannelId)
    {third : ChannelId} (hthird : third.Among e.channels.size) :
    (e.requestMasquerade p owner chan third).2.places.Matched ∧
      (e.requestMasquerade p owner chan third).2.places.channels = e.places.channels := by
  have hgather := places_gatherAttachments (e := e) owner chan third
  generalize hx : e.gatherAttachments owner chan third = x at hgather
  have hsize : x.channels.size = e.channels.size := congrArg Places.channels hgather
  rw [← hgather] at h
  have hmatched := masquerade_matched h owner (hsize ▸ hthird)
  rw [hgather] at hmatched
  rw [requestMasquerade]
  rw [hx]
  rcases hm : x.masquerade owner third with ⟨_ | _, y⟩ <;> rw [hm] at hmatched <;>
    dsimp only at hmatched ⊢
  all_goals
    rw [places_modifyPair y p rfl rfl]
    exact hmatched

theorem tryOptimize_matched (h : e.places.Matched) (p : PairId) (side : Side)
    {third : Option ChannelId} (hthird : ∀ c, third = some c → c.Among e.channels.size) :
    (e.tryOptimize p side third).2.places.Matched ∧
      (e.tryOptimize p side third).2.places.channels = e.places.channels := by
  rw [tryOptimize]
  rcases hc : e.candidates p side third with _ | ⟨owner, chan, c⟩
  · exact ⟨h, rfl⟩
  · have hamong : c.Among e.channels.size := hthird c (candidates_known hc).2.2
    have htry := places_tryLock e c
    dsimp only
    rcases h₁ : e.tryLock c with ⟨_ | _, e₁⟩ <;> rw [h₁] at htry
    · rw [htry]
      exact ⟨h, rfl⟩
    · dsimp only at htry ⊢
      split
      · rw [places_unlock, htry]
        exact ⟨h, rfl⟩
      · have htry' := (places_tryLock e₁ owner).trans htry
        rcases h₂ : e₁.tryLock owner with ⟨_ | _, e₂⟩ <;> rw [h₂] at htry'
        · dsimp only at htry' ⊢
          rw [places_unlock, htry']
          exact ⟨h, rfl⟩
        · dsimp only at htry' ⊢
          split
          · rw [places_unlock, places_unlock, htry']
            exact ⟨h, rfl⟩
          · have hsize : e₂.channels.size = e.channels.size := congrArg Places.channels htry'
            rw [places_unlock, places_unlock]
            rw [← htry'] at h
            have hmatched := requestMasquerade_matched h p owner chan (hsize ▸ hamong)
            rwa [htry'] at hmatched

theorem completeMasquerade_orderly (h : e.places.Matched) (survivor : ChannelId) :
    Orderly e.places (e.completeMasquerade survivor) := by
  rw [completeMasquerade]
  cases hp : (e.channel survivor).pendingMasquerade with
  | none => exact orderly_of_fits h (Nat.le_refl _) (List.forall_mem_nil _)
  | some clone =>
      have hmatched := matched_modifyChannel (c := survivor)
        (f := ({ · with pendingMasquerade := none }))
        h rfl rfl (h.bridged survivor) fun b hb => by cases hb
      apply orderly_of_fits hmatched.1 hmatched.2.ge
      intro t ht
      rw [List.mem_singleton.1 ht, Task.Fits, hmatched.2]
      exact ⟨among_of_pending e hp, h.pending survivor clone hp⟩

theorem fits_unlock {v : Places} (c : ChannelId) : ∀ t ∈ [Task.unlock c], t.Fits v :=
  List.forall_mem_singleton.2 trivial

theorem complete_orderly (h : e.places.Matched) (survivor : ChannelId) :
    Orderly e.places (e.complete survivor) := by
  have htry := places_tryLock e survivor
  rw [complete]
  rcases hl : e.tryLock survivor with ⟨_ | _, e'⟩ <;> rw [hl] at htry
  · exact orderly_of_eq h htry (List.forall_mem_nil _)
  · dsimp only at htry ⊢
    rw [← htry] at h ⊢
    exact (completeMasquerade_orderly h survivor).append (fits_unlock survivor)

theorem writeKnowing_orderly (h : e.places.Matched) (p : PairId) (c : ChannelId) (frame : Frame)
    {third : Option ChannelId} (hthird : ∀ c, third = some c → c.Among e.channels.size) :
    Orderly e.places (e.writeKnowing p c frame third) := by
  rw [writeKnowing]
  cases (e.pair p).sideOf c with
  | none => exact orderly_refused h rfl _
  | some side =>
      dsimp only
      generalize hx : (if frame.isMedia then e.tryOptimize p side third else (none, e)) = x
      have hmatched : x.2.places.Matched ∧ x.2.places.channels = e.places.channels := by
        rw [← hx]
        split
        · exact tryOptimize_matched h p side hthird
        · exact ⟨h, rfl⟩
      have hrelay := relay_orderly hmatched.1 p side frame (some c) true
      rw [List.append_assoc]
      refine Orderly.append ⟨hrelay.matched, ?_, hrelay.prompt⟩ fun t ht => ?_
      · exact hmatched.2 ▸ hrelay.channels
      · rcases List.mem_append.1 ht with hcomplete | hsettle
        · obtain ⟨survivor, -, rfl⟩ := Option.map_eq_some_iff.1 (Option.mem_toList.1 hcomplete)
          trivial
        · exact fits_settle .done t hsettle

theorem writeFrame_orderly (h : e.places.Matched) (c : ChannelId) (frame : Frame) :
    Orderly e.places (e.writeFrame c frame) := by
  have hnone : ∀ p, Orderly e.places (e.writeKnowing p c frame none) :=
    fun p => writeKnowing_orderly h p c frame fun d hd => by cases hd
  rw [writeFrame]
  cases e.recordOf c with
  | none => exact orderly_refused h rfl _
  | some p =>
      dsimp only
      split
      · cases hb : (e.channel c).bridge with
        | none => exact hnone p
        | some bridge =>
            apply orderly_of_fits h (Nat.le_refl _)
            refine List.forall_mem_cons.2 ⟨trivial, List.forall_mem_singleton.2 ?_⟩
            intro d hd
            split at hd
            · obtain rfl := Option.some.inj hd
              exact h.bridged c bridge hb
            · cases hd
      · exact hnone p

end Switchboard.Exchange
