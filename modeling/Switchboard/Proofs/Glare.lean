import Switchboard.Proofs.Records

namespace Switchboard

namespace Glare

@[simp] theorem inFlight_enter (g : Glare) : g.enter.inFlight = g.inFlight + 1 := by
  cases g <;> simp [enter, inFlight]

@[simp] theorem isCancelled_enter (g : Glare) : g.enter.isCancelled = g.isCancelled := by
  cases g <;> rfl

theorem enter_ne_detected (g : Glare) : g.enter ≠ .detected 0 := by
  cases g <;> simp [enter]

theorem inFlight_leave (g : Glare) : g.leave.2.inFlight = g.inFlight - 1 := by
  rcases g with _ | n | _ | _ | n
  · rfl
  · by_cases h : n ≤ 1
    · simp [leave, inFlight, h]
    · simp [leave, inFlight, h]
  · rfl
  · rfl
  · rfl

@[simp] theorem isCancelled_leave (g : Glare) : g.leave.2.isCancelled = g.isCancelled := by
  rcases g with _ | n | _ | _ | n
  · rfl
  · by_cases h : n ≤ 1 <;> simp [leave, isCancelled, h]
  · rfl
  · rfl
  · rfl

theorem leave_ne_detected {g : Glare} (h : g ≠ .detected 0) : g.leave.2 ≠ .detected 0 := by
  rcases g with _ | n | _ | _ | n
  · simp [leave]
  · by_cases hn : n ≤ 1
    · simp [leave, hn]
    · have : n - 1 ≠ 0 := by omega
      simpa [leave, hn] using this
  · simp [leave]
  · simp [leave]
  · simp [leave]

theorem leave_destroy_iff {g : Glare} : g.leave.1 = .destroy ↔ g = .cancelled 1 := by
  rcases g with _ | n | _ | _ | n <;> simp [leave]

@[simp] theorem inFlight_cancel (g : Glare) : g.cancel.2.inFlight = g.inFlight := by
  rcases g with _ | ⟨_ | n⟩ | n <;> rfl

theorem cancel_ne_detected {g : Glare} (h : g ≠ .detected 0) : g.cancel.2 ≠ .detected 0 := by
  rcases g with _ | ⟨_ | n⟩ | n <;> simp_all [cancel]

theorem cancel_deferred_iff {g : Glare} :
    g.cancel.1 = true ↔ g.isCancelled = false ∧ 0 < g.inFlight := by
  rcases g with _ | ⟨_ | n⟩ | n <;> simp [cancel, isCancelled, inFlight]

theorem isCancelled_cancel {g : Glare} (h : g.cancel.1 = true) : g.cancel.2.isCancelled = true := by
  rcases g with _ | ⟨_ | n⟩ | n <;> simp_all [cancel, isCancelled]

end Glare

/-- What holds of a record on which so many relays have backed off. -/
structure Pair.Sound (x : Pair) (relays : Nat) : Prop where
  inFlight : x.glare.inFlight = relays
  detected : x.glare ≠ .detected 0
  cancelled : x.glare.isCancelled = true → x.isVacant = true
  destroyed : x.destroyed = true → x.isVacant = true
  vacant : x.isVacant = true → x.destroyed = true ∨ x.glare.isCancelled = true ∧ 0 < relays

namespace Pair

variable {x : Pair} {relays : Nat}

theorem sound_opened (d : Destination) (format : FormatMask) (j : Jitterbuffer)
    (owner chan : ChannelId) :
    (opened d format j owner chan).Sound 0 := by
  constructor <;> simp [opened, Glare.inFlight, Glare.isCancelled, isVacant]

theorem Sound.live (h : x.Sound relays) (hvacant : x.isVacant = false) :
    x.destroyed = false ∧ x.glare.isCancelled = false := by
  constructor
  · by_contra hd
    rw [h.destroyed (by simpa using hd)] at hvacant
    cases hvacant
  · by_contra hc
    rw [h.cancelled (by simpa using hc)] at hvacant
    cases hvacant

theorem sound_of_live (hvacant : x.isVacant = false) (hdestroyed : x.destroyed = false)
    (hcancelled : x.glare.isCancelled = false) (hin : x.glare.inFlight = relays)
    (hdetected : x.glare ≠ .detected 0) : x.Sound relays where
  inFlight := hin
  detected := hdetected
  cancelled h := by rw [hcancelled] at h; cases h
  destroyed h := by rw [hdestroyed] at h; cases h
  vacant h := by rw [hvacant] at h; cases h

theorem Sound.entered (h : x.Sound relays) (hvacant : x.isVacant = false) :
    x.entered.Sound (relays + 1) := by
  obtain ⟨hdestroyed, hcancelled⟩ := h.live hvacant
  refine sound_of_live hvacant hdestroyed ?_ ?_ (Glare.enter_ne_detected _)
  · exact (Glare.isCancelled_enter _).trans hcancelled
  · exact (Glare.inFlight_enter _).trans (congrArg (· + 1) h.inFlight)

theorem sound_finished (hin : x.glare.inFlight = relays) (hdetected : x.glare ≠ .detected 0)
    (hvacant : x.isVacant = true) : x.finished.Sound relays where
  inFlight := by rwa [glare_finished]
  detected := by rwa [glare_finished]
  cancelled _ := isVacant_finished x hvacant
  destroyed _ := isVacant_finished x hvacant
  vacant _ := .inl (destroyed_finished x)

theorem Sound.left (h : x.Sound (relays + 1)) : x.left.Sound relays := by
  have hin : x.glare.leave.2.inFlight = relays := by rw [Glare.inFlight_leave, h.inFlight]; rfl
  have hdetected := Glare.leave_ne_detected h.detected
  rw [Pair.left]
  by_cases hexit : x.glare.leave.1 = .destroy
  · rw [if_pos hexit]
    have hcell := Glare.leave_destroy_iff.1 hexit
    have hvacant := h.cancelled (by rw [hcell]; rfl)
    exact sound_finished hin hdetected hvacant
  · rw [if_neg hexit]
    refine ⟨hin, hdetected, ?_, h.destroyed, ?_⟩
    · exact fun hc => h.cancelled ((Glare.isCancelled_leave _).symm.trans hc)
    · intro hvacant
      rcases h.vacant hvacant with hd | ⟨hc, _⟩
      · exact .inl hd
      · refine .inr ⟨(Glare.isCancelled_leave _).trans hc, ?_⟩
        -- The last relay of a cancelled cell would have been told to end the record.
        rcases Nat.eq_zero_or_pos relays with rfl | hpos
        · have hone := h.inFlight
          cases hg : x.glare with
          | cancelled n =>
              rw [hg] at hone hexit
              obtain rfl : n = 1 := hone
              exact absurd rfl hexit
          | _ => simp [hg, Glare.isCancelled] at hc
        · exact hpos

theorem Sound.isVacant_left (h : x.Sound (relays + 1)) : x.left.isVacant = x.isVacant := by
  rw [Pair.left]
  by_cases hexit : x.glare.leave.1 = .destroy
  · have hcell := Glare.leave_destroy_iff.1 hexit
    have hvacant := h.cancelled (by rw [hcell]; rfl)
    rw [if_pos hexit, hvacant]
    exact isVacant_finished _ hvacant
  · rw [if_neg hexit]
    rfl

theorem destroyed_left (h : x.destroyed = true) : x.left.destroyed = true := by
  rw [Pair.left]
  split
  · exact destroyed_finished _
  · exact h

theorem Sound.retired (hin : x.glare.inFlight = relays) (hdetected : x.glare ≠ .detected 0)
    (hvacant : x.isVacant = true) : x.retired.Sound relays := by
  have hin' := (Glare.inFlight_cancel x.glare).trans hin
  have hdetected' := Glare.cancel_ne_detected hdetected
  rw [Pair.retired]
  by_cases hdefer : x.glare.cancel.1 = true
  · rw [if_pos hdefer]
    refine ⟨hin', hdetected', fun _ => hvacant, fun _ => hvacant, fun _ => ?_⟩
    refine .inr ⟨Glare.isCancelled_cancel hdefer, ?_⟩
    exact hin ▸ (Glare.cancel_deferred_iff.1 hdefer).2
  · rw [if_neg hdefer]
    exact sound_finished hin' hdetected' hvacant

@[simp] theorem glare_clear (side : Side) : (x.clear side).glare = x.glare := by
  cases side <;> rfl

@[simp] theorem destroyed_clear (side : Side) : (x.clear side).destroyed = x.destroyed := by
  cases side <;> rfl

theorem Sound.detached (h : x.Sound relays) (side : Side) : (x.detached side).Sound relays := by
  rw [Pair.detached]
  split
  · next hv => exact Sound.retired (by simpa using h.inFlight) (by simpa using h.detected) hv
  · next hv =>
      have hvacant : x.isVacant = false := by
        by_contra hx
        exact hv (isVacant_clear (by simpa using hx))
      obtain ⟨hdestroyed, hcancelled⟩ := h.live hvacant
      refine sound_of_live (by simpa using hv) ?_ ?_ ?_ ?_
      · simpa using hdestroyed
      · simpa using hcancelled
      · simpa using h.inFlight
      · simpa using h.detected

theorem isVacant_retired (h : x.isVacant = true) : x.retired.isVacant = true := by
  rw [Pair.retired]
  split
  · exact h
  · exact isVacant_finished _ h

theorem destroyed_retired (h : x.destroyed = true) : x.retired.destroyed = true := by
  rw [Pair.retired]
  split
  · exact h
  · exact destroyed_finished _

theorem isVacant_detached (side : Side) (h : x.isVacant = true) :
    (x.detached side).isVacant = true := by
  rw [Pair.detached]
  rw [if_pos (isVacant_clear h)]
  exact isVacant_retired (isVacant_clear h)

theorem destroyed_detached (side : Side) (h : x.destroyed = true) :
    (x.detached side).destroyed = true := by
  rw [Pair.detached]
  split
  · exact destroyed_retired (by rwa [destroyed_clear])
  · rwa [destroyed_clear]

theorem Sound.replaced (h : x.Sound relays) (hvacant : x.isVacant = false) (side : Side)
    (c : ChannelId) :
    (x.replaced side c).Sound relays := by
  obtain ⟨hdestroyed, hcancelled⟩ := h.live hvacant
  have hreplaced : (x.replaced side c).isVacant = false := by
    cases side <;> simp [Pair.replaced, isVacant]
  cases side <;> exact sound_of_live hreplaced hdestroyed hcancelled h.inFlight h.detected

end Pair
end Switchboard
