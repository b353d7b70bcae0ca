import Switchboard.Exchange.Launch
import Switchboard.Proofs.TurnState.Teardown
import Switchboard.Proofs.Ledger.Masquerade

namespace Switchboard.Exchange

open TurnState

variable {may : Effect → Prop} {e : Exchange} {w : List Acquisition} {d : List ChannelId}

theorem startDialplan_eq (e : Exchange) (c : ChannelId) :
    e.startDialplan c =
      if e.dialplanRefused then (.error (.other "unable to start PBX"), e)
      else (.ok (), e.serve c) := rfl

theorem launch_leads {c : ChannelId}
    (hmay : ∀ p, e.membership c = some (p, .owner) → (e.launch c).1 = .ok () → may (.calls p)) :
    Leads may ⟨e, w, d⟩ ⟨(e.launch c).2, w, d⟩ := by
  revert hmay
  rw [launch]
  rcases e.membership c with _ | ⟨p, _ | _⟩
  · exact fun _ => .refl
  · dsimp only
    cases hchan : (e.pair p).chan with
    | none => exact fun _ => .refl
    | some chan =>
        have hquiet : ∀ context exten caller,
            ((e.handOver c chan).extensionExists context exten caller).2.view = e.view :=
          fun _ _ _ => view_handOver e c chan
        dsimp only
        split
        · exact fun _ => .refl
        · split
          · exact fun _ => leads_quiet (hquiet _ _ _)
          · generalize hx : ((e.handOver c chan).extensionExists _ _ _).2 = x
            have hview : x.view = e.view := hx ▸ hquiet _ _ _
            rw [startDialplan_eq]
            cases x.dialplanRefused with
            | true => exact fun _ => leads_quiet hview
            | false =>
                intro hmay
                have hchan' : (x.pair p).chan = some chan := by rw [pair_eq_of_view hview, hchan]
                exact Leads.after (.single (.call x w d p chan (hmay p rfl rfl) hchan')) hview
  · exact fun _ => .refl

theorem requestMasquerade_leads (p : PairId) (owner chan third : ChannelId) :
    Leads may ⟨e, w, d⟩ ⟨(e.requestMasquerade p owner chan third).2, w, d⟩ := by
  have hview := (view_masquerade (e.gatherAttachments owner chan third) owner third).trans
    (view_gatherAttachments e owner chan third)
  rw [requestMasquerade]
  rcases hm : (e.gatherAttachments owner chan third).masquerade owner third with ⟨_ | _, e'⟩ <;>
    rw [hm] at hview
  all_goals exact Leads.after (.single (.optimize e' w d p)) hview

theorem tryOptimize_leads (p : PairId) (side : Side) (third : Option ChannelId) :
    Leads may ⟨e, w, d⟩ ⟨(e.tryOptimize p side third).2, w, d⟩ := by
  rw [tryOptimize]
  rcases e.candidates p side third with _ | ⟨owner, chan, third⟩
  · exact .refl
  · have hthird := view_tryLock e third
    dsimp only
    rcases h₁ : e.tryLock third with ⟨_ | _, e₁⟩ <;> rw [h₁] at hthird
    · exact leads_quiet hthird
    · dsimp only at hthird ⊢
      split
      · exact leads_quiet ((view_unlock e₁ third).trans hthird)
      · have howner := (view_tryLock e₁ owner).trans hthird
        rcases h₂ : e₁.tryLock owner with ⟨_ | _, e₂⟩ <;> rw [h₂] at howner
        · exact leads_quiet ((view_unlock e₂ third).trans howner)
        · dsimp only at howner ⊢
          have hrelease : ∀ x : Exchange, ((x.unlock owner).unlock third).view = x.view := by simp
          split
          · exact leads_quiet ((hrelease e₂).trans howner)
          · exact ((requestMasquerade_leads p owner chan third).after howner).trans
              (leads_quiet (hrelease _))

theorem fixup_leads {old new : ChannelId} (hmay : may (.reseats old new)) :
    Leads may ⟨e, w, d⟩ ⟨(e.fixup old new).2, w, d⟩ := by
  rw [fixup]
  cases hslot : e.recordOf new with
  | none => exact .refl
  | some p =>
      dsimp only
      split
      · next howner => exact .single (.reseat e w d p .owner old new hmay hslot howner)
      · split
        · next hchan => exact .single (.reseat e w d p .chan old new hmay hslot hchan)
        · exact .refl

theorem takeOver_leads {survivor clone : ChannelId} (hswap : may (.swaps survivor clone))
    (hreseat : may (.reseats survivor clone)) :
    Leads may ⟨e, w, d⟩ ((e.takeOver survivor clone).state w d) := by
  rw [takeOver]
  cases hl : e.lock? clone with
  | none => exact .refl
  | some e' =>
      dsimp only
      generalize hx : (if (e'.swapIdentities survivor clone).isDriven clone then
        ((e'.swapIdentities survivor clone).fixup survivor clone).2
        else e'.swapIdentities survivor clone) = x
      have hfixup : Leads may ⟨e'.swapIdentities survivor clone, w, d⟩ ⟨x, w, d⟩ := by
        rw [← hx]
        split
        · exact fixup_leads hreseat
        · exact .refl
      have hswap' :=
        (Leads.after (.single (.swap e' w d survivor clone hswap)) (view_lock hl)).trans hfixup
      refine (hswap'.trans (leads_quiet (view_softHangup x clone .device))).trans ?_
      exact .single (.scheduleHangup _ w d clone)

theorem completeMasquerade_leads (survivor : ChannelId) :
    Leads may ⟨e, w, d⟩ ((e.completeMasquerade survivor).state w d) := by
  have hview := view_completeMasquerade e survivor
  rw [completeMasquerade] at hview ⊢
  cases hp : (e.channel survivor).pendingMasquerade with
  | none => exact leads_nil rfl rfl rfl
  | some clone =>
      rw [hp] at hview
      exact leads_nil hview rfl rfl

theorem complete_leads (survivor : ChannelId) :
    Leads may ⟨e, w, d⟩ ((e.complete survivor).state w d) := by
  have hlock := view_tryLock e survivor
  rw [complete]
  rcases hl : e.tryLock survivor with ⟨_ | _, e'⟩ <;> rw [hl] at hlock
  · exact leads_nil hlock rfl rfl
  · dsimp only at hlock ⊢
    rw [Turn.state_append _ _ _ _ _ rfl rfl]
    exact (completeMasquerade_leads survivor).after hlock

theorem writeKnowing_leads {p : PairId} (hmay : RelaysOn may p) (c : ChannelId) (frame : Frame)
    (third : Option ChannelId) :
    Leads may ⟨e, w, d⟩ ((e.writeKnowing p c frame third).state w d) := by
  rw [writeKnowing]
  cases (e.pair p).sideOf c with
  | none => exact .refl
  | some side =>
      dsimp only
      generalize hx : (if frame.isMedia then e.tryOptimize p side third else (none, e)) = x
      have hoptimize : Leads may ⟨e, w, d⟩ ⟨x.2, w, d⟩ := by
        rw [← hx]
        split
        · exact tryOptimize_leads p side third
        · exact .refl
      refine hoptimize.trans ?_
      rw [List.append_assoc, Turn.state_append]
      · exact relay_leads hmay side frame (some c) true
      · cases x.1 <;> rfl
      · cases x.1 <;> rfl

theorem writeFrame_leads {c : ChannelId} (hmay : ∀ p, e.recordOf c = some p → RelaysOn may p)
    (frame : Frame) : Leads may ⟨e, w, d⟩ ((e.writeFrame c frame).state w d) := by
  rw [writeFrame]
  cases hp : e.recordOf c with
  | none => exact .refl
  | some p =>
      have hwrite := writeKnowing_leads (e := e) (w := w) (d := d) (hmay p hp) c frame none
      dsimp only
      split
      · cases (e.channel c).bridge with
        | none => exact hwrite
        | some bridge => exact .refl
      · exact hwrite

end Switchboard.Exchange
