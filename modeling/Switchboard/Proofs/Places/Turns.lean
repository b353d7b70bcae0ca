import Switchboard.Proofs.Places.Frame

namespace Switchboard

def Operation.keepsSlots : Operation → Bool
  | .edit _ (.slot _) | .fixup _ _ | .release _ | .unregister _ | .onBackOff _ | .onResolution _ =>
      false
  | _ => true

def Acquisition.InPlace (a : Acquisition) (v : Places) : Prop :=
  match a.purpose with
  | .relay _ _ => True
  | .dialStatus leaver _ => v.seat a.pair .chan = some leaver
  | .ownerLeaving leaver => v.seat a.pair .owner = some leaver

/-- Tasks that may follow whatever is done before them. The channels they name were made. -/
def Task.Fits (v : Places) : Task → Prop
  | .operate op => op.keepsSlots = true
  | .write _ _ _ third => ∀ c, third = some c → c.Among v.channels
  | .takeOver survivor clone => survivor.Among v.channels ∧ clone.Among v.channels
  | .retry _ | .closeScript => False
  | _ => True

theorem Task.Fits.mono {v v' : Places} {t : Task} (h : t.Fits v) (hle : v.channels ≤ v'.channels) :
    t.Fits v' := by
  cases t with
  | write p c frame third => exact fun d hd => (h d hd).mono hle
  | takeOver survivor clone => exact ⟨h.1.mono hle, h.2.mono hle⟩
  | _ => exact h

/-- Fitting tasks, before which one acquisition may have backed off. -/
inductive Prompt (v : Places) : List Task → Prop
  | fits {ts} (h : ∀ t ∈ ts, t.Fits v) : Prompt v ts
  | retry {a ts} (ha : a.InPlace v) (h : ∀ t ∈ ts, t.Fits v) : Prompt v (.retry a :: ts)
  | paused {a ts} (ha : a.InPlace v) (h : ∀ t ∈ ts, t.Fits v) :
      Prompt v (.pause .backOff :: .retry a :: ts)

theorem Prompt.append {v : Places} {ts us : List Task} (h : Prompt v ts)
    (hus : ∀ t ∈ us, t.Fits v) :
    Prompt v (ts ++ us) := by
  have happend : ∀ {ts : List Task}, (∀ t ∈ ts, t.Fits v) → ∀ t ∈ ts ++ us, t.Fits v := by
    intro ts hts t ht
    rcases List.mem_append.1 ht with ht | ht
    · exact hts t ht
    · exact hus t ht
  cases h with
  | fits hts => exact .fits (happend hts)
  | retry ha hts => exact .retry ha (happend hts)
  | paused ha hts => exact .paused ha (happend hts)

theorem Prompt.wait {v : Places} {a : Acquisition} (ha : a.InPlace v) : Prompt v a.wait := by
  rw [Acquisition.wait]
  split
  · exact .paused ha (List.forall_mem_nil _)
  · exact .retry ha (List.forall_mem_nil _)

/-- A turn, from where everybody was before. -/
structure Turn.Orderly (v : Places) (t : Turn) : Prop where
  matched : t.1.places.Matched
  channels : v.channels ≤ t.1.places.channels
  prompt : Prompt t.1.places t.2

namespace Turn

variable {v : Places} {e : Exchange} {ts us : List Task}

theorem Orderly.append (h : Orderly v (e, ts)) (hus : ∀ t ∈ us, t.Fits e.places) :
    Orderly v (e, ts ++ us) :=
  ⟨h.matched, h.channels, h.prompt.append hus⟩

theorem orderly_of_fits (h : e.places.Matched) (hle : v.channels ≤ e.places.channels)
    (hts : ∀ t ∈ ts, t.Fits e.places) : Orderly v (e, ts) :=
  ⟨h, hle, .fits hts⟩

theorem orderly_of_eq (h : v.Matched) (he : e.places = v) (hts : ∀ t ∈ ts, t.Fits v) :
    Orderly v (e, ts) := by
  subst he
  exact orderly_of_fits h (Nat.le_refl _) hts

theorem orderly_settled (h : v.Matched) (he : e.places = v) (a : Answer) :
    Orderly v (e.settled a) :=
  orderly_of_eq h he (List.forall_mem_singleton.2 trivial)

theorem orderly_refused (h : v.Matched) (he : e.places = v) (why : ChannelError) :
    Orderly v (e.refused why) :=
  orderly_settled h he (.failed why)

end Turn

namespace Exchange

open Turn

variable {e : Exchange}

theorem deliver_orderly (h : e.places.Matched) (p : PairId) (frame : Frame)
    (source peer : Option ChannelId) : Orderly e.places (e.deliver p frame source peer) := by
  unfold deliver
  split
  · refine orderly_settled h ?_ _
    rw [places_releasePeer, places_leaveGlare e h]
  · refine orderly_settled h ?_ _
    rw [places_modifyPair _ _ rfl (Glare.isCancelled_leave _), places_releasePeer]
    cases peer with
    | none => rfl
    | some c =>
        dsimp only
        split
        · rfl
        · exact places_place e frame source c

theorem acquire_orderly_of_proceed {a : Acquisition} (hm : e.places.Matched)
    (ha : a.InPlace e.places)
    (h : ∀ e' : Exchange, e'.places = e.places → ∀ peer, Orderly e.places (e'.proceed a peer)) :
    Orderly e.places (e.acquire a) := by
  have hseek := places_seek e a.pair a.side
  rw [acquire]
  rcases hs : e.seek a.pair a.side with ⟨_ | peer | _, e'⟩ <;> rw [hs] at hseek
  · exact h e' hseek none
  · exact h e' hseek (some peer)
  · dsimp only at hseek ⊢
    rw [← hseek] at hm ha ⊢
    exact ⟨hm, Nat.le_refl _, .wait ha⟩

theorem relay_orderly (h : e.places.Matched) (p : PairId) (side : Side) (frame : Frame)
    (source : Option ChannelId) (locked : Bool) :
    Orderly e.places (e.relay p side frame source locked) := by
  rw [relay_eq]
  cases (e.pair p).endpoint side.peer with
  | none => exact orderly_settled h rfl _
  | some other =>
      dsimp only
      split
      · exact orderly_settled h rfl _
      · have henter : (e.modifyPair p Pair.entered).places = e.places :=
          places_modifyPair e p rfl (Glare.isCancelled_enter _)
        rw [← henter] at h ⊢
        refine acquire_orderly_of_proceed h trivial fun e' he' peer => ?_
        rw [← he'] at h ⊢
        exact deliver_orderly h p frame source peer

theorem depart_orderly {e' : Exchange} {p : PairId} {side : Side} {leaver : ChannelId}
    (h : e.places.Matched) (hc : e.places.seat p side = some leaver)
    (he : e'.places = (e.clearSide p side).places) :
    Orderly e.places (e'.depart p side leaver) := by
  have hend : (e.pair p).endpoint side = some leaver := hc
  have hp : p ∈ e.pairIds := mem_pairIds_of_endpoint (by rw [hend]; exact Option.some_ne_none _)
  have hleaver := among_of_slot e ((h.agree leaver p).2 ⟨side, hc⟩)
  have hvacate := places_vacate hp hleaver he
  have hmatched := h.vacated hc
  rw [depart]
  rw [← hvacate] at hmatched
  have hchannels : e.places.channels ≤ (e'.setSlot leaver .empty).places.channels := by
    rw [hvacate]
    exact Nat.le_refl _
  generalize e'.setSlot leaver .empty = x at hmatched hchannels ⊢
  split
  · next hv =>
      obtain ⟨hretire, hsame⟩ := matched_retire x hmatched hv
      exact orderly_of_fits hretire (hsame ▸ hchannels) (List.forall_mem_nil _)
  · cases unserved (x.pair p) with
    | some chan =>
        exact orderly_of_fits hmatched hchannels (List.forall_mem_singleton.2 trivial)
    | none =>
        have hrelay :=
          relay_orderly hmatched p side (.hangup (x.channel leaver).hangupCause) none false
        exact ⟨hrelay.matched, Nat.le_trans hchannels hrelay.channels, hrelay.prompt⟩

theorem proceed_orderly (h : e.places.Matched) {a : Acquisition} (ha : a.InPlace e.places)
    (peer : Option ChannelId) : Orderly e.places (e.proceed a peer) := by
  obtain ⟨p, side, source, purpose⟩ := a
  cases purpose with
  | relay frame source => exact deliver_orderly h p frame source peer
  | dialStatus leaver status =>
      cases peer with
      | none => exact depart_orderly h ha rfl
      | some owner =>
          have hquiet : ((e.setVar owner channelStatus status).unlock owner).places = e.places := by
            simp
          rw [← hquiet] at h ⊢
          refine depart_orderly h ?_ rfl
          rw [hquiet]
          exact ha
  | ownerLeaving leaver =>
      cases peer with
      | none => exact depart_orderly h ha rfl
      | some chan => exact depart_orderly h ha (by simp)

theorem acquire_orderly (h : e.places.Matched) {a : Acquisition} (ha : a.InPlace e.places) :
    Orderly e.places (e.acquire a) := by
  apply acquire_orderly_of_proceed h ha
  intro e' he' peer
  rw [← he'] at h ha ⊢
  exact proceed_orderly h ha peer

theorem retry_orderly (h : e.places.Matched) {a : Acquisition} (ha : a.InPlace e.places) :
    Orderly e.places (e.retry a) := by
  rw [retry]
  cases a.source with
  | none => exact acquire_orderly h ha
  | some source =>
      rw [← places_avoidDeadlock e source] at h ha ⊢
      exact acquire_orderly h ha

theorem places_passAnsweredElsewhere (p : PairId) (leaver : ChannelId) :
    (e.passAnsweredElsewhere p leaver).places = e.places := by
  rw [passAnsweredElsewhere]
  split
  · cases (e.pair p).chan with
    | none => rfl
    | some chan => exact places_setAnsweredElsewhere e chan
  · rfl

theorem fits_settle {v : Places} (a : Answer) : ∀ t ∈ [Task.settle a], t.Fits v :=
  List.forall_mem_singleton.2 trivial

theorem teardown_orderly (h : e.places.Matched) (leaver : ChannelId) :
    Orderly e.places (e.teardown leaver) := by
  rw [teardown]
  rcases hm : e.membership leaver with _ | ⟨p, side⟩
  · exact orderly_refused h rfl _
  · have hseat : e.places.seat p side = some leaver := (membership_eq_some hm).2
    cases side with
    | chan =>
        refine Orderly.append ?_ (fits_settle _)
        cases (e.channel leaver).getVar dialStatus with
        | none => exact depart_orderly h hseat rfl
        | some status => exact acquire_orderly h hseat
    | owner =>
        refine Orderly.append ?_ (fits_settle _)
        rw [← places_passAnsweredElsewhere p leaver] at h hseat ⊢
        exact acquire_orderly h hseat

theorem relayFrom_orderly (h : e.places.Matched) (c : ChannelId) (frame : Frame) :
    Orderly e.places (e.relayFrom c frame) := by
  rw [relayFrom]
  rcases e.membership c with _ | ⟨p, side⟩
  · exact orderly_refused h rfl _
  · exact (relay_orderly h p side frame (some c) true).append (fits_settle _)

theorem answer_orderly (h : e.places.Matched) (c : ChannelId) : Orderly e.places (e.answer c) := by
  rw [answer]
  rcases e.membership c with _ | ⟨p, _ | _⟩
  · exact orderly_refused h rfl _
  · exact orderly_settled h rfl _
  · exact relayFrom_orderly h c (.bare .answer)

theorem indicate_orderly (h : e.places.Matched) (c : ChannelId) (kind : ControlKind)
    (data : Bytes) :
    Orderly e.places (e.indicate c kind data) := by
  unfold indicate
  cases e.recordOf c with
  | none => exact orderly_refused h rfl _
  | some p =>
      dsimp only
      split
      · exact relayFrom_orderly h c _
      · split
        · exact orderly_settled h (places_startMusic e c _) _
        · exact orderly_settled h (places_stopMusic e c) _
        · exact relayFrom_orderly h c _

end Exchange
end Switchboard
