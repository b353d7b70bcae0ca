import Switchboard.Proofs.Ledger
import Switchboard.Exchange.Dispatch

namespace Switchboard.Exchange

variable {found : Pair → Prop} (e : Exchange) (m : Multiset (PairId × Bool))

theorem deliver_steps (p : PairId) (frame : Frame) (source peer : Option ChannelId) :
    Ledger.Steps found ⟨e.records, (p, true) ::ₘ m⟩ ((e.deliver p frame source peer).ledger m) := by
  have hleave : Ledger.Step found ⟨e.records, (p, true) ::ₘ m⟩ ⟨e.records.leaveGlare p, m⟩ :=
    .leave e.records m p
  unfold deliver
  by_cases h : (e.pair p).glare.isCancelled = true
  · rw [if_pos h, Turn.ledger_settled, records_releasePeer, records_leaveGlare]
    exact .single hleave
  · rw [if_neg h, Turn.ledger_settled]
    rw [leaveGlare_of_live (by simpa using h)] at hleave
    have hsame :
      e.records.modifyPair p (fun r => { r with glare := (e.records.pair p).glare.leave.2 }) =
        e.records.modifyPair p fun r => { r with glare := r.glare.leave.2 } := modifyPair_congr rfl
    rw [hsame] at hleave
    have hplace :
      ∀ c, (if (e.pair p).phase.isMasqueraded then e else e.place frame source c).records =
        e.records := fun c => by split <;> simp
    cases peer with
    | none => exact .single hleave
    | some c =>
        rw [records_modifyPair, records_releasePeer, hplace]
        exact .single hleave

theorem acquire_steps_of_proceed (a : Acquisition)
    (h : ∀ e' : Exchange, e'.records = e.records → ∀ peer,
      Ledger.Steps found ⟨e'.records, (a.pair, a.purpose.isRelay) ::ₘ m⟩
      ((e'.proceed a peer).ledger m)) :
    Ledger.Steps found ⟨e.records, (a.pair, a.purpose.isRelay) ::ₘ m⟩ ((e.acquire a).ledger m) := by
  have hseek := records_seek e a.pair a.side
  rw [acquire]
  rcases hs : e.seek a.pair a.side with ⟨_ | peer | _, e'⟩ <;> rw [hs] at hseek <;> rw [← hseek]
  · exact h e' hseek none
  · exact h e' hseek (some peer)
  · simp only [Turn.ledger, pendingRetries_wait, Multiset.singleton_add]
    exact .refl

theorem relay_steps (p : PairId) (side : Side) (frame : Frame) (source : Option ChannelId)
    (locked : Bool) :
    Ledger.Steps found ⟨e.records, m⟩ ((e.relay p side frame source locked).ledger m) := by
  rw [relay_eq]
  cases h : (e.pair p).endpoint side.peer with
  | none => exact quiet_steps rfl rfl
  | some other =>
      dsimp only
      split
      · exact quiet_steps rfl rfl
      · have henter : Ledger.Step found ⟨e.records, m⟩
            ⟨e.records.modifyPair p Pair.entered, (p, true) ::ₘ m⟩ :=
          .enter e.records m p side.peer (by simp [h])
        refine Relation.ReflTransGen.head henter ?_
        exact acquire_steps_of_proceed (e.modifyPair p Pair.entered) m
          ⟨p, side.peer, if locked then source else none, .relay frame source⟩
          fun e' _ peer => deliver_steps e' m p frame source peer

@[simp] theorem records_detach (p : PairId) (side : Side) :
    (e.detach p side).records = e.records.detach p side := by
  unfold detach
  rw [← records_clearSide, pair_records]
  split <;> simp

theorem depart_steps {e e' : Exchange} (m : Multiset (PairId × Bool)) (p : PairId) (side : Side)
    (leaver : ChannelId) (hclear : e'.records = e.records.clearSide p side)
    (h : (e.pair p).endpoint side ≠ none ∨ found (e.pair p)) :
    Ledger.Steps found ⟨e.records, (p, false) ::ₘ m⟩ ((e'.depart p side leaver).ledger m) := by
  have hdetach := Ledger.Step.detach e.records m p side h
  have hslot : (e'.setSlot leaver .empty).records = e.records.clearSide p side := hclear
  have hvacant : (e'.setSlot leaver .empty).pair p = (e.records.clearSide p side).pair p :=
    pair_eq_of_records hslot p
  rw [detach] at hdetach
  rw [depart]
  rw [hvacant]
  split
  · next hv =>
      rw [if_pos hv, ← hslot, ← records_retire] at hdetach
      rw [Turn.ledger_of_none _ _ _ rfl]
      exact .single hdetach
  · next hv =>
      rw [if_neg hv, ← hslot] at hdetach
      refine Relation.ReflTransGen.head hdetach ?_
      cases unserved ((e.records.clearSide p side).pair p) with
      | some chan => rw [Turn.ledger_of_none _ _ _ rfl]
      | none => exact relay_steps _ _ _ _ _ _ _

/-- What follows when the acquisition has come to its end: a relay delivers, and a side that is left
is cleared. -/
theorem proceed_steps (a : Acquisition) (peer : Option ChannelId)
    (h : ∀ side, a.purpose.leaving = some side →
      (e.pair a.pair).endpoint side ≠ none ∨ found (e.pair a.pair)) :
    Ledger.Steps found ⟨e.records, (a.pair, a.purpose.isRelay) ::ₘ m⟩
      ((e.proceed a peer).ledger m) := by
  obtain ⟨p, side, source, purpose⟩ := a
  cases purpose with
  | relay frame source => exact deliver_steps e m p frame source peer
  | dialStatus leaver status =>
      cases peer <;> exact depart_steps m p .chan leaver rfl (h .chan rfl)
  | ownerLeaving leaver =>
      cases peer <;> exact depart_steps m p .owner leaver rfl (h .owner rfl)

theorem acquire_steps (a : Acquisition)
    (h : ∀ side, a.purpose.leaving = some side →
      (e.pair a.pair).endpoint side ≠ none ∨ found (e.pair a.pair)) :
    Ledger.Steps found ⟨e.records, (a.pair, a.purpose.isRelay) ::ₘ m⟩ ((e.acquire a).ledger m) := by
  refine acquire_steps_of_proceed e m a fun e' he' peer => proceed_steps e' m a peer ?_
  rwa [pair_eq_of_records he']

theorem retry_steps (a : Acquisition)
    (h : ∀ side, a.purpose.leaving = some side →
      (e.pair a.pair).endpoint side ≠ none ∨ found (e.pair a.pair)) :
    Ledger.Steps found ⟨e.records, (a.pair, a.purpose.isRelay) ::ₘ m⟩ ((e.retry a).ledger m) := by
  rw [retry]
  cases a.source with
  | none => exact acquire_steps e m a h
  | some source => exact acquire_steps (e.avoidDeadlock source) m a h

theorem passAnsweredElsewhere_records (p : PairId) (leaver : ChannelId) :
    (e.passAnsweredElsewhere p leaver).records = e.records := by
  rw [passAnsweredElsewhere]
  split
  · cases (e.pair p).chan <;> rfl
  · rfl

theorem teardown_steps (leaver : ChannelId) :
    Ledger.Steps found ⟨e.records, m⟩ ((e.teardown leaver).ledger m) := by
  rw [teardown]
  rcases hm : e.membership leaver with _ | ⟨p, side⟩
  · exact quiet_steps rfl rfl
  · have hend : (e.pair p).endpoint side ≠ none := by simp [(membership_eq_some hm).2]
    refine Relation.ReflTransGen.head (Ledger.Step.await e.records m p side hend) ?_
    cases side with
    | chan =>
        dsimp only
        rw [Turn.ledger_append _ _ _ rfl]
        cases (e.channel leaver).getVar dialStatus with
        | none => exact depart_steps m p .chan leaver rfl (.inl hend)
        | some status =>
            refine acquire_steps e m ⟨p, .owner, some leaver, .dialStatus leaver status⟩ ?_
            rintro _ ⟨⟩
            exact .inl hend
    | owner =>
        dsimp only
        rw [Turn.ledger_append _ _ _ rfl, ← passAnsweredElsewhere_records e p leaver]
        refine acquire_steps _ m ⟨p, .chan, some leaver, .ownerLeaving leaver⟩ ?_
        rintro _ ⟨⟩
        exact .inl (by rwa [pair_eq_of_records (passAnsweredElsewhere_records e p leaver)])

theorem relayFrom_steps (c : ChannelId) (frame : Frame) :
    Ledger.Steps found ⟨e.records, m⟩ ((e.relayFrom c frame).ledger m) := by
  rw [relayFrom]
  rcases e.membership c with _ | ⟨p, side⟩
  · exact quiet_steps rfl rfl
  · dsimp only
    rw [Turn.ledger_append _ _ _ rfl]
    exact relay_steps e m p side frame (some c) true

theorem answer_steps (c : ChannelId) :
    Ledger.Steps found ⟨e.records, m⟩ ((e.answer c).ledger m) := by
  rw [answer]
  rcases e.membership c with _ | ⟨p, _ | _⟩
  · exact quiet_steps rfl rfl
  · exact quiet_steps rfl rfl
  · exact relayFrom_steps e m c (.bare .answer)

theorem indicate_steps (c : ChannelId) (kind : ControlKind) (data : Bytes) :
    Ledger.Steps found ⟨e.records, m⟩ ((e.indicate c kind data).ledger m) := by
  unfold indicate
  cases e.recordOf c with
  | none => exact quiet_steps rfl rfl
  | some p =>
      dsimp only
      split
      · exact relayFrom_steps e m c _
      · split
        · exact quiet_steps rfl rfl
        · exact quiet_steps rfl rfl
        · exact relayFrom_steps e m c _

end Switchboard.Exchange
