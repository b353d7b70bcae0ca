import Switchboard.Proofs.TurnState

namespace Switchboard.Exchange

open TurnState

variable {may : Effect → Prop} {e : Exchange} {w : List Acquisition} {d : List ChannelId}

def RelaysOn (may : Effect → Prop) (p : PairId) : Prop :=
  ∀ a : Acquisition, a.pair = p → a.purpose.isRelay = true → may (.carries a)

theorem queueFrame_leads {a : Acquisition} {c : ChannelId} {frame : Frame}
    (hmay : may (.carries a)) (hend : (e.pair a.pair).endpoint a.side = some c)
    (hmessage : a.purpose.message = some frame)
    (hphase : a.purpose.isRelay = true → (e.pair a.pair).phase.isMasqueraded = false) :
    Leads may ⟨e, a :: w, d⟩ ⟨e.queueFrame c frame, a :: w, d⟩ :=
  .single (.queue e w d a c frame hmay hend hmessage hphase)

theorem place_leads {p : PairId} {side : Side} {frame : Frame} {source lock : Option ChannelId}
    {c : ChannelId} (hmay : may (.carries ⟨p, side, lock, .relay frame source⟩))
    (hend : (e.pair p).endpoint side = some c) :
    Leads may ⟨e, ⟨p, side, lock, .relay frame source⟩ :: w, d⟩
      ⟨if (e.pair p).phase.isMasqueraded then e else e.place frame source c,
        ⟨p, side, lock, .relay frame source⟩ :: w, d⟩ := by
  cases hphase : (e.pair p).phase.isMasqueraded with
  | true => exact .refl
  | false =>
      obtain ⟨e', he', hplace⟩ := view_place e frame source c
      have hpair := pair_eq_of_view he' p
      rw [if_neg Bool.false_ne_true, hplace]
      refine Leads.after (queueFrame_leads hmay ?_ rfl fun _ => ?_) he'
      · exact (congrArg (·.endpoint side) hpair).trans hend
      · exact (congrArg (·.phase.isMasqueraded) hpair).trans hphase

theorem deliver_leads {p : PairId} {side : Side} {frame : Frame}
    {source lock peer : Option ChannelId}
    (hmay : may (.carries ⟨p, side, lock, .relay frame source⟩))
    (hpeer : ∀ c, peer = some c → (e.pair p).endpoint side = some c) :
    Leads may ⟨e, ⟨p, side, lock, .relay frame source⟩ :: w, d⟩
      ((e.deliver p frame source peer).state w d) := by
  have hleave : ∀ x : Exchange, Leads may ⟨x, ⟨p, side, lock, .relay frame source⟩ :: w, d⟩
      ⟨x.leaveGlare p, w, d⟩ :=
        fun x => .single (.leave x w d ⟨p, side, lock, .relay frame source⟩ rfl)
  unfold deliver
  by_cases hcancelled : (e.pair p).glare.isCancelled = true
  · rw [if_pos hcancelled, Turn.state_settled]
    exact (hleave e).trans (leads_quiet (view_releasePeer _ peer))
  · rw [if_neg hcancelled, Turn.state_settled]
    -- A cell that was not cancelled tells nobody to end the record.
    have hlive : ∀ x : Exchange, x.pair p = e.pair p →
        x.modifyPair p (fun r => { r with glare := r.glare.leave.2 }) = x.leaveGlare p := by
      intro x hx
      rw [leaveGlare_of_live (by rw [hx]; simpa using hcancelled)]
      exact modifyPair_congr rfl
    cases peer with
    | none =>
        have hexit := hleave e
        rw [← hlive e rfl] at hexit
        exact hexit
    | some c =>
        dsimp only
        have hplace := place_leads (w := w) (d := d) hmay (hpeer c rfl)
        generalize hx : (if (e.pair p).phase.isMasqueraded then e else e.place frame source c) =
          x at hplace ⊢
        have hpair : x.pair p = e.pair p := by
          rw [← hx]
          split
          · rfl
          · exact pair_eq_of_records (records_place e frame source c) p
        have hrelease := view_releasePeer x (some c)
        rw [hlive _ ((pair_eq_of_view hrelease p).trans hpair)]
        exact (hplace.trans (leads_quiet hrelease)).trans (hleave _)

theorem endpoint_of_seek {p : PairId} {side : Side} {c : ChannelId}
    (h : (e.seek p side).1 = .taken c) :
    (e.pair p).endpoint side = some c := by
  rw [seek] at h
  cases hend : (e.pair p).endpoint side with
  | none =>
      rw [hend] at h
      cases h
  | some peer =>
      rw [hend] at h
      dsimp only at h
      rcases hl : e.tryLock peer with ⟨_ | _, e'⟩ <;> rw [hl] at h <;> cases h
      rfl

theorem acquire_leads_of_proceed (a : Acquisition)
    (h : ∀ e' : Exchange, e'.view = e.view → ∀ peer,
      (∀ c, peer = some c → (e'.pair a.pair).endpoint a.side = some c) →
      Leads may ⟨e', a :: w, d⟩ ((e'.proceed a peer).state w d)) :
    Leads may ⟨e, a :: w, d⟩ ((e.acquire a).state w d) := by
  have hseek := view_seek e a.pair a.side
  have htaken : ∀ c, (e.seek a.pair a.side).1 = .taken c →
    (e.pair a.pair).endpoint a.side = some c :=
    fun c => endpoint_of_seek
  rw [acquire]
  rcases hs : e.seek a.pair a.side with ⟨_ | peer | _, e'⟩ <;> rw [hs] at hseek htaken
  · exact (h e' hseek none fun c hc => by cases hc).after hseek
  · refine (h e' hseek (some peer) fun c hc => ?_).after hseek
    rw [pair_eq_of_view hseek, htaken peer rfl, Option.some.inj hc]
  · simp only [Turn.state, backedOff_wait, hangupTasks_wait, List.singleton_append, List.nil_append]
    exact leads_quiet hseek

theorem relay_leads {p : PairId} (hmay : RelaysOn may p) (side : Side) (frame : Frame)
    (source : Option ChannelId) (locked : Bool) :
    Leads may ⟨e, w, d⟩ ((e.relay p side frame source locked).state w d) := by
  rw [relay_eq]
  cases hend : (e.pair p).endpoint side.peer with
  | none => exact .refl
  | some other =>
      dsimp only
      cases hphase : (e.pair p).phase.isMasqueraded with
      | true => exact .refl
      | false =>
          split
          · exact .refl
          · have hcarries :=
              hmay ⟨p, side.peer, if locked then source else none, .relay frame source⟩ rfl rfl
            refine Relation.ReflTransGen.head
              (.enter e w d _ hcarries rfl (by simp [hend]) hphase) ?_
            exact acquire_leads_of_proceed _ fun e' _ peer hpeer => deliver_leads hcarries hpeer

theorem retire_setSlot (e : Exchange) (p : PairId) (c : ChannelId) (s : Slot) :
    (e.setSlot c s).retire p = (e.retire p).setSlot c s := by
  have hdestroy : ∀ x : Exchange, (x.setSlot c s).destroy p = (x.destroy p).setSlot c s := by
    intro x
    unfold destroy
    by_cases h : (x.pair p).destroyed = true
    · rw [if_pos h, if_pos (show (((x.setSlot c s).pair p).destroyed = true) from h)]
    · rw [if_neg h, if_neg (show ¬ (((x.setSlot c s).pair p).destroyed = true) from h)]
      rfl
  rw [retire_eq, retire_eq]
  change (if (e.pair p).glare.cancel.1 then (e.cancelGlare p).setSlot c s
    else ((e.cancelGlare p).setSlot c s).destroy p) = _
  rw [hdestroy]
  split <;> rfl

theorem depart_leads {a : Acquisition} {side : Side} {leaver : ChannelId}
    (hmay : RelaysOn may a.pair)
    (hside : a.purpose.leaving = some side) (hleaver : a.purpose.leaver = some leaver) :
    Leads may ⟨e, a :: w, d⟩ (((e.clearSide a.pair side).depart a.pair side leaver).state w d) := by
  have hdepart :
    Leads may ⟨e, a :: w, d⟩ ⟨e.vacate a.pair side leaver, w, e.leftUnserved a.pair side ++ d⟩ :=
    .single (.depart e w d a hside hleaver)
  have hpair : ((e.clearSide a.pair side).setSlot leaver .empty).pair a.pair =
      (e.clearSide a.pair side).pair a.pair := rfl
  rw [depart]
  rw [hpair]
  unfold vacate detach leftUnserved at hdepart
  by_cases hvacant : ((e.clearSide a.pair side).pair a.pair).isVacant = true
  · rw [if_pos hvacant, if_pos hvacant, ← retire_setSlot] at hdepart
    rw [if_pos hvacant]
    exact hdepart
  · rw [if_neg hvacant, if_neg hvacant] at hdepart
    rw [if_neg hvacant]
    cases hleft : unserved ((e.clearSide a.pair side).pair a.pair) with
    | some chan =>
        rw [hleft] at hdepart
        exact hdepart
    | none =>
        rw [hleft] at hdepart
        exact hdepart.trans (relay_leads hmay side _ none false)

/-- What follows when the acquisition has come to its end: a relay delivers, and a side that is left
is cleared. -/
theorem proceed_leads {a : Acquisition} (hmay : may (.carries a))
    (hrelays : a.purpose.isRelay = false → RelaysOn may a.pair) {peer : Option ChannelId}
    (hpeer : ∀ c, peer = some c → (e.pair a.pair).endpoint a.side = some c) :
    Leads may ⟨e, a :: w, d⟩ ((e.proceed a peer).state w d) := by
  obtain ⟨p, side, source, purpose⟩ := a
  cases purpose with
  | relay frame source => exact deliver_leads hmay hpeer
  | dialStatus leaver status =>
      cases peer with
      | none =>
          exact depart_leads (a := ⟨p, side, source, .dialStatus leaver status⟩)
            (hrelays rfl) rfl rfl
      | some owner =>
          have hquiet : ((e.setVar owner channelStatus status).unlock owner).view = e.view := by
            simp
          exact (depart_leads (a := ⟨p, side, source, .dialStatus leaver status⟩)
            (hrelays rfl) rfl rfl).after
            hquiet
  | ownerLeaving leaver =>
      cases peer with
      | none =>
          exact depart_leads (a := ⟨p, side, source, .ownerLeaving leaver⟩) (hrelays rfl) rfl rfl
      | some chan =>
          have hqueue := queueFrame_leads (w := w) (d := d) hmay (hpeer chan rfl) rfl
            fun h => Bool.noConfusion h
          refine (hqueue.trans (leads_quiet (view_unlock _ chan))).trans ?_
          exact depart_leads (a := ⟨p, side, source, .ownerLeaving leaver⟩) (hrelays rfl) rfl rfl

theorem acquire_leads {a : Acquisition} (hmay : may (.carries a))
    (hrelays : a.purpose.isRelay = false → RelaysOn may a.pair) :
    Leads may ⟨e, a :: w, d⟩ ((e.acquire a).state w d) :=
  acquire_leads_of_proceed a fun _ _ _ hpeer => proceed_leads hmay hrelays hpeer

theorem retry_leads {a : Acquisition} (hmay : may (.carries a))
    (hrelays : a.purpose.isRelay = false → RelaysOn may a.pair) :
    Leads may ⟨e, a :: w, d⟩ ((e.retry a).state w d) := by
  rw [retry]
  cases a.source with
  | none => exact acquire_leads hmay hrelays
  | some source => exact (acquire_leads hmay hrelays).after (view_avoidDeadlock e source)

theorem teardown_leads {leaver : ChannelId}
    (hmay : ∀ a : Acquisition, e.recordOf leaver = some a.pair → a.purpose.leaver = some leaver →
      a.purpose.leaving = some a.side.peer → may (.carries a)) (hrelays :
      ∀ p, e.recordOf leaver = some p → RelaysOn may p) :
    Leads may ⟨e, w, d⟩ ((e.teardown leaver).state w d) := by
  rw [teardown]
  rcases hm : e.membership leaver with _ | ⟨p, side⟩
  · exact .refl
  · have hrecord := (membership_eq_some hm).1
    have hbegin : ∀ (x : Exchange) (a : Acquisition), x.view = e.view → a.pair = p →
        a.side.peer = side → a.purpose.leaving = some a.side.peer → a.purpose.leaver = some leaver →
        Leads may ⟨e, w, d⟩ ⟨x, a :: w, d⟩ := by
      rintro x a hx rfl rfl hside hleaver
      have hmember := (membership_eq_of_view hx leaver).trans hm
      exact Leads.after (.single
        (.start x w d a (hmay a hrecord hleaver hside) hside hleaver hmember)) hx
    cases side with
    | chan =>
        dsimp only
        rw [Turn.state_append _ _ _ _ _ rfl rfl]
        cases (e.channel leaver).getVar dialStatus with
        | none =>
            -- With no status to be told nobody has to be locked, and the departure is over at once.
            refine (hbegin e ⟨p, .owner, some leaver,
              .dialStatus leaver ""⟩ rfl rfl rfl rfl rfl).trans ?_
            exact depart_leads (a := ⟨p, .owner, some leaver, .dialStatus leaver ""⟩)
              (hrelays p hrecord) rfl rfl
        | some status =>
            refine (hbegin e ⟨p, .owner, some leaver,
              .dialStatus leaver status⟩ rfl rfl rfl rfl rfl).trans ?_
            exact acquire_leads (hmay _ hrecord rfl rfl) fun _ => hrelays p hrecord
    | owner =>
        dsimp only
        rw [Turn.state_append _ _ _ _ _ rfl rfl]
        refine (hbegin _ ⟨p, .chan, some leaver, .ownerLeaving leaver⟩
          (view_passAnsweredElsewhere e p leaver) rfl rfl rfl rfl).trans ?_
        exact acquire_leads (hmay _ hrecord rfl rfl) fun _ => hrelays p hrecord

section Relays

variable {c : ChannelId} (hrelays : ∀ p, e.recordOf c = some p → RelaysOn may p)
include hrelays

theorem relayFrom_leads (frame : Frame) :
    Leads may ⟨e, w, d⟩ ((e.relayFrom c frame).state w d) := by
  rw [relayFrom]
  rcases hm : e.membership c with _ | ⟨p, side⟩
  · exact .refl
  · dsimp only
    rw [Turn.state_append _ _ _ _ _ rfl rfl]
    exact relay_leads (hrelays p (membership_eq_some hm).1) side frame (some c) true

theorem answer_leads : Leads may ⟨e, w, d⟩ ((e.answer c).state w d) := by
  rw [answer]
  rcases e.membership c with _ | ⟨p, _ | _⟩
  · exact .refl
  · exact .refl
  · exact relayFrom_leads hrelays (.bare .answer)

theorem indicate_leads (kind : ControlKind) (data : Bytes) :
    Leads may ⟨e, w, d⟩ ((e.indicate c kind data).state w d) := by
  have hrelay := relayFrom_leads (w := w) (d := d) hrelays (.control kind data)
  unfold indicate
  cases e.recordOf c with
  | none => exact .refl
  | some p =>
      dsimp only
      split
      · exact hrelay
      · split
        · exact leads_quiet (view_startMusic e c _)
        · exact leads_quiet (view_stopMusic e c)
        · exact hrelay

end Relays

end Switchboard.Exchange
