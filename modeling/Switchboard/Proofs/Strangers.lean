import Switchboard.Proofs.Answering
import Switchboard.Proofs.OptimizeCondition

namespace Switchboard

namespace Exchange

variable {e : Exchange} {p : PairId} {c : ChannelId} {σ : Signal}

/-- There may be a record in the channel's slot, but not one that has the channel on either side. -/
def Stranger (e : Exchange) (c : ChannelId) : Prop :=
  ∀ p, (e.channel c).slot = .pair p → (e.pair p).owner ≠ some c ∧ (e.pair p).chan ≠ some c

def musicFor : Signal → Option Music
  | .indicate .hold data => some (.playing (musicclassOf data))
  | .indicate .unhold _ => some .silent
  | _ => none

/-- The driver does not ask whose record it is: the pair in the slot has music for the signal. -/
def Entertains (e : Exchange) (c : ChannelId) (σ : Signal) (music : Music) : Prop :=
  musicFor σ = some music ∧ ∃ p, (e.channel c).slot = .pair p ∧
    (e.pair p).destination.options.mohPassthru = false

theorem Stranger.sideOf (h : e.Stranger c) (hslot : (e.channel c).slot = .pair p) :
    (e.pair p).sideOf c = none := by
  obtain ⟨howner, hchan⟩ := h p hslot
  rw [Pair.sideOf, if_neg hchan, if_neg howner]

theorem stranger_of_sideOf (hslot : (e.channel c).slot = .pair p) (h : (e.pair p).sideOf c = none) :
    e.Stranger c := by
  intro q hq
  obtain rfl : p = q := Slot.pair.inj (hslot.symm.trans hq)
  have hchan : (e.pair p).chan ≠ some c := fun hend => by
    rw [Pair.sideOf, if_pos hend] at h
    cases h
  refine ⟨fun hend => ?_, hchan⟩
  rw [Pair.sideOf, if_neg hchan, if_pos hend] at h
  cases h

theorem Stranger.membership (h : e.Stranger c) : e.membership c = none := by
  rw [Exchange.membership]
  cases hrecord : e.recordOf c with
  | none => rfl
  | some p => rw [Option.bind_some, h.sideOf (slot_of_recordOf hrecord), Option.map_none]

theorem relayFrom_stranger (h : e.Stranger c) (frame : Frame) :
    e.relayFrom c frame = e.refused (e.notLocal c) := by
  rw [relayFrom]
  rw [h.membership]

theorem writeKnowing_stranger (h : (e.pair p).sideOf c = none) (frame : Frame)
    (third : Option ChannelId) :
    e.writeKnowing p c frame third = e.refused (e.notLocal c) := by
  rw [writeKnowing]
  rw [h]

theorem indicate_eq (h : e.recordOf c = some p) (kind : ControlKind) (data : Bytes) :
    e.indicate c kind data =
      match if (e.pair p).destination.options.mohPassthru then none
      else musicFor (.indicate kind data) with
      | some music => (e.modifyChannel c ({ · with music := music })).settled .done
      | none => e.relayFrom c (.control kind data) := by
  unfold indicate
  rw [h]
  dsimp only
  cases (e.pair p).destination.options.mohPassthru with
  | true => rfl
  | false => cases kind <;> rfl

theorem indicate_stranger (h : e.Stranger c) {kind : ControlKind} {data : Bytes}
    (hmusic : ∀ music, ¬ e.Entertains c (.indicate kind data) music) :
    e.indicate c kind data = e.refused (e.notLocal c) := by
  cases hrecord : e.recordOf c with
  | none =>
      unfold indicate
      rw [hrecord]
  | some p =>
      rw [indicate_eq hrecord, relayFrom_stranger h]
      split
      · next music hsome =>
          obtain ⟨hpassthru, hfor⟩ := Option.ite_none_left_eq_some.1 hsome
          exact absurd ⟨hfor, p, slot_of_recordOf hrecord, Bool.eq_false_iff.2 hpassthru⟩
            (hmusic music)
      · rfl

theorem writeFrame_stranger (h : e.Stranger c) (frame : Frame) :
    e.writeFrame c frame = e.refused (e.notLocal c) ∨
      ∃ p third, e.recordOf c = some p ∧
        e.writeFrame c frame = (e, [.pause .resolution, .write p c frame third]) := by
  cases hrecord : e.recordOf c with
  | none =>
      refine .inl ?_
      rw [writeFrame]
      rw [hrecord]
  | some p =>
      rcases writeFrame_resolves hrecord frame with hasks | hknows
      · exact .inr ⟨p, _, rfl, hasks⟩
      · rw [hknows, writeKnowing_stranger (h.sideOf (slot_of_recordOf hrecord))]
        exact .inl rfl

theorem signal_stranger (h : e.Stranger c) (hmusic : ∀ music, ¬ e.Entertains c σ music) :
    e.signal c σ = e.refused (e.notLocal c) ∨
      ∃ frame p third, σ = .write frame ∧ e.recordOf c = some p ∧
        e.signal c σ = (e, [.pause .resolution, .write p c frame third]) := by
  cases σ with
  | call dialled ms =>
      refine .inl ?_
      unfold signal
      dsimp only
      rw [launch]
      rw [h.membership]
  | hangup =>
      refine .inl ?_
      unfold signal
      dsimp only
      rw [teardown]
      rw [h.membership]
  | answer =>
      refine .inl ?_
      unfold signal
      dsimp only
      rw [answer]
      rw [h.membership]
  | write frame =>
      rcases writeFrame_stranger h frame with hrefused | ⟨p, third, hrecord, hasks⟩
      · exact .inl hrefused
      · exact .inr ⟨frame, p, third, rfl, hrecord, hasks⟩
  | indicate kind data => exact .inl (indicate_stranger h hmusic)
  | beginDigit | endDigit | sendText | sendHtml => exact .inl (relayFrom_stranger h _)

theorem signal_entertained {music : Music} (h : e.Entertains c σ music) :
    e.signal c σ = (e.modifyChannel c ({ · with music := music })).settled .done := by
  obtain ⟨hmusic, p, hslot, hpassthru⟩ := h
  have hrecord : e.recordOf c = some p := by rw [recordOf, hslot]
  cases σ with
  | indicate kind data =>
      have hindicate := indicate_eq hrecord kind data
      rw [hpassthru, if_neg Bool.false_ne_true, hmusic] at hindicate
      exact hindicate
  | _ => cases hmusic

end Exchange

namespace Session

open Exchange

variable {s t : Session} {p : PairId} {c : ChannelId} {σ : Signal} {rest : List Task}

/-- The signal is refused and nothing has come of it. Others may get in between when a write has
found out its bridge; it is refused after that, as long as the channel is still on neither side of
the record. -/
inductive Refuses (s : Session) (c : ChannelId) (rest : List Task) : Signal → Prop
  | atOnce {σ : Signal} (h : s.Ends rest s.exchange (.failed (.notLocal (s.exchange.channel c).name))) :
    Refuses s c rest σ
  | afterwards {frame : Frame} {p : PairId} {third : Option ChannelId} {script : List Operation}
    {later : List (List Operation)} (hscripts : s.resolutionScripts = script :: later)
    (hasks : s.run 2 =
      ({ s with agenda := .write p c frame third :: rest, resolutionScripts := later } : Session).interrupt script)
    (hrefuses : ∀ t : Session, t.agenda = .write p c frame third :: rest →
    (t.exchange.pair p).sideOf c = none →
      t.Ends rest t.exchange (.failed (.notLocal (t.exchange.channel c).name))) :
    Refuses s c rest (.write frame)

theorem pause_nil (h : s.resolutionScripts = []) : s.pause .resolution = s := by
  rw [pause]
  rw [h]

theorem pause_cons {script : List Operation} {later : List (List Operation)}
    (h : s.resolutionScripts = script :: later) :
    s.pause .resolution = ({ s with resolutionScripts := later } : Session).interrupt script := by
  rw [pause]
  rw [h]

theorem ends_write {frame : Frame} {third : Option ChannelId}
    (hagenda : t.agenda = .write p c frame third :: rest)
    (h : (t.exchange.pair p).sideOf c = none) :
    t.Ends rest t.exchange (.failed (.notLocal (t.exchange.channel c).name)) := by
  have hstep : t.step =
      t.updated t.exchange t.answer
      (.settle (.failed (.notLocal (t.exchange.channel c).name)) :: rest) := by
    rw [step_perform hagenda]
    change ({ t with agenda := rest } : Session).turn (t.exchange.writeKnowing p c frame third) = _
    rw [writeKnowing_stranger h]
    rfl
  exact .step hstep (by rw [hagenda]; exact Nat.lt_succ_self _) ends_settle

theorem refuses_of_asked {frame : Frame} {third : Option ChannelId}
    (hagenda : s.agenda = .operate (.signal .direct c (.write frame)) :: rest)
    (hc : c.Among s.exchange.channels.size) (hside : (s.exchange.pair p).sideOf c = none)
    (hasks : s.exchange.signal c (.write frame) = (s.exchange, [.pause .resolution, .write p c frame third])) :
    s.Refuses c rest (.write frame) := by
  have hstep : s.step =
      s.updated s.exchange s.answer (.pause .resolution :: .write p c frame third :: rest) := by
    rw [step_signal hagenda hc, Exchange.perform, hasks]
    rfl
  generalize ht : s.updated s.exchange s.answer (.write p c frame third :: rest) = t
  have hpause : s.step.step = t.pause .resolution := by
    rw [hstep, step_perform rfl, ← ht]
    rfl
  -- Others get in between only if something is laid down for the point; otherwise the pause is over at once.
  cases hscripts : s.resolutionScripts with
  | nil =>
      rw [pause_nil (by rw [← ht]; exact hscripts), hstep, ← ht] at hpause
      refine .atOnce (.step hstep (by rw [hagenda]; exact Nat.lt_succ_self _) ?_)
      exact .step hpause (Nat.lt_succ_of_lt (Nat.lt_succ_self _)) (ends_write rfl hside)
  | cons script later =>
      have hasked : s.run 2 = ({ s with
          agenda := .write p c frame third :: rest, resolutionScripts := later } : Session).interrupt script := by
        rw [run_step, run_step, run, hpause, pause_cons (by rw [← ht]; exact hscripts), ← ht]
        rfl
      exact .afterwards hscripts hasked fun t => ends_write

/-- A channel that is no endpoint is refused whatever it is told, except a hold or the end of one
where there is a pair in its slot that has music for it. Then that is heard on the channel, and
nothing else has changed. -/
theorem strangers_are_refused (hagenda : s.agenda = .operate (.signal .direct c σ) :: rest)
    (hc : c.Among s.exchange.channels.size) (h : s.exchange.Stranger c) :
    (s.Refuses c rest σ ↔ ∀ music, ¬ s.exchange.Entertains c σ music) ∧
    ∀ music, s.exchange.Entertains c σ music →
      s.Ends rest (s.exchange.modifyChannel c ({ · with music := music })) .done := by
  have hentertained : ∀ music, s.exchange.Entertains c σ music →
      s.Ends rest (s.exchange.modifyChannel c ({ · with music := music })) .done :=
    fun music hmusic => ends_direct hagenda hc (signal_entertained hmusic)
  refine ⟨⟨fun hrefuses music hmusic => ?_, fun hnone => ?_⟩, hentertained⟩
  · cases hrefuses with
    -- The signal would have to be answered in two ways.
    | atOnce hends => cases (hends.unique (hentertained music hmusic)).2
    | afterwards => cases hmusic.1
  · rcases signal_stranger h hnone with hrefused | ⟨frame, p, third, rfl, hrecord, hasks⟩
    · exact .atOnce (ends_direct hagenda hc hrefused)
    · exact refuses_of_asked hagenda hc (h.sideOf (slot_of_recordOf hrecord)) hasks

/-- A third channel has been put in the place of the owner-side, which still has the record in its
slot. -/
def replaced (σ : Signal) : List Operation :=
  [.request .dispatched "Local" "100@internal" ⟨4⟩, .newChannel "SIP/third",
    .edit ⟨3⟩ (.slot (.pair ⟨1⟩)),
    .fixup ⟨1⟩ ⟨3⟩, .signal .direct ⟨1⟩ σ]

theorem replaced_refused : ∃ s, start {} (replaced .answer) = .ok s ∧
    (s.run 12).agenda = [.operate (.signal .direct ⟨1⟩ .answer), .report] ∧
    ChannelId.Among ⟨1⟩ (s.run 12).exchange.channels.size ∧ (s.run 12).exchange.Stranger ⟨1⟩ ∧
    (s.run 12).exchange.recordOf ⟨1⟩ = some ⟨1⟩ ∧ (s.run 12).Refuses ⟨1⟩ [.report] .answer := by
  have hstart : start {} (replaced .answer) =
    .ok { exchange := {}, agenda := tasksOf (replaced .answer) } := rfl
  generalize hs : ({ exchange := {}, agenda := tasksOf (replaced .answer) } : Session) = s at hstart
  have hagenda : (s.run 12).agenda = [.operate (.signal .direct ⟨1⟩ .answer), .report] := by
    subst hs
    rfl
  have hrecord : (s.run 12).exchange.recordOf ⟨1⟩ = some ⟨1⟩ := by
    subst hs
    decide +kernel
  have hends : ((s.run 12).exchange.pair ⟨1⟩).sideOf ⟨1⟩ = none := by
    subst hs
    decide +kernel
  have hstranger := stranger_of_sideOf (slot_of_recordOf hrecord) hends
  have hmade := among_of_slot _ (slot_of_recordOf hrecord)
  refine ⟨s, hstart, hagenda, hmade, hstranger, hrecord,
    (strangers_are_refused hagenda hmade hstranger).1.2 ?_⟩
  rintro music ⟨hmusic, -⟩
  cases hmusic

theorem replaced_hears_music : ∃ s, start {} (replaced (.indicate .hold [])) = .ok s ∧
    (s.run 12).agenda = [.operate (.signal .direct ⟨1⟩ (.indicate .hold [])), .report] ∧
    (s.run 12).exchange.Stranger ⟨1⟩ ∧ ((s.run 12).exchange.channel ⟨1⟩).music = .silent ∧
    ∃ e, (s.run 12).Ends [.report] e .done ∧ (e.channel ⟨1⟩).music = .playing none ∧
      ¬ (s.run 12).Refuses ⟨1⟩ [.report] (.indicate .hold []) := by
  have hstart : start {} (replaced (.indicate .hold [])) =
      .ok { exchange := {}, agenda := tasksOf (replaced (.indicate .hold [])) } := rfl
  generalize hs :
    ({ exchange := {}, agenda := tasksOf (replaced (.indicate .hold [])) } : Session) = s at hstart
  have hagenda : (s.run 12).agenda =
    [.operate (.signal .direct ⟨1⟩ (.indicate .hold [])), .report] := by
    subst hs
    rfl
  have hslot : ((s.run 12).exchange.channel ⟨1⟩).slot = .pair ⟨1⟩ := by
    subst hs
    decide +kernel
  have hside : ((s.run 12).exchange.pair ⟨1⟩).sideOf ⟨1⟩ = none := by
    subst hs
    decide +kernel
  have hsilent : ((s.run 12).exchange.channel ⟨1⟩).music = .silent := by
    subst hs
    decide +kernel
  have hpassthru : ((s.run 12).exchange.pair ⟨1⟩).destination.options.mohPassthru = false := by
    subst hs
    decide +kernel
  have hplays :
    (((s.run 12).exchange.modifyChannel ⟨1⟩ ({ · with music := .playing none })).channel
    ⟨1⟩).music =
      .playing none := congrArg Channel.music (channel_modifyChannel _ _ (among_of_slot _ hslot))
  have hends :=
    ends_direct hagenda (among_of_slot _ hslot) (signal_entertained ⟨rfl, ⟨1⟩, hslot, hpassthru⟩)
  refine ⟨s, hstart, hagenda, stranger_of_sideOf hslot hside, hsilent, _, hends, hplays,
    fun hrefuses => ?_⟩
  cases hrefuses with
  | atOnce hfails => cases (hfails.unique hends).2

end Session
end Switchboard
