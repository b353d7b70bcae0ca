import Switchboard.Proofs.TurnState.Moves
import Switchboard.Proofs.Frames

namespace Switchboard

theorem Phase.isMasqueraded_iff {phase : Phase} :
    phase.isMasqueraded = true ↔ phase = .optimized := by
  cases phase <;> simp [isMasqueraded]

/-- The acquisition is on its way to the other side, with the news that this one leaves. -/
inductive Acquisition.Bears (p : PairId) : Side → Acquisition → Prop
  | ownerLeaves (source leaver) : Bears p .owner ⟨p, .chan, source, .ownerLeaving leaver⟩
  | chanLeaves (source leaver status) : Bears p .chan ⟨p, .owner, source, .dialStatus leaver status⟩
  | relays (lock source) {frame} (h : frame.isControl .hangup = true) :
      Bears p .chan ⟨p, .owner, lock, .relay frame source⟩

theorem Acquisition.Bears.at {p : PairId} {side : Side} {a : Acquisition} (h : a.Bears p side) :
    a.pair = p ∧ a.side = side.peer := by
  cases h <;> exact ⟨rfl, rfl⟩

namespace Exchange

def Tells (e e' : Exchange) (c : ChannelId) : Prop :=
  ∃ frames, (e'.channel c).frames = (e.channel c).frames ++ frames ∧
    ∃ frame ∈ frames, frame.isControl .hangup = true

/-- The other side has been told, or there was nobody to be told, or no way to tell the owner-side.
-/
inductive Informed (e e' : Exchange) (p : PairId) (side : Side) : Prop
  | told {o} (hend : (e.pair p).endpoint side.peer = some o) (h : e.Tells e' o)
  | gone (hend : (e.pair p).endpoint side.peer = none)
  | optimized (hside : side = .chan) (hphase : (e.pair p).phase = .optimized)

def Informs (e : Exchange) (p : PairId) (side : Side) (t : Turn) : Prop :=
  e.Informed t.1 p side ∨ ∃ b, Acquisition.Bears p side b ∧ .retry b ∈ t.2

variable {e e' : Exchange} {p : PairId} {side : Side} {o : ChannelId}

theorem Tells.grow {e'' : Exchange} (h : e.Tells e' o)
    (hgrows : (e'.channel o).frames <+: (e''.channel o).frames) : e.Tells e'' o := by
  obtain ⟨frames, hframes, frame, hmem, hangup⟩ := h
  obtain ⟨more, hmore⟩ := hgrows
  refine ⟨frames ++ more, ?_, frame, List.mem_append_left _ hmem, hangup⟩
  rw [← hmore, hframes, List.append_assoc]

theorem Tells.after {e'' : Exchange} (h : e'.Tells e'' o)
    (hgrows : (e.channel o).frames <+: (e'.channel o).frames) : e.Tells e'' o := by
  obtain ⟨frames, hframes, frame, hmem, hangup⟩ := h
  obtain ⟨more, hmore⟩ := hgrows
  refine ⟨more ++ frames, ?_, frame, List.mem_append_right _ hmem, hangup⟩
  rw [hframes, ← hmore, List.append_assoc]

theorem tells_queueFrame {frame : Frame} (ho : o.Among e.channels.size)
    (hangup : frame.isControl .hangup = true) : e.Tells (e.queueFrame o frame) o := by
  refine ⟨[frame], ?_, frame, List.mem_singleton_self _, hangup⟩
  rw [queueFrame]
  rw [channel_modifyChannel e _ ho]

theorem Informs.of_same {t : Turn} (h : e'.Informs p side t)
    (hend : (e'.pair p).endpoint side.peer = (e.pair p).endpoint side.peer)
    (hphase : side = .chan → (e'.pair p).phase = .optimized → (e.pair p).phase = .optimized)
    (hframes : ∀ c, (e'.channel c).frames = (e.channel c).frames) : e.Informs p side t := by
  refine h.imp_left fun hinformed => ?_
  cases hinformed with
  | told ho htells =>
      obtain ⟨frames, hadded, hangup⟩ := htells
      exact .told (hend.symm.trans ho) ⟨frames, by rw [hadded, hframes], hangup⟩
  | gone hgone => exact .gone (hend.symm.trans hgone)
  | optimized hside hopt => exact .optimized hside (hphase hside hopt)

theorem Informs.of_view {t : Turn} (h : e'.Informs p side t) (he : e'.view = e.view) :
    e.Informs p side t := by
  have hpair := pair_eq_of_view he p
  refine h.of_same (by rw [hpair]) (fun _ => by rw [hpair]; exact id) fun c => ?_
  exact congrArg ChannelView.frames (channelView_eq_of_view he c)

theorem Informs.append {ts : List Task} (h : e.Informs p side (e', ts)) (us : List Task) :
    e.Informs p side (e', ts ++ us) :=
  h.imp_right fun ⟨b, hb, hlaid⟩ => ⟨b, hb, List.mem_append_left us hlaid⟩

theorem frames_depart (e : Exchange) (p : PairId) (side : Side) (leaver c : ChannelId) :
    (e.channel c).frames <+: (((e.clearSide p side).depart p side leaver).1.channel c).frames := by
  rcases frames_depart_or (e.clearSide p side) p side leaver c with hsame | ⟨-, -, cause, hsent⟩
  · exact ⟨[], (List.append_nil _).trans hsame.symm⟩
  · exact ⟨[.hangup cause], hsent.symm⟩

theorem acquire_informs_of_proceed {a : Acquisition} (ha : a.Bears p side)
    (h : ∀ (x : Exchange) (o : ChannelId), x.view = e.view →
    (x.pair p).endpoint side.peer = some o →
      x.Informs p side (x.proceed a (some o))) : e.Informs p side (e.acquire a) := by
  obtain ⟨hp, hside⟩ := ha.at
  rw [acquire]
  rw [hp, hside]
  cases hend : (e.pair p).endpoint side.peer with
  | none => exact .inl (.gone hend)
  | some o =>
      have hlock := view_tryLock e o
      simp only [seek, hend]
      rcases hl : e.tryLock o with ⟨_ | _, x⟩ <;> rw [hl] at hlock <;> dsimp only
      · refine .inr ⟨a, ha, ?_⟩
        rw [Acquisition.wait]
        split
        · exact .tail _ (.head _)
        · exact .head _
      · exact (h x o hlock (by rw [pair_eq_of_view hlock, hend])).of_view hlock

/-- Everybody who is there was made, and a record that was left to relays is one that both sides
have left. -/
structure Settled (e : Exchange) : Prop where
  seated : TurnState.Seated e
  cancelled : ∀ p, (e.pair p).glare.isCancelled = true → (e.pair p).isVacant = true

theorem Settled.of_view (h : e.Settled) (he : e'.view = e.view) : e'.Settled := by
  refine ⟨fun p side c hc => ?_, fun p hc => ?_⟩
  · rw [pair_eq_of_view he] at hc
    exact size_eq_of_view he ▸ h.seated p side c hc
  · rw [pair_eq_of_view he] at hc ⊢
    exact h.cancelled p hc

theorem Settled.modifyPair (h : e.Settled) {f : Pair → Pair}
    (hend : ∀ s c, (f (e.pair p)).endpoint s = some c → (e.pair p).endpoint s = some c)
    (hcancelled : (f (e.pair p)).glare.isCancelled = true → (f (e.pair p)).isVacant = true) :
    (e.modifyPair p f).Settled := by
  refine ⟨fun q s c hc => ?_, fun q hc => ?_⟩
  · rcases pair_modifyPair_or e p q f with hq | ⟨rfl, hq⟩ <;> rw [hq] at hc
    · exact h.seated q s c hc
    · exact h.seated q s c (hend s c hc)
  · rcases pair_modifyPair_or e p q f with hq | ⟨rfl, hq⟩ <;> rw [hq] at hc ⊢
    · exact h.cancelled q hc
    · exact hcancelled hc

theorem deliver_informs (h : e.Settled) {frame : Frame} (source : Option ChannelId)
    (hangup : frame.isControl .hangup = true) (hend : (e.pair p).endpoint .owner = some o) :
    e.Informs p .chan (e.deliver p frame source (some o)) := by
  have hcancelled : ¬ (e.pair p).glare.isCancelled = true := by
    intro hc
    rw [endpoint_of_isVacant (h.cancelled p hc)] at hend
    cases hend
  unfold deliver
  rw [if_neg hcancelled]
  dsimp only
  cases hphase : (e.pair p).phase.isMasqueraded with
  | true => exact .inl (.optimized rfl (Phase.isMasqueraded_iff.1 hphase))
  | false =>
      rw [if_neg Bool.false_ne_true]
      obtain ⟨x, hx, hplace⟩ := view_place e frame source o
      have ho : o.Among x.channels.size := size_eq_of_view hx ▸ h.seated p .owner o hend
      have htells : e.Tells (x.queueFrame o frame) o := by
        obtain ⟨frames, hframes, hmem⟩ := tells_queueFrame ho hangup
        refine ⟨frames, hframes.trans ?_, hmem⟩
        rw [show (x.channel o).frames = (e.channel o).frames from
          congrArg ChannelView.frames (channelView_eq_of_view hx o)]
      refine .inl (.told hend (htells.grow ?_))
      have hrelease := channelView_eq_of_view (view_releasePeer (x.queueFrame o frame) (some o)) o
      rw [hplace]
      exact ⟨[], (List.append_nil _).trans (congrArg ChannelView.frames hrelease).symm⟩

theorem relay_informs (h : e.Settled) {frame : Frame} (hangup : frame.isControl .hangup = true) :
    e.Informs p .chan (e.relay p .chan frame none false) := by
  rw [relay_eq]
  cases hend : (e.pair p).endpoint Side.chan.peer with
  | none => exact .inl (.gone hend)
  | some o =>
      dsimp only
      cases hphase : (e.pair p).phase.isMasqueraded with
      | true => exact .inl (.optimized rfl (Phase.isMasqueraded_iff.1 hphase))
      | false =>
          have hentered : (e.modifyPair p Pair.entered).Settled :=
            h.modifyPair (fun _ _ => id) fun hc =>
              h.cancelled p ((Glare.isCancelled_enter _).symm.trans hc)
          have hacquire := acquire_informs_of_proceed (e := e.modifyPair p Pair.entered)
            (.relays (p := p) none none hangup) fun x o hx ho =>
            deliver_informs (hentered.of_view hx) none hangup ho
          refine hacquire.of_same ?_ (fun _ => ?_) fun c => rfl
          · rw [pair_modifyPair_congr Pair.endpoint e p p rfl]
          · rw [pair_modifyPair_congr Pair.phase e p p rfl]
            exact id

def withoutChan (e : Exchange) (p : PairId) (leaver : ChannelId) : Exchange :=
  (e.clearSide p .chan).setSlot leaver .empty

theorem pair_withoutChan (hp : p ∈ e.pairIds) (leaver : ChannelId) :
    (e.withoutChan p leaver).pair p = (e.pair p).clear .chan :=
  (revised_clearSide hp .chan).here

theorem frames_withoutChan (e : Exchange) (p : PairId) (leaver c : ChannelId) :
    ((e.withoutChan p leaver).channel c).frames = (e.channel c).frames :=
  channel_modifyChannel_congr Channel.frames (e.clearSide p .chan) leaver c rfl

theorem Settled.withoutChan (h : e.Settled) (leaver : ChannelId) :
    (e.withoutChan p leaver).Settled := by
  have hclear : (e.modifyPair p (·.clear .chan)).Settled := by
    refine h.modifyPair (fun s c hc => ?_) fun hc => ?_
    · rw [endpoint_clear] at hc
      split at hc
      · cases hc
      · exact hc
    · rw [Pair.glare_clear] at hc
      exact Pair.isVacant_clear (h.cancelled p hc)
  refine ⟨fun q s c hc => ?_, hclear.cancelled⟩
  exact (hclear.seated q s c hc).mono (size_modifyChannel leaver _).ge

theorem depart_chan (hp : p ∈ e.pairIds) (leaver : ChannelId) :
    (e.clearSide p .chan).depart p .chan leaver =
      if ((e.pair p).clear .chan).isVacant then ((e.withoutChan p leaver).retire p, [])
      else (e.withoutChan p leaver).relay p .chan
        (.hangup ((e.withoutChan p leaver).channel leaver).hangupCause) none false := by
  have hunserved : unserved ((e.pair p).clear .chan) = none := by
    rw [unserved]
    split <;> rfl
  rw [depart]
  rw [← withoutChan, pair_withoutChan hp, hunserved]

theorem depart_informs (h : e.Settled) (leaver : ChannelId) :
    e.Informs p .chan ((e.clearSide p .chan).depart p .chan leaver) := by
  cases hend : (e.pair p).endpoint .owner with
  | none => exact .inl (.gone hend)
  | some o =>
      have hp : p ∈ e.pairIds := mem_pairIds_of_attached hend
      have howner : ((e.pair p).clear .chan).endpoint .owner = some o := by
        rw [endpoint_clear, hend]; rfl
      have hvacant : ¬ ((e.pair p).clear .chan).isVacant = true := by
        intro hv
        rw [endpoint_of_isVacant hv] at howner
        cases howner
      rw [depart_chan hp, if_neg hvacant]
      refine (relay_informs (h.withoutChan leaver) rfl).of_same ?_ (fun _ hopt => ?_)
        (frames_withoutChan e p leaver)
      · rw [pair_withoutChan hp]
        exact howner.trans hend.symm
      · rw [pair_withoutChan hp] at hopt
        cases hphase : (e.pair p).phase <;> simp [Pair.clear, Phase.chanDeparted, hphase] at hopt ⊢

theorem proceed_informs (h : e.Settled) {a : Acquisition} (ha : a.Bears p side)
    (hend : (e.pair p).endpoint side.peer = some o) : e.Informs p side (e.proceed a (some o)) := by
  cases ha with
  | ownerLeaves source leaver =>
      have htells : e.Tells (e.queueFrame o (.bare .hangup)) o :=
        tells_queueFrame (h.seated p .chan o hend) rfl
      have hunlock := channelView_eq_of_view (view_unlock (e.queueFrame o (.bare .hangup)) o) o
      have hdepart := frames_depart ((e.queueFrame o (.bare .hangup)).unlock o) p .owner leaver o
      rw [show (((e.queueFrame o (.bare .hangup)).unlock o).channel o).frames =
        ((e.queueFrame o (.bare .hangup)).channel o).frames from congrArg ChannelView.frames
        hunlock] at hdepart
      exact .inl (.told hend (htells.grow hdepart))
  | chanLeaves source leaver status =>
      have hquiet : ((e.setVar o channelStatus status).unlock o).view = e.view := by simp
      exact (depart_informs (h.of_view hquiet) leaver).of_view hquiet
  | relays lock source hangup => exact deliver_informs h source hangup hend

theorem acquire_informs (h : e.Settled) {a : Acquisition} (ha : a.Bears p side) :
    e.Informs p side (e.acquire a) :=
  acquire_informs_of_proceed ha fun _ _ hx ho => proceed_informs (h.of_view hx) ha ho

theorem retry_informs (h : e.Settled) {a : Acquisition} (ha : a.Bears p side) :
    e.Informs p side (e.retry a) := by
  rw [retry]
  cases a.source with
  | none => exact acquire_informs h ha
  | some source =>
      have hquiet := view_avoidDeadlock e source
      exact (acquire_informs (h.of_view hquiet) ha).of_view hquiet

theorem teardown_informs (h : e.Settled) {leaver : ChannelId}
    (hm : e.membership leaver = some (p, side)) :
    e.Informs p side (e.teardown leaver) := by
  rw [teardown]
  rw [hm]
  cases side with
  | owner =>
      have hquiet := view_passAnsweredElsewhere e p leaver
      exact ((acquire_informs (h.of_view hquiet) (.ownerLeaves (some leaver) leaver)).of_view
        hquiet).append _
  | chan =>
      dsimp only
      cases (e.channel leaver).getVar dialStatus with
      | none => exact (depart_informs h leaver).append _
      | some status => exact (acquire_informs h (.chanLeaves (some leaver) leaver status)).append _

theorem depart_silent (hphase : (e.pair p).phase = .optimized) (leaver c : ChannelId) :
    ((((e.clearSide p .chan).depart p .chan leaver).1).channel c).frames =
      (e.channel c).frames := by
  have hp : p ∈ e.pairIds := by
    by_contra hout
    rw [pair_of_not_mem hout] at hphase
    cases hphase
  have hclear : ((e.clearSide p .chan).pair p).phase = .optimized := by
    rw [(revised_clearSide hp .chan).here]
    exact Pair.phase_clear_of_optimized hphase .chan
  rcases frames_depart_or (e.clearSide p .chan) p .chan leaver c with hsame | ⟨-, hlive, -⟩
  · exact hsame
  · rw [hclear] at hlive
    cases hlive

theorem acquire_silent {b : Acquisition} (hb : b.Bears p .chan)
    (hphase : (e.pair p).phase = .optimized)
    (c : ChannelId) : ((e.acquire b).1.channel c).frames = (e.channel c).frames := by
  have hproceed : ∀ (x : Exchange) (peer : Option ChannelId), x.view = e.view →
      ((x.proceed b peer).1.channel c).frames = (e.channel c).frames := by
    intro x peer hx
    have hphase' : (x.pair p).phase = .optimized := by rw [pair_eq_of_view hx, hphase]
    rw [← frames_of_view hx c]
    cases hb with
    | chanLeaves source leaver status =>
        cases peer with
        | none => exact depart_silent hphase' leaver c
        | some o =>
            have hquiet : ((x.setVar o channelStatus status).unlock o).view = x.view := by simp
            rw [← frames_of_view hquiet c]
            exact depart_silent (by rw [pair_eq_of_view hquiet, hphase']) leaver c
    | relays lock source =>
        rcases frames_deliver_or x p _ source peer c with hsame | ⟨-, hlive, -⟩
        · exact hsame
        · rw [hphase'] at hlive
          cases hlive
  have hseek := view_seek e b.pair b.side
  rw [acquire]
  rcases hs : e.seek b.pair b.side with ⟨_ | o | _, x⟩ <;> rw [hs] at hseek
  · exact hproceed x none hseek
  · exact hproceed x (some o) hseek
  · exact frames_of_view hseek c

theorem teardown_silent {leaver : ChannelId} (hm : e.membership leaver = some (p, .chan))
    (hphase : (e.pair p).phase = .optimized) (c : ChannelId) :
    ((e.teardown leaver).1.channel c).frames = (e.channel c).frames := by
  rw [teardown]
  rw [hm]
  dsimp only
  cases (e.channel leaver).getVar dialStatus with
  | none => exact depart_silent hphase leaver c
  | some status => exact acquire_silent (.chanLeaves (some leaver) leaver status) hphase c

end Exchange

namespace Session

variable {s t : Session} {a : Acquisition} {p : PairId} {side : Side} {c : ChannelId}
    {rest : List Task}

theorem Reachable.settled {n : Nat} (h : s.Reachable n) : s.exchange.Settled := by
  refine ⟨h.seated, fun p hc => ?_⟩
  by_cases hp : p ∈ s.exchange.pairIds
  · exact (h.sound.record p hp).cancelled hc
  · rw [Exchange.pair_of_not_mem hp] at hc
    cases hc

/-- The driver is told next that the channel is hung up, and then there is `rest` to do. -/
def Hangs (s : Session) (c : ChannelId) (rest : List Task) : Prop :=
  s.agenda = .operate (.signal .direct c .hangup) :: rest ∨
    s.exchange.isDriven c = true ∧ s.agenda = .dispatch c .hangup :: rest

def Bears (s : Session) (p : PairId) (side : Side) (rest : List Task) : Prop :=
  ∃ above b below, s.agenda = above ++ .retry b :: below ∧ b.Bears p side ∧ rest <:+ below

theorem bears_of_mem {ts below : List Task} {b : Acquisition} (hagenda : s.agenda = ts ++ below)
    (hb : b.Bears p side) (hlaid : .retry b ∈ ts) (hrest : rest <:+ below) :
    s.Bears p side rest := by
  obtain ⟨above, more, rfl⟩ := List.append_of_mem hlaid
  refine ⟨above, b, more ++ below, ?_, hb, hrest.trans (List.suffix_append more below)⟩
  rw [hagenda, List.append_assoc, List.cons_append]

theorem Hangs.step (h : s.Hangs c rest) (hsettled : s.exchange.Settled)
    (hm : s.exchange.membership c = some (p, side)) :
    (s.step.exchange = s.exchange ∧ s.step.agenda = s.agenda) ∨
      s.exchange.Informed s.step.exchange p side ∨ s.step.Bears p side rest := by
  have hout : ∀ ts, s.step.agenda = ts ++ rest → s.exchange.Informs p side (s.step.exchange, ts) →
      s.exchange.Informed s.step.exchange p side ∨ s.step.Bears p side rest := by
    rintro ts hts (hinformed | ⟨b, hb, hlaid⟩)
    · exact .inl hinformed
    · exact .inr (bears_of_mem hts hb hlaid (List.suffix_refl rest))
  rcases h with hagenda | ⟨hdriven, hagenda⟩
  · have hstep : s.step = ({ s with agenda := rest } : Session).turn (s.exchange.teardown c) :=
      step_signal_of_record hagenda (Exchange.membership_eq_some hm).1
    refine .inr (hout (s.exchange.teardown c).2 (by rw [hstep]; rfl) ?_)
    rw [hstep]
    exact Exchange.teardown_informs hsettled hm
  · have hstep : s.step = ({ s with agenda := rest } : Session).turn
      (s.exchange.dispatch c .hangup) :=
      step_perform hagenda
    cases hl : s.exchange.lock? c with
    | none =>
        rw [hstep, Exchange.dispatch_of_locked hdriven hl, hagenda]
        exact .inl ⟨rfl, rfl⟩
    | some e =>
        have hdispatch : s.exchange.dispatch c .hangup =
            ((e.teardown c).1, (e.teardown c).2 ++ [Task.unlock c]) :=
              Exchange.dispatch_of_lock hdriven hl
        have hview := Exchange.view_lock hl
        have hm' := (Exchange.membership_eq_of_view hview c).trans hm
        refine .inr (hout ((e.teardown c).2 ++ [Task.unlock c]) (by rw [hstep, hdispatch]; rfl) ?_)
        rw [hstep, hdispatch]
        exact ((Exchange.teardown_informs (hsettled.of_view hview) hm').of_view hview).append _

/-- The next turn is the hangup's own, its first or one in which the news comes back from backing
off. -/
def Announces (s : Session) (p : PairId) (side : Side) (c : ChannelId) (rest : List Task) : Prop :=
  s.Hangs c rest ∧ s.exchange.membership c = some (p, side) ∨
    ∃ b below, s.agenda = .retry b :: below ∧ b.Bears p side ∧ rest <:+ below

/-- As long as the news is on its way it stays so, unless it gets out with a turn of the hangup. -/
theorem Moves.bears (hmove : Moves s t) (hsettled : s.exchange.Settled) (h : s.Bears p side rest) :
    t = s.step ∧ s.Announces p side c rest ∧ s.exchange.Informed t.exchange p side ∨
      t.Bears p side rest := by
  obtain ⟨above, b, below, hagenda, hb, hrest⟩ := h
  cases hmove with
  | others a rest' ops hhead =>
      refine .inr ⟨(tasksOf ops ++ [Task.closeScript]) ++ above, b, below, ?_, hb, hrest⟩
      rw [agenda_interrupt, hagenda, ← List.append_assoc]
  | step =>
      cases above with
      | cons t above =>
          obtain ⟨ts, hts, -⟩ := step_laid hagenda
          refine .inr ⟨ts ++ above, b, below, ?_, hb, hrest⟩
          rw [hts, List.append_assoc]
          rfl
      | nil =>
          have hstep : s.step = ({ s with agenda := below } : Session).turn (s.exchange.retry b) :=
            step_perform hagenda
          rw [hstep]
          rcases Exchange.retry_informs hsettled hb with hinformed | ⟨b', hb', hlaid⟩
          · exact .inl ⟨rfl, .inr ⟨b, below, hagenda, hb, hrest⟩, hinformed⟩
          · exact .inr (bears_of_mem rfl hb' hlaid hrest)

/-- The hangup has not begun, or its news is on its way. -/
def Untold (s : Session) (p : PairId) (side : Side) (c : ChannelId) (rest : List Task) : Prop :=
  s.Bears p side rest ∨ s.Hangs c rest ∧ s.exchange.membership c = some (p, side)

theorem Untold.not_over (h : s.Untold p side c rest) : s.agenda ≠ rest := by
  intro hover
  have hlength := congrArg List.length hover
  rcases h with ⟨above, b, below, hagenda, -, hrest⟩ | ⟨hagenda | ⟨-, hagenda⟩, -⟩
  · have hshort := hrest.length_le
    rw [hagenda, List.length_append, List.length_cons] at hlength
    omega
  · rw [hagenda, List.length_cons] at hlength
    omega
  · rw [hagenda, List.length_cons] at hlength
    omega

theorem Moves.untold (hmove : Moves s t) (hsettled : s.exchange.Settled)
    (h : s.Untold p side c rest) :
    t = s.step ∧ s.Announces p side c rest ∧ s.exchange.Informed t.exchange p side ∨
      t.Untold p side c rest := by
  rcases h with hbears | ⟨hhangs, hmember⟩
  · exact (hmove.bears hsettled hbears).imp_right .inl
  · cases hmove with
    | others a rest' ops hhead =>
        rcases hhangs with hagenda | ⟨-, hagenda⟩ <;> rw [hhead] at hagenda <;> cases hagenda
    | step =>
        rcases hhangs.step hsettled hmember with ⟨hexchange, hagenda⟩ | hinformed | hbears
        · refine .inr (.inr ⟨?_, by rw [hexchange]; exact hmember⟩)
          rw [Hangs, hexchange, hagenda]
          exact hhangs
        · exact .inl ⟨rfl, .inl ⟨hhangs, hmember⟩, hinformed⟩
        · exact .inr (.inl hbears)

theorem Announces.silent (h : s.Announces p .chan c rest)
    (hphase : (s.exchange.pair p).phase = .optimized)
    (d : ChannelId) : (s.step.exchange.channel d).frames = (s.exchange.channel d).frames := by
  rcases h with ⟨hagenda | ⟨hdriven, hagenda⟩, hmember⟩ | ⟨b, below, hagenda, hb, -⟩
  · rw [step_signal_of_record hagenda (Exchange.membership_eq_some hmember).1]
    exact Exchange.teardown_silent hmember hphase d
  · have hstep : s.step = ({ s with agenda := rest } : Session).turn
      (s.exchange.dispatch c .hangup) :=
      step_perform hagenda
    rw [hstep]
    cases hl : s.exchange.lock? c with
    | none =>
        rw [Exchange.dispatch_of_locked hdriven hl]
        rfl
    | some e =>
        have hview := Exchange.view_lock hl
        rw [Exchange.dispatch_of_lock hdriven hl, ← Exchange.frames_of_view hview d]
        exact Exchange.teardown_silent ((Exchange.membership_eq_of_view hview c).trans hmember)
          (by rw [Exchange.pair_eq_of_view hview, hphase]) d
  · have hstep : s.step = ({ s with agenda := below } : Session).turn (s.exchange.retry b) :=
      step_perform hagenda
    rw [hstep, Exchange.retry_eq]
    exact Exchange.acquire_silent hb hphase d

/-- The next turn is the first that may carry the acquisition: it does not come back from backing
off. -/
def Begins (s : Session) (a : Acquisition) : Prop :=
  s.Entitles (.carries a) ∧ ∀ below, s.agenda ≠ .retry a :: below

theorem Begins.hangs (h : s.Begins a) (hleaver : a.purpose.leaver = some c) :
    ∃ rest, s.Hangs c rest ∧ s.exchange.recordOf c = some a.pair := by
  have hdeparts : a.purpose.isRelay ≠ true := by
    intro hrelay
    cases hp : a.purpose <;> rw [hp] at hleaver hrelay
    · cases hleaver
    · exact Bool.false_ne_true hrelay
    · exact Bool.false_ne_true hrelay
  obtain ⟨⟨u, rest, hagenda, hentitled⟩, hnew⟩ := h
  cases hentitled with
  | again => exact absurd hagenda (hnew rest)
  | tells _ _ hrelay | writes hrelay | relays hrelay => exact absurd hrelay hdeparts
  | dispatched hdriven hl hsignals =>
      cases hsignals with
      | relays _ hrelay => exact absurd hrelay hdeparts
      | departs hs hp hleaver' _ =>
          subst hs
          obtain rfl := Option.some.inj (hleaver.symm.trans hleaver')
          rw [Exchange.recordOf_eq_of_view (Exchange.view_lock hl)] at hp
          exact ⟨rest, .inr ⟨hdriven, hagenda⟩, hp⟩
  | direct hsignals =>
      cases hsignals with
      | relays _ hrelay => exact absurd hrelay hdeparts
      | departs hs hp hleaver' _ =>
          subst hs
          obtain rfl := Option.some.inj (hleaver.symm.trans hleaver')
          exact ⟨rest, .inl hagenda, hp⟩

theorem Begins.faces (h : s.Begins a) (hdeparts : a.purpose.isRelay = false) :
    a.purpose.leaving = some a.side.peer := by
  have hrelay : a.purpose.isRelay ≠ true := Bool.eq_false_iff.1 hdeparts
  obtain ⟨⟨u, rest, hagenda, hentitled⟩, hnew⟩ := h
  cases hentitled with
  | again => exact absurd hagenda (hnew rest)
  | tells _ _ h | writes h | relays h => exact absurd h hrelay
  | dispatched _ _ hsignals | direct hsignals =>
      cases hsignals with
      | relays _ h => exact absurd h hrelay
      | departs _ _ _ hside => exact hside

end Session
end Switchboard
