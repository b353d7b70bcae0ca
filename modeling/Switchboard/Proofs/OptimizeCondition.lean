import Switchboard.Proofs.RelayDelivery
import Switchboard.Proofs.Optimization

namespace Switchboard

/-- What an optimisation takes along, and what a channel is called. -/
structure Movables where
  name : String
  monitor : Option String
  audiohooks : List String
  groups : List String
  pendingMasquerade : Option ChannelId

def Channel.movables (x : Channel) : Movables :=
  ⟨x.name, x.monitor, x.audiohooks, x.groups, x.pendingMasquerade⟩

namespace Exchange

def movables (e : Exchange) : (ChannelId → Movables) × (PairId → Phase) :=
  (fun c => (e.channel c).movables, fun p => (e.pair p).phase)

def directBridge (e : Exchange) (c : ChannelId) : Option ChannelId :=
  match (e.channel c).bridge with
  | some bridge => if e.bridgedChannel c = some bridge then some bridge else none
  | none => none

/-- All that it takes for a frame of the channel to take the pair out of the call: what is said of
the frame, of the pair, of the bridge that was resolved, and of the locks of the two channels that
change places. -/
structure CanOptimize (e : Exchange) (p : PairId) (c : ChannelId) (frame : Frame)
    (third owner : ChannelId) : Prop where
  media : frame.isMedia = true
  chanSide : (e.pair p).chan = some c
  ownerSide : (e.pair p).owner = some owner
  permitted : (e.pair p).destination.options.noOptimization = false
  inCall : (e.pair p).phase ≠ .optimized
  bridge : (e.channel c).bridge = some third
  read : (e.channel owner).frames = []
  thirdFree : (e.tryLock third).1 = true
  ownerFree : ((e.tryLock third).2.tryLock owner).1 = true
  thirdStays : (e.channel third).hangingUp = false
  ownerStays : (e.channel owner).hangingUp = false

def relayThrough (e : Exchange) (p : PairId) (c : ChannelId) (frame : Frame) : Turn :=
  match (e.pair p).sideOf c with
  | none => e.refused (e.notLocal c)
  | some side =>
    let (e, tasks) := e.relay p side frame (some c) true
    (e, tasks ++ [.settle .done])

/-- What an optimisation leaves that is not to be: the outcomes that were laid down for its attempts
on the locks, as far as it got, are used up. -/
inductive AttemptFails (e : Exchange) (p : PairId) : Option ChannelId → Exchange → Prop
  | atOnce (third) : AttemptFails e p third e
  | atThird (third) : AttemptFails e p (some third) (e.spent third)
  | atOwner (third owner) (h : (e.pair p).owner = some owner) :
      AttemptFails e p (some third) ((e.spent third).spent owner)

variable {e : Exchange} {p : PairId} {c third owner : ChannelId} {frame : Frame}

theorem candidates_iff {side : Side} {third : Option ChannelId} {owner chan t : ChannelId} :
    e.candidates p side third = some (owner, chan, t) ↔
      side = .chan ∧ (e.pair p).destination.options.noOptimization = false ∧
      (e.pair p).phase ≠ .optimized ∧
        third = some t ∧ (e.pair p).owner = some owner ∧ (e.pair p).chan = some chan ∧
        (e.channel chan).bridge = some t ∧ (e.channel owner).frames = [] := by
  have hphase : (e.pair p).phase ≠ .optimized ↔ (e.pair p).phase.isMasqueraded = false := by
    rw [ne_eq, ← Phase.isMasqueraded_iff, Bool.not_eq_true]
  rw [hphase]
  constructor
  · intro h
    simp only [candidates] at h
    split at h
    · cases h
    · next hopen =>
        simp only [Bool.or_eq_true, not_or, Bool.not_eq_true, decide_eq_true_eq] at hopen
        split at h
        · next t' owner' chan' howner hchan =>
            split at h
            · next hbridged =>
                cases h
                rw [Bool.and_eq_true, decide_eq_true_eq, List.isEmpty_iff] at hbridged
                have hside : side = .chan := by
                  cases side with
                  | owner => exact absurd rfl hopen.1.1
                  | chan => rfl
                exact ⟨hside, hopen.1.2, hopen.2, rfl, howner, hchan, hbridged⟩
            · cases h
        · cases h
  · rintro ⟨rfl, hpermitted, hincall, rfl, howner, hchan, hbridge, hread⟩
    simp [candidates, hpermitted, hincall, howner, hchan, hbridge, hread]

theorem tryLock_fst (c : ChannelId) : (e.tryLock c).1 = !e.refuses c := by
  rw [tryLock_eq]
  cases e.refuses c <;> rfl

theorem tryLock_snd (h : e.refuses c = false) : (e.tryLock c).2 = e.taken c := by
  rw [tryLock_eq, h, if_neg Bool.false_ne_true]

theorem unlock_taken_self (h : e.refuses c = false) (hsound : (e.channel c).lock.Sound) :
    (e.taken c).unlock c = e.spent c := by
  have hback := unlock_taken e h hsound (f := id) fun _ _ => rfl
  rwa [modifyChannel_eq_self _ rfl, modifyChannel_eq_self _ rfl] at hback

theorem hangingUp_taken (c d : ChannelId) :
    ((e.taken c).channel d).hangingUp = (e.channel d).hangingUp :=
  channel_modifyChannel_congr Channel.hangingUp (e.spent c) c d rfl

theorem sound_writing (h : e.locks.Sound) (c : ChannelId) : (e.writing c).locks.Sound := by
  intro d
  change ((e.writing c).channel d).lock.Sound
  rcases channel_modifyChannel_or e c d fun x => { x with lock := x.lock.take .main } with hsame |
    ⟨-, htaken⟩
  · rw [writing, hsame]
    exact h d
  · rw [writing, htaken]
    exact RecursiveLock.sound_take

/-- An attempt that finds anything wanting leaves the exchange as it was, but for the outcomes laid
down. -/
theorem tryOptimize_attemptFails (hsound : e.locks.Sound) (hmedia : frame.isMedia = true)
    {side : Side} (hside : (e.pair p).sideOf c = some side) {third : Option ChannelId}
    (h : ∀ t owner, third = some t → ¬ e.CanOptimize p c frame t owner) :
    ∃ e', e.AttemptFails p third e' ∧ e.tryOptimize p side third = (none, e') := by
  rw [tryOptimize]
  cases hcandidates : e.candidates p side third with
  | none => exact ⟨e, .atOnce third, rfl⟩
  | some x =>
      obtain ⟨owner, chan, t⟩ := x
      obtain ⟨rfl, hpermitted, hincall, rfl, howner, hchan, hbridge, hread⟩ :=
        candidates_iff.1 hcandidates
      obtain rfl : chan = c := Option.some.inj (hchan.symm.trans (sideOf_eq_some hside))
      dsimp only
      rw [tryLock_eq]
      cases hthird : e.refuses t with
      | true => exact ⟨_, .atThird t, rfl⟩
      | false =>
          rw [if_neg Bool.false_ne_true]
          dsimp only
          rw [hangingUp_taken]
          have hback := unlock_taken_self hthird (hsound t)
          cases hthirdLeaves : (e.channel t).hangingUp with
          | true =>
              rw [if_pos rfl, hback]
              exact ⟨_, .atThird t, rfl⟩
          | false =>
              rw [if_neg Bool.false_ne_true, tryLock_eq]
              cases hfree : (e.taken t).refuses owner with
              | true =>
                  -- What is laid down and what is held are apart, so the one is spent and the other is given back.
                  have hspent : ((e.taken t).spent owner).unlock t = (e.spent t).spent owner :=
                    congrArg (·.spent owner) hback
                  rw [if_pos rfl]
                  dsimp only
                  rw [hspent]
                  exact ⟨_, .atOwner t owner howner, rfl⟩
              | false =>
                  rw [if_neg Bool.false_ne_true]
                  dsimp only
                  rw [hangingUp_taken, hangingUp_taken]
                  cases hownerLeaves : (e.channel owner).hangingUp with
                  | true =>
                      have hspent : ((e.taken t).spent owner).unlock t = (e.spent t).spent owner :=
                        congrArg (·.spent owner) hback
                      rw [if_pos rfl,
                        unlock_taken_self hfree (sound_writing (e := e.spent t) hsound t owner),
                        hspent]
                      exact ⟨_, .atOwner t owner howner, rfl⟩
                  | false =>
                      refine absurd ?_ (h t owner rfl)
                      refine ⟨hmedia, hchan, howner, hpermitted, hincall, hbridge, hread, ?_, ?_,
                        hthirdLeaves,
                        hownerLeaves⟩
                      · rw [tryLock_fst, hthird, Bool.not_false]
                      · rw [tryLock_snd hthird, tryLock_fst, hfree, Bool.not_false]

theorem phase_requestMasquerade (hp : p ∈ e.pairIds) (owner chan third : ChannelId) :
    ((e.requestMasquerade p owner chan third).2.pair p).phase = .optimized := by
  have hgathered : (e.gatherAttachments owner chan third).pairs = e.pairs :=
    congrArg ExchangeView.pairs (view_gatherAttachments e owner chan third)
  have hasked : ((e.gatherAttachments owner chan third).masquerade owner third).2.pairs = e.pairs :=
    (congrArg ExchangeView.pairs (view_masquerade _ owner third)).trans hgathered
  rw [requestMasquerade]
  rcases hm : (e.gatherAttachments owner chan third).masquerade owner third with ⟨why | _, x⟩ <;>
    rw [hm] at hasked
  all_goals
    have hp' : p ∈ x.pairIds := by rwa [pairIds_eq_of_size (congrArg Table.size hasked)]
    exact congrArg Pair.phase (revised_modifyPair hp' _).here

theorem CanOptimize.phase (h : e.CanOptimize p c frame third owner) :
    ((e.tryOptimize p .chan (some third)).2.pair p).phase = .optimized := by
  have hcandidates : e.candidates p .chan (some third) = some (owner, c, third) :=
    candidates_iff.2 ⟨rfl, h.permitted, h.inCall, rfl, h.ownerSide, h.chanSide, h.bridge, h.read⟩
  have hthird : e.refuses third = false := by
    have hfree := h.thirdFree
    rwa [tryLock_fst, Bool.not_eq_true'] at hfree
  have howner : (e.taken third).refuses owner = false := by
    have hfree := h.ownerFree
    rwa [tryLock_snd hthird, tryLock_fst, Bool.not_eq_true'] at hfree
  have hknown : p ∈ ((e.taken third).taken owner).pairIds := by
    have hend : (e.pair p).endpoint .owner = some owner := h.ownerSide
    exact mem_pairIds_of_attached hend
  rw [tryOptimize, hcandidates]
  dsimp only
  rw [tryLock_eq, hthird, if_neg Bool.false_ne_true]
  dsimp only
  rw [hangingUp_taken, h.thirdStays, if_neg Bool.false_ne_true, tryLock_eq, howner,
    if_neg Bool.false_ne_true]
  dsimp only
  rw [hangingUp_taken, hangingUp_taken, h.ownerStays, if_neg Bool.false_ne_true]
  exact phase_requestMasquerade hknown owner c third

theorem CanOptimize.side (h : e.CanOptimize p c frame third owner) :
    (e.pair p).sideOf c = some .chan := by
  rw [Pair.sideOf, h.chanSide, if_pos rfl]

theorem writeKnowing_of_side {side : Side} (h : (e.pair p).sideOf c = some side)
    (third : Option ChannelId) :
    e.writeKnowing p c frame third =
      let x := if frame.isMedia then e.tryOptimize p side third else (none, e)
      ((x.2.relay p side frame (some c) true).1,
        (x.2.relay p side frame (some c) true).2 ++ (x.1.map .complete).toList ++
        [Task.settle .done]) := by
  rw [writeKnowing]
  rw [h]

theorem CanOptimize.optimizes (h : e.CanOptimize p c frame third owner) :
    ((e.writeKnowing p c frame (some third)).1.pair p).phase = .optimized := by
  have hphase := h.phase
  rw [writeKnowing_of_side h.side, if_pos h.media]
  generalize e.tryOptimize p .chan (some third) = x at hphase
  have hbarred : x.2.Barred p .chan (some c) := .inr (.inl (Phase.isMasqueraded_iff.2 hphase))
  dsimp only
  rw [relay_barred hbarred]
  exact hphase

/-- Where anything is wanting, the turn is that of a relay. -/
theorem writeKnowing_attemptFails (hsound : e.locks.Sound) {third : Option ChannelId}
    (h : ∀ t owner, third = some t → ¬ e.CanOptimize p c frame t owner) :
    ∃ e', e.AttemptFails p third e' ∧
      e.writeKnowing p c frame third = e'.relayThrough p c frame := by
  cases hside : (e.pair p).sideOf c with
  | none =>
      refine ⟨e, .atOnce third, ?_⟩
      rw [writeKnowing, relayThrough]
      rw [hside]
  | some side =>
      have hthrough : ∀ e', e.AttemptFails p third e' → e'.relayThrough p c frame =
          ((e'.relay p side frame (some c) true).1,
            (e'.relay p side frame (some c) true).2 ++ [Task.settle .done]) := by
        intro e' he'
        have hside' : (e'.pair p).sideOf c = some side := by cases he' <;> exact hside
        rw [relayThrough]
        rw [hside']
      rw [writeKnowing_of_side hside]
      cases hmedia : frame.isMedia with
      | false =>
          refine ⟨e, .atOnce third, ?_⟩
          rw [hthrough e (.atOnce third), if_neg Bool.false_ne_true]
          exact congrArg (Prod.mk _) (by simp)
      | true =>
          obtain ⟨e', hfails, hidle⟩ := tryOptimize_attemptFails hsound hmedia hside h
          refine ⟨e', hfails, ?_⟩
          rw [hthrough e' hfails, if_pos rfl, hidle]
          exact congrArg (Prod.mk _) (by simp)

theorem movables_modifyChannel (e : Exchange) (c : ChannelId) {f : Channel → Channel}
    (h : (f (e.channel c)).movables = (e.channel c).movables) :
    (e.modifyChannel c f).movables = e.movables :=
  Prod.ext (funext fun d => channel_modifyChannel_congr Channel.movables e c d h) rfl

theorem movables_modifyPair (e : Exchange) (p : PairId) {f : Pair → Pair}
    (h : (f (e.pair p)).phase = (e.pair p).phase) : (e.modifyPair p f).movables = e.movables :=
  Prod.ext rfl (funext fun q => pair_modifyPair_congr Pair.phase e p q h)

theorem movables_destroy (e : Exchange) (p : PairId) : (e.destroy p).movables = e.movables := by
  rw [destroy]
  split
  · rfl
  · exact movables_modifyPair e p rfl

theorem spared_movables (frame : Frame) (source : Option ChannelId) :
    Spared movables frame source where
  spent _ _ := rfl
  lock e c _ := movables_modifyChannel e c rfl
  glare e p _ := movables_modifyPair e p rfl
  destroy := movables_destroy
  place e c := by
    rw [place_eq]
    exact movables_modifyChannel e c rfl

theorem movables_relayThrough (e : Exchange) (p : PairId) (c : ChannelId) (frame : Frame) :
    (e.relayThrough p c frame).1.movables = e.movables := by
  rw [relayThrough]
  cases (e.pair p).sideOf c with
  | none => rfl
  | some side => exact (spared_movables frame (some c)).relay e p side true

theorem AttemptFails.movables {third : Option ChannelId} {e' : Exchange}
    (h : e.AttemptFails p third e') :
    e'.movables = e.movables := by
  cases h <;> rfl

theorem relayFrom_eq (h : e.recordOf c = some p) :
    e.relayFrom c frame = e.relayThrough p c frame := by
  rw [relayFrom, membership, h, relayThrough, Option.bind_some]
  cases (e.pair p).sideOf c <;> rfl

theorem writeKnowing_congr
    (h : (frame.isMedia && !(e.pair p).destination.options.noOptimization) = false)
    (third third' : Option ChannelId) :
    e.writeKnowing p c frame third = e.writeKnowing p c frame third' := by
  cases hside : (e.pair p).sideOf c with
  | none =>
      rw [writeKnowing, writeKnowing]
      rw [hside]
  | some side =>
      rw [writeKnowing_of_side hside, writeKnowing_of_side hside]
      cases hmedia : frame.isMedia with
      | false => rfl
      | true =>
          rw [hmedia, Bool.true_and, Bool.not_eq_false'] at h
          have hidle : ∀ t, e.tryOptimize p side t = (none, e) := by
            intro t
            have hnone : e.candidates p side t = none := by simp [candidates, h]
            rw [tryOptimize, hnone]
          rw [if_pos rfl, if_pos rfl, hidle, hidle]

theorem writeFrame_resolves (h : e.recordOf c = some p) (frame : Frame) :
    e.writeFrame c frame = (e, [.pause .resolution, .write p c frame (e.directBridge c)]) ∨
      e.writeFrame c frame = e.writeKnowing p c frame (e.directBridge c) := by
  rw [writeFrame]
  rw [h]
  dsimp only
  by_cases hasked : (frame.isMedia && !(e.pair p).destination.options.noOptimization) = true
  · rw [if_pos hasked, directBridge]
    cases (e.channel c).bridge with
    | none => exact .inr rfl
    | some bridge => exact .inl rfl
  · rw [if_neg hasked]
    exact .inr (writeKnowing_congr (Bool.eq_false_iff.2 hasked) none _)

theorem directBridge_writing (e : Exchange) (c d : ChannelId) :
    (e.writing c).directBridge d = e.directBridge d := by
  have hbridge : ∀ b, ((e.writing c).channel b).bridge = (e.channel b).bridge :=
    channel_writing Channel.bridge (fun _ _ => rfl) c
  have hrecord : ∀ b, (e.writing c).recordOf b = e.recordOf b := by
    intro b
    rw [recordOf, recordOf, channel_writing Channel.slot (fun _ _ => rfl) c b]
  have hfar : ∀ b, (e.writing c).farEnd b = e.farEnd b := by
    intro b
    simp only [farEnd, hrecord, hbridge]
    rfl
  have hbridged : (e.writing c).bridgedChannel d = e.bridgedChannel d := by
    simp only [bridgedChannel, hbridge, isDriven_writing, hfar]
  rw [directBridge, hbridge, hbridged]
  rfl

end Exchange

namespace Session

open Exchange

/-- The driver is told next of a frame that the channel writes, by the exchange or at once. When it
is done with that there is `below` left to do. -/
def Sends (s : Session) (c : ChannelId) (frame : Frame) (rest below : List Task) : Prop :=
  s.agenda = .operate (.signal .direct c (.write frame)) :: rest ∧ below = rest ∨
    s.exchange.isDriven c = true ∧ s.agenda = .dispatch c (.write frame) :: rest ∧
    below = .unlock c :: rest

def met (s : Session) (c : ChannelId) : Exchange :=
  match s.agenda with
  | .dispatch _ _ :: _ => s.exchange.writing c
  | _ => s.exchange

variable {s t : Session} {p : PairId} {c : ChannelId} {frame : Frame} {third : Option ChannelId}
  {rest below : List Task}

/-- The write waits for the channel's lock, or for others to be done once its bridge is resolved. -/
def Awaits (s : Session) (e : Exchange) (p : PairId) (c : ChannelId) (frame : Frame)
    (rest below : List Task) : Prop :=
  s.Sends c frame rest below ∧ s.exchange = e ∨
    .write p c frame (e.directBridge c) :: below <:+ s.agenda

/-- The next turn of the write, before it has taken the record. -/
def Attempts (s : Session) (p : PairId) (c : ChannelId) (frame : Frame) (third : Option ChannelId)
    (rest below : List Task) : Prop :=
  s.Sends c frame rest below ∨ s.agenda = .pause .resolution :: .write p c frame third :: below

theorem met_of_write {later : List Task} (h : s.agenda = .write p c frame third :: later) :
    s.met c = s.exchange := by
  rw [met, h]

theorem sound_met (h : s.exchange.locks.Sound) (c : ChannelId) : (s.met c).locks.Sound := by
  rw [met]
  split
  · exact sound_writing h c
  · exact h

theorem movables_met (s : Session) (c : ChannelId) : (s.met c).movables = s.exchange.movables := by
  rw [met]
  split
  · exact movables_modifyChannel s.exchange c rfl
  · rfl

theorem Sends.step (h : s.Sends c frame rest below) (hrecord : s.exchange.recordOf c = some p) :
    s.step.Awaits s.exchange p c frame rest below ∧ s.step.exchange.movables = s.exchange.movables ∨
      s.step = ({ s with agenda := below } : Session).turn
        ((s.met c).writeKnowing p c frame (s.exchange.directBridge c)) := by
  rcases h with ⟨hagenda, rfl⟩ | ⟨hdriven, hagenda, rfl⟩
  · have hstep : s.step = ({ s with agenda := below } : Session).turn
      (s.exchange.writeFrame c frame) :=
      step_signal_of_record hagenda hrecord
    have hmet : s.met c = s.exchange := by rw [met, hagenda]
    rw [hstep, hmet]
    rcases writeFrame_resolves hrecord frame with hasks | hweighs
    · rw [hasks]
      exact .inl ⟨.inr (List.suffix_cons _ _), rfl⟩
    · rw [hweighs]
      exact .inr rfl
  · have hstep : s.step = ({ s with agenda := rest } : Session).turn
      (s.exchange.dispatch c (.write frame)) :=
      step_perform hagenda
    have hmet : s.met c = s.exchange.writing c := by rw [met, hagenda]
    rw [hstep, hmet]
    cases hlock : (s.exchange.channel c).lock.openTo .main with
    | false =>
        have hnone : s.exchange.lock? c = none := by rw [lock?_eq, hlock, if_neg Bool.false_ne_true]
        rw [dispatch_of_locked hdriven hnone]
        exact .inl ⟨.inl ⟨.inr ⟨hdriven, rfl, rfl⟩, rfl⟩, rfl⟩
    | true =>
        have hsome : s.exchange.lock? c = some (s.exchange.writing c) := by
          rw [lock?_eq, hlock, if_pos rfl]
          rfl
        have hrecord' : (s.exchange.writing c).recordOf c = some p := by
          rw [recordOf, channel_writing Channel.slot fun _ _ => rfl]
          exact hrecord
        rw [dispatch_of_lock hdriven hsome, signal, ← directBridge_writing s.exchange c c]
        rcases writeFrame_resolves hrecord' frame with hasks | hweighs
        · rw [hasks, directBridge_writing]
          exact .inl ⟨.inr (List.suffix_cons _ _), movables_modifyChannel s.exchange c rfl⟩
        · right
          rw [hweighs, turn, turn, push, push, List.append_assoc]
          rfl

theorem Sends.length (h : s.Sends c frame rest below) :
    s.agenda.length = rest.length + 1 ∧ rest.length ≤ below.length := by
  rcases h with ⟨hagenda, rfl⟩ | ⟨-, hagenda, rfl⟩
  · exact ⟨congrArg List.length hagenda, Nat.le_refl _⟩
  · exact ⟨congrArg List.length hagenda, Nat.le_succ _⟩

theorem Moves.awaits {e : Exchange} (hm : Moves s t) (hrecord : e.recordOf c = some p)
    (h : s.Awaits e p c frame rest below) :
    t.Awaits e p c frame rest below ∧
        (s.Attempts p c frame (e.directBridge c) rest below →
        t.exchange.movables = s.exchange.movables) ∨
      t = s.step ∧ t = ({ s with agenda := below } : Session).turn
        ((s.met c).writeKnowing p c frame (e.directBridge c)) := by
  rcases h with ⟨hsends, rfl⟩ | hlaid
  · cases hm with
    | step =>
        rcases hsends.step hrecord with ⟨hawaits, hsame⟩ | hweighs
        · exact .inl ⟨hawaits, fun _ => hsame⟩
        · exact .inr ⟨rfl, hweighs⟩
    | others a later ops hhead =>
        rcases hsends with ⟨hagenda, -⟩ | ⟨-, hagenda, -⟩ <;> rw [hhead] at hagenda <;>
          cases hagenda
  · rcases hm.behind hlaid with hstill | ⟨hagenda, rfl⟩
    · refine .inl ⟨.inr hstill, fun hattempts => ?_⟩
      rcases hattempts with hsends | hpauses
      · -- The agenda is too short for the write to be told of again.
        have hagenda :=
          hlaid.eq_of_length_le (hsends.length.1.trans_le (Nat.succ_le_succ hsends.length.2))
        rcases hsends with ⟨hhead, -⟩ | ⟨-, hhead, -⟩ <;> rw [← hagenda] at hhead <;> cases hhead
      · cases hm with
        | others a later ops hhead =>
            rw [hpauses] at hhead
            cases hhead
        | step =>
            have hstep := step_perform hpauses
            rw [hstep]
            exact congrArg Exchange.movables (exchange_pause _ .resolution)
    · refine .inr ⟨rfl, ?_⟩
      rw [met_of_write hagenda]
      exact step_perform hagenda

theorem weighs_before {s : Nat → Session} {n : Nat} (hmoves : ∀ k < n, Moves (s k) (s (k + 1)))
    (hrecord : (s 0).exchange.recordOf c = some p) (hsends : (s 0).Sends c frame rest below)
    (hover : (s n).agenda = rest) :
    ∃ j < n, s (j + 1) = (s j).step ∧
      s (j + 1) = ({ s j with agenda := below } : Session).turn
        (((s j).met c).writeKnowing p c frame ((s 0).exchange.directBridge c)) ∧
      ∀ k < j, (s k).Attempts p c frame ((s 0).exchange.directBridge c) rest below →
        (s (k + 1)).exchange.movables = (s k).exchange.movables := by
  have hover' : ¬ (s n).Awaits (s 0).exchange p c frame rest below := by
    rintro (⟨hsends', -⟩ | hlaid)
    · have hlong := hsends'.length.1
      rw [hover] at hlong
      omega
    · have hlong := hlaid.length_le
      have hshort := hsends.length.2
      rw [hover, List.length_cons] at hlong
      omega
  obtain ⟨j, hj, ⟨hstep, hweighs⟩, hquiet⟩ :=
    comes_before (·.Awaits (s 0).exchange p c frame rest below) (.inl ⟨hsends, rfl⟩) hover'
      fun k hk hwaits => (hmoves k hk).awaits hrecord hwaits
  exact ⟨j, hj, hstep, hweighs, hquiet⟩

theorem movables_retry {a : Acquisition} {source : Option ChannelId} {later : List Task}
    (hagenda : s.agenda = .retry a :: later) (ha : a.purpose = .relay frame source) :
    s.step.exchange.movables = s.exchange.movables := by
  rw [step_retry hagenda]
  exact (spared_movables frame source).acquire s.exchange ha

/-- A frame that an endpoint writes optimises its pair exactly if, when the write takes the record,
`CanOptimize` holds. Otherwise that turn is the turn of a relay of the frame, and in all the turns
of the write no channel's `movables` and no pair's phase change. -/
theorem optimizes_exactly {side : Side} {s : Nat → Session} {m n : Nat}
    (hreachable : (s 0).Reachable m)
    (hmoves : ∀ k < n, Moves (s k) (s (k + 1))) (hsends : (s 0).Sends c frame rest below)
    (hmember : (s 0).exchange.membership c = some (p, side)) (hover : (s n).agenda = rest) :
    ∃ j < n, s (j + 1) = (s j).step ∧
      ((((s j).exchange.pair p).phase ≠ .optimized ∧
      ((s (j + 1)).exchange.pair p).phase = .optimized) ↔
        ∃ third owner, (s 0).exchange.directBridge c = some third ∧
        ((s j).met c).CanOptimize p c frame third owner) ∧
      ((∀ third owner, (s 0).exchange.directBridge c = some third →
      ¬ ((s j).met c).CanOptimize p c frame third owner) →
        (s (j + 1)).exchange.movables = (s j).exchange.movables ∧
        ∃ e, ((s j).met c).AttemptFails p ((s 0).exchange.directBridge c) e ∧
          s (j + 1) = ({ s j with agenda := below } : Session).turn (e.relayThrough p c frame) ∧
          (e.recordOf c = some p → e.relayThrough p c frame = e.relayFrom c frame)) ∧
      (∀ k < j, (s k).Attempts p c frame ((s 0).exchange.directBridge c) rest below →
        (s (k + 1)).exchange.movables = (s k).exchange.movables) ∧
      ∀ k < n, ∀ a later, (s k).agenda = .retry a :: later → a.purpose = .relay frame (some c) →
        s (k + 1) = (s k).step → (s (k + 1)).exchange.movables = (s k).exchange.movables := by
  obtain ⟨j, hj, hstep, hweighs, hquiet⟩ :=
    weighs_before hmoves (membership_eq_some hmember).1 hsends hover
  obtain ⟨m', hm'⟩ := hreachable.trace hmoves j hj.le
  have hphase : ((s j).exchange.pair p).phase = (((s j).met c).pair p).phase :=
    congrFun (congrArg Prod.snd (movables_met (s j) c).symm) p
  have hfails : (∀ third owner, (s 0).exchange.directBridge c = some third →
      ¬ ((s j).met c).CanOptimize p c frame third owner) →
        (s (j + 1)).exchange.movables = (s j).exchange.movables ∧
        ∃ e, ((s j).met c).AttemptFails p ((s 0).exchange.directBridge c) e ∧
          s (j + 1) = ({ s j with agenda := below } : Session).turn (e.relayThrough p c frame) ∧
          (e.recordOf c = some p → e.relayThrough p c frame = e.relayFrom c frame) := by
    intro hunripe
    obtain ⟨e, he, hturn⟩ := writeKnowing_attemptFails (sound_met hm'.locks_sound c) hunripe
    rw [hturn] at hweighs
    refine ⟨?_, e, he, hweighs, fun hrecord => (relayFrom_eq hrecord).symm⟩
    rw [hweighs]
    exact (movables_relayThrough e p c frame).trans (he.movables.trans (movables_met (s j) c))
  refine ⟨j, hj, hstep, ⟨?_, ?_⟩, hfails, hquiet, fun k _ a later hagenda ha hturn => ?_⟩
  · rintro ⟨hbefore, hafter⟩
    by_contra hunripe
    have hsame := (hfails fun third owner hthird hcan => hunripe ⟨third, owner, hthird, hcan⟩).1
    exact hbefore ((congrFun (congrArg Prod.snd hsame) p).symm.trans hafter)
  · rintro ⟨third, owner, hthird, hcan⟩
    rw [hphase, hweighs, hthird]
    exact ⟨hcan.inCall, hcan.optimizes⟩
  · rw [hturn]
    exact movables_retry hagenda ha

def hindered : List Operation :=
  [.request .dispatched "Local" "100@internal" ⟨4⟩, .newChannel "SIP/third",
    .transfer .bridge ⟨2⟩ ⟨3⟩,
    .edit ⟨2⟩ (.audiohook "chanspy"), .locking ⟨3⟩ .hold,
    .signal .direct ⟨2⟩ (.write (.voice ⟨⟨4⟩, [0]⟩))]

theorem hindered_relays : ∃ s, start {} hindered = .ok s ∧
    (s.run 15).Sends ⟨2⟩ (.voice ⟨⟨4⟩, [0]⟩) [.report] [.report] ∧
    (s.run 15).exchange.membership ⟨2⟩ = some (⟨1⟩, .chan) ∧ (s.run 20).agenda = [.report] ∧
    (s.run 15).exchange.directBridge ⟨2⟩ = some ⟨3⟩ ∧
    ∃ j < 5, (s.run (15 + (j + 1))).exchange.movables = (s.run (15 + j)).exchange.movables ∧
      (((s.run (15 + (j + 1))).exchange.channel ⟨2⟩).audiohooks = ["chanspy"]) := by
  have hstart : start {} hindered = .ok { exchange := {}, agenda := tasksOf hindered } := rfl
  generalize hs : ({ exchange := {}, agenda := tasksOf hindered } : Session) = s at hstart
  have hsends : (s.run 15).Sends ⟨2⟩ (.voice ⟨⟨4⟩, [0]⟩) [.report] [.report] := by
    subst hs
    exact .inl ⟨rfl, rfl⟩
  have hmember : (s.run 15).exchange.membership ⟨2⟩ = some (⟨1⟩, .chan) := by
    subst hs
    decide +kernel
  have hover : (s.run 20).agenda = [.report] := by
    subst hs
    rfl
  have hdirect : (s.run 15).exchange.directBridge ⟨2⟩ = some ⟨3⟩ := by
    subst hs
    decide +kernel
  have hheld : ∀ k < 5, (((s.run (15 + k)).met ⟨2⟩).tryLock ⟨3⟩).1 = false := by
    subst hs
    decide +kernel
  have hhooked : ∀ k < 5, ((s.run (15 + k)).exchange.channel ⟨2⟩).audiohooks = ["chanspy"] := by
    subst hs
    decide +kernel
  obtain ⟨j, hj, -, -, hfails, -⟩ := optimizes_exactly (s := fun k => s.run (15 + k)) (n := 5)
    ((Reachable.start hstart).run 15)
    (fun k _ => run_succ _ (15 + k) ▸ .step _) hsends hmember hover
  have hsame := (hfails fun third owner hthird hcan => by
    obtain rfl := Option.some.inj (hdirect.symm.trans hthird)
    exact absurd (hcan.thirdFree.symm.trans (hheld j hj)) nofun).1
  refine ⟨s, hstart, hsends, hmember, hover, hdirect, j, hj, hsame, ?_⟩
  exact (congrArg Movables.audiohooks (congrFun (congrArg Prod.fst hsame) ⟨2⟩)).trans (hhooked j hj)

end Session
end Switchboard
