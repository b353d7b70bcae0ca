import Switchboard.Proofs.Clearance
import Switchboard.Proofs.Locks

namespace Switchboard

def Channel.receive (x : Channel) (frame : Frame) (busy : Option String) : Channel :=
  { x with
    vars := match busy with
      | some value => Channel.setFirst Exchange.busyPeer value x.vars
      | none => x.vars
    state := if frame.isControl .ringing then .ringing else x.state
    frames := x.frames ++ [frame] }

namespace Exchange

def spent (e : Exchange) (c : ChannelId) : Exchange :=
  { e with contention := { e.contention with attempts := e.contention.attempts.eraseP (·.1 = c) } }

def taken (e : Exchange) (c : ChannelId) : Exchange :=
  (e.spent c).modifyChannel c fun x => { x with lock := x.lock.take .main }

def refuses (e : Exchange) (c : ChannelId) : Bool :=
  (e.contention.attempts.find? (·.1 = c)).any (!·.2) || !(e.channel c).lock.openTo .main

def busyOf (e : Exchange) (source : Option ChannelId) : Option String :=
  source.bind fun s => (e.channel s).getVar busyPeer

variable (e : Exchange) {p : PairId} {side : Side} {c : ChannelId}

theorem lock?_eq (c : ChannelId) :
    e.lock? c = if (e.channel c).lock.openTo .main then
      some (e.modifyChannel c fun x => { x with lock := x.lock.take .main }) else none := by
  rw [lock?, RecursiveLock.lock?]
  split
  · exact congrArg some (modifyChannel_congr e rfl)
  · rfl

theorem tryLock_eq (c : ChannelId) :
    e.tryLock c = if e.refuses c then (false, e.spent c) else (true, e.taken c) := by
  rw [tryLock]
  rw [← spent, refuses]
  by_cases hscript : (e.contention.attempts.find? (·.1 = c)).any (!·.2) = true
  · rw [if_pos hscript, hscript, Bool.true_or, if_pos rfl]
  · rw [if_neg hscript, Bool.eq_false_iff.2 hscript, Bool.false_or, attemptLock, lock?_eq]
    have hlock : ((e.spent c).channel c).lock.openTo .main = (e.channel c).lock.openTo .main := rfl
    rw [hlock]
    cases (e.channel c).lock.openTo .main <;> rfl

theorem openTo_of_noScriptedFailure (h : e.refuses c = false) :
    (e.channel c).lock.openTo .main = true := by
  rw [refuses, Bool.or_eq_false_iff, Bool.not_eq_false'] at h
  exact h.2

theorem unlock_taken (hwilling : e.refuses c = false) (hsound : (e.channel c).lock.Sound)
    {f : Channel → Channel} (hf : ∀ x l, f { x with lock := l } = { f x with lock := l }) :
    ((e.taken c).modifyChannel c f).unlock c = (e.spent c).modifyChannel c f := by
  rw [unlock, taken, modifyChannel_comp, modifyChannel_comp]
  apply modifyChannel_congr
  have hback := hsound.unlock_take (openTo_of_noScriptedFailure e hwilling)
  rw [hf]
  change { f ((e.spent c).channel c) with lock := ((e.channel c).lock.take .main).unlock .main } = _
  rw [hback]
  exact (hf _ _).symm

theorem place_eq (frame : Frame) (source : Option ChannelId) (c : ChannelId) :
    e.place frame source c = e.modifyChannel c (·.receive frame (e.busyOf source)) := by
  rw [place]
  rw [← busyOf]
  cases e.busyOf source with
  | none =>
      dsimp only
      split
      · next hringing => rw [queueFrame, setState,
          modifyChannel_comp]; simp [Channel.receive, hringing]
      · next hringing => rw [queueFrame]; simp [Channel.receive, hringing]
  | some busy =>
      dsimp only
      split
      · next hringing =>
          rw [queueFrame, setState, setVar, modifyChannel_comp, modifyChannel_comp]
          simp [Channel.receive, Channel.setVar, hringing]
      · next hringing =>
          rw [queueFrame, setVar, modifyChannel_comp]
          simp [Channel.receive, Channel.setVar, hringing]

variable {e} {frame : Frame} {source lock : Option ChannelId}

theorem deliver_some (hlive : (e.pair p).glare.isCancelled = false) (frame : Frame)
    (source : Option ChannelId) (c : ChannelId) :
    e.deliver p frame source (some c) =
      (((if (e.pair p).phase.isMasqueraded then e else e.place frame source c).unlock c).leaveGlare
      p,
        [.settle .relayed]) := by
  unfold deliver
  rw [if_neg (by rw [hlive]; exact Bool.false_ne_true)]
  dsimp only [releasePeer]
  generalize hx : (if (e.pair p).phase.isMasqueraded then e else e.place frame source c) = x
  have hpair : (x.unlock c).pair p = e.pair p := by
    rw [← hx]
    split
    · rfl
    · exact pair_eq_of_records (records_place e frame source c) p
  rw [leaveGlare_of_live (by rw [hpair]; exact hlive)]
  exact congrArg (fun x : Exchange => x.settled .relayed) (modifyPair_congr rfl)

theorem unlock_place_taken (hwilling : e.refuses c = false) (hsound : (e.channel c).lock.Sound) :
    ((e.taken c).place frame source c).unlock c =
      (e.spent c).modifyChannel c (·.receive frame (e.busyOf source)) := by
  have hbusy : (e.taken c).busyOf source = e.busyOf source := by
    cases source with
    | none => rfl
    | some s => exact channel_modifyChannel_congr (·.getVar busyPeer) (e.spent c) c s rfl
  rw [place_eq, hbusy]
  exact unlock_taken e hwilling hsound fun _ _ => rfl

/-- The peer is locked, and the frame reaches it unless the pair has been masqueraded. -/
theorem convey_taken (frame : Frame) (source lock : Option ChannelId)
    (hend : (e.pair p).endpoint side = some c)
    (hwilling : e.refuses c = false) (hlive : (e.pair p).glare.isCancelled = false)
    (hsound : (e.channel c).lock.Sound) :
    e.acquire ⟨p, side, lock, .relay frame source⟩ =
      ((if (e.pair p).phase.isMasqueraded then e.spent c
        else (e.spent c).modifyChannel c (·.receive frame (e.busyOf source))).leaveGlare p,
        [.settle .relayed]) := by
  have hdeliver := deliver_some (e := e.taken c) hlive frame source c
  have hphase : ((e.taken c).pair p).phase = (e.pair p).phase := rfl
  simp only [acquire, seek, hend, tryLock_eq, hwilling, Bool.false_eq_true, if_false, proceed]
  rw [hdeliver, hphase]
  cases (e.pair p).phase.isMasqueraded with
  | true =>
      have hback := unlock_taken e hwilling hsound (f := id) fun _ _ => rfl
      rw [modifyChannel_eq_self _ rfl, modifyChannel_eq_self _ rfl] at hback
      rw [if_pos rfl, if_pos rfl, hback]
  | false =>
      rw [if_neg Bool.false_ne_true, if_neg Bool.false_ne_true, unlock_place_taken hwilling hsound]

/-- The view shows nothing that a relay of the frame works with: neither the locks nor what is laid
down for them, nor the cell, the end of a record or what is queued for the peer. -/
structure Spared {α : Type} (view : Exchange → α) (frame : Frame) (source : Option ChannelId) :
    Prop where
  spent : ∀ e c, view (spent e c) = view e
  lock : ∀ e c (f : RecursiveLock Party → RecursiveLock Party),
    view (e.modifyChannel c fun x => { x with lock := f x.lock }) = view e
  glare : ∀ e p (f : Glare → Glare),
    view (e.modifyPair p fun x => { x with glare := f x.glare }) = view e
  destroy : ∀ e p, view (e.destroy p) = view e
  place : ∀ e c, view (e.place frame source c) = view e

namespace Spared

variable {α : Type} {view : Exchange → α}

theorem leaveGlare (h : Spared view frame source) (e : Exchange) (p : PairId) :
    view (e.leaveGlare p) = view e := by
  have hleft : ∀ glare, view (e.modifyPair p ({ · with glare := glare })) = view e :=
    fun g => h.glare e p fun _ => g
  rw [Exchange.leaveGlare]
  dsimp only
  split
  · rw [h.destroy, hleft]
  · exact hleft _

theorem releasePeer (h : Spared view frame source) (e : Exchange) (peer : Option ChannelId) :
    view (e.releasePeer peer) = view e := by
  cases peer with
  | none => rfl
  | some c => exact h.lock e c (·.unlock .main)

theorem deliver (h : Spared view frame source) (e : Exchange) (p : PairId)
    (peer : Option ChannelId) :
    view (e.deliver p frame source peer).1 = view e := by
  unfold Exchange.deliver
  split
  · exact (h.releasePeer _ peer).trans (h.leaveGlare e p)
  · refine (h.glare _ p fun g => g.leave.2).trans ((h.releasePeer _ peer).trans ?_)
    cases peer with
    | none => rfl
    | some c =>
        dsimp only
        split
        · rfl
        · exact h.place e c

theorem acquire (h : Spared view frame source) (e : Exchange) {a : Acquisition}
    (ha : a.purpose = .relay frame source) : view (e.acquire a).1 = view e := by
  rw [Exchange.acquire, seek]
  cases (e.pair a.pair).endpoint a.side with
  | none =>
      dsimp only
      rw [proceed, ha]
      exact h.deliver e a.pair none
  | some peer =>
      dsimp only
      rw [tryLock_eq]
      cases e.refuses peer with
      | true => exact h.spent e peer
      | false =>
          rw [if_neg Bool.false_ne_true]
          dsimp only
          rw [proceed, ha]
          exact (h.deliver _ a.pair (some peer)).trans
            ((h.lock _ peer (·.take .main)).trans (h.spent e peer))

theorem relay (h : Spared view frame source) (e : Exchange) (p : PairId) (side : Side)
    (locked : Bool) :
    view (e.relay p side frame source locked).1 = view e := by
  rw [relay_eq]
  cases (e.pair p).endpoint side.peer with
  | none => rfl
  | some other =>
      dsimp only
      split
      · rfl
      · exact (h.acquire _ rfl).trans (h.glare e p Glare.enter)

end Spared

end Exchange
end Switchboard
