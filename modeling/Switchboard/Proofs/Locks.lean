import Mathlib.Logic.Function.Basic
import Switchboard.Proofs.ExchangeView

namespace Switchboard

namespace RecursiveLock

variable {τ : Type} [DecidableEq τ] {l l' : RecursiveLock τ} {t u : τ}

/-- A lock has a depth exactly while somebody holds it. -/
def Sound (l : RecursiveLock τ) : Prop := l.holder = none ↔ l.depth = 0

def depthOf (l : RecursiveLock τ) (t : τ) : Nat := if l.heldBy t then l.depth else 0

theorem lock?_eq_some : l.lock? t = some l' ↔ l.openTo t = true ∧ l' = l.take t := by
  rw [lock?]
  split
  · next h => simp [h, eq_comm]
  · next h => simp [h]

omit [DecidableEq τ] in
theorem sound_take : (l.take t).Sound := by simp [Sound, take]

theorem Sound.unlock (h : l.Sound) : (l.unlock t).Sound := by
  rw [RecursiveLock.unlock]
  split
  · split
    · simp [Sound]
    · next hd =>
        simp only [Sound, reduceCtorEq, false_iff]
        omega
  · exact h

theorem Sound.unlock_lock? (h : l.Sound) (hl : l.lock? t = some l') : l'.unlock t = l := by
  obtain ⟨hopen, rfl⟩ := lock?_eq_some.1 hl
  exact unlock_take l t hopen h.1 fun hheld => Nat.pos_of_ne_zero (hheld ∘ h.2)

theorem Sound.unlock_take (h : l.Sound) (hopen : l.openTo t = true) : (l.take t).unlock t = l :=
  h.unlock_lock? (lock?_eq_some.2 ⟨hopen, rfl⟩)

theorem depthOf_unlock : (l.unlock t).depthOf u = if u = t then l.depthOf u - 1
    else l.depthOf u := by
  by_cases ht : l.heldBy t = true
  · have hholder := heldBy_iff.1 ht
    by_cases hut : u = t
    · subst hut
      by_cases hd : l.depth ≤ 1
      · simp [RecursiveLock.unlock, depthOf, heldBy, hholder, hd]
      · simp [RecursiveLock.unlock, depthOf, heldBy, hholder, hd]
    · have hne : t ≠ u := fun h => hut h.symm
      by_cases hd : l.depth ≤ 1 <;>
        simp [RecursiveLock.unlock, depthOf, heldBy, hholder, hd, hut, hne]
  · rw [RecursiveLock.unlock, if_neg ht]
    split
    · next hut => simp [depthOf, hut, ht]
    · rfl

end RecursiveLock

abbrev Locks : Type := ChannelId → RecursiveLock Party

namespace Locks

def Sound (v : Locks) : Prop := ∀ c, (v c).Sound

def depths (v : Locks) (t : Party) : ChannelId → Nat := fun c => (v c).depthOf t

def released (v : Locks) (c : ChannelId) : Locks := Function.update v c ((v c).unlock .main)

def releasing (v : Locks) : Option ChannelId → Locks
  | some c => v.released c
  | none => v

variable {v v' : Locks} {t : Party} {c : ChannelId}

theorem Sound.update (h : v.Sound) {l : RecursiveLock Party} (hl : l.Sound) (c : ChannelId) :
    Sound (Function.update v c l) := by
  intro d
  by_cases hd : d = c
  · rwa [hd, Function.update_self]
  · rw [Function.update_of_ne hd]
    exact h d

theorem Sound.released (h : v.Sound) (c : ChannelId) : (v.released c).Sound :=
  h.update (h c).unlock c

theorem released_of_free (h : v c = {}) : v.released c = v := by
  rw [Locks.released, h]
  exact (congrArg (Function.update v c) h.symm).trans (Function.update_eq_self c v)

theorem depths_released (v : Locks) (c : ChannelId) (t : Party) :
    (v.released c).depths t =
      fun d => if d = c ∧ t = .main then v.depths t d - 1 else v.depths t d := by
  funext d
  unfold depths Locks.released
  by_cases hd : d = c
  · rw [hd, Function.update_self, RecursiveLock.depthOf_unlock]
    simp only [true_and]
  · rw [Function.update_of_ne hd, if_neg fun h => hd h.1]

theorem depths_releases (h : v'.depths t = v.depths t) (cs : List ChannelId) :
    (cs.foldl released v').depths t = (cs.foldl released v).depths t := by
  induction cs generalizing v v' with
  | nil => exact h
  | cons c cs ih =>
      apply ih
      rw [depths_released, depths_released, h]

end Locks

def Task.released : Task → Option ChannelId
  | .unlock c => some c
  | _ => none

/-- The channels whose locks are to be given back, in that order. -/
def owed (tasks : List Task) : List ChannelId := tasks.filterMap Task.released

@[simp] theorem owed_append (ts us : List Task) : owed (ts ++ us) = owed ts ++ owed us :=
  List.filterMap_append

@[simp] theorem owed_wait (a : Acquisition) : owed a.wait = [] := by
  rw [Acquisition.wait]
  split <;> rfl

def Locks.after (v : Locks) (tasks : List Task) : Locks := (owed tasks).foldl Locks.released v

theorem Locks.after_append (v : Locks) (ts us : List Task) :
    v.after (ts ++ us) = (v.after ts).after us := by
  rw [Locks.after, owed_append, List.foldl_append]
  rfl

theorem Locks.after_of_none (v : Locks) {ts : List Task} (h : owed ts = []) : v.after ts = v := by
  rw [Locks.after, h]
  rfl

namespace Exchange

def locks (e : Exchange) : Locks := fun c => (e.channel c).lock

theorem locks_eq_of_channels {e e' : Exchange} (h : e'.channels = e.channels) :
    e'.locks = e.locks :=
  funext fun c => congrArg Channel.lock (channel_eq_of_channels h c)

variable (e : Exchange)

theorem locks_modifyChannel (c : ChannelId) {f : Channel → Channel}
    (h : (f (e.channel c)).lock = (e.channel c).lock) : (e.modifyChannel c f).locks = e.locks :=
  funext fun d => channel_modifyChannel_congr Channel.lock e c d h

theorem locks_relock {c : ChannelId} (hc : c.Among e.channels.size) (f : Channel → Channel) :
    (e.modifyChannel c f).locks = Function.update e.locks c (f (e.channel c)).lock := by
  funext d
  unfold locks
  by_cases hd : d = c
  · rw [hd, Function.update_self, channel_modifyChannel e _ hc]
  · rw [Function.update_of_ne hd, channel_modifyChannel_of_ne e _ hd]

theorem locks_unmade {c : ChannelId} (hc : ¬ c.Among e.channels.size) (f : Channel → Channel) :
    (e.modifyChannel c f).locks = e.locks ∧ e.locks c = {} := by
  have hsize : (e.modifyChannel c f).channels.size = e.channels.size := Table.size_modify _ _ _
  constructor
  · funext d
    unfold locks
    by_cases hd : d = c
    · rw [hd, channel_of_not_among e hc, channel_of_not_among _ (hsize ▸ hc)]
    · rw [channel_modifyChannel_of_ne e _ hd]
  · unfold locks
    rw [channel_of_not_among e hc]
    rfl

@[simp] theorem locks_unlock (c : ChannelId) : (e.unlock c).locks = e.locks.released c := by
  by_cases hc : c.Among e.channels.size
  · exact locks_relock e hc _
  · obtain ⟨hsame, hfree⟩ := locks_unmade e hc fun x => { x with lock := x.lock.unlock .main }
    exact hsame.trans (Locks.released_of_free hfree).symm

@[simp] theorem locks_releasePeer (peer : Option ChannelId) :
    (e.releasePeer peer).locks = e.locks.releasing peer := by
  cases peer with
  | none => rfl
  | some c => exact locks_unlock e c

/-- The lock has been taken once more than it was in `v`. -/
structure Takes (v : Locks) (e : Exchange) (c : ChannelId) : Prop where
  sound : e.locks.Sound
  back : e.locks.released c = v

variable {e}

theorem takes_of_lock {e' : Exchange} {c : ChannelId} (hv : e.locks.Sound)
    (h : e.lock? c = some e') :
    Takes e.locks e' c := by
  obtain ⟨l, hl, rfl⟩ := Option.map_eq_some_iff.1 h
  have hback : l.unlock .main = e.locks c := (hv c).unlock_lock? hl
  obtain ⟨-, hl⟩ := RecursiveLock.lock?_eq_some.1 hl
  by_cases hc : c.Among e.channels.size
  · have hlocks : (e.modifyChannel c ({ · with lock := l })).locks = Function.update e.locks c l :=
      locks_relock e hc _
    constructor
    · rw [hlocks]
      exact hv.update (hl ▸ RecursiveLock.sound_take) c
    · rw [hlocks, Locks.released, Function.update_self, Function.update_idem, hback,
        Function.update_eq_self]
  · obtain ⟨hsame, hfree⟩ := locks_unmade e hc ({ · with lock := l })
    constructor
    · rwa [hsame]
    · rw [hsame]
      exact Locks.released_of_free hfree

theorem tryLock_takes (hv : e.locks.Sound) (c : ChannelId) :
    (∀ e', e.tryLock c = (true, e') → Takes e.locks e' c) ∧
      ∀ e', e.tryLock c = (false, e') → e'.locks = e.locks := by
  have hattempt : ∀ x : Exchange, x.locks = e.locks →
      (∀ e', x.attemptLock c = (true, e') → Takes e.locks e' c) ∧
        ∀ e', x.attemptLock c = (false, e') → e'.locks = e.locks := by
    intro x hx
    rw [attemptLock]
    cases hl : x.lock? c with
    | none =>
        refine ⟨fun e' h => ?_, fun e' h => ?_⟩
        · cases h
        · cases h
          exact hx
    | some x' =>
        have htakes := takes_of_lock (hx ▸ hv) hl
        rw [hx] at htakes
        refine ⟨fun e' h => ?_, fun e' h => ?_⟩
        · cases h
          exact htakes
        · cases h
  rw [tryLock]
  split
  · refine ⟨fun e' h => ?_, fun e' h => ?_⟩
    · cases h
    · cases h
      rfl
  · exact hattempt _ rfl

variable (e)

@[simp] theorem locks_avoidDeadlock (c : ChannelId) : (e.avoidDeadlock c).locks = e.locks :=
  locks_modifyChannel e c (RecursiveLock.cycle_eq (e.channel c).lock .main)

@[simp] theorem locks_setState (c : ChannelId) (s : ChannelState) :
    (e.setState c s).locks = e.locks :=
  locks_modifyChannel e c rfl

@[simp] theorem locks_softHangup (c : ChannelId) (cause : SoftHangupCause) :
    (e.softHangup c cause).locks = e.locks :=
  locks_modifyChannel e c rfl

@[simp] theorem locks_setSlot (c : ChannelId) (s : Slot) : (e.setSlot c s).locks = e.locks :=
  locks_modifyChannel e c rfl

@[simp] theorem locks_queueFrame (c : ChannelId) (f : Frame) : (e.queueFrame c f).locks = e.locks :=
  locks_modifyChannel e c rfl

@[simp] theorem locks_setVar (c : ChannelId) (name value : String) :
    (e.setVar c name value).locks = e.locks :=
  locks_modifyChannel e c rfl

@[simp] theorem locks_modifyPair (p : PairId) (f : Pair → Pair) :
    (e.modifyPair p f).locks = e.locks := rfl

@[simp] theorem locks_clearSide (p : PairId) (side : Side) : (e.clearSide p side).locks = e.locks :=
  rfl

@[simp] theorem locks_destroy (p : PairId) : (e.destroy p).locks = e.locks := by
  rw [destroy]
  split <;> rfl

@[simp] theorem locks_leaveGlare (p : PairId) : (e.leaveGlare p).locks = e.locks := by
  rw [leaveGlare]
  dsimp only
  split
  · exact locks_destroy _ p
  · rfl

@[simp] theorem locks_retire (p : PairId) : (e.retire p).locks = e.locks := by
  rw [retire_eq]
  split
  · rfl
  · exact locks_destroy _ p

@[simp] theorem locks_transfer (a b : ChannelId) (what : Transfer) :
    (e.transfer a b what).locks = e.locks := by
  cases what <;> unfold transfer
  · rw [setBridge]
    rw [locks_modifyChannel, locks_modifyChannel] <;> rfl
  · exact locks_modifyChannel e b rfl
  · rw [moveGroups]
    rw [locks_modifyChannel, locks_modifyChannel] <;> rfl
  · rw [swapMonitors]
    rw [locks_modifyChannel, locks_modifyChannel, locks_modifyChannel] <;> rfl
  · rw [swapAudiohooks]
    rw [locks_modifyChannel, locks_modifyChannel, locks_modifyChannel] <;> rfl

@[simp] theorem locks_place (frame : Frame) (source : Option ChannelId) (peer : ChannelId) :
    (e.place frame source peer).locks = e.locks := by
  rw [place]
  cases source.bind fun s => (e.channel s).getVar busyPeer <;> dsimp only <;> split <;> simp

@[simp] theorem locks_passAnsweredElsewhere (p : PairId) (leaver : ChannelId) :
    (e.passAnsweredElsewhere p leaver).locks = e.locks := by
  rw [passAnsweredElsewhere]
  split
  · cases (e.pair p).chan with
    | none => rfl
    | some chan => exact locks_modifyChannel e chan rfl
  · rfl

end Exchange
end Switchboard
