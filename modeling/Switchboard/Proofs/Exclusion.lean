import Switchboard.Proofs.Locks

namespace Switchboard.RecursiveLock

variable {τ : Type} [DecidableEq τ] {l l' : RecursiveLock τ} {t u : τ}

theorem depthOf_of_holder (h : l.holder = some t) : l.depthOf t = l.depth := by
  rw [depthOf, if_pos (heldBy_iff.2 h)]

theorem depthOf_of_not_held (h : l.heldBy t = false) : l.depthOf t = 0 := by
  rw [depthOf, h, if_neg Bool.false_ne_true]

omit [DecidableEq τ] in
theorem Sound.depth_pos (h : l.Sound) (hheld : l.holder = some t) : 0 < l.depth := by
  refine Nat.pos_of_ne_zero fun hzero => ?_
  rw [h.2 hzero] at hheld
  cases hheld

theorem Sound.heldBy_iff_depthOf_pos (h : l.Sound) : l.heldBy t = true ↔ 0 < l.depthOf t := by
  cases hheld : l.heldBy t with
  | true => simp [depthOf_of_holder (heldBy_iff.1 hheld), h.depth_pos (heldBy_iff.1 hheld)]
  | false => simp [depthOf_of_not_held hheld]

theorem Sound.depthOf_take (h : l.Sound) (hopen : l.openTo t = true) (u : τ) :
    (l.take t).depthOf u = l.depthOf u + if u = t then 1 else 0 := by
  by_cases hut : u = t
  · subst hut
    rw [if_pos rfl, depthOf_of_holder rfl]
    rcases openTo_iff.1 hopen with hfree | hheld
    · rw [depthOf_of_not_held (by simp [heldBy, hfree]), take, h.1 hfree]
    · rw [depthOf_of_holder hheld, take]
  · have hbefore : l.heldBy u = false := by
      rcases openTo_iff.1 hopen with hfree | hheld
      · simp [heldBy, hfree]
      · simp [heldBy, hheld, Ne.symm hut]
    have hafter : (l.take t).heldBy u = false := by simp [heldBy, take, Ne.symm hut]
    rw [if_neg hut, depthOf_of_not_held hbefore, depthOf_of_not_held hafter]

theorem heldBy_suspend (l : RecursiveLock τ) (t : τ) : (l.suspend t).heldBy t = false := by
  rw [suspend]
  split
  · rfl
  · next h => exact Bool.eq_false_iff.2 h

theorem Sound.suspend (h : l.Sound) (t : τ) : (l.suspend t).Sound := by
  rw [RecursiveLock.suspend]
  split
  · simp [Sound]
  · exact h

theorem depthOf_suspend (l : RecursiveLock τ) (t u : τ) :
    (l.suspend t).depthOf u = if u = t then 0 else l.depthOf u := by
  by_cases hut : u = t
  · subst hut
    simp [depthOf, heldBy_suspend]
  · rw [suspend, if_neg hut]
    split
    · next h => simp [depthOf, heldBy, heldBy_iff.1 h, Ne.symm hut]
    · rfl

omit [DecidableEq τ] in
theorem resume?_eq_some {depth : Nat} :
    l.resume? t depth = some l' ↔ l.holder = none ∧ l' = ⟨some t, depth⟩ := by
  rw [resume?]
  split
  · next h => simp [h, eq_comm]
  · next h => simp [h]

theorem resume?_suspend (h : l.holder = some t) : (l.suspend t).resume? t l.depth = some l := by
  rw [suspend, if_pos (heldBy_iff.2 h), resume?, if_pos rfl, ← h]

theorem suspend_of_not_held (h : l.heldBy t = false) : l.suspend t = l := by
  rw [suspend, h, if_neg Bool.false_ne_true]

theorem tryLock_fst (l : RecursiveLock τ) (t : τ) : (l.tryLock t).1 = l.openTo t := by
  rw [tryLock, lock?]
  cases l.openTo t <;> rfl

theorem tryLock_snd (l : RecursiveLock τ) (t : τ) :
    (l.tryLock t).2 = if l.openTo t then l.take t else l := by
  rw [tryLock, lock?]
  cases l.openTo t <;> rfl

/-- A lock and those who have given it up in a cycle, with the depth at which they are to have it
back. -/
structure Shared (τ : Type) where
  lock : RecursiveLock τ := {}
  away : τ → Option Nat := fun _ => none

inductive Event
  | locked
  | tried (got : Bool)
  | unlocked (counted : Bool)
  | gaveUp
  | tookBack
  | passed
deriving DecidableEq

def Event.takes : Event → Bool
  | locked | tried true => true
  | _ => false

def Event.releases : Event → Bool
  | unlocked true => true
  | _ => false

namespace Shared

/-- One thread does something. In the middle of a cycle there is nothing else for it to do than to
take the lock back. -/
inductive Step : Shared τ → τ → Event → Shared τ → Prop
  | lock {s : Shared τ} {t l} (ha : s.away t = none) (h : s.lock.lock? t = some l) :
      Step s t .locked { s with lock := l }
  | tryLock {s : Shared τ} {t} (ha : s.away t = none) :
      Step s t (.tried (s.lock.tryLock t).1) { s with lock := (s.lock.tryLock t).2 }
  | unlock {s : Shared τ} {t} (ha : s.away t = none) :
      Step s t (.unlocked (s.lock.heldBy t)) { s with lock := s.lock.unlock t }
  | suspend {s : Shared τ} {t} (ha : s.away t = none) (h : s.lock.heldBy t = true) :
      Step s t .gaveUp ⟨s.lock.suspend t, Function.update s.away t (some s.lock.depth)⟩
  | resume {s : Shared τ} {t depth l} (ha : s.away t = some depth)
      (h : s.lock.resume? t depth = some l) :
      Step s t .tookBack ⟨l, Function.update s.away t none⟩
  | pass {s : Shared τ} {t} (ha : s.away t = none) (h : s.lock.heldBy t = false) :
      Step s t .passed s

inductive Runs (s : Shared τ) : List (τ × Event) → Shared τ → Prop
  | refl : Runs s [] s
  | tail {s' s'' : Shared τ} {history t event} (h : Runs s history s') (hs : Step s' t event s'') :
      Runs s (history ++ [(t, event)]) s''

def taken (t : τ) (history : List (τ × Event)) : Nat := history.countP fun x => x.1 = t && x.2.takes

def released (t : τ) (history : List (τ × Event)) : Nat :=
  history.countP fun x => x.1 = t && x.2.releases

/-- How deep the thread holds the lock, or is to hold it again. -/
def owned (s : Shared τ) (t : τ) : Nat := s.lock.depthOf t + (s.away t).getD 0

/-- The lock is as it should be after what has been done to it. -/
structure Sound (history : List (τ × Event)) (s : Shared τ) : Prop where
  lock : s.lock.Sound
  away : ∀ t depth, s.away t = some depth → 0 < depth ∧ s.lock.heldBy t = false
  owned : ∀ t, taken t history = released t history + s.owned t

variable {s s' s₁ s₂ s₃ : Shared τ} {history between : List (τ × Event)} {event : Event}

theorem taken_concat (t u : τ) (history : List (τ × Event)) (event : Event) :
    taken u (history ++ [(t, event)]) = taken u history + if t = u ∧ event.takes = true then 1
      else 0 := by
  simp [taken, List.countP_singleton]

theorem released_concat (t u : τ) (history : List (τ × Event)) (event : Event) :
    released u (history ++ [(t, event)]) = released u history + if t = u ∧
      event.releases = true then 1 else 0 := by
  simp [released, List.countP_singleton]

theorem owned_take (h : s.lock.Sound) (hopen : s.lock.openTo t = true) (u : τ) :
    Shared.owned { s with lock := s.lock.take t } u = s.owned u + if t = u then 1 else 0 := by
  rw [Shared.owned, Shared.owned, h.depthOf_take hopen, Nat.add_right_comm]
  simp only [eq_comm]

theorem owned_unlock (h : s.lock.Sound) (u : τ) :
    Shared.owned { s with lock := s.lock.unlock t } u +
      (if t = u ∧ s.lock.heldBy t = true then 1 else 0) =
      s.owned u := by
  rw [Shared.owned, Shared.owned, depthOf_unlock]
  by_cases hut : u = t
  · subst hut
    rw [if_pos rfl]
    cases hheld : s.lock.heldBy u with
    | true =>
        have hholder := heldBy_iff.1 hheld
        have hpos := h.depth_pos hholder
        rw [depthOf_of_holder hholder, if_pos ⟨rfl, rfl⟩, Nat.add_right_comm,
          Nat.sub_add_cancel hpos]
    | false => simp [depthOf_of_not_held hheld]
  · rw [if_neg hut, if_neg fun hand => hut hand.1.symm, Nat.add_zero]

theorem owned_suspend (hheld : s.lock.heldBy t = true) (ha : s.away t = none) (u : τ) :
    Shared.owned ⟨s.lock.suspend t, Function.update s.away t (some s.lock.depth)⟩ u =
      s.owned u := by
  rw [Shared.owned, Shared.owned, depthOf_suspend]
  by_cases hut : u = t
  · subst hut
    simp [ha, depthOf_of_holder (heldBy_iff.1 hheld)]
  · simp [hut]

theorem owned_resume {depth : Nat} (hfree : s.lock.holder = none)
    (ha : s.away t = some depth) (u : τ) :
    Shared.owned ⟨⟨some t, depth⟩, Function.update s.away t none⟩ u = s.owned u := by
  have hnobody : s.lock.depthOf u = 0 := depthOf_of_not_held (by simp [heldBy, hfree])
  rw [Shared.owned, Shared.owned, hnobody]
  by_cases hut : u = t
  · subst hut
    simp [ha, depthOf_of_holder]
  · simp [hut, depthOf, heldBy, Ne.symm hut]

theorem Step.owned (hs : Step s t event s') (h : s.lock.Sound) (u : τ) :
    s'.owned u + (if t = u ∧ event.releases = true then 1 else 0) =
      s.owned u + if t = u ∧ event.takes = true then 1 else 0 := by
  cases hs with
  | lock ha hl =>
      obtain ⟨hopen, rfl⟩ := lock?_eq_some.1 hl
      rw [owned_take h hopen]
      simp [Event.takes, Event.releases]
  | tryLock ha =>
      rw [tryLock_fst, tryLock_snd]
      cases hopen : s.lock.openTo t with
      | true =>
          rw [if_pos rfl, owned_take h hopen]
          simp [Event.takes, Event.releases]
      | false => simp [Event.takes, Event.releases]
  | unlock ha =>
      have hless := owned_unlock (t := t) h u
      cases hheld : s.lock.heldBy t <;> simpa [hheld, Event.takes, Event.releases] using hless
  | suspend ha hheld =>
      rw [owned_suspend hheld ha]
      rfl
  | resume ha hl =>
      obtain ⟨hfree, rfl⟩ := resume?_eq_some.1 hl
      rw [owned_resume hfree ha]
      rfl
  | pass => rfl

theorem Step.away_of_ne (hs : Step s t event s') (hne : u ≠ t) : s'.away u = s.away u := by
  cases hs with
  | suspend | resume => exact Function.update_of_ne hne _ _
  | lock | tryLock | unlock | pass => rfl

theorem Step.away_eq (hs : Step s u event s') {depth : Nat} (ha : s.away t = some depth)
    (hne : (u, event) ≠ (t, .tookBack)) : s'.away t = some depth := by
  have hother : t ≠ u := by
    rintro rfl
    cases hs with
    | resume => exact hne rfl
    | lock hb | tryLock hb | unlock hb | suspend hb | pass hb => rw [hb] at ha; cases ha
  rw [hs.away_of_ne hother, ha]

theorem Step.sound_lock (hs : Step s t event s') (h : Sound history s) : s'.lock.Sound := by
  cases hs with
  | lock ha hl =>
      obtain ⟨-, rfl⟩ := lock?_eq_some.1 hl
      exact sound_take
  | tryLock ha =>
      rw [tryLock_snd]
      split
      · exact sound_take
      · exact h.lock
  | unlock ha => exact h.lock.unlock
  | suspend ha hheld => exact h.lock.suspend t
  | resume ha hl =>
      obtain ⟨-, rfl⟩ := resume?_eq_some.1 hl
      simp [RecursiveLock.Sound, (h.away _ _ ha).1.ne']
  | pass => exact h.lock

theorem Step.sound_away (hs : Step s t event s') (h : Sound history s) {depth : Nat}
    (ha : s'.away u = some depth) :
    0 < depth ∧ s'.lock.heldBy u = false := by
  by_cases hut : u = t
  · subst hut
    -- No step of its own sends a thread away, unless it gives the lock up.
    cases hs with
    | suspend hb hheld =>
        obtain rfl := Option.some.inj ((Function.update_self u _ s.away).symm.trans ha)
        exact ⟨h.lock.depth_pos (heldBy_iff.1 hheld), heldBy_suspend s.lock u⟩
    | resume => exact absurd ((Function.update_self u _ s.away).symm.trans ha) nofun
    | lock hb | tryLock hb | unlock hb | pass hb => exact absurd (hb.symm.trans ha) nofun
  · have hbefore : s.away u = some depth := (hs.away_of_ne hut).symm.trans ha
    obtain ⟨hpos, hnot⟩ := h.away u depth hbefore
    have howned := hs.owned h.lock u
    rw [if_neg fun hand => hut hand.1.symm, if_neg fun hand => hut hand.1.symm, Nat.add_zero,
      Nat.add_zero,
      Shared.owned, Shared.owned, ha, hbefore, depthOf_of_not_held hnot] at howned
    refine ⟨hpos, Bool.eq_false_iff.2 fun hheld => ?_⟩
    have hdeep := (hs.sound_lock h).heldBy_iff_depthOf_pos.1 hheld
    omega

theorem Sound.step (h : Sound history s) (hs : Step s t event s') :
    Sound (history ++ [(t, event)]) s' where
  lock := hs.sound_lock h
  away _ _ := hs.sound_away h
  owned u := by
    have hbefore := h.owned u
    have hafter := hs.owned h.lock u
    rw [taken_concat, released_concat]
    omega

theorem Runs.sound (h : Runs {} history s) : Sound history s := by
  induction h with
  | refl => exact ⟨Iff.intro (fun _ => rfl) fun _ => rfl, fun _ _ => nofun, fun _ => rfl⟩
  | tail _ hs ih => exact ih.step hs

theorem Runs.away_eq (h : Runs s₁ between s₂) {depth : Nat} (ha : s₁.away t = some depth)
    (hnot : (t, .tookBack) ∉ between) : s₂.away t = some depth := by
  induction h with
  | refl => exact ha
  | tail _ hs ih =>
      rw [List.mem_append, not_or, List.mem_singleton] at hnot
      exact hs.away_eq (ih hnot.1) (Ne.symm hnot.2)

/-- What can be said of a lock to which so much has been done. -/
structure Excludes (history : List (τ × Event)) (s : Shared τ) : Prop where
  held_iff : s.lock.holder.isSome = true ↔ 0 < s.lock.depth
  depth : ∀ t, s.lock.holder = some t → taken t history = released t history + s.lock.depth
  exclusive : ∀ t, released t history < taken t history → s.away t = none → s.lock.holder = some t
  refuses : ∀ t, (s.lock.tryLock t).1 = false ↔ ∃ u, s.lock.holder = some u ∧ u ≠ t
  stranger : ∀ t, s.lock.holder ≠ some t → s.lock.unlock t = s.lock
  release : ∀ t, s.lock.holder = some t → (s.lock.unlock t).depth + 1 = s.lock.depth
  /-- What others do in the middle of a cycle makes no difference to the depth at which it ends, and
  none of them holds the lock then. -/
  returns : ∀ t s₁ between s₂ s₃, Step s t .gaveUp s₁ → Runs s₁ between s₂ →
    (t, Event.tookBack) ∉ between →
    Step s₂ t .tookBack s₃ → s.lock.holder = some t ∧ s₁.lock.holder = none ∧
    s₂.lock.holder = none ∧
      s₃.lock.holder = some t ∧ s₃.lock.depth = s.lock.depth
  /-- Where nobody gets in between, giving up and taking back are the cycle as a whole. -/
  cycles : ∀ t, s.lock.holder = some t → s.away t = none →
    ∃ s₁, Step s t .gaveUp s₁ ∧ Step s₁ t .tookBack { s with lock := s.lock.cycle t }

theorem Step.holder_gaveUp (hs : Step s t .gaveUp s') :
    s.lock.holder = some t ∧ s'.lock.holder = none ∧ s'.away t = some s.lock.depth := by
  cases hs with
  | suspend ha hheld =>
      refine ⟨heldBy_iff.1 hheld, ?_, Function.update_self ..⟩
      rw [RecursiveLock.suspend, if_pos hheld]

theorem Step.lock_tookBack (hs : Step s t .tookBack s') {depth : Nat} (ha : s.away t = some depth) :
    s.lock.holder = none ∧ s'.lock = ⟨some t, depth⟩ := by
  cases hs with
  | resume hb hl =>
      obtain ⟨hfree, rfl⟩ := resume?_eq_some.1 hl
      obtain rfl := Option.some.inj (hb.symm.trans ha)
      exact ⟨hfree, rfl⟩

theorem cycle_steps (hheld : s.lock.holder = some t) (ha : s.away t = none) :
    ∃ s₁, Step s t .gaveUp s₁ ∧ Step s₁ t .tookBack { s with lock := s.lock.cycle t } := by
  have hgave : Step s t .gaveUp ⟨s.lock.suspend t, Function.update s.away t (some s.lock.depth)⟩ :=
    .suspend ha (heldBy_iff.2 hheld)
  have hback := Step.resume hgave.holder_gaveUp.2.2 (resume?_suspend hheld)
  have haway : Function.update (Function.update s.away t (some s.lock.depth)) t none = s.away := by
    rw [Function.update_idem, ← ha, Function.update_eq_self]
  rw [haway] at hback
  rw [cycle_eq]
  exact ⟨_, hgave, hback⟩

/-- Whatever any number of threads do to a lock, and in whatever order, one of them holds it at a
time, as deep as it has taken it and not given it back. -/
theorem excludes (h : Runs {} history s) : Excludes history s := by
  have hsound := h.sound
  have hheld : ∀ t, s.lock.holder = some t ↔ 0 < s.lock.depthOf t := fun t =>
    heldBy_iff.symm.trans hsound.lock.heldBy_iff_depthOf_pos
  constructor
  case held_iff =>
    rw [Option.isSome_iff_ne_none, Nat.pos_iff_ne_zero]
    exact not_congr hsound.lock
  case depth =>
    intro t ht
    have haway : s.away t = none := by
      by_contra haway
      obtain ⟨depth, hdepth⟩ := Option.ne_none_iff_exists'.1 haway
      have hnot := (hsound.away t depth hdepth).2
      rw [heldBy_iff.2 ht] at hnot
      cases hnot
    rw [hsound.owned, owned, haway, depthOf_of_holder ht]
    rfl
  case exclusive =>
    intro t hmore haway
    have howned := hsound.owned t
    rw [owned, haway, Option.getD_none] at howned
    exact (hheld t).2 (by omega)
  case refuses =>
    intro t
    rw [tryLock_fst, ← Bool.not_eq_true, openTo_iff]
    cases s.lock.holder <;> simp
  case stranger =>
    intro t ht
    rw [RecursiveLock.unlock, if_neg (mt heldBy_iff.1 ht)]
  case release =>
    intro t ht
    have hpos := hsound.lock.depth_pos ht
    rw [RecursiveLock.unlock, if_pos (heldBy_iff.2 ht)]
    split
    · dsimp only
      omega
    · dsimp only
      omega
  case returns =>
    intro t s₁ between s₂ s₃ hgave hbetween hnot hback
    obtain ⟨hholder, hfree, haway⟩ := hgave.holder_gaveUp
    obtain ⟨hfree', hlock⟩ := hback.lock_tookBack (hbetween.away_eq haway hnot)
    exact ⟨hholder, hfree, hfree', by rw [hlock], by rw [hlock]⟩
  case cycles => exact fun t => cycle_steps

def turnover : List (Nat × Event) :=
  [(0, .locked), (0, .tried true), (1, .tried false), (1, .unlocked false), (0, .gaveUp),
    (1, .locked),
    (2, .tried false), (1, .unlocked true), (0, .tookBack), (0, .unlocked true)]

theorem turnover_excludes :
    ∃ s : Shared Nat, Runs {} turnover s ∧ Excludes turnover s ∧ s.lock = ⟨some 0, 1⟩ := by
  let away : Nat → Option Nat := Function.update (fun _ => none) 0 (some 2)
  have htwice : Runs ({} : Shared Nat) (turnover.take 2) { lock := ⟨some 0, 2⟩ } :=
    .tail (t := 0) (.tail (t := 0) .refl (.lock rfl rfl)) (.tryLock rfl)
  have hstranger : Runs ({} : Shared Nat) (turnover.take 4) { lock := ⟨some 0, 2⟩ } :=
    .tail (t := 1) (.tail (t := 1) htwice (.tryLock rfl)) (.unlock rfl)
  have hgone : Runs ({} : Shared Nat) (turnover.take 6) ⟨⟨some 1, 1⟩, away⟩ :=
    .tail (t := 1) (.tail (t := 0) hstranger (.suspend rfl rfl)) (.lock rfl rfl)
  have hmeanwhile : Runs ({} : Shared Nat) (turnover.take 8) ⟨{}, away⟩ :=
    .tail (t := 1) (.tail (t := 2) hgone (.tryLock rfl)) (.unlock rfl)
  have hback : Runs ({} : Shared Nat) turnover ⟨⟨some 0, 1⟩, Function.update away 0 none⟩ :=
    .tail (t := 0) (.tail (t := 0) hmeanwhile (.resume rfl rfl)) (.unlock rfl)
  exact ⟨_, hback, excludes hback, rfl⟩

end Shared
end Switchboard.RecursiveLock
