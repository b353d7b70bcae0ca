namespace Switchboard

structure RecursiveLock (τ : Type) where
  holder : Option τ := none
  depth : Nat := 0
deriving DecidableEq, Inhabited

namespace RecursiveLock

variable {τ : Type} [DecidableEq τ]

def heldBy (l : RecursiveLock τ) (t : τ) : Bool := l.holder = some t

def openTo (l : RecursiveLock τ) (t : τ) : Bool := l.holder.all (· = t)

def take (l : RecursiveLock τ) (t : τ) : RecursiveLock τ := ⟨some t, l.depth + 1⟩

def lock? (l : RecursiveLock τ) (t : τ) : Option (RecursiveLock τ) :=
  if l.openTo t then some (l.take t) else none

def tryLock (l : RecursiveLock τ) (t : τ) : Bool × RecursiveLock τ :=
  match l.lock? t with
  | some taken => (true, taken)
  | none => (false, l)

/-- Only the holder's release counts. -/
def unlock (l : RecursiveLock τ) (t : τ) : RecursiveLock τ :=
  if l.heldBy t then
    if l.depth ≤ 1 then ⟨none, 0⟩ else ⟨some t, l.depth - 1⟩
  else l

/-- Gives the lock up whole, whatever its depth. -/
def suspend (l : RecursiveLock τ) (t : τ) : RecursiveLock τ :=
  if l.heldBy t then ⟨none, 0⟩ else l

def resume? (l : RecursiveLock τ) (t : τ) (depth : Nat) : Option (RecursiveLock τ) :=
  if l.holder = none then some ⟨some t, depth⟩ else none

/-- A full release followed by the return, with nobody in between. -/
def cycle (l : RecursiveLock τ) (t : τ) : RecursiveLock τ :=
  if l.heldBy t then ((l.suspend t).resume? t l.depth).getD l else l

theorem heldBy_iff {l : RecursiveLock τ} {t : τ} : l.heldBy t = true ↔ l.holder = some t := by
  simp [heldBy]

theorem openTo_iff {l : RecursiveLock τ} {t : τ} :
    l.openTo t = true ↔ l.holder = none ∨ l.holder = some t := by
  cases h : l.holder <;> simp [openTo, h]

theorem cycle_eq (l : RecursiveLock τ) (t : τ) : l.cycle t = l := by
  unfold cycle
  split
  · next h =>
    have hh := heldBy_iff.1 h
    cases l
    simp_all [suspend, resume?, heldBy]
  · rfl

theorem unlock_take (l : RecursiveLock τ) (t : τ) (h : l.openTo t = true)
    (hd : l.holder = none → l.depth = 0) (hp : l.holder ≠ none → 0 < l.depth) :
    (l.take t).unlock t = l := by
  obtain ⟨holder, depth⟩ := l
  rcases openTo_iff.1 h with hn | hs
  · have := hd hn
    simp_all [take, unlock, heldBy]
  · have hpos := hp (by rw [hs]; exact Option.some_ne_none t)
    simp only at hs hpos
    subst hs
    have : ¬ depth + 1 ≤ 1 := by omega
    simp [take, unlock, heldBy, this]

end RecursiveLock
end Switchboard
