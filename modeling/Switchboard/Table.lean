namespace Switchboard

structure Table (α : Type) where
  rows : List α := []
deriving DecidableEq, Inhabited

namespace Table

variable {α : Type}

def size (t : Table α) : Nat := t.rows.length

def next (t : Table α) : Nat := t.size + 1

def get? (t : Table α) : Nat → Option α
  | 0 => none
  | i + 1 => t.rows[i]?

def get [Inhabited α] (t : Table α) (n : Nat) : α := (t.get? n).getD default

def push (t : Table α) (a : α) : Table α := ⟨t.rows ++ [a]⟩

def modify (t : Table α) (n : Nat) (f : α → α) : Table α :=
  match n with
  | 0 => t
  | i + 1 => ⟨t.rows.modify i f⟩

def toList (t : Table α) : List α := t.rows

def numbers (t : Table α) : List Nat := (List.range t.size).map (· + 1)

theorem get?_modify (t : Table α) (m n : Nat) (f : α → α) :
    (t.modify m f).get? n = if m = n then (t.get? n).map f else t.get? n := by
  cases m with
  | zero =>
    cases n with
    | zero => simp [get?]
    | succ j => simp [modify]
  | succ i =>
    cases n with
    | zero => simp [get?]
    | succ j => by_cases h : i = j <;> simp [modify, get?, h]

@[simp] theorem size_modify (t : Table α) (n : Nat) (f : α → α) : (t.modify n f).size = t.size := by
  cases n <;> simp [size, modify]

@[simp] theorem size_push (t : Table α) (a : α) : (t.push a).size = t.size + 1 := by
  simp [size, push]

theorem get?_isSome_iff (t : Table α) (n : Nat) : (t.get? n).isSome ↔ 0 < n ∧ n ≤ t.size := by
  cases n with
  | zero => simp [get?]
  | succ i =>
    have hget : (t.get? (i + 1)).isSome ↔ i < t.size := by simp [get?, size]
    exact hget.trans ⟨fun h => ⟨Nat.succ_pos i, h⟩, fun h => h.2⟩

theorem get?_push (t : Table α) (a : α) (n : Nat) :
    (t.push a).get? n = if n = t.next then some a else t.get? n := by
  cases n with
  | zero => simp [get?, next]
  | succ i =>
    simp only [get?, push, next, size, Nat.add_right_cancel_iff]
    by_cases h : i = t.rows.length
    · simp [h]
    · by_cases hl : i < t.rows.length <;> simp [List.getElem?_append, h, hl]
      omega

end Table
end Switchboard
