import Switchboard.Json.Reader
import Switchboard.Proofs.Json.Spelling

namespace Switchboard.Json

mutual

/-- The tokens of a value, which are the same in all its texts. -/
def tokens : Json → List Token
  | .null => [.null]
  | .bool b => [.bool b]
  | .integer z => [.integer z]
  | .decimal => [.decimal]
  | .text s => [.text s]
  | .array [] => [.openArray, .closeArray]
  | .array (x :: xs) => .openArray :: (tokens x ++ itemTokens xs)
  | .object [] => [.openObject, .closeObject]
  | .object (m :: ms) => .openObject :: (memberTokens m ++ membersTokens ms)

def itemTokens : List Json → List Token
  | [] => [.closeArray]
  | x :: xs => .comma :: (tokens x ++ itemTokens xs)

def memberTokens : Option String × Json → List Token
  | (name, x) => .text name :: .colon :: tokens x

def membersTokens : List (Option String × Json) → List Token
  | [] => [.closeObject]
  | m :: ms => .comma :: (memberTokens m ++ membersTokens ms)

end

/-- The string is a text of the value. -/
def Spells (s : String) (j : Json) : Prop := Token.Spelled (tokens j) s.toList

variable {fuel : Nat}

theorem tokens_eq_cons (j : Json) : ∃ t ts, tokens j = t :: ts ∧ t ≠ .closeArray := by
  cases j with
  | array xs => cases xs <;> exact ⟨_, _, rfl, by simp⟩
  | object ms => cases ms <;> exact ⟨_, _, rfl, by simp⟩
  | _ => exact ⟨_, _, rfl, by simp⟩

theorem itemTokens_length_pos (xs : List Json) : 0 < (itemTokens xs).length := by
  cases xs <;> simp [itemTokens]

theorem membersTokens_length_pos (ms : List (Option String × Json)) :
    0 < (membersTokens ms).length := by
  cases ms <;> simp [membersTokens]

/-- What the reader does at the start of tokens with this much fuel. -/
structure Finds (fuel : Nat) : Prop where
  value : ∀ j rest, 2 * (tokens j).length ≤ fuel + 1 →
    value fuel (tokens j ++ rest) = some (j, rest)
  items : ∀ x xs rest, 2 * (tokens x ++ itemTokens xs).length ≤ fuel + 1 →
    items fuel (tokens x ++ (itemTokens xs ++ rest)) = some (x :: xs, rest)
  members : ∀ m ms rest, 2 * (memberTokens m ++ membersTokens ms).length ≤ fuel + 1 →
    members fuel (memberTokens m ++ (membersTokens ms ++ rest)) = some (m :: ms, rest)

theorem finds_value (h : Finds fuel) (j : Json) (rest : List Token)
    (hfuel : 2 * (tokens j).length ≤ fuel + 2) :
    value (fuel + 1) (tokens j ++ rest) = some (j, rest) := by
  match j with
  | .null | .bool _ | .integer _ | .decimal | .text _ | .array [] | .object [] => rfl
  | .array (x :: xs) =>
      have hitems := h.items x xs rest (by simp [tokens] at hfuel ⊢; omega)
      rw [tokens, List.cons_append, List.append_assoc, value, hitems]
      · rfl
      · obtain ⟨t, ts, hx, hne⟩ := tokens_eq_cons x
        intro _ h
        rw [hx] at h
        exact hne (List.cons.inj h).1
  | .object ((name, x) :: ms) =>
      have hmembers := h.members (name, x) ms rest (by simp [tokens] at hfuel ⊢; omega)
      rw [tokens, List.cons_append, List.append_assoc, value, hmembers]
      · rfl
      · intro _ h
        rw [memberTokens] at h
        cases (List.cons.inj h).1

theorem finds_items (h : Finds fuel) (x : Json) (xs : List Json) (rest : List Token)
    (hfuel : 2 * (tokens x ++ itemTokens xs).length ≤ fuel + 2) :
    items (fuel + 1) (tokens x ++ (itemTokens xs ++ rest)) = some (x :: xs, rest) := by
  have hend := itemTokens_length_pos xs
  rw [items, h.value x _ (by simp at hfuel; omega)]
  match xs with
  | [] => rfl
  | y :: ys =>
      have hitems := h.items y ys rest (by simp [itemTokens] at hfuel ⊢; omega)
      rw [itemTokens, List.cons_append, List.append_assoc]
      simp only [hitems, Option.map_some]

theorem finds_members (h : Finds fuel) (m : Option String × Json) (ms : List (Option String × Json))
    (rest : List Token) (hfuel : 2 * (memberTokens m ++ membersTokens ms).length ≤ fuel + 2) :
    members (fuel + 1) (memberTokens m ++ (membersTokens ms ++ rest)) = some (m :: ms, rest) := by
  have hend := membersTokens_length_pos ms
  obtain ⟨name, x⟩ := m
  rw [memberTokens, List.cons_append, List.cons_append, members,
    h.value x _ (by simp [memberTokens] at hfuel; omega)]
  match ms with
  | [] => rfl
  | m :: ms =>
      have hmembers := h.members m ms rest (by simp [membersTokens] at hfuel ⊢; omega)
      rw [membersTokens, List.cons_append, List.append_assoc]
      simp only [hmembers, Option.map_some]

/-- The reader finds a value at the start of whatever tokens, and leaves what follows. It spends its
fuel on tokens, no more than two on each. -/
theorem finds (fuel : Nat) : Finds fuel := by
  induction fuel with
  | zero =>
      refine ⟨fun j rest hfuel => ?_, fun x xs rest hfuel => ?_, fun m ms rest hfuel => ?_⟩
      · obtain ⟨t, ts, hj, -⟩ := tokens_eq_cons j
        simp [hj] at hfuel
        omega
      · have hend := itemTokens_length_pos xs
        simp at hfuel
        omega
      · have hend := membersTokens_length_pos ms
        simp at hfuel
        omega
  | succ fuel ih => exact ⟨finds_value ih, finds_items ih, finds_members ih⟩

theorem ofTokens_tokens (j : Json) : ofTokens (tokens j) = some j := by
  have h := (finds (2 * (tokens j).length)).value j [] (by omega)
  rw [List.append_nil] at h
  rw [ofTokens, h]

/-- Every text of a value is read as this value. -/
theorem read_of_spells {s : String} {j : Json} (h : Spells s j) : read s = some j := by
  rw [read, Token.ofText_of_spelled h, Option.bind_some, ofTokens_tokens]

theorem Spells.unique {s : String} {j k : Json} (hj : Spells s j) (hk : Spells s k) : j = k := by
  have h := read_of_spells hj
  rw [read_of_spells hk] at h
  exact (Option.some.inj h).symm

end Switchboard.Json
