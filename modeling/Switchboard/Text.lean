namespace Switchboard.Text

def splitFirst (sep : Char) : List Char → Option (List Char × List Char)
  | [] => none
  | c :: cs =>
    if c = sep then some ([], cs)
    else (splitFirst sep cs).map fun (before, after) => (c :: before, after)

def cut (sep : Char) (s : String) : Option (String × String) :=
  (splitFirst sep s.toList).map fun (before, after) => (String.ofList before, String.ofList after)

def occursIn (pattern : List Char) : List Char → Bool
  | [] => pattern.isEmpty
  | c :: cs => pattern.isPrefixOf (c :: cs) || occursIn pattern cs

def contains (s pattern : String) : Bool := occursIn pattern.toList s.toList

def sameLetters (s t : String) : Bool := s.toList.map Char.toLower = t.toList.map Char.toLower

def hex (n : Nat) : String := String.ofList (Nat.toDigits 16 n)

def hexPadded (width n : Nat) : String :=
  let digits := Nat.toDigits 16 n
  String.ofList (List.replicate (width - digits.length) '0' ++ digits)

theorem splitFirst_eq_some {sep : Char} {cs before after : List Char} :
    splitFirst sep cs = some (before, after) ↔ sep ∉ before ∧ cs = before ++ sep :: after := by
  induction cs generalizing before with
  | nil => simp [splitFirst]
  | cons c cs ih =>
    by_cases h : c = sep
    · subst h
      cases before <;> simp [splitFirst, eq_comm]
      intro h₁ _ h₂
      exact absurd h₂ h₁
    · simp only [splitFirst, h, if_false, Option.map_eq_some_iff, Prod.exists, Prod.mk.injEq]
      constructor
      · rintro ⟨a, b, hab, rfl, rfl⟩
        obtain ⟨hn, rfl⟩ := ih.1 hab
        exact ⟨by simp [hn, Ne.symm h], rfl⟩
      · rintro ⟨hn, hc⟩
        cases before with
        | nil => simp at hc; exact absurd hc.1 h
        | cons b bs =>
          obtain ⟨rfl, rfl⟩ := List.cons.inj hc
          exact ⟨bs, after, ih.2 ⟨by simp_all, rfl⟩, rfl, rfl⟩

theorem splitFirst_eq_none {sep : Char} {cs : List Char} : splitFirst sep cs = none ↔ sep ∉ cs := by
  induction cs with
  | nil => simp [splitFirst]
  | cons c cs ih =>
    by_cases h : c = sep
    · simp [splitFirst, h]
    · simp [splitFirst, h, ih, Ne.symm h]

end Switchboard.Text
