import Switchboard.Json.Printer
import Switchboard.Proofs.Json.Grammar

namespace Switchboard.Json

namespace Token

variable {ts : List Token} {cs : List Char} {pieces : List Piece}

theorem natOfDigits_toDigits (n : Nat) : natOfDigits (Nat.toDigits 10 n) = n := by
  have h := Nat.ofDigitChars_toDigits (show 1 < 10 by decide) (Nat.le_refl 10) (n := n)
  simpa only [natOfDigits, Nat.ofDigitChars, Nat.mul_comm] using h

theorem eq_zero_of_head?_toDigits {n : Nat} (h : (Nat.toDigits 10 n).head? = some '0') : n = 0 := by
  induction n using Nat.strongRecOn with
  | ind n ih =>
      have hdigit : ∀ m < 10, Nat.digitChar m = '0' → m = 0 := by decide
      rw [Nat.toDigits_eq_if (by decide)] at h
      split at h
      · next hn => exact hdigit n hn (Option.some.inj h)
      · next hn =>
          obtain ⟨d, ds, hds⟩ :=
            List.exists_cons_of_ne_nil (Nat.toDigits_ne_nil (n := n / 10) (b := 10))
          have hzero := ih (n / 10) (by omega) (by rw [hds] at h ⊢; exact h)
          omega

theorem whole_toDigits (n : Nat) : Whole (Nat.toDigits 10 n) where
  nonempty := Nat.toDigits_ne_nil
  digits _ hc := Nat.isDigit_of_mem_toDigits (by decide) (Nat.le_refl 10) hc
  zero hhead := by
    rw [eq_zero_of_head?_toDigits hhead]
    rfl

theorem spelling_integerDigits (z : Int) : Spelling (.integer z) (integerDigits z) := by
  cases z with
  | ofNat n =>
      have h := Spelling.natural (whole_toDigits n)
      rwa [natOfDigits_toDigits] at h
  | negSucc n =>
      have h := Spelling.negative (whole_toDigits (n + 1)) (by rw [natOfDigits_toDigits]; omega)
      rwa [natOfDigits_toDigits] at h

theorem hexPadded_control : ∀ n < 32,
    (Text.hexPadded 4 n).toList = ['0', '0', Nat.digitChar (n / 16), Nat.digitChar (n % 16)] ∧
      hexWord? '0' '0' (Nat.digitChar (n / 16)) (Nat.digitChar (n % 16)) = some n ∧
      Piece.ofCode n = .char (Char.ofNat n) := by
  decide +kernel

theorem literal_literalChar (c : Char) (h : Literal pieces cs) :
    Literal (.char c :: pieces) (literalChar c ++ cs) := by
  unfold literalChar
  split
  case h_8 hquote hback _ _ _ _ _ =>
    split
    · next hblank =>
        have hlt : c.toNat < 32 := hblank
        obtain ⟨hlist, hword, hcode⟩ := hexPadded_control c.toNat hlt
        have hliteral := Literal.code hword h
        rw [hcode, Char.ofNat_toNat] at hliteral
        rw [hlist]
        exact hliteral
    · next hblank => exact .plain (Char.not_lt.1 hblank) hquote hback h
  all_goals exact .short rfl h

theorem literal_flatMap (cs : List Char) :
    Literal (cs.map .char) (cs.flatMap literalChar ++ ['"']) := by
  induction cs with
  | nil => exact .close
  | cons c cs ih =>
      rw [List.map_cons, List.flatMap_cons, List.append_assoc]
      exact literal_literalChar c ih

theorem join_map_char (cs : List Char) : Piece.join (cs.map .char) = some cs := by
  induction cs with
  | nil => rfl
  | cons c cs ih => simp [Piece.join, ih]

theorem spelling_textLiteral (s : Option String) : Spelling (.text s) (textLiteral s) := by
  cases s with
  | none =>
      have hcode : hexWord? 'd' '8' '0' '0' = some 0xD800 := by decide
      exact .text (.code hcode .close)
  | some s =>
      have h := Spelling.text (literal_flatMap s.toList)
      rw [join_map_char, Option.map_some, String.ofList_toList] at h
      exact h

theorem Spelled.line (depth : Nat) (h : Spelled ts cs) : Spelled ts (line depth ++ cs) := by
  have hspaces : ∀ n, Spelled ts (List.replicate n ' ' ++ cs) := by
    intro n
    induction n with
    | zero => exact h
    | succ n ih => exact .blank rfl ih
  exact .blank rfl (hspaces _)

theorem Spelled.mark {t : Token} {c : Char} (hc : Spelling t [c]) (ht : t.isNumber = false)
    (h : Spelled ts cs) :
    Spelled (t :: ts) (c :: cs) :=
  .token hc (by simp [ht]) h

theorem ends_cons {c : Char} (hc : c ∈ [',', '\n', ']', '\x7d']) (cs : List Char) :
    Ends (c :: cs) := by
  have hall : ∀ c ∈ [',', '\n', ']', '\x7d'], c.isDigit = false ∧ c ≠ '.' ∧ c ≠ 'e' ∧ c ≠ 'E' := by
    simp
  intro d hd
  obtain rfl : c = d := by simpa using hd
  exact hall c hc

theorem ends_line (depth : Nat) (cs : List Char) : Ends (line depth ++ cs) := ends_cons (by simp) _

end Token

open Token (Spelled Ends)

variable {cs : List Char}

theorem ends_prettyItems (depth : Nat) (xs : List Json) (h : Ends cs) :
    Ends (prettyItems depth xs ++ cs) := by
  cases xs with
  | nil => exact h
  | cons => exact Token.ends_cons (by simp) _

theorem ends_prettyMembers (depth : Nat) (ms : List (Option String × Json)) (h : Ends cs) :
    Ends (prettyMembers depth ms ++ cs) := by
  cases ms with
  | nil => exact h
  | cons => exact Token.ends_cons (by simp) _

theorem spelling_decimal : Token.Spelling .decimal "0.0".toList := by
  have hzero : Token.Digits ['0'] := ⟨by simp, by simp⟩
  have h : Token.Spelling .decimal ([] ++ (['0'] ++ (['.', '0'] ++ []))) :=
    .decimal (.inl rfl) ⟨hzero, by decide⟩ (.some hzero) .none (.inl (by decide))
  exact h

mutual

/-- A value in lines, in front of anything that a number cannot go on with. -/
theorem spelled_pretty (j : Json) (depth : Nat) {ts : List Token} {cs : List Char}
    (h : Spelled ts cs)
    (hends : Ends cs) : Spelled (tokens j ++ ts) (pretty depth j ++ cs) := by
  match j with
  | .null => exact .token .null (by simp [Token.isNumber]) h
  | .bool true => exact .token .yes (by simp [Token.isNumber]) h
  | .bool false => exact .token .no (by simp [Token.isNumber]) h
  | .integer z => exact .token (Token.spelling_integerDigits z) (fun _ => hends) h
  | .decimal => exact .token spelling_decimal (fun _ => hends) h
  | .text s => exact .token (Token.spelling_textLiteral s) (by simp [Token.isNumber]) h
  | .array [] => exact .mark .openArray rfl (.mark .closeArray rfl h)
  | .array (x :: xs) =>
      have hclose : Spelled (.closeArray :: ts) (line depth ++ ']' :: cs) :=
        .line depth (.mark .closeArray rfl h)
      have hitems := spelled_prettyItems xs (depth + 1) hclose (Token.ends_line depth _)
      have hx :=
        spelled_pretty x (depth + 1) hitems (ends_prettyItems _ xs (Token.ends_line depth _))
      have hall := Spelled.mark .openArray rfl (hx.line (depth + 1))
      simpa [tokens, pretty] using hall
  | .object [] => exact .mark .openObject rfl (.mark .closeObject rfl h)
  | .object (m :: ms) =>
      have hclose : Spelled (.closeObject :: ts) (line depth ++ '\x7d' :: cs) :=
        .line depth (.mark .closeObject rfl h)
      have hmembers := spelled_prettyMembers ms (depth + 1) hclose (Token.ends_line depth _)
      have hm :=
        spelled_prettyMember m (depth + 1) hmembers
        (ends_prettyMembers _ ms (Token.ends_line depth _))
      have hall := Spelled.mark .openObject rfl (hm.line (depth + 1))
      simpa [tokens, pretty] using hall

theorem spelled_prettyItems (xs : List Json) (depth : Nat) {ts : List Token} {cs : List Char}
    (h : Spelled (.closeArray :: ts) cs) (hends : Ends cs) :
    Spelled (itemTokens xs ++ ts) (prettyItems depth xs ++ cs) := by
  match xs with
  | [] => exact h
  | x :: xs =>
      have hitems := spelled_prettyItems xs depth h hends
      have hx := spelled_pretty x depth hitems (ends_prettyItems depth xs hends)
      have hall := Spelled.mark .comma rfl (hx.line depth)
      simpa [itemTokens, prettyItems] using hall

theorem spelled_prettyMember (m : Option String × Json) (depth : Nat) {ts : List Token}
    {cs : List Char}
    (h : Spelled ts cs) (hends : Ends cs) :
    Spelled (memberTokens m ++ ts) (prettyMember depth m ++ cs) := by
  match m with
  | (name, x) =>
      have hx := spelled_pretty x depth h hends
      have hvalue : Spelled (.colon :: (tokens x ++ ts)) (':' :: ' ' :: (pretty depth x ++ cs)) :=
        .mark .colon rfl (.blank rfl hx)
      have hall := Spelled.token (Token.spelling_textLiteral name) (by simp [Token.isNumber]) hvalue
      simpa [memberTokens, prettyMember] using hall

theorem spelled_prettyMembers (ms : List (Option String × Json)) (depth : Nat) {ts : List Token}
    {cs : List Char}
    (h : Spelled (.closeObject :: ts) cs) (hends : Ends cs) :
    Spelled (membersTokens ms ++ ts) (prettyMembers depth ms ++ cs) := by
  match ms with
  | [] => exact h
  | m :: ms =>
      have hmembers := spelled_prettyMembers ms depth h hends
      have hm := spelled_prettyMember m depth hmembers (ends_prettyMembers depth ms hends)
      have hall := Spelled.mark .comma rfl (hm.line depth)
      simpa [membersTokens, prettyMembers] using hall

end

theorem spells_write (j : Json) : Spells (write j) j := by
  have h := spelled_pretty j 0 .nil (by simp [Ends])
  rw [List.append_nil, List.append_nil] at h
  rwa [Spells, write, String.toList_ofList]

theorem read_write (j : Json) : read (write j) = some j := read_of_spells (spells_write j)

end Switchboard.Json
