import Mathlib.Data.List.TakeDrop
import Switchboard.Json.Token

namespace Switchboard.Json.Token

/-- What follows the opening quote of a literal: its pieces, each plain or escaped, and the closing
quote. -/
inductive Literal : List Piece → List Char → Prop
  | close : Literal [] ['"']
  | plain {c : Char} {pieces : List Piece} {cs : List Char} :
      ' ' ≤ c → c ≠ '"' → c ≠ '\\' → Literal pieces cs → Literal (.char c :: pieces) (c :: cs)
  | short {e c : Char} {pieces : List Piece} {cs : List Char} :
      escape? e = some c → Literal pieces cs → Literal (.char c :: pieces) ('\\' :: e :: cs)
  | code {a b c d : Char} {n : Nat} {pieces : List Piece} {cs : List Char} :
      hexWord? a b c d = some n → Literal pieces cs →
      Literal (.ofCode n :: pieces) ('\\' :: 'u' :: a :: b :: c :: d :: cs)

structure Digits (ds : List Char) : Prop where
  nonempty : ds ≠ []
  digits : ∀ c ∈ ds, c.isDigit = true

structure Whole (ds : List Char) : Prop extends Digits ds where
  zero : ds.head? = some '0' → ds.length = 1

inductive Fraction : List Char → Prop
  | none : Fraction []
  | some {ds : List Char} : Digits ds → Fraction ('.' :: ds)

inductive Exponent : List Char → Prop
  | none : Exponent []
  | some {e : Char} {sign ds : List Char} :
      e = 'e' ∨ e = 'E' → sign = [] ∨ sign = ['+'] ∨ sign = ['-'] → Digits ds →
        Exponent (e :: (sign ++ ds))

inductive Spelling : Token → List Char → Prop
  | openArray : Spelling .openArray ['[']
  | closeArray : Spelling .closeArray [']']
  | openObject : Spelling .openObject ['\x7b']
  | closeObject : Spelling .closeObject ['\x7d']
  | comma : Spelling .comma [',']
  | colon : Spelling .colon [':']
  | null : Spelling .null ['n', 'u', 'l', 'l']
  | yes : Spelling (.bool true) ['t', 'r', 'u', 'e']
  | no : Spelling (.bool false) ['f', 'a', 'l', 's', 'e']
  | natural {ds : List Char} : Whole ds → Spelling (.integer (natOfDigits ds)) ds
  | negative {ds : List Char} :
      Whole ds → natOfDigits ds ≠ 0 → Spelling (.integer (-natOfDigits ds)) ('-' :: ds)
  | decimal {sign ds fraction exponent : List Char} :
      sign = [] ∨ sign = ['-'] → Whole ds → Fraction fraction → Exponent exponent →
      fraction ≠ [] ∨ exponent ≠ [] ∨ sign ≠ [] ∧ natOfDigits ds = 0 →
      Spelling .decimal (sign ++ (ds ++ (fraction ++ exponent)))
  | text {pieces : List Piece} {cs : List Char} :
      Literal pieces cs → Spelling (.text ((Piece.join pieces).map String.ofList)) ('"' :: cs)

def isNumber : Token → Bool
  | .integer _ | .decimal => true
  | _ => false

/-- A number does not go on here. -/
def Ends (rest : List Char) : Prop :=
  ∀ c ∈ rest.head?, c.isDigit = false ∧ c ≠ '.' ∧ c ≠ 'e' ∧ c ≠ 'E'

/-- The texts of the tokens, with blanks around them as one likes. -/
inductive Spelled : List Token → List Char → Prop
  | nil : Spelled [] []
  | blank {c : Char} {ts : List Token} {cs : List Char} :
      isBlank c = true → Spelled ts cs → Spelled ts (c :: cs)
  | token {t : Token} {w : List Char} {ts : List Token} {cs : List Char} :
      Spelling t w → (t.isNumber = true → Ends cs) → Spelled ts cs → Spelled (t :: ts) (w ++ cs)

variable {t : Token} {ds w cs rest : List Char} {pieces : List Piece}

theorem literal_append (h : Literal pieces cs) (rest : List Char) :
    literal (cs ++ rest) = some (pieces, rest) := by
  induction h with
  | close => rfl
  | plain hblank hquote hback _ ih => simp [literal, hback, Char.not_lt.2 hblank, ih]
  | @short e c _ _ he _ ih =>
      have hu : e ≠ 'u' := by
        rintro rfl
        simp [escape?] at he
      simp [literal, hu, he, ih]
  | code hn _ ih => simp [literal, hn, ih]

theorem digits?_append (h : Digits ds) (hrest : ∀ c ∈ rest.head?, c.isDigit = false) :
    digits? (ds ++ rest) = some (ds, rest) := by
  have htake : rest.takeWhile Char.isDigit = [] := by
    cases rest <;> simp_all
  have hdrop : rest.dropWhile Char.isDigit = rest := by
    cases rest <;> simp_all
  rw [digits?, List.span_eq_takeWhile_dropWhile, List.takeWhile_append_of_pos h.digits,
    List.dropWhile_append_of_pos h.digits, htake, hdrop, List.append_nil]
  cases ds with
  | nil => exact absurd rfl h.nonempty
  | cons d ds => rfl

theorem begins_fraction {P : Char → Prop} {fraction : List Char} (h : Fraction fraction)
    (hdot : P '.')
    (hrest : ∀ c ∈ rest.head?, P c) : ∀ c ∈ (fraction ++ rest).head?, P c := by
  cases h with
  | none => exact hrest
  | some => simpa using hdot

theorem begins_exponent {P : Char → Prop} {exponent : List Char} (h : Exponent exponent)
    (he : P 'e') (hE : P 'E')
    (hrest : ∀ c ∈ rest.head?, P c) : ∀ c ∈ (exponent ++ rest).head?, P c := by
  cases h with
  | none => exact hrest
  | some hletter =>
      rcases hletter with rfl | rfl
      · simpa using he
      · simpa using hE

theorem fraction?_append {fraction : List Char} (h : Fraction fraction)
    (hrest : ∀ c ∈ rest.head?, c.isDigit = false ∧ c ≠ '.') :
    fraction? (fraction ++ rest) = some (!fraction.isEmpty, rest) := by
  cases h with
  | none =>
      cases rest with
      | nil => rfl
      | cons c cs =>
          have hc := (hrest c rfl).2
          simp [fraction?, hc]
  | some hds => simp [fraction?, digits?_append hds fun c hc => (hrest c hc).1]

theorem afterSign_append {sign : List Char} (hsign : sign = [] ∨ sign = ['+'] ∨ sign = ['-'])
    (h : Digits ds)
    (rest : List Char) : afterSign (sign ++ (ds ++ rest)) = ds ++ rest := by
  rcases hsign with rfl | rfl | rfl
  · cases ds with
    | nil => exact absurd rfl h.nonempty
    | cons d ds =>
        have hd := h.digits d List.mem_cons_self
        have hplus : d ≠ '+' := by rintro rfl; simp at hd
        have hminus : d ≠ '-' := by rintro rfl; simp at hd
        simp [afterSign, hplus, hminus]
  · rfl
  · rfl

theorem exponent?_append {exponent : List Char} (h : Exponent exponent) (hrest : Ends rest) :
    exponent? (exponent ++ rest) = some (!exponent.isEmpty, rest) := by
  cases h with
  | none =>
      cases rest with
      | nil => rfl
      | cons c cs =>
          have hc := hrest c rfl
          simp [exponent?, hc]
  | some hletter hsign hds =>
      have hdigits := digits?_append hds fun c hc => (hrest c hc).1
      rcases hletter with rfl | rfl <;>
        simp [exponent?, afterSign_append hsign hds, hdigits]

theorem unsigned_append {fraction exponent : List Char} (negative : Bool) (h : Whole ds)
    (hfraction : Fraction fraction) (hexponent : Exponent exponent) (hrest : Ends rest) :
    unsigned negative (ds ++ (fraction ++ (exponent ++ rest))) =
      if fraction ≠ [] ∨ exponent ≠ [] ∨ negative = true ∧
      natOfDigits ds = 0 then some (.decimal, rest)
      else some (.integer (if negative then -(natOfDigits ds : Int) else natOfDigits ds),
      rest) := by
  have hpoint : ∀ c ∈ (exponent ++ rest).head?, c.isDigit = false ∧ c ≠ '.' :=
    begins_exponent hexponent (by decide) (by decide) fun c hc => ⟨(hrest c hc).1, (hrest c hc).2.1⟩
  have hdigit : ∀ c ∈ (fraction ++ (exponent ++ rest)).head?, c.isDigit = false :=
    begins_fraction hfraction (by decide) fun c hc => (hpoint c hc).1
  have hzero : ¬ (ds.head? = some '0' ∧ ds.length ≠ 1) :=
    fun ⟨hhead, hlength⟩ => hlength (h.zero hhead)
  rw [unsigned, digits?_append h.toDigits hdigit]
  simp only [Option.bind_eq_bind, Option.bind_some, if_neg hzero, fraction?_append hfraction hpoint,
    exponent?_append hexponent hrest]
  simp [or_assoc]

theorem first?_digits (h : Digits ds) (rest : List Char) :
    first? (ds ++ rest) = unsigned false (ds ++ rest) := by
  cases ds with
  | nil => exact absurd rfl h.nonempty
  | cons d ds =>
      have hd := h.digits d List.mem_cons_self
      have hne : ∀ c : Char, c.isDigit = false → d ≠ c := by
        rintro c hc rfl
        simp [hc] at hd
      rw [List.cons_append, first?, number]
      · exact fun _ he => hne '-' rfl (List.cons.inj he).1
      all_goals exact fun _ he => hne _ rfl (List.cons.inj he).1

theorem first?_append (h : Spelling t w) (hends : t.isNumber = true → Ends rest) :
    first? (w ++ rest) = some (t, rest) := by
  cases h with
  | openArray | closeArray | openObject | closeObject | comma | colon | null | yes | no => rfl
  | natural h =>
      have hread := unsigned_append false h .none .none (hends rfl)
      rw [first?_digits h.toDigits]
      simpa using hread
  | negative h hzero =>
      have hread := unsigned_append true h .none .none (hends rfl)
      change unsigned true _ = _
      simpa [hzero] using hread
  | @decimal sign ds _ _ hsign h hfraction hexponent hsome =>
      have hrest := hends rfl
      rcases hsign with rfl | rfl
      · have hread := unsigned_append false h hfraction hexponent hrest
        rw [List.nil_append, List.append_assoc, List.append_assoc, first?_digits h.toDigits,
          hread, if_pos]
        simpa using hsome
      · have hread := unsigned_append true h hfraction hexponent hrest
        change unsigned true ((ds ++ (_ ++ _)) ++ rest) = _
        rw [List.append_assoc, List.append_assoc, hread, if_pos]
        simpa using hsome
  | text h =>
      have hread := literal_append h rest
      simp [first?, hread]

theorem Spelling.eq_cons (h : Spelling t w) : ∃ c cs, w = c :: cs ∧ isBlank c = false := by
  have hdigits : ∀ {ds}, Digits ds → ∀ rest, ∃ c cs, ds ++ rest = c :: cs ∧ isBlank c = false := by
    intro ds h rest
    cases ds with
    | nil => exact absurd rfl h.nonempty
    | cons d ds =>
        have hd := h.digits d List.mem_cons_self
        refine ⟨d, ds ++ rest, rfl, ?_⟩
        by_contra hblank
        simp only [Bool.not_eq_false, isBlank, Bool.or_eq_true, decide_eq_true_eq] at hblank
        rcases hblank with ((rfl | rfl) | rfl) | rfl <;> simp at hd
  cases h with
  | openArray | closeArray | openObject | closeObject | comma | colon | null | yes | no |
  negative | text =>
      exact ⟨_, _, rfl, rfl⟩
  | natural h => simpa using hdigits h.toDigits []
  | decimal hsign h =>
      rcases hsign with rfl | rfl
      · exact hdigits h.toDigits _
      · exact ⟨_, _, rfl, rfl⟩

/-- A text that spells tokens is divided into these tokens. -/
theorem scan_of_spelled {ts : List Token} (h : Spelled ts cs) (fuel : Nat)
    (hfuel : cs.length ≤ fuel) :
    scan fuel cs = some ts := by
  induction h generalizing fuel with
  | nil => cases fuel <;> rfl
  | blank hblank _ ih =>
      cases fuel with
      | zero => simp at hfuel
      | succ fuel => rw [scan, if_pos hblank, ih fuel (by simpa using hfuel)]
  | @token t w ts cs hw hends _ ih =>
      obtain ⟨c, w, rfl, hblank⟩ := hw.eq_cons
      have hfirst := first?_append hw hends
      cases fuel with
      | zero => simp at hfuel
      | succ fuel =>
          have hlength : cs.length ≤ fuel := by
            simp at hfuel
            omega
          rw [List.cons_append] at hfirst ⊢
          rw [scan, if_neg (by simp [hblank]), hfirst]
          simp only [ih fuel hlength, Option.map_some]

theorem ofText_of_spelled {ts : List Token} (h : Spelled ts cs) : ofText cs = some ts :=
  scan_of_spelled h _ (Nat.le_refl _)

end Switchboard.Json.Token
