import Mathlib.Data.List.Basic
import Mathlib.Data.List.Find
import Mathlib.Data.Nat.Bitwise
import Mathlib.Order.Defs.Unbundled
import Switchboard.Format

namespace Switchboard

theorem find?_eq_some_iff_idxOf {α : Type} [DecidableEq α] {l : List α} {p : α → Bool} {a : α} :
    l.find? p = some a ↔ a ∈ l ∧ p a = true ∧ ∀ b ∈ l, p b = true → l.idxOf a ≤ l.idxOf b := by
  induction l with
  | nil => simp
  | cons x l ih =>
      rw [List.find?_cons]
      cases hx : p x with
      | true =>
          constructor
          · intro h
            obtain rfl := Option.some.inj h
            exact ⟨List.mem_cons_self, hx,
              fun b _ _ => by rw [List.idxOf_cons_self]; exact Nat.zero_le _⟩
          · rintro ⟨-, -, hfirst⟩
            have hzero := hfirst x List.mem_cons_self hx
            rw [List.idxOf_cons_self, Nat.le_zero] at hzero
            by_contra hne
            rw [List.idxOf_cons_ne l fun h => hne (congrArg some h)] at hzero
            cases hzero
      | false =>
          -- What the head is not can neither be the first of that kind nor come before it.
          have hne : ∀ b, p b = true → x ≠ b := by
            rintro b hb rfl
            rw [hb] at hx
            cases hx
          dsimp only
          rw [ih]
          constructor
          · rintro ⟨ha, hpa, hfirst⟩
            refine ⟨List.mem_cons_of_mem x ha, hpa, fun b hb hpb => ?_⟩
            rw [List.idxOf_cons_ne l (hne a hpa), List.idxOf_cons_ne l (hne b hpb)]
            exact Nat.succ_le_succ (hfirst b (List.mem_of_ne_of_mem (hne b hpb).symm hb) hpb)
          · rintro ⟨ha, hpa, hfirst⟩
            refine ⟨List.mem_of_ne_of_mem (hne a hpa).symm ha, hpa, fun b hb hpb => ?_⟩
            have hle := hfirst b (List.mem_cons_of_mem x hb) hpb
            rw [List.idxOf_cons_ne l (hne a hpa), List.idxOf_cons_ne l (hne b hpb)] at hle
            exact Nat.le_of_succ_le_succ hle

namespace FormatMask

variable {m a b c d : FormatMask} {i : Nat}

def IsCodec (c : FormatMask) : Prop := ∃ i < 16, c.bits.toNat = 2 ^ i

abbrev Codec : Type := { c : FormatMask // c.IsCodec }

/-- The better of two choices under an order of the codecs, or the only one that there is. -/
inductive Better (beats : Codec → Codec → Prop) :
    Option FormatMask → Option FormatMask → Option FormatMask → Prop
  | neither : Better beats none none none
  | first (c : Codec) : Better beats (some c) none (some c)
  | second (d : Codec) : Better beats none (some d) (some d)
  | same (c : Codec) : Better beats (some c) (some c) (some c)
  | wins {c d : Codec} (h : beats c d) : Better beats (some c) (some d) (some c)
  | loses {c d : Codec} (h : beats d c) : Better beats (some c) (some d) (some d)

theorem eq_of_toNat (h : c.bits.toNat = d.bits.toNat) : c = d := by
  obtain ⟨x⟩ := c
  obtain ⟨y⟩ := d
  exact congrArg mk (UInt64.toNat_inj.1 h)

theorem toNat_inter (m c : FormatMask) : (m &&& c).bits.toNat = m.bits.toNat &&& c.bits.toNat :=
  UInt64.toNat_and _ _

theorem toNat_union (a b : FormatMask) : (a ||| b).bits.toNat = a.bits.toNat ||| b.bits.toNat :=
  UInt64.toNat_or _ _

theorem intersects_iff : m.intersects c = true ↔ m.bits.toNat &&& c.bits.toNat ≠ 0 := by
  rw [intersects, bne_iff_ne, ← UInt64.toNat_and, ← UInt64.toNat_zero]
  exact not_congr UInt64.toNat_inj.symm

theorem contains_iff : m.contains c = true ↔ m.bits.toNat &&& c.bits.toNat = c.bits.toNat := by
  rw [contains, beq_iff_eq, ← UInt64.toNat_and]
  exact UInt64.toNat_inj.symm

theorem intersects_bit (hc : c.bits.toNat = 2 ^ i) : m.intersects c = m.bits.toNat.testBit i := by
  rw [Bool.eq_iff_iff, intersects_iff, hc, Nat.and_two_pow]
  cases m.bits.toNat.testBit i <;> simp

theorem contains_bit (hc : c.bits.toNat = 2 ^ i) : m.contains c = m.bits.toNat.testBit i := by
  have hpos : 0 ≠ 2 ^ i := (Nat.two_pow_pos i).ne
  rw [Bool.eq_iff_iff, contains_iff, hc, Nat.and_two_pow]
  cases m.bits.toNat.testBit i <;> simp [hpos]

theorem IsCodec.contains_eq (hc : c.IsCodec) (m : FormatMask) : m.contains c = m.intersects c := by
  obtain ⟨i, -, hbit⟩ := hc
  rw [contains_bit hbit, intersects_bit hbit]

theorem IsCodec.intersects_union (hc : c.IsCodec) (a b : FormatMask) :
    (a ||| b).intersects c = (a.intersects c || b.intersects c) := by
  obtain ⟨i, -, hbit⟩ := hc
  rw [intersects_bit hbit, intersects_bit hbit, intersects_bit hbit, toNat_union, Nat.testBit_or]

theorem testBit_audio : audio.bits.toNat.testBit i = decide (i < 16) :=
  Nat.testBit_two_pow_sub_one 16 i

theorem IsCodec.intersects_inter_audio (hc : c.IsCodec) (m : FormatMask) :
    (m &&& audio).intersects c = m.intersects c := by
  obtain ⟨i, hi, hbit⟩ := hc
  rw [intersects_bit hbit, intersects_bit hbit, toNat_inter, Nat.testBit_and, testBit_audio,
    decide_eq_true hi,
    Bool.and_true]

theorem intersects_audio_iff :
    m.intersects audio = true ↔ ∃ i < 16, m.bits.toNat.testBit i = true := by
  rw [intersects_iff]
  constructor
  · intro h
    obtain ⟨i, hi⟩ := Nat.exists_testBit_of_ne_zero h
    rw [Nat.testBit_and, testBit_audio, Bool.and_eq_true, decide_eq_true_eq] at hi
    exact ⟨i, hi.2, hi.1⟩
  · rintro ⟨i, hi, hbit⟩ hzero
    have hboth : (m.bits.toNat &&& audio.bits.toNat).testBit i = true := by
      rw [Nat.testBit_and, testBit_audio, hbit, decide_eq_true hi, Bool.and_true]
    rw [hzero, Nat.zero_testBit] at hboth
    cases hboth

theorem preference_perm :
    (preference.map (·.bits.toNat)).Perm ((List.range 16).map (2 ^ ·)) := by decide

theorem mem_preference_iff : c ∈ preference ↔ c.IsCodec := by
  have hmem : c ∈ preference ↔ c.bits.toNat ∈ preference.map (·.bits.toNat) := by
    rw [List.mem_map]
    exact ⟨fun h => ⟨c, h, rfl⟩, fun ⟨d, hd, h⟩ => eq_of_toNat h ▸ hd⟩
  rw [hmem, preference_perm.mem_iff, List.mem_map]
  simp only [List.mem_range, IsCodec, eq_comm]

def rank (c : FormatMask) : Nat := preference.idxOf c

theorem rank_inj (hc : c.IsCodec) (h : rank c = rank d) : c = d :=
  (List.idxOf_inj (mem_preference_iff.2 hc)).1 h

theorem best_eq_some_iff : m.best = some c ↔
    c.IsCodec ∧ m.intersects c = true ∧ ∀ d : FormatMask, d.IsCodec → m.intersects d = true →
    rank c ≤ rank d := by
  rw [best, find?_eq_some_iff_idxOf, mem_preference_iff]
  simp only [mem_preference_iff, rank]

theorem best_eq_none_iff : m.best = none ↔
    ∀ c : FormatMask, c.IsCodec → m.intersects c = false := by
  rw [best, List.find?_eq_none]
  simp only [mem_preference_iff, Bool.not_eq_true]

theorem best_congr (h : ∀ c : FormatMask, c.IsCodec → a.intersects c = b.intersects c) :
    a.best = b.best :=
  List.find?_congr fun c hc => h c (mem_preference_iff.1 hc)

theorem isSome_best (m : FormatMask) : m.best.isSome = m.intersects audio := by
  rw [Bool.eq_iff_iff, best, List.find?_isSome, intersects_audio_iff]
  constructor
  · rintro ⟨c, hc, hm⟩
    obtain ⟨i, hi, hbit⟩ := mem_preference_iff.1 hc
    exact ⟨i, hi, intersects_bit hbit ▸ hm⟩
  · rintro ⟨i, hi, hbit⟩
    have hfits : 2 ^ i < 2 ^ 64 := Nat.pow_lt_pow_right Nat.one_lt_two (by omega)
    have hc : ((⟨UInt64.ofNat (2 ^ i)⟩ : FormatMask)).bits.toNat = 2 ^ i :=
      UInt64.toNat_ofNat_of_lt' hfits
    exact ⟨_, mem_preference_iff.2 ⟨i, hi, hc⟩, by rw [intersects_bit hc, hbit]⟩

theorem best_inter_audio (m : FormatMask) : (m &&& audio).best = m.best :=
  best_congr fun _ hc => hc.intersects_inter_audio m

theorem best_of_isCodec (hc : c.IsCodec) : c.best = some c := by
  have hall : ∀ c ∈ preference, c.best = some c := by decide
  exact hall c (mem_preference_iff.2 hc)

theorem best_union_left (ha : a.best = some c) (hb : ∀ d, b.best = some d → rank c ≤ rank d) :
    (a ||| b).best = some c := by
  obtain ⟨hc, hac, hfirst⟩ := best_eq_some_iff.1 ha
  refine best_eq_some_iff.2 ⟨hc, by rw [hc.intersects_union, hac, Bool.true_or],
    fun e he hmeets => ?_⟩
  rw [he.intersects_union, Bool.or_eq_true] at hmeets
  rcases hmeets with hae | hbe
  · exact hfirst e he hae
  · cases hd : b.best with
    | none => rw [best_eq_none_iff.1 hd e he] at hbe; cases hbe
    | some d => exact (hb d hd).trans ((best_eq_some_iff.1 hd).2.2 e he hbe)

theorem union_comm (a b : FormatMask) : a ||| b = b ||| a :=
  eq_of_toNat (by rw [toNat_union, toNat_union, Nat.or_comm])

theorem best_union_right (hb : b.best = some d) (ha : ∀ c, a.best = some c → rank d ≤ rank c) :
    (a ||| b).best = some d :=
  union_comm a b ▸ best_union_left hb ha

def Precedes (c d : Codec) : Prop := rank c < rank d

instance : IsStrictTotalOrder Codec Precedes where
  irrefl c := Nat.lt_irrefl (rank c)
  trans _ _ _ := Nat.lt_trans
  trichotomous c _ hcd hdc :=
    Subtype.ext (rank_inj c.2 (Nat.le_antisymm (Nat.not_lt.1 hdc) (Nat.not_lt.1 hcd)))

theorem better_best_union (a b : FormatMask) : Better Precedes a.best b.best (a ||| b).best := by
  cases ha : a.best with
  | none =>
      cases hb : b.best with
      | none =>
          have hnone : (a ||| b).best = none := best_eq_none_iff.2 fun c hc => by
            rw [hc.intersects_union, best_eq_none_iff.1 ha c hc, best_eq_none_iff.1 hb c hc,
              Bool.or_false]
          rw [hnone]
          exact .neither
      | some d =>
          rw [best_union_right hb fun _ hc => by rw [ha] at hc; cases hc]
          exact .second ⟨d, (best_eq_some_iff.1 hb).1⟩
  | some c =>
      have hc := (best_eq_some_iff.1 ha).1
      cases hb : b.best with
      | none =>
          rw [best_union_left ha fun _ hd => by rw [hb] at hd; cases hd]
          exact .first ⟨c, hc⟩
      | some d =>
          have hd := (best_eq_some_iff.1 hb).1
          rcases Nat.lt_trichotomy (rank c) (rank d) with hlt | heq | hgt
          · rw [best_union_left ha fun _ he => by rw [hb] at he; cases he; exact hlt.le]
            exact Better.wins (c := ⟨c, hc⟩) (d := ⟨d, hd⟩) hlt
          · obtain rfl := rank_inj hc heq
            rw [best_union_left ha fun _ he => by rw [hb] at he; cases he; exact Nat.le_refl _]
            exact .same ⟨c, hc⟩
          · rw [best_union_right hb fun _ he => by rw [ha] at he; cases he; exact hgt.le]
            exact Better.loses (c := ⟨c, hc⟩) (d := ⟨d, hd⟩) hgt

theorem Better.symm {beats : Codec → Codec → Prop} {x y z : Option FormatMask}
    (h : Better beats x y z) :
    Better beats y x z := by
  cases h with
  | neither => exact .neither
  | first c => exact .second c
  | second d => exact .first d
  | same c => exact .same c
  | wins h => exact .loses h
  | loses h => exact .wins h

section

variable {beats : Codec → Codec → Prop} [IsStrictTotalOrder Codec beats]

theorem Better.eq_of_beats {c d : Codec} {z : Option FormatMask}
    (h : Better beats (some c.1) (some d.1) z)
    (hbeats : beats c d) : z = some c.1 := by
  generalize hx : some c.1 = x at h
  generalize hy : some d.1 = y at h
  cases h with
  | neither | first | second => simp at hx hy
  | same | wins => rfl
  | @loses c' d' h =>
      obtain rfl := Subtype.ext (Option.some.inj hx)
      obtain rfl := Subtype.ext (Option.some.inj hy)
      exact absurd h (asymm hbeats)

/-- An order under which choices are the better of two is read off from the choice between two
codecs. -/
theorem beats_iff (h : ∀ a b : FormatMask, Better beats a.best b.best (a ||| b).best)
    (c d : Codec) :
    beats c d ↔ c ≠ d ∧ (c.1 ||| d.1).best = some c.1 := by
  have hboth := h c d
  rw [best_of_isCodec c.2, best_of_isCodec d.2] at hboth
  constructor
  · intro hbeats
    refine ⟨?_, hboth.eq_of_beats hbeats⟩
    rintro rfl
    exact irrefl c hbeats
  · rintro ⟨hne, hbest⟩
    rcases trichotomous (r := beats) c d with hcd | rfl | hdc
    · exact hcd
    · exact absurd rfl hne
    · rw [hboth.symm.eq_of_beats hdc] at hbest
      exact absurd (Subtype.ext (Option.some.inj hbest)).symm hne

end

theorem best_union_added (a b : FormatMask) :
    (a ||| b).best = a.best ∨
      ∃ c, (a ||| b).best = some c ∧ b.contains c = true ∧ a.contains c = false := by
  cases hbest : (a ||| b).best with
  | none =>
      refine .inl (best_eq_none_iff.2 fun c hc => ?_).symm
      have hneither := best_eq_none_iff.1 hbest c hc
      rw [hc.intersects_union, Bool.or_eq_false_iff] at hneither
      exact hneither.1
  | some c =>
      obtain ⟨hc, hmeets, hfirst⟩ := best_eq_some_iff.1 hbest
      rw [hc.intersects_union, Bool.or_eq_true] at hmeets
      cases hac : a.intersects c with
      | true =>
          refine .inl (best_eq_some_iff.2 ⟨hc, hac, fun d hd had => hfirst d hd ?_⟩).symm
          rw [hd.intersects_union, had, Bool.true_or]
      | false =>
          have hbc := hmeets.resolve_left (by rw [hac]; exact Bool.false_ne_true)
          exact .inr ⟨c, rfl, by rw [hc.contains_eq, hbc], by rw [hc.contains_eq, hac]⟩

/-- A mask has a choice if it has any audio format. It is one of its audio formats, whatever else
there is in the mask, and there is exactly one order of the sixteen such that two masks together
choose the better of what they choose alone; so formats that are added never make the choice fall on
any other than one of them. -/
theorem best_ranked :
    (∀ m : FormatMask, m.best.isSome = m.intersects audio) ∧
    (∀ m c : FormatMask, m.best = some c → c.IsCodec ∧ m.contains c = true) ∧
    (∀ m m' : FormatMask, m &&& audio = m' &&& audio → m.best = m'.best) ∧
    (∃! beats : Codec → Codec → Prop, IsStrictTotalOrder Codec beats ∧
      ∀ a b : FormatMask, Better beats a.best b.best (a ||| b).best) ∧
    ∀ a b : FormatMask, (a ||| b).best = a.best ∨
      ∃ c, (a ||| b).best = some c ∧ b.contains c = true ∧ a.contains c = false := by
  refine ⟨isSome_best, fun m c hbest => ?_, fun m m' hsame => ?_,
    ⟨Precedes, ⟨inferInstance, better_best_union⟩, fun beats hbeats => ?_⟩, best_union_added⟩
  · obtain ⟨hc, hm, -⟩ := best_eq_some_iff.1 hbest
    exact ⟨hc, by rw [hc.contains_eq, hm]⟩
  · rw [← best_inter_audio m, hsame, best_inter_audio]
  · obtain ⟨_, hbetter⟩ := hbeats
    funext c d
    exact propext ((beats_iff hbetter c d).trans (beats_iff better_best_union c d).symm)

end FormatMask
end Switchboard
