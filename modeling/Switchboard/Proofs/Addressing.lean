import Mathlib.Data.List.TakeWhile
import Switchboard.Proofs.Dialling

namespace Switchboard

namespace Options

/-- What letters switch on. A letter counts wherever it stands and however often; other characters
do not count. -/
structure SetBy (o : Options) (letters : List Char) : Prop where
  noOptimization : o.noOptimization = true ↔ 'n' ∈ letters
  jitterbuffer : o.jitterbuffer = true ↔ 'n' ∈ letters ∧ 'j' ∈ letters
  bridgeReport : o.bridgeReport = true ↔ 'b' ∈ letters
  mohPassthru : o.mohPassthru = true ↔ 'm' ∈ letters

variable {o p : Options} {letters others : List Char}

theorem setBy_ofLetters (letters : List Char) : (ofLetters letters).SetBy letters := by
  constructor <;> simp [ofLetters]

theorem SetBy.eq (ho : o.SetBy letters) (hp : p.SetBy others)
    (h : ∀ c ∈ ['n', 'j', 'b', 'm'], c ∈ letters ↔ c ∈ others) : o = p := by
  have hn : 'n' ∈ letters ↔ 'n' ∈ others := h 'n' (by simp)
  have hj : 'j' ∈ letters ↔ 'j' ∈ others := h 'j' (by simp)
  have hb : 'b' ∈ letters ↔ 'b' ∈ others := h 'b' (by simp)
  have hm : 'm' ∈ letters ↔ 'm' ∈ others := h 'm' (by simp)
  have h₁ := Bool.eq_iff_iff.2 (ho.noOptimization.trans (hn.trans hp.noOptimization.symm))
  have h₂ :=
    Bool.eq_iff_iff.2 (ho.jitterbuffer.trans ((and_congr hn hj).trans hp.jitterbuffer.symm))
  have h₃ := Bool.eq_iff_iff.2 (ho.bridgeReport.trans (hb.trans hp.bridgeReport.symm))
  have h₄ := Bool.eq_iff_iff.2 (ho.mohPassthru.trans (hm.trans hp.mohPassthru.symm))
  cases o
  cases p
  simp only [mk.injEq]
  exact ⟨h₁, h₂, h₃, h₄⟩

end Options

namespace Text

variable {sep : Char} {cs : List Char}

theorem forall_bne (h : sep ∉ cs) : ∀ c ∈ cs, (c != sep) = true := by
  intro c hc
  rw [bne_iff_ne]
  rintro rfl
  exact h hc

theorem toList_upTo (sep : Char) (s : String) :
    (upTo sep s).toList = s.toList.takeWhile (· != sep) := by
  cases hcut : cut sep s with
  | none =>
      have hnot := cut_eq_none.1 hcut
      rw [upTo_of_not_mem hnot, List.takeWhile_eq_self_iff.2 (forall_bne hnot)]
  | some parts =>
      obtain ⟨before, after⟩ := parts
      obtain ⟨hnot, hs⟩ := cut_eq_some.1 hcut
      rw [upTo, hcut, hs, List.takeWhile_append_of_pos (forall_bne hnot)]
      simp

end Text

namespace Destination

/-- A text without options: `exten@context`, or `exten` where the context is left to the default
`d`. -/
inductive Target (d : String) : String → String → String → Prop
  | placed {exten : String} (context : String) :
      '@' ∉ exten.toList → Target d (exten ++ "@" ++ context) exten context
  | bare {exten : String} : '@' ∉ exten.toList → Target d exten exten d

/-- The texts of a destination. -/
inductive Written (d : String) : String → Destination → Prop
  | plain {target exten context : String} : Target d target exten context → '/' ∉ target.toList →
      exten ≠ "" → context ≠ "" → Written d target ⟨exten, context, {}⟩
  | extended {target exten context letters : String} {options : Options} :
      Target d target exten context →
      '/' ∉ target.toList → exten ≠ "" → context ≠ "" → options.SetBy letters.toList →
      Written d (target ++ "/" ++ letters) ⟨exten, context, options⟩

def beforeOptions (text : String) : List Char := text.toList.takeWhile (· != '/')

def LacksExtension (target : List Char) : Prop := target = [] ∨ target.head? = some '@'

def LacksContext (d : String) (target : List Char) : Prop :=
  target.dropWhile (· != '@') = ['@'] ∨ '@' ∉ target ∧ d = ""

variable {d text target exten context letters : String}

theorem exists_target (d target : String) : ∃ exten context, Target d target exten context := by
  cases hcut : Text.cut '@' target with
  | none => exact ⟨target, d, .bare (Text.cut_eq_none.1 hcut)⟩
  | some parts =>
      obtain ⟨exten, context⟩ := parts
      obtain ⟨hat, htarget⟩ := Text.cut_eq_some.1 hcut
      have : target = exten ++ "@" ++ context := String.toList_inj.1 (by simp [htarget])
      exact ⟨exten, context, this ▸ .placed context hat⟩

theorem Target.cut (h : Target d target exten context) :
    (Text.cut '@' target).getD (target, d) = (exten, context) := by
  cases h with
  | placed context hat =>
      have : Text.cut '@' (exten ++ "@" ++ context) = some (exten, context) :=
        Text.cut_eq_some.2 ⟨hat, by simp⟩
      rw [this, Option.getD_some]
  | bare hat => rw [Text.cut_eq_none.2 hat, Option.getD_none]

theorem Target.lacksExtension_iff (h : Target d target exten context) :
    LacksExtension target.toList ↔ exten = "" := by
  cases h with
  | placed context hat =>
      cases hexten : exten.toList with
      | nil =>
          obtain rfl : exten = "" := String.toList_inj.1 hexten
          simp [LacksExtension]
      | cons c cs =>
          have hc : c ≠ '@' := fun h => hat (by simp [hexten, h])
          have hne : exten ≠ "" := fun h => by simp [h] at hexten
          simp [LacksExtension, hexten, hc, hne]
  | bare hat =>
      have hhead : target.toList.head? ≠ some '@' := fun h => hat (List.mem_of_mem_head? h)
      simp [LacksExtension, hhead]

theorem Target.lacksContext_iff (h : Target d target exten context) :
    LacksContext d target.toList ↔ context = "" := by
  cases h with
  | placed context hat => simp [LacksContext, List.dropWhile_append_of_pos (Text.forall_bne hat)]
  | bare hat => simp [LacksContext, List.dropWhile_eq_nil_iff.2 (Text.forall_bne hat), hat]

theorem parse_eq (h : Target d (Text.upTo '/' text) exten context) :
    parse text d =
      if exten = "" then .error (.invalidDestination text "missing extension")
      else if context = "" then .error (.invalidDestination text "empty context")
      else .ok ⟨exten, context, (targetAndOptions text).2⟩ := by
  simp only [parse, targetAndOptions_fst, h.cut]

theorem parse_ok_iff (h : Target d (Text.upTo '/' text) exten context) {r : Destination} :
    parse text d = .ok r ↔ exten ≠ "" ∧ context ≠ "" ∧
      r = ⟨exten, context, (targetAndOptions text).2⟩ := by
  rw [parse_eq h]
  by_cases hexten : exten = ""
  · simp [hexten]
  · by_cases hcontext : context = "" <;> simp [hexten, hcontext, eq_comm]

theorem targetAndOptions_plain (h : '/' ∉ target.toList) :
    targetAndOptions target = (target, {}) := by
  rw [targetAndOptions, Text.cut_eq_none.2 h]

theorem targetAndOptions_extended (h : '/' ∉ target.toList) (letters : String) :
    targetAndOptions (target ++ "/" ++ letters) = (target, .ofLetters letters.toList) := by
  have : Text.cut '/' (target ++ "/" ++ letters) = some (target, letters) :=
    Text.cut_eq_some.2 ⟨h, by simp⟩
  rw [targetAndOptions, this]

theorem parse_plain_iff (h : Target d target exten context) (hslash : '/' ∉ target.toList)
    {r : Destination} :
    parse target d = .ok r ↔ exten ≠ "" ∧ context ≠ "" ∧ r = ⟨exten, context, {}⟩ := by
  have hall := targetAndOptions_plain hslash
  rw [parse_ok_iff (by rwa [← targetAndOptions_fst, hall]), hall]

theorem parse_extended_iff (h : Target d target exten context) (hslash : '/' ∉ target.toList)
    {r : Destination} :
    parse (target ++ "/" ++ letters) d = .ok r ↔
      exten ≠ "" ∧ context ≠ "" ∧ r = ⟨exten, context, .ofLetters letters.toList⟩ := by
  have hall := targetAndOptions_extended hslash letters
  rw [parse_ok_iff (by rwa [← targetAndOptions_fst, hall]), hall]

theorem parse_eq_ok_iff {r : Destination} : parse text d = .ok r ↔ Written d text r := by
  constructor
  · intro hr
    cases hcut : Text.cut '/' text with
    | none =>
        have hslash := Text.cut_eq_none.1 hcut
        obtain ⟨exten, context, htarget⟩ := exists_target d text
        obtain ⟨hexten, hcontext, rfl⟩ := (parse_plain_iff htarget hslash).1 hr
        exact .plain htarget hslash hexten hcontext
    | some parts =>
        obtain ⟨target, letters⟩ := parts
        obtain ⟨hslash, htext⟩ := Text.cut_eq_some.1 hcut
        obtain rfl : text = target ++ "/" ++ letters := String.toList_inj.1 (by simp [htext])
        obtain ⟨exten, context, htarget⟩ := exists_target d target
        obtain ⟨hexten, hcontext, rfl⟩ := (parse_extended_iff htarget hslash).1 hr
        exact .extended htarget hslash hexten hcontext (Options.setBy_ofLetters _)
  · intro hr
    cases hr with
    | plain htarget hslash hexten hcontext =>
        exact (parse_plain_iff htarget hslash).2 ⟨hexten, hcontext, rfl⟩
    | extended htarget hslash hexten hcontext hoptions =>
        rw [hoptions.eq (Options.setBy_ofLetters _) fun _ _ => Iff.rfl]
        exact (parse_extended_iff htarget hslash).2 ⟨hexten, hcontext, rfl⟩

theorem parse_letters {others : String} {r : Destination} (hslash : '/' ∉ target.toList)
    (h : ∀ c ∈ ['n', 'j', 'b', 'm'], c ∈ letters.toList ↔ c ∈ others.toList)
    (hr : parse (target ++ "/" ++ letters) d = .ok r) :
    parse (target ++ "/" ++ others) d = .ok r := by
  obtain ⟨exten, context, htarget⟩ := exists_target d target
  have hoptions : Options.ofLetters letters.toList = .ofLetters others.toList :=
    (Options.setBy_ofLetters _).eq (Options.setBy_ofLetters _) h
  rw [parse_extended_iff htarget hslash] at hr ⊢
  rwa [← hoptions]

theorem parse_display {r : Destination} (hd : '/' ∉ d.toList) (hr : parse text d = .ok r)
    (d' : String) :
    parse r.display d' = .ok ⟨r.exten, r.context, {}⟩ := by
  have hplain : ∀ {target exten context}, Target d target exten context → '/' ∉ target.toList →
      exten ≠ "" → context ≠ "" →
      parse (exten ++ "@" ++ context) d' = .ok ⟨exten, context, {}⟩ := by
    intro target exten context htarget hslash hexten hcontext
    cases htarget with
    | placed context hat =>
        exact (parse_plain_iff (.placed context hat) hslash).2 ⟨hexten, hcontext, rfl⟩
    | bare hat =>
        exact (parse_plain_iff (.placed d hat) (by simp [hslash, hd])).2 ⟨hexten, hcontext, rfl⟩
  cases parse_eq_ok_iff.1 hr with
  | plain htarget hslash hexten hcontext => exact hplain htarget hslash hexten hcontext
  | extended htarget hslash hexten hcontext => exact hplain htarget hslash hexten hcontext

/-- Reading destinations with the default context `d`. -/
structure Grammatical (d : String) : Prop where
  accepts : ∀ text r, parse text d = .ok r ↔ Written d text r
  placed : ∀ exten context letters : String, exten ≠ "" → '@' ∉ exten.toList → '/' ∉ exten.toList →
    context ≠ "" → '/' ∉ context.toList →
    ∃ options : Options, options.SetBy letters.toList ∧
      parse (exten ++ "@" ++ context ++ "/" ++ letters) d = .ok ⟨exten, context, options⟩
  bare : ∀ exten letters : String, exten ≠ "" → '@' ∉ exten.toList → '/' ∉ exten.toList → d ≠ "" →
    ∃ options : Options, options.SetBy letters.toList ∧
    parse (exten ++ "/" ++ letters) d = .ok ⟨exten, d, options⟩
  letters : ∀ target letters others : String, '/' ∉ target.toList →
    (∀ c ∈ ['n', 'j', 'b', 'm'], c ∈ letters.toList ↔ c ∈ others.toList) →
    ∀ r, parse (target ++ "/" ++ letters) d = .ok r → parse (target ++ "/" ++ others) d = .ok r
  refuses : ∀ text, (∃ why, parse text d = .error why) ↔
    LacksExtension (beforeOptions text) ∨ LacksContext d (beforeOptions text)
  /-- A refusal quotes the whole text, and misses the extension first. -/
  blames : ∀ text why, parse text d = .error why →
    LacksExtension (beforeOptions text) ∧ why = .invalidDestination text "missing extension" ∨
    ¬ LacksExtension (beforeOptions text) ∧ why = .invalidDestination text "empty context"
  reprints : ∀ text r, parse text d = .ok r →
    ∀ d', parse r.display d' = .ok ⟨r.exten, r.context, {}⟩

theorem parse_refused (text d : String) :
    ((∃ why, parse text d = .error why) ↔
      LacksExtension (beforeOptions text) ∨ LacksContext d (beforeOptions text)) ∧
    ∀ why, parse text d = .error why →
      LacksExtension (beforeOptions text) ∧ why = .invalidDestination text "missing extension" ∨
      ¬ LacksExtension (beforeOptions text) ∧ why = .invalidDestination text "empty context" := by
  obtain ⟨exten, context, htarget⟩ := exists_target d (Text.upTo '/' text)
  have hexten := htarget.lacksExtension_iff
  have hcontext := htarget.lacksContext_iff
  rw [Text.toList_upTo] at hexten hcontext
  rw [beforeOptions, hexten, hcontext, parse_eq htarget]
  by_cases h₁ : exten = ""
  · simp [h₁, eq_comm]
  · by_cases h₂ : context = "" <;> simp [h₁, h₂, eq_comm]

/-- Destinations are read by their grammar, whatever context is the default. One with a `/` could
not be written out and read again. -/
theorem reads_by_grammar (d : String) (hd : '/' ∉ d.toList) : Grammatical d where
  accepts _ _ := parse_eq_ok_iff
  placed exten context letters hexten hat hslash hcontext hslash' :=
    ⟨_, Options.setBy_ofLetters _,
      (parse_extended_iff (.placed context hat) (by simp [hslash, hslash'])).2
      ⟨hexten, hcontext, rfl⟩⟩
  bare exten letters hexten hat hslash hcontext :=
    ⟨_, Options.setBy_ofLetters _,
      (parse_extended_iff (.bare hat) hslash).2 ⟨hexten, hcontext, rfl⟩⟩
  letters _ _ _ hslash hsame _ := parse_letters hslash hsame
  refuses text := (parse_refused text d).1
  blames text := (parse_refused text d).2
  reprints _ _ := parse_display hd

theorem byDefault_reads :
    '/' ∉ "a@b".toList ∧
    parse "700/jxnm@/" "a@b" = .ok ⟨"700", "a@b", ⟨true, true, false, true⟩⟩ ∧
    (∀ d', parse "700@a@b" d' = .ok ⟨"700", "a@b", {}⟩) ∧
    ∃ why, parse "700@/n@x" "a@b" = .error why := by
  have hread := reads_by_grammar "a@b" (by decide +kernel)
  have hparse : parse "700/jxnm@/" "a@b" = .ok ⟨"700", "a@b", ⟨true, true, false, true⟩⟩ := by
    decide +kernel
  refine ⟨by decide +kernel, hparse, fun d' => ?_, (hread.refuses _).2 ?_⟩
  · exact hread.reprints _ _ hparse d'
  · exact .inr (.inl (by decide +kernel))

end Destination
end Switchboard
