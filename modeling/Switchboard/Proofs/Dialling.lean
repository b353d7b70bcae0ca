import Switchboard.Proofs.Admission
import Switchboard.Proofs.DeviceState

namespace Switchboard

namespace Text

variable {sep : Char} {s before after : String}

theorem cut_eq_some :
    cut sep s = some (before, after) ↔
      sep ∉ before.toList ∧ s.toList = before.toList ++ sep :: after.toList := by
  simp only [cut, Option.map_eq_some_iff, Prod.exists, Prod.mk.injEq, splitFirst_eq_some]
  constructor
  · rintro ⟨a, b, ⟨hnot, hs⟩, rfl, rfl⟩
    simpa using ⟨hnot, hs⟩
  · rintro ⟨hnot, hs⟩
    exact ⟨before.toList, after.toList, ⟨hnot, hs⟩, by simp, by simp⟩

theorem cut_eq_none : cut sep s = none ↔ sep ∉ s.toList := by
  rw [cut, Option.map_eq_none_iff, splitFirst_eq_none]

def upTo (sep : Char) (s : String) : String := ((cut sep s).map Prod.fst).getD s

theorem upTo_of_not_mem (h : sep ∉ s.toList) : upTo sep s = s := by
  rw [upTo, cut_eq_none.2 h]
  rfl

theorem upTo_append (h : sep ∉ before.toList) : upTo sep (before ++ s) = before ++ upTo sep s := by
  cases hs : cut sep s with
  | none =>
      have hnone : sep ∉ (before ++ s).toList := by
        rw [String.toList_append, List.mem_append, not_or]
        exact ⟨h, cut_eq_none.1 hs⟩
      rw [upTo_of_not_mem hnone, upTo_of_not_mem (cut_eq_none.1 hs)]
  | some parts =>
      obtain ⟨first, rest⟩ := parts
      obtain ⟨hfirst, hparts⟩ := cut_eq_some.1 hs
      have hwhole : cut sep (before ++ s) = some (before ++ first, rest) := by
        refine cut_eq_some.2 ⟨?_, ?_⟩
        · rw [String.toList_append, List.mem_append, not_or]
          exact ⟨h, hfirst⟩
        · rw [String.toList_append, String.toList_append, hparts, List.append_assoc]
      rw [upTo, upTo, hwhole, hs]
      rfl

end Text

namespace Destination

/-- The options begin before the first `@`, which is one of their letters. -/
def Strays (text : String) : Prop :=
  ∃ target letters, text.toList = target ++ '/' :: letters ∧ '/' ∉ target ∧ '@' ∉ target ∧
    '@' ∈ letters

/-- A text names the same place to whoever asks about it as to whoever requests it. -/
structure ReadAlike (text : String) : Prop where
  place : ∀ exten context, parseDevice text = some (exten, context) → exten ≠ "" → context ≠ "" →
    ∀ d, ∃ options, parse text d = .ok ⟨exten, context, options⟩
  question : ∀ exten context, parseDevice text = some (exten, context) → exten ≠ "" → context ≠ "" →
    ∀ (e : Exchange) (format : FormatMask),
      (e.deviceState text).2.lookups = (e.createPair text format).2.lookups
  /-- An `@` among the options gives no context. -/
  bare : Strays text → parseDevice text = none ∧ ∀ d r, parse text d = .ok r → r.context = d

variable {text exten context d : String}

theorem targetAndOptions_fst (text : String) : (targetAndOptions text).1 = Text.upTo '/' text := by
  rw [targetAndOptions, Text.upTo]
  cases Text.cut '/' text <;> rfl

theorem parseDevice_eq_some :
    parseDevice text = some (exten, context) ↔
      ∃ rest, Text.cut '@' text = some (exten, rest) ∧ context = Text.upTo '/' rest := by
  simp only [parseDevice, Option.map_eq_some_iff, Prod.exists, Prod.mk.injEq, Text.upTo]
  constructor
  · rintro ⟨x, rest, hcut, rfl, rfl⟩
    exact ⟨rest, hcut, rfl⟩
  · rintro ⟨rest, hcut, rfl⟩
    exact ⟨exten, rest, hcut, rfl, rfl⟩

theorem parse_of_cut (h : Text.cut '@' (Text.upTo '/' text) = some (exten, context))
    (hexten : exten ≠ "")
    (hcontext : context ≠ "") (d : String) :
    parse text d = .ok ⟨exten, context, (targetAndOptions text).2⟩ := by
  simp only [parse, targetAndOptions_fst, h, Option.getD_some, if_neg hexten, if_neg hcontext]

theorem context_of_bare {r : Destination} (h : '@' ∉ (Text.upTo '/' text).toList)
    (hr : parse text d = .ok r) :
    r.context = d := by
  simp only [parse, targetAndOptions_fst, Text.cut_eq_none.2 h, Option.getD_none] at hr
  split at hr
  · cases hr
  · split at hr
    · cases hr
    · cases hr
      rfl

theorem upTo_of_strays (h : Strays text) : '@' ∉ (Text.upTo '/' text).toList := by
  obtain ⟨target, letters, htext, hslash, hat, -⟩ := h
  have hcut : Text.cut '/' text = some (String.ofList target, String.ofList letters) := by
    refine Text.cut_eq_some.2 ⟨?_, ?_⟩
    · rwa [String.toList_ofList]
    · rw [String.toList_ofList, String.toList_ofList, htext]
  rw [Text.upTo, hcut]
  change '@' ∉ (String.ofList target).toList
  rwa [String.toList_ofList]

theorem cut_upTo {rest : String} (h : Text.cut '@' text = some (exten, rest))
    (hslash : '/' ∉ exten.toList) :
    Text.cut '@' (Text.upTo '/' text) = some (exten, Text.upTo '/' rest) := by
  obtain ⟨hat, htext⟩ := Text.cut_eq_some.1 h
  have hparts : text = exten ++ "@" ++ rest := by
    apply String.toList_inj.1
    simp [htext]
  have hbefore : '/' ∉ (exten ++ "@").toList := by simpa using hslash
  rw [hparts, Text.upTo_append hbefore]
  exact Text.cut_eq_some.2 ⟨hat, by simp⟩

theorem strays_iff {rest : String} (h : Text.cut '@' text = some (exten, rest)) :
    Strays text ↔ '/' ∈ exten.toList := by
  obtain ⟨hat, htext⟩ := Text.cut_eq_some.1 h
  constructor
  · intro hstrays
    by_contra hslash
    obtain ⟨-, hupTo⟩ := Text.cut_eq_some.1 (cut_upTo h hslash)
    refine upTo_of_strays hstrays ?_
    rw [hupTo]
    exact List.mem_append_right _ List.mem_cons_self
  · intro hslash
    obtain ⟨target, letters, hexten, hfirst⟩ := List.eq_append_cons_of_mem hslash
    refine ⟨target, letters ++ '@' :: rest.toList, ?_, hfirst, ?_, ?_⟩
    · rw [htext, hexten, List.append_assoc]
      rfl
    · exact fun hmem => hat (hexten ▸ List.mem_append_left _ hmem)
    · exact List.mem_append_right _ List.mem_cons_self

theorem lookups_createPair (e : Exchange) {d : Destination}
    (h : parse text e.config.defaultContext = .ok d)
    (format : FormatMask) :
    (e.createPair text format).2.lookups = e.lookups ++ [e.questionFor d] := by
  cases h0 : e.refusal? 0 with
  | some why =>
      rw [Exchange.createPair_ownerRefused h h0]
      rfl
  | none =>
      cases h1 : e.refusal? 1 with
      | some why =>
          rw [Exchange.createPair_chanRefused h h0 h1]
          rfl
      | none =>
          rw [Exchange.createPair_granted h h0 h1]
          rfl

/-- A text is read alike exactly if its options do not hold the first `@`. If they do, a request
still leaves the context to the default, but a device has the options in its extension. -/
theorem read_alike_iff (text : String) :
    (ReadAlike text ↔ ¬ Strays text) ∧
    (Strays text → (∀ d r, parse text d = .ok r → r.context = d) ∧
      ∃ exten context, parseDevice text = some (exten, context) ∧ '/' ∈ exten.toList) := by
  have hdevice : Strays text → ∃ exten context, parseDevice text = some (exten, context) ∧
    '/' ∈ exten.toList := by
    intro hstrays
    obtain ⟨target, letters, htext, -, -, hat⟩ := id hstrays
    have hmem : '@' ∈ text.toList := by
      rw [htext]
      exact List.mem_append_right _ (List.mem_cons_of_mem _ hat)
    cases hcut : Text.cut '@' text with
    | none => exact absurd hmem (Text.cut_eq_none.1 hcut)
    | some parts =>
        obtain ⟨exten, rest⟩ := parts
        exact ⟨exten, _, parseDevice_eq_some.2 ⟨rest, hcut, rfl⟩, (strays_iff hcut).1 hstrays⟩
  refine ⟨⟨?_, ?_⟩, fun hstrays => ⟨fun d r => context_of_bare (upTo_of_strays hstrays),
    hdevice hstrays⟩⟩
  · intro halike hstrays
    obtain ⟨exten, context, hsome, -⟩ := hdevice hstrays
    rw [(halike.bare hstrays).1] at hsome
    cases hsome
  · intro hstrays
    have hplace : ∀ exten context, parseDevice text = some (exten, context) → exten ≠ "" →
      context ≠ "" →
        ∀ d, ∃ options, parse text d = .ok ⟨exten, context, options⟩ := by
      intro exten context hsome hexten hcontext d
      obtain ⟨rest, hcut, rfl⟩ := parseDevice_eq_some.1 hsome
      have hslash : '/' ∉ exten.toList := fun hmem => hstrays ((strays_iff hcut).2 hmem)
      exact ⟨_, parse_of_cut (cut_upTo hcut hslash) hexten hcontext d⟩
    refine ⟨hplace, ?_, fun h => absurd h hstrays⟩
    intro exten context hsome hexten hcontext e format
    obtain ⟨options, hparse⟩ := hplace exten context hsome hexten hcontext e.config.defaultContext
    rw [lookups_createPair e hparse, e.deviceState_of_parsed hsome]
    rfl

theorem byway_read_alike :
    parseDevice "700@x/n@y/m" = some ("700", "x") ∧
    ∀ d, ∃ options, parse "700@x/n@y/m" d = .ok ⟨"700", "x", options⟩ := by
  have hdevice : parseDevice "700@x/n@y/m" = some ("700", "x") := by decide +kernel
  have hcut : Text.cut '@' "700@x/n@y/m" = some ("700", "x/n@y/m") := by decide +kernel
  have hstrays : ¬ Strays "700@x/n@y/m" :=
    fun h => absurd ((strays_iff hcut).1 h) (by decide +kernel)
  exact ⟨hdevice, ((read_alike_iff _).1.2 hstrays).place _ _ hdevice (by decide) (by decide)⟩

/-- With an `@` among the options the device is the extension and the options before it, while a
request is for the extension in the default context. -/
theorem detour_disagrees :
    parseDevice "700/n@x" = some ("700/n", "x") ∧
    parse "700/n@x" "default" = .ok ⟨"700", "default", .ofLetters ['n', '@', 'x']⟩ ∧
    Strays "700/n@x" ∧ ¬ ReadAlike "700/n@x" := by
  have hdevice : parseDevice "700/n@x" = some ("700/n", "x") := by decide +kernel
  have hstrays : Strays "700/n@x" :=
    ⟨['7', '0', '0'], ['n', '@', 'x'], by decide +kernel, by decide, by decide, by decide⟩
  refine ⟨hdevice, by decide +kernel, hstrays, fun halike => ?_⟩
  rw [(halike.bare hstrays).1] at hdevice
  cases hdevice

end Destination
end Switchboard
