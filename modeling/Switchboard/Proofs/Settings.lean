import Switchboard.Proofs.Json.Layout
import Switchboard.Proofs.Json.Record

namespace Switchboard

namespace Json

def int64 (n : Int64) : Json := .integer n.toInt

theorem bool?_bool (b : Bool) : (Json.bool b).bool? = some b := rfl

theorem text?_str (s : String) : (str s).text? = some s := rfl

theorem int64?_int64 (n : Int64) : (int64 n).int64? = some n := by
  have hlow := n.le_toInt
  have hhigh := n.toInt_lt
  have hrange : -9223372036854775808 ≤ n.toInt ∧ n.toInt < 9223372036854775808 := by omega
  simp [int64?, int64, integer?, hrange]

end Json

def Jitterbuffer.fields (b : Jitterbuffer) : List Json.Field :=
  let usual : Jitterbuffer := {}
  [.plain "enabled" .bool b.enabled usual.enabled,
    .plain "force" .bool b.force usual.force,
    .plain "log" .bool b.log usual.log,
    .plain "max_size" Json.int64 b.maxSize usual.maxSize,
    .plain "resync_threshold" Json.int64 b.resyncThreshold usual.resyncThreshold,
    .plain "implementation" Json.str b.implementation usual.implementation,
    .plain "target_extra" Json.int64 b.targetExtra usual.targetExtra]

def VariableFilter.fields (f : VariableFilter) : List Json.Field :=
  [⟨"name_contains", (· = Json.str f.nameContains), False⟩,
    ⟨"value_contains", (· = Json.str f.valueContains), False⟩]

namespace Config

/-- What an object has to give for these settings. No filter is given as `null`; one that is left
out is the usual one. -/
def fields (c : Config) : List Json.Field :=
  let usual : Config := {}
  [.plain "default_context" Json.str c.defaultContext usual.defaultContext,
    { name := "jitterbuffer"
      shows j := ∃ members, j = .object members ∧ Json.Lists c.jitterbuffer.fields members
      spare := c.jitterbuffer = usual.jitterbuffer },
    { name := "inherit_filter"
      shows j := match c.inheritFilter with
        | none => j = .null
        | some f => ∃ members, j = .object members ∧ Json.Lists f.fields members
      spare := c.inheritFilter = usual.inheritFilter },
    .plain "queue_application" Json.str c.queueApplication usual.queueApplication]

/-- Settings that can be used: there is a default context, and a filter has a pattern for names. -/
structure Usable (c : Config) : Prop where
  context : c.defaultContext ≠ ""
  pattern : ∀ f, c.inheritFilter = some f → f.nameContains ≠ ""

end Config

open Json

variable {members : List (Option String × Json)}

theorem Jitterbuffer.ofJson_object {b : Jitterbuffer} (h : Lists b.fields members) :
    ofJson (.object members) = some b := by
  have hnames : b.fields.map Field.name = names := rfl
  obtain ⟨values, hvalues, hadmits⟩ := fields_of_lists h hnames (by decide)
  obtain _ | ⟨h₁, _ | ⟨h₂, _ | ⟨h₃, _ | ⟨h₄, _ | ⟨h₅, _ | ⟨h₆, _ | ⟨h₇, _ | _⟩⟩⟩⟩⟩⟩⟩ := hadmits
  simp only [ofJson, hvalues, Option.bind_eq_bind, Option.bind_some, orElse_plain h₁ (bool?_bool _),
    orElse_plain h₂ (bool?_bool _), orElse_plain h₃ (bool?_bool _),
    orElse_plain h₄ (int64?_int64 _),
    orElse_plain h₅ (int64?_int64 _), orElse_plain h₆ (text?_str _),
    orElse_plain h₇ (int64?_int64 _)]

theorem VariableFilter.ofJson_object {f : VariableFilter} (h : Lists f.fields members) :
    ofJson (.object members) = some f := by
  have hnames : f.fields.map Field.name = names := rfl
  obtain ⟨values, hvalues, hadmits⟩ := fields_of_lists h hnames (by decide)
  obtain _ | ⟨h₁, _ | ⟨h₂, _ | _⟩⟩ := hadmits
  -- Neither pattern may be left out.
  rename_i name value
  cases name with
  | none => exact h₁.elim
  | some name =>
      cases value with
      | none => exact h₂.elim
      | some value =>
          obtain rfl : name = .str f.nameContains := h₁
          obtain rfl : value = .str f.valueContains := h₂
          simp [ofJson, hvalues, text?_str]

theorem VariableFilter.ofJson?_of_shown {filter : Option VariableFilter} {j : Json}
    (h : match filter with
      | none => j = .null
      | some f => ∃ members, j = .object members ∧ Lists f.fields members) :
    ofJson? j = some filter := by
  cases filter with
  | none =>
      obtain rfl : j = .null := h
      rfl
  | some f =>
      obtain ⟨members, rfl, hmembers⟩ := h
      rw [ofJson?, ofJson_object hmembers, Option.map_some]
      simp

namespace Config

theorem ofJson_object {c : Config} (h : Lists c.fields members) :
    ofJson (.object members) = some c := by
  have hnames : c.fields.map Field.name = names := rfl
  obtain ⟨values, hvalues, hadmits⟩ := fields_of_lists h hnames (by decide)
  obtain _ | ⟨h₁, _ | ⟨h₂, _ | ⟨h₃, _ | ⟨h₄, _ | _⟩⟩⟩⟩ := hadmits
  have hjitterbuffer : ∀ j, (∃ members, j = .object members ∧ Lists c.jitterbuffer.fields members) →
      Jitterbuffer.ofJson j = some c.jitterbuffer := by
    rintro _ ⟨members, rfl, hmembers⟩
    exact Jitterbuffer.ofJson_object hmembers
  simp only [ofJson, hvalues, Option.bind_eq_bind, Option.bind_some, orElse_plain h₁ (text?_str _),
    orElse_of_admits h₂ hjitterbuffer id,
    orElse_of_admits h₃ (fun _ => VariableFilter.ofJson?_of_shown) id,
    orElse_plain h₄ (text?_str _)]

theorem read_of_spells {c : Config} {text : String} (htext : Spells text (.object members))
    (h : Lists c.fields members) : read text = c.validate.map fun _ => c := by
  rw [read, Json.read_of_spells htext, Option.bind_some, ofJson_object h]

theorem validate_of_usable {c : Config} (h : c.Usable) : c.validate = .ok () := by
  have hpattern : c.inheritFilter.any (·.nameContains = "") = false := by
    cases hfilter : c.inheritFilter with
    | none => rfl
    | some f => simpa using h.pattern f hfilter
  simp [validate, h.context, hpattern]

theorem usable_of_validate {c : Config} (h : c.validate = .ok ()) : c.Usable := by
  rw [validate] at h
  split at h
  · cases h
  · next hcontext =>
      split at h
      · cases h
      · next hpattern => exact ⟨hcontext, fun f hf => by simpa [hf] using hpattern⟩

theorem validate_of_not_usable {c : Config} (h : ¬ c.Usable) :
    c.validate = .error (if c.defaultContext = "" then .emptyContext else .emptyPattern) := by
  have hnot : c.validate ≠ .ok () := mt usable_of_validate h
  rw [validate] at hnot ⊢
  split
  · rfl
  · next hcontext =>
      rw [if_neg hcontext] at hnot
      split
      · rfl
      · next hpattern => exact absurd (if_neg hpattern) hnot

theorem validate_of_read {c : Config} {text : String} (h : read text = .ok c) :
    c.validate = .ok () := by
  rw [read] at h
  split at h
  · cases h
  · next d _ =>
      cases hvalid : d.validate with
      | error why =>
          rw [hvalid] at h
          cases h
      | ok u =>
          rw [hvalid] at h
          cases h
          exact hvalid

/-- Settings are loaded from any text of an object that gives them, unless they cannot be used; and
whatever the text, settings that are loaded can be used. -/
theorem loads_settings :
    (∀ (c : Config) (text : String) (members : List (Option String × Json)),
      Spells text (.object members) → Lists c.fields members →
      (c.Usable → read text = .ok c) ∧
      (¬ c.Usable → read text =
      .error (if c.defaultContext = "" then .emptyContext else .emptyPattern))) ∧
    ∀ text c, read text = .ok c → c.validate = .ok () ∧ c.Usable := by
  refine ⟨fun c text members htext hmembers => ⟨fun h => ?_, fun h => ?_⟩, fun text c h => ?_⟩
  · rw [read_of_spells htext hmembers, validate_of_usable h]
    rfl
  · rw [read_of_spells htext hmembers, validate_of_not_usable h]
    rfl
  · have hvalid := validate_of_read h
    exact ⟨hvalid, usable_of_validate hvalid⟩

/-- The fields come last first, among members that are nothing to the settings: one name twice, and
a text that is none. -/
theorem backwards_loads :
    let c : Config :=
      { defaultContext := "\"\\\n😀", jitterbuffer := { force := true, maxSize := Int64.minValue },
        inheritFilter := none }
    let members :=
      [(some "colour", .array [.decimal, .text none]), (some "inherit_filter", .null),
        (some "jitterbuffer", .object
          [(some "max_size", .integer (-9223372036854775808)), (some "", .null),
          (some "force", .bool true)]),
        (some "default_context", .str "\"\\\n😀"), (some "colour", .null)]
    Lists c.fields members ∧ c.Usable ∧ read (write (.object members)) = .ok c := by
  intro c members
  have hjitterbuffer : Lists c.jitterbuffer.fields
      [(some "max_size", .integer (-9223372036854775808)), (some "", .null),
      (some "force", .bool true)] :=
    .reordered (List.reverse_perm _)
      (.leftOut rfl (.shown rfl
      (.foreign (by decide) (.leftOut rfl (.shown rfl (.leftOut rfl (.leftOut rfl
        (.leftOut rfl .nil))))))))
  have hmembers : Lists c.fields members :=
    .reordered (List.reverse_perm _)
      (.foreign (by decide) (.shown rfl
      (.shown ⟨_, rfl, hjitterbuffer⟩ (.shown rfl (.foreign (by decide)
        (.leftOut rfl .nil))))))
  have husable : c.Usable := ⟨by decide, by simp [c]⟩
  exact ⟨hmembers, husable, (loads_settings.1 c _ members (spells_write _) hmembers).1 husable⟩

end Config
end Switchboard
