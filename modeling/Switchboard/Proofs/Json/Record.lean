import Mathlib.Data.List.Forall2
import Switchboard.Config.Reader

namespace Switchboard.Json

/-- A field of a record, as an object may give it. -/
structure Field where
  name : String
  shows : Json → Prop
  spare : Prop

def Field.Admits (f : Field) : Option Json → Prop
  | some j => f.shows j
  | none => f.spare

def Field.plain {α : Type} (name : String) (encode : α → Json) (a usual : α) : Field where
  name := name
  shows j := j = encode a
  spare := a = usual

/-- The members of an object that gives the fields, where `names` are those that it may not give to
anything else. -/
inductive ListsAmong (names : List String) : List Field → List (Option String × Json) → Prop
  | nil : ListsAmong names [] []
  | shown {f : Field} {fields : List Field} {j : Json} {members : List (Option String × Json)} :
      f.shows j → ListsAmong names fields members →
        ListsAmong names (f :: fields) ((some f.name, j) :: members)
  | leftOut {f : Field} {fields : List Field} {members : List (Option String × Json)} :
      f.spare → ListsAmong names fields members → ListsAmong names (f :: fields) members
  | foreign {name : String} {fields : List Field} {j : Json}
      {members : List (Option String × Json)} :
      name ∉ names → ListsAmong names fields members →
        ListsAmong names fields ((some name, j) :: members)
  | reordered {fields : List Field} {members others : List (Option String × Json)} :
      members.Perm others → ListsAmong names fields members → ListsAmong names fields others

def Lists (fields : List Field) (members : List (Option String × Json)) : Prop :=
  ListsAmong (fields.map Field.name) fields members

def membersBy (name : String) (members : List (Option String × Json)) :
    List (Option String × Json) :=
  members.filter (·.1 = some name)

/-- What a reader finds among the members of an object that gives the fields. -/
structure Found (names : List String) (fields : List Field)
    (members : List (Option String × Json)) : Prop where
  named : ∀ m ∈ members, m.1.isSome = true
  own : ∀ f ∈ fields, ∃ v : Option Json, f.Admits v ∧
    membersBy f.name members = v.toList.map (some f.name, ·)
  other : ∀ name ∈ names, name ∉ fields.map Field.name → membersBy name members = []

variable {names : List String} {fields : List Field} {members : List (Option String × Json)}

theorem membersBy_cons_of_ne {name other : String} (h : other ≠ name) (j : Json) :
    membersBy name ((some other, j) :: members) = membersBy name members := by
  simp [membersBy, h]

theorem membersBy_cons_self (name : String) (j : Json) :
    membersBy name ((some name, j) :: members) = (some name, j) :: membersBy name members := by
  simp [membersBy]

theorem Found.shown {f : Field} {j : Json} (h : Found names fields members) (hj : f.shows j)
    (hname : f.name ∈ names)
    (hnew : f.name ∉ fields.map Field.name) :
    Found names (f :: fields) ((some f.name, j) :: members) where
  named := by simpa using h.named
  own g hg := by
    rcases List.mem_cons.1 hg with rfl | hg
    · exact ⟨some j, hj, by rw [membersBy_cons_self, h.other g.name hname hnew]; rfl⟩
    · have hne : f.name ≠ g.name := fun heq => hnew (heq ▸ List.mem_map_of_mem hg)
      rw [membersBy_cons_of_ne hne]
      exact h.own g hg
  other name hown hnot := by
    rw [List.map_cons, List.mem_cons, not_or] at hnot
    rw [membersBy_cons_of_ne (Ne.symm hnot.1)]
    exact h.other name hown hnot.2

theorem Found.leftOut {f : Field} (h : Found names fields members) (hspare : f.spare)
    (hname : f.name ∈ names)
    (hnew : f.name ∉ fields.map Field.name) : Found names (f :: fields) members where
  named := h.named
  own g hg := by
    rcases List.mem_cons.1 hg with rfl | hg
    · exact ⟨none, hspare, h.other g.name hname hnew⟩
    · exact h.own g hg
  other name hown hnot := by
    rw [List.map_cons, List.mem_cons, not_or] at hnot
    exact h.other name hown hnot.2

theorem Found.foreign {name : String} (h : Found names fields members) (hname : name ∉ names)
    (hnames : ∀ f ∈ fields, f.name ∈ names) (j : Json) :
    Found names fields ((some name, j) :: members) := by
  have hskip : ∀ own ∈ names, membersBy own ((some name, j) :: members) =
    membersBy own members := by
    intro own hown
    refine membersBy_cons_of_ne ?_ j
    rintro rfl
    exact hname hown
  refine ⟨by simpa using h.named, fun f hf => ?_, fun own hown hnot => ?_⟩
  · rw [hskip _ (hnames f hf)]
    exact h.own f hf
  · rw [hskip own hown]
    exact h.other own hown hnot

theorem Found.reordered {others : List (Option String × Json)} (h : Found names fields members)
    (hperm : members.Perm others) : Found names fields others := by
  have hby (name : String) : (membersBy name members).Perm (membersBy name others) := hperm.filter _
  refine ⟨fun m hm => h.named m (hperm.mem_iff.2 hm), fun f hf => ?_, fun name hname hnot => ?_⟩
  · obtain ⟨v, hv, hmembers⟩ := h.own f hf
    refine ⟨v, hv, ?_⟩
    have hsame := hby f.name
    rw [hmembers] at hsame
    -- There is one at most, which leaves no order to choose.
    cases v with
    | none => exact List.nil_perm.1 hsame
    | some j => exact (List.singleton_perm.1 hsame).symm
  · have hsame := hby name
    rw [h.other name hname hnot] at hsame
    exact List.nil_perm.1 hsame

theorem found_of_listsAmong (h : ListsAmong names fields members)
    (hnodup : (fields.map Field.name).Nodup)
    (hnames : ∀ f ∈ fields, f.name ∈ names) : Found names fields members := by
  induction h with
  | nil => exact ⟨by simp, by simp, fun _ _ _ => rfl⟩
  | shown hj _ ih =>
      rw [List.map_cons, List.nodup_cons] at hnodup
      rw [List.forall_mem_cons] at hnames
      exact (ih hnodup.2 hnames.2).shown hj hnames.1 hnodup.1
  | leftOut hspare _ ih =>
      rw [List.map_cons, List.nodup_cons] at hnodup
      rw [List.forall_mem_cons] at hnames
      exact (ih hnodup.2 hnames.2).leftOut hspare hnames.1 hnodup.1
  | foreign hname _ ih => exact (ih hnodup hnames).foreign hname hnames _
  | reordered hperm _ ih => exact (ih hnodup hnames).reordered hperm

theorem exists_mapM {pick : String → Option (Option Json)}
    (h : ∀ f ∈ fields, ∃ v : Option Json, f.Admits v ∧ pick f.name = some v) :
    ∃ values, (fields.map Field.name).mapM pick = some values ∧
      List.Forall₂ Field.Admits fields values := by
  induction fields with
  | nil => exact ⟨[], rfl, .nil⟩
  | cons f fields ih =>
      rw [List.forall_mem_cons] at h
      obtain ⟨v, hv, hpick⟩ := h.1
      obtain ⟨values, hvalues, hadmits⟩ := ih h.2
      exact ⟨v :: values, by simp [List.mapM_cons, hpick, hvalues], .cons hv hadmits⟩

theorem fields_of_lists (h : Lists fields members) (hnames : fields.map Field.name = names)
    (hnodup : names.Nodup) :
    ∃ values, Json.fields names (.object members) = some values ∧
      List.Forall₂ Field.Admits fields values := by
  subst hnames
  have hfound := found_of_listsAmong h hnodup fun f hf => List.mem_map_of_mem hf
  have hall : members.all (·.1.isSome) = true := by simpa using hfound.named
  rw [Json.fields, membersNamed, if_pos hall]
  refine exists_mapM fun f hf => ?_
  obtain ⟨v, hv, hmembers⟩ := hfound.own f hf
  refine ⟨v, hv, ?_⟩
  rw [membersBy] at hmembers
  rw [hmembers]
  cases v <;> rfl

theorem orElse_of_admits {α : Type} {f : Field} {v : Option Json} {read : Json → Option α}
    {missing a : α}
    (h : f.Admits v) (hread : ∀ j, f.shows j → read j = some a) (hmissing : f.spare → a = missing) :
    orElse read missing v = some a := by
  cases v with
  | none => rw [orElse, hmissing h]
  | some j => exact hread j h

theorem orElse_plain {α : Type} {name : String} {encode : α → Json} {v : Option Json}
    {read : Json → Option α}
    {a missing : α} (h : (Field.plain name encode a missing).Admits v)
    (hread : read (encode a) = some a) :
    orElse read missing v = some a :=
  orElse_of_admits h (by rintro j rfl; exact hread) id

end Switchboard.Json
