import Switchboard.Diagnostics
import Switchboard.Proofs.Json.Layout
import Switchboard.Proofs.Json.Record

namespace Switchboard

namespace Json

def member? (name : String) : Json → Option Json
  | .object members =>
    match membersBy name members with
    | [(_, j)] => some j
    | _ => none
  | _ => none

def at? : List String → Json → Option Json
  | [], j => some j
  | name :: names, j => (j.member? name).bind (at? names)

def nat? (j : Json) : Option Nat := j.integer?.bind Int.toNat?

def optional? : Json → Option (Option String)
  | .null => some none
  | j => j.text?.map some

variable {members : List (String × Json)} {name : String} {j : Json}

theorem membersBy_record (hnames : (members.map Prod.fst).Nodup) (h : (name, j) ∈ members) :
    membersBy name (members.map fun (name, j) => (some name, j)) = [(some name, j)] := by
  induction members with
  | nil => simp at h
  | cons m members ih =>
      obtain ⟨first, k⟩ := m
      rw [List.map_cons, List.nodup_cons] at hnames
      obtain ⟨hnew, hnames⟩ := hnames
      rw [List.map_cons]
      rcases List.mem_cons.1 h with heq | h
      · cases heq
        have hnone : membersBy name (members.map fun (name, j) => (some name, j)) = [] := by
          rw [membersBy, List.filter_eq_nil_iff]
          rintro _ hm hname
          obtain ⟨⟨other, l⟩, hl, rfl⟩ := List.mem_map.1 hm
          obtain rfl : other = name := by simpa using hname
          exact hnew (List.mem_map.2 ⟨_, hl, rfl⟩)
        rw [membersBy_cons_self, hnone]
      · have hne : first ≠ name := by
          rintro rfl
          exact hnew (List.mem_map.2 ⟨_, h, rfl⟩)
        rw [membersBy_cons_of_ne hne, ih hnames h]

theorem member?_record (hnames : (members.map Prod.fst).Nodup) (h : (name, j) ∈ members) :
    (record members).member? name = some j := by
  rw [record, member?, membersBy_record hnames h]

theorem member?_record_single (other : String) :
    (record [(name, j)]).member? other = if name = other then some j else none := by
  split
  · next h => exact member?_record (by simp) (by simp [h])
  · next h => simp [record, member?, membersBy, h]

theorem nat_inj {m n : Nat} : nat m = nat n ↔ m = n := by
  rw [nat, nat, Json.integer.injEq, Int.ofNat_inj]

theorem optional?_optional (s : Option String) : (optional s).optional? = some s := by
  cases s <;> rfl

theorem optional_eq_null {s : Option String} : optional s = .null ↔ s = none := by
  cases s <;> simp [optional, str]

end Json

def Options.ofJson? (j : Json) : Option Options := do
  let noOptimization ← (← j.member? "no_optimization").bool?
  let jitterbuffer ← (← j.member? "jitterbuffer").bool?
  let bridgeReport ← (← j.member? "bridge_report").bool?
  let mohPassthru ← (← j.member? "moh_passthru").bool?
  some ⟨noOptimization, jitterbuffer, bridgeReport, mohPassthru⟩

def Phase.ofName? (name : String) : Option Phase :=
  [fresh, dialplanLaunched, optimized, torn].find? (·.name = name)

def Glare.ofJson? (j : Json) : Option Glare :=
  match j.text?, j.at? ["detected", "relays"], j.at? ["cancelled", "relays"] with
  | some "none", none, none => some .idle
  | none, some relays, none => relays.nat?.map .detected
  | none, none, some relays => relays.nat?.map .cancelled
  | _, _, _ => none

namespace Snapshot

def ofJson? (j : Json) : Option Snapshot := do
  let id ← (← j.member? "id").text?
  let owner ← (← j.member? "owner").optional?
  let chan ← (← j.member? "chan").optional?
  let exten ← (← j.member? "exten").text?
  let context ← (← j.member? "context").text?
  let options ← Options.ofJson? (← j.member? "options")
  let phase ← Phase.ofName? (← (← j.member? "phase").text?)
  let glare ← Glare.ofJson? (← j.member? "glare")
  let createdAt ← (← j.member? "created_at").text?
  some ⟨id, owner, chan, exten, context, options, phase, glare, createdAt⟩

/-- The value is an object that tells everything about the snapshot. -/
structure Tells (j : Json) (s : Snapshot) : Prop where
  object : ∃ members, j = .object members
  whole : ofJson? j = some s
  owner : j.member? "owner" = some .null ↔ s.owner = none
  chan : j.member? "chan" = some .null ↔ s.chan = none
  idle : j.member? "glare" = some (.str "none") ↔ s.glare = .idle
  detected (relays : Nat) : j.at? ["glare", "detected", "relays"] = some (.nat relays) ↔
  s.glare = .detected relays
  cancelled (relays : Nat) : j.at? ["glare", "cancelled", "relays"] = some (.nat relays) ↔
  s.glare = .cancelled relays

end Snapshot

open Json

theorem Options.ofJson?_toJson (o : Options) : ofJson? o.toJson = some o := by
  have hnames : ["no_optimization", "jitterbuffer", "bridge_report", "moh_passthru"].Nodup := by
    decide
  have hn : o.toJson.member? "no_optimization" = some (.bool o.noOptimization) :=
    member?_record hnames (by simp)
  have hj : o.toJson.member? "jitterbuffer" = some (.bool o.jitterbuffer) :=
    member?_record hnames (by simp)
  have hb : o.toJson.member? "bridge_report" = some (.bool o.bridgeReport) :=
    member?_record hnames (by simp)
  have hm : o.toJson.member? "moh_passthru" = some (.bool o.mohPassthru) :=
    member?_record hnames (by simp)
  simp [ofJson?, hn, hj, hb, hm, bool?]

theorem Phase.ofName?_name (p : Phase) : ofName? p.name = some p := by
  cases p <;> rfl

theorem Glare.ofJson?_toJson (g : Glare) : ofJson? g.toJson = some g := by
  cases g <;> rfl

theorem Glare.toJson_eq_none {g : Glare} : g.toJson = .str "none" ↔ g = .idle := by
  cases g <;> simp [toJson, record, str]

theorem Glare.at?_toJson_iff {g : Glare} {state : String} {relays : Nat} :
    g.toJson.at? [state, "relays"] = some (.nat relays) ↔
      state = "detected" ∧ g = .detected relays ∨ state = "cancelled" ∧ g = .cancelled relays := by
  cases g with
  | idle => simp [toJson, at?, member?, str]
  | detected | cancelled =>
      simp only [toJson, at?, member?_record_single]
      split
      · next h => simp [← h, member?_record_single, nat_inj]
      · next h => simp [Ne.symm h]

namespace Snapshot

theorem tells_toJson (s : Snapshot) : Tells s.toJson s := by
  have hnames :
    ["id", "owner", "chan", "exten", "context", "options", "phase", "glare",
    "created_at"].Nodup := by
    decide
  have hid : s.toJson.member? "id" = some (.str s.id) := member?_record hnames (by simp)
  have howner : s.toJson.member? "owner" = some (.optional s.owner) :=
    member?_record hnames (by simp)
  have hchan : s.toJson.member? "chan" = some (.optional s.chan) := member?_record hnames (by simp)
  have hexten : s.toJson.member? "exten" = some (.str s.exten) := member?_record hnames (by simp)
  have hcontext : s.toJson.member? "context" = some (.str s.context) :=
    member?_record hnames (by simp)
  have hoptions : s.toJson.member? "options" = some s.options.toJson :=
    member?_record hnames (by simp)
  have hphase : s.toJson.member? "phase" = some (.str s.phase.name) :=
    member?_record hnames (by simp)
  have hglare : s.toJson.member? "glare" = some s.glare.toJson := member?_record hnames (by simp)
  have hcreated : s.toJson.member? "created_at" = some (.str s.createdAt) :=
    member?_record hnames (by simp)
  refine ⟨⟨_, rfl⟩, ?_, ?_, ?_, ?_, fun relays => ?_, fun relays => ?_⟩
  · simp [ofJson?, hid, howner, hchan, hexten, hcontext, hoptions, hphase, hglare, hcreated,
      text?, str,
      optional?_optional, Options.ofJson?_toJson, Phase.ofName?_name, Glare.ofJson?_toJson]
  · rw [howner, Option.some.injEq, optional_eq_null]
  · rw [hchan, Option.some.injEq, optional_eq_null]
  · rw [hglare, Option.some.injEq, Glare.toJson_eq_none]
  · rw [at?, hglare, Option.bind_some, Glare.at?_toJson_iff]
    simp
  · rw [at?, hglare, Option.bind_some, Glare.at?_toJson_iff]
    simp

theorem mapM_ofJson? (all : List Snapshot) : (all.map toJson).mapM ofJson? = some all := by
  induction all with
  | nil => rfl
  | cons s all ih =>
      rw [List.map_cons, List.mapM_cons, (tells_toJson s).whole, ih]
      rfl

theorem forall₂_tells (all : List Snapshot) : List.Forall₂ Tells (all.map toJson) all :=
  List.forall₂_map_left_iff.2 (List.forall₂_same.2 fun s _ => tells_toJson s)

/-- Whatever the snapshots are, they are written as a text of one array and of nothing else. It
tells everything about each of them, and no other snapshots are written so. -/
theorem writes_faithfully (all : List Snapshot) :
    ∃ items,
      (∀ j, Spells (writeAll all) j ↔ j = .array items) ∧
      Json.read (writeAll all) = some (.array items) ∧
      List.Forall₂ Tells items all ∧
      items.mapM ofJson? = some all ∧
      ∀ others, writeAll others = writeAll all → others = all := by
  have hspells : Spells (writeAll all) (.array (all.map toJson)) := spells_write _
  refine ⟨all.map toJson, fun j => ⟨fun hj => hj.unique hspells, ?_⟩, read_write _,
    forall₂_tells all,
    mapM_ofJson? all, fun others h => ?_⟩
  · rintro rfl
    exact hspells
  · have hothers : Spells (writeAll all) (.array (others.map toJson)) := h ▸ spells_write _
    have hitems : others.map toJson = all.map toJson := Json.array.inj (hothers.unique hspells)
    have hread := mapM_ofJson? others
    rw [hitems, mapM_ofJson?] at hread
    exact (Option.some.inj hread).symm

end Snapshot
end Switchboard
