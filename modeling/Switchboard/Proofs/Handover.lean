import Mathlib.Data.List.Induction
import Mathlib.Data.List.Infix
import Switchboard.Proofs.Glare

namespace Switchboard.Glare

def after (g : Glare) (steps : List Step) : Glare := steps.foldl (fun g s => (g.apply s).2) g

def answers (steps : List Step) : List Answer := (idle.trace steps).map Prod.fst

def reply (before : List Step) (s : Step) : Answer := ((idle.after before).apply s).1

/-- Those who have entered and not left. -/
def relays (steps : List Step) : Nat := steps.count .enter - steps.count .leave

def deferred (steps : List Step) : Bool := (answers steps).contains (.cancelled true)

/-- The cell with so many relays in flight, before or after the record was left to them. -/
def holding : Bool → Nat → Glare
  | false, 0 => idle
  | false, n + 1 => detected (n + 1)
  | true, n => cancelled n

/-- Steps as relays and teardowns take them: who leaves has entered, and nobody enters when the
record that was left to the relays has been ended. -/
structure Orderly (steps : List Step) : Prop where
  balanced : ∀ before, before <+: steps → before.count .leave ≤ before.count .enter
  closed : ∀ before rest, before ++ rest = steps → idle.after before = cancelled 0 → .enter ∉ rest

variable {steps before : List Step}

theorem trace_append (g : Glare) (before rest : List Step) :
    g.trace (before ++ rest) = g.trace before ++ (g.after before).trace rest := by
  induction before generalizing g with
  | nil => rfl
  | cons s before ih => simp [trace, after, ih]

@[simp] theorem length_trace (g : Glare) (steps : List Step) :
    (g.trace steps).length = steps.length := by
  induction steps generalizing g with
  | nil => rfl
  | cons s steps ih => simp [trace, ih]

@[simp] theorem after_concat (steps : List Step) (s : Step) :
    idle.after (steps ++ [s]) = ((idle.after steps).apply s).2 := by
  simp [after]

@[simp] theorem answers_concat (steps : List Step) (s : Step) :
    answers (steps ++ [s]) = answers steps ++ [reply steps s] := by
  simp [answers, trace_append, trace, reply]

theorem deferred_concat (steps : List Step) (s : Step) :
    deferred (steps ++ [s]) = (deferred steps || decide (reply steps s = .cancelled true)) := by
  simp [deferred, eq_comm]

@[simp] theorem inFlight_holding (b : Bool) (n : Nat) : (holding b n).inFlight = n := by
  cases b <;> cases n <;> rfl

@[simp] theorem isCancelled_holding (b : Bool) (n : Nat) : (holding b n).isCancelled = b := by
  cases b <;> cases n <;> rfl

theorem apply_enter_holding (b : Bool) (n : Nat) :
    (holding b n).apply .enter = (.entered, holding b (n + 1)) := by
  cases b <;> cases n <;> rfl

theorem apply_leave_holding (b : Bool) (n : Nat) :
    (holding b (n + 1)).apply .leave =
      (.left (if b then (if n = 0 then .destroy else .abandon) else .proceed), holding b n) := by
  cases b <;> cases n <;> rfl

theorem apply_cancel_holding (b : Bool) (n : Nat) :
    (holding b n).apply .cancel = (.cancelled (!b && 0 < n), holding (b || 0 < n) n) := by
  cases b <;> cases n <;> simp [holding, cancel, apply]

theorem Orderly.of_prefix (h : Orderly steps) (hbefore : before <+: steps) : Orderly before where
  balanced earlier hearlier := h.balanced earlier (hearlier.trans hbefore)
  closed earlier between hbetween hcell hmem := by
    obtain ⟨rest, hrest⟩ := hbefore
    refine h.closed earlier (between ++ rest) ?_ hcell (List.mem_append_left _ hmem)
    rw [← List.append_assoc, hbetween, hrest]

theorem Orderly.init {s : Step} (h : Orderly (steps ++ [s])) : Orderly steps :=
  h.of_prefix (List.prefix_append _ _)

theorem Orderly.relays_enter (h : Orderly (steps ++ [Step.enter])) :
    relays (steps ++ [Step.enter]) = relays steps + 1 := by
  have hbalanced := h.balanced steps (List.prefix_append _ _)
  simp only [relays, List.count_append]
  simp
  omega

theorem Orderly.relays_leave (h : Orderly (steps ++ [Step.leave])) :
    relays steps = relays (steps ++ [Step.leave]) + 1 := by
  have hbalanced := h.balanced _ List.prefix_rfl
  simp only [relays, List.count_append] at hbalanced ⊢
  simp at hbalanced ⊢
  omega

theorem relays_cancel (steps : List Step) : relays (steps ++ [Step.cancel]) = relays steps := by
  simp [relays]

/-- What was done to a cell says how it stands. -/
theorem after_eq (h : Orderly steps) :
    idle.after steps = holding (deferred steps) (relays steps) := by
  induction steps using List.reverseRecOn with
  | nil => rfl
  | append_singleton steps s ih =>
      have hcell := ih h.init
      rw [after_concat, deferred_concat, reply, hcell]
      cases s with
      | enter => simp [apply_enter_holding, h.relays_enter]
      | leave => simp [h.relays_leave, apply_leave_holding]
      | cancel => cases deferred steps <;> simp [apply_cancel_holding, relays_cancel]

theorem reply_leave (h : Orderly (steps ++ [Step.leave])) :
    reply steps .leave = .left (if deferred steps then
      (if relays (steps ++ [Step.leave]) = 0 then .destroy else .abandon) else .proceed) := by
  rw [reply, after_eq h.init, h.relays_leave, apply_leave_holding]

theorem reply_cancel (h : Orderly steps) :
    reply steps .cancel = .cancelled (!deferred steps && 0 < relays steps) := by
  rw [reply, after_eq h, apply_cancel_holding]

theorem count_destroy (h : Orderly steps) :
    (answers steps).count (.left .destroy) = if deferred steps ∧ relays steps = 0 then 1
      else 0 := by
  induction steps using List.reverseRecOn with
  | nil => rfl
  | append_singleton steps s ih =>
      rw [answers_concat, List.count_append, ih h.init, deferred_concat]
      cases s with
      | enter =>
          -- A cell that was cancelled and is empty would let nobody in.
          have hopen : ¬ (deferred steps = true ∧ relays steps = 0) := by
            rintro ⟨hdeferred, hrelays⟩
            refine h.closed steps [.enter] rfl ?_ (by simp)
            rw [after_eq h.init, hdeferred, hrelays]
            rfl
          have hreply : reply steps .enter = .entered := rfl
          simp [hopen, hreply, h.relays_enter]
      | leave =>
          rw [reply_leave h]
          cases deferred steps <;> by_cases hlast : relays (steps ++ [Step.leave]) = 0 <;>
            simp [h.relays_leave, hlast]
      | cancel =>
          rw [reply_cancel h.init, relays_cancel]
          cases deferred steps <;> by_cases hrelays : relays steps = 0 <;> simp [hrelays]

/-- What an idle cell tells those who take the steps. -/
structure HandsOver (steps : List Step) : Prop where
  traced : ∀ before s, before ++ [s] <+: steps →
    (idle.trace steps)[before.length]? = some (reply before s, idle.after (before ++ [s]))
  inFlight : ∀ before, before <+: steps →
    (idle.after before).inFlight = before.count .enter - before.count .leave
  cancels : ∀ before, before ++ [Step.cancel] <+: steps →
    (reply before .cancel = .cancelled true ↔
      0 < (idle.after before).inFlight ∧ .cancelled true ∉ answers before)
  cancelled : ∀ before, before <+: steps →
    ((idle.after before).isCancelled = true ↔ .cancelled true ∈ answers before)
  /-- From then on the relay that leaves nobody behind ends the record, and every other that leaves
  lets it be. -/
  last : ∀ before, before ++ [Step.leave] <+: steps → .cancelled true ∈ answers before →
    reply before .leave =
      .left (if (idle.after (before ++ [Step.leave])).inFlight = 0 then .destroy else .abandon)
  proceeds : ∀ before, before ++ [Step.leave] <+: steps → .cancelled true ∉ answers before →
    reply before .leave = .left .proceed
  rests : ∀ before, before <+: steps → .cancelled true ∉ answers before →
    (idle.after before).inFlight = 0 → idle.after before = idle
  once : ∀ before, before <+: steps →
    (answers before).count (.left .destroy) =
      if .cancelled true ∈ answers before ∧ (idle.after before).inFlight = 0 then 1 else 0

theorem deferred_iff : deferred steps = true ↔ .cancelled true ∈ answers steps := by
  simp [deferred]

theorem trace_getElem? {s : Step} (h : before ++ [s] <+: steps) :
    (idle.trace steps)[before.length]? = some (reply before s, idle.after (before ++ [s])) := by
  obtain ⟨rest, rfl⟩ := h
  rw [List.append_assoc, trace_append, List.getElem?_append_right (by simp)]
  simp [trace, reply, after]

/-- However relays and teardowns overlap, the record that was left to the relays is ended by exactly
one of them. -/
theorem hands_over_once (steps : List Step) (h : Orderly steps) : HandsOver steps where
  traced _ _ := trace_getElem?
  inFlight before hbefore := by
    rw [after_eq (h.of_prefix hbefore), inFlight_holding]
    rfl
  cancels before hbefore := by
    have hinit := (h.of_prefix hbefore).init
    rw [reply_cancel hinit, after_eq hinit, inFlight_holding, ← deferred_iff]
    simp [and_comm]
  cancelled before hbefore := by
    rw [after_eq (h.of_prefix hbefore), isCancelled_holding, deferred_iff]
  last before hbefore hdeferred := by
    rw [reply_leave (h.of_prefix hbefore), if_pos (deferred_iff.2 hdeferred),
      after_eq (h.of_prefix hbefore),
      inFlight_holding]
  proceeds before hbefore hnot := by
    rw [reply_leave (h.of_prefix hbefore), if_neg (mt deferred_iff.1 hnot)]
  rests before hbefore hnot hempty := by
    have hdeferred : deferred before = false := by simpa using mt deferred_iff.1 hnot
    rw [after_eq (h.of_prefix hbefore), hdeferred, inFlight_holding] at hempty
    rw [after_eq (h.of_prefix hbefore), hdeferred, hempty]
    rfl
  once before hbefore := by
    rw [count_destroy (h.of_prefix hbefore), after_eq (h.of_prefix hbefore), inFlight_holding]
    simp [deferred_iff]

instance (steps : List Step) : Decidable (Orderly steps) :=
  decidable_of_iff
    ((∀ before ∈ steps.inits, before.count .leave ≤ before.count .enter) ∧
      ∀ before ∈ steps.inits, idle.after before = cancelled 0 → .enter ∉ steps.drop before.length)
    ⟨fun ⟨hbalanced, hclosed⟩ =>
      { balanced := fun before hbefore => hbalanced before ((List.mem_inits _ _).2 hbefore)
        closed := by
          rintro before rest rfl hcell
          simpa using hclosed before ((List.mem_inits _ _).2 (List.prefix_append _ _)) hcell },
    fun h =>
      ⟨fun before hbefore => h.balanced before ((List.mem_inits _ _).1 hbefore), by
        rintro before hbefore hcell
        obtain ⟨rest, rfl⟩ := (List.mem_inits _ _).1 hbefore
        simpa using h.closed before rest rfl hcell⟩⟩

theorem crowd_hands_over :
    Orderly [.enter, .enter, .cancel, .leave, .enter, .cancel, .leave, .leave, .cancel] ∧
    (answers [.enter, .enter, .cancel, .leave, .enter, .cancel, .leave, .leave, .cancel]).count
      (.left .destroy) = 1 := by
  have horderly : Orderly [.enter, .enter, .cancel, .leave, .enter, .cancel, .leave, .leave,
    .cancel] := by
    decide
  have honce := (hands_over_once _ horderly).once _ List.prefix_rfl
  rw [if_pos (by decide)] at honce
  exact ⟨horderly, honce⟩

end Switchboard.Glare
