import Switchboard.Proofs.Ledger.Service
import Switchboard.Proofs.Ledger.Sound
import Switchboard.Proofs.Places
import Switchboard.Session

namespace Switchboard

def Task.awaits : Task → Bool
  | .operate _ | .report => true
  | _ => false

theorem Exchange.missing_signal {e : Exchange} {c : ChannelId} (hc : c.Among e.channels.size)
    (route : Route) (σ : Signal) :
    e.missing (.signal route c σ) = none := by
  have hknown : (e.channels.get? c.number).isSome = true := (Table.get?_isSome_iff _ _).2 hc
  simp [Exchange.missing, Operation.references, Exchange.knows, hknown]

namespace Session

/-- A move is the next task, or the operations of others where a driver has backed off. -/
inductive Moves : Session → Session → Prop
  | step (s : Session) : Moves s s.step
  | others (s : Session) (a : Acquisition) (rest : List Task) (ops : List Operation)
      (h : s.agenda = .retry a :: rest) : Moves s (s.interrupt ops)

def Leads : Session → Session → Prop := Relation.ReflTransGen Moves

def grants (s : Session) : Bool :=
  match s.agenda with
  | .operate (.request route technology text format) :: _ =>
    (s.exchange.request route technology text format).1.isOk
  | _ => false

def dialled (s : Session) : Option String :=
  match s.agenda with
  | .operate (.request _ _ text _) :: _ => if s.grants then some text else none
  | _ => none

/-- Sessions that may come about, with the number of requests that were granted on the way. -/
inductive Reachable : Nat → Session → Prop
  | start {config ops s} (h : start config ops = .ok s) : Reachable 0 s
  | next {n s t} (hs : Reachable n s) (h : Moves s t) : Reachable (n + s.grants.toNat) t

def AtRest (s : Session) : Prop := ∀ t ∈ s.agenda, t.awaits = true

instance (s : Session) : Decidable s.AtRest := inferInstanceAs (Decidable (∀ t ∈ s.agenda, _))

theorem eq_of_start {config : Config} {ops : List Operation} {s : Session}
    (h : start config ops = .ok s) : s = { exchange := { config }, agenda := tasksOf ops } := by
  unfold start Exchange.start at h
  cases hv : config.validate with
  | error why =>
      rw [hv] at h
      cases h
  | ok _ =>
      rw [hv] at h
      cases h
      rfl

theorem step_idle {s : Session} (h : s.agenda = []) : s.step = s := by simp only [step, h]

theorem step_perform {s : Session} {t : Task} {rest : List Task} (h : s.agenda = t :: rest) :
    s.step = ({ s with agenda := rest } : Session).perform t := by
  simp only [step, h]

theorem step_signal {s : Session} {route : Route} {c : ChannelId} {σ : Signal} {rest : List Task}
    (h : s.agenda = .operate (.signal route c σ) :: rest) (hc : c.Among s.exchange.channels.size) :
    s.step = ({ s with agenda := rest } : Session).turn
      (s.exchange.perform (.signal route c σ)) := by
  rw [step_perform h, perform]
  simp only [operate, Exchange.missing_signal hc]

theorem run_step (s : Session) (n : Nat) : s.run (n + 1) = s.step.run n := by
  by_cases h : s.agenda = []
  · rw [step_idle h]
    cases n <;> simp [run, h]
  · simp [run, h]

theorem run_succ (s : Session) (n : Nat) : s.run (n + 1) = (s.run n).step := by
  induction n generalizing s with
  | zero => exact run_step s 0
  | succ n ih => rw [run_step, ih, ← run_step]

theorem run_add (s : Session) (n m : Nat) : s.run (n + m) = (s.run n).run m := by
  induction n generalizing s with
  | zero => rw [Nat.zero_add, run]
  | succ n ih => rw [Nat.succ_add, run_step, run_step, ih]

def granted (s : Session) : Nat → Nat
  | 0 => 0
  | n + 1 => s.granted n + (s.run n).grants.toNat

theorem Reachable.run {n : Nat} {s : Session} (hs : s.Reachable n) (k : Nat) :
    (s.run k).Reachable (n + s.granted k) := by
  induction k with
  | zero => exact hs
  | succ k ih =>
      rw [run_succ, granted, ← Nat.add_assoc]
      exact .next ih (.step _)

theorem Reachable.trace {s : Nat → Session} {m n : Nat} (hs : (s 0).Reachable m)
    (hmoves : ∀ k < n, Moves (s k) (s (k + 1))) : ∀ k ≤ n, ∃ m, (s k).Reachable m := by
  intro k
  induction k with
  | zero => exact fun _ => ⟨m, hs⟩
  | succ k ih =>
      intro hk
      obtain ⟨m, hm⟩ := ih (Nat.le_of_succ_le hk)
      exact ⟨_, hm.next (hmoves k hk)⟩

def ledger (s : Session) : Ledger := ⟨s.exchange.records, pendingRetries s.agenda⟩

/-- A departure comes back from backing off, to a record of which `p` holds. -/
def Resumes (s : Session) (p : Pair → Prop) : Prop :=
  ∃ a rest, s.agenda = .retry a :: rest ∧ a.purpose.isRelay = false ∧ p (s.exchange.pair a.pair)

theorem pendingRetries_tasksOf (ops : List Operation) : pendingRetries (tasksOf ops) = 0 := by
  induction ops with
  | nil => rfl
  | cons op ops ih => exact ih

theorem ledger_interrupt (s : Session) (ops : List Operation) :
    (s.interrupt ops).ledger = s.ledger := by
  have hagenda : (s.interrupt ops).agenda = tasksOf ops ++ ([Task.closeScript] ++ s.agenda) := by
    simp [interrupt, push]
  have hclose : pendingRetries [.closeScript] = 0 := rfl
  simp only [ledger, hagenda, pendingRetries_append, pendingRetries_tasksOf, hclose,
    Multiset.zero_add]
  rfl

theorem ledger_turn (s : Session) (t : Turn) :
    (s.turn t).ledger = t.ledger (pendingRetries s.agenda) := by
  simp only [ledger, turn, push, pendingRetries_append]
  rfl

theorem ledger_pause (s : Session) (point : Point) : (s.pause point).ledger = s.ledger := by
  cases point <;> unfold pause
  · cases s.backOffScripts with
    | nil => rfl
    | cons script rest => exact ledger_interrupt _ script
  · cases s.resolutionScripts with
    | nil => rfl
    | cons script rest => exact ledger_interrupt _ script

theorem ledger_closeScript (s : Session) : s.closeScript.ledger = s.ledger := by
  rw [closeScript]
  cases s.outer <;> rfl

variable {found : Pair → Prop}

theorem operate_steps (s : Session) (op : Operation)
    (h : ∀ route technology text format, op ≠ .request route technology text format) :
    Ledger.Steps found s.ledger (s.operate op).ledger := by
  unfold operate
  cases s.exchange.missing op with
  | some answer => exact .refl
  | none =>
      dsimp only
      split
      · exact .refl
      · exact .refl
      · rw [ledger_turn]
        exact Exchange.perform_steps s.exchange (pendingRetries s.agenda) op h

theorem perform_steps (s : Session) (t : Task)
    (hop : ∀ route technology text format, t ≠ .operate (.request route technology text format))
    (hfound : ∀ a, t = .retry a → a.purpose.isRelay = false → found (s.exchange.pair a.pair)) :
    Ledger.Steps found ⟨s.exchange.records, pendingRetries (t :: s.agenda)⟩
      (s.perform t).ledger := by
  have hresume :
    Ledger.Steps found ⟨s.exchange.records, pendingRetries [t] + pendingRetries s.agenda⟩
      ((s.exchange.resume t).ledger (pendingRetries s.agenda)) := by
    refine Exchange.resume_steps s.exchange (pendingRetries s.agenda) t ?_
    rintro a side rfl hside
    refine .inr (hfound a rfl ?_)
    cases hp : a.purpose <;> simp_all [Purpose.leaving, Purpose.isRelay]
  rw [← pendingRetries_append, List.singleton_append, ← ledger_turn] at hresume
  cases t with
  | operate op => exact operate_steps s op fun r t x f h => hop r t x f (congrArg Task.operate h)
  | pause point =>
      rw [perform, ledger_pause]
      exact .refl
  | closeScript =>
      rw [perform, ledger_closeScript]
      exact .refl
  | settle answer => exact .refl
  | report => exact .refl
  | raise c =>
      rw [perform]
      split <;> exact .refl
  | dispatch | hangup | delist | unlock | retry | write | complete | takeOver => exact hresume

theorem operate_request (s : Session) (route : Route) (technology text : String)
    (format : FormatMask) :
    s.operate (.request route technology text format) =
      s.turn (s.exchange.perform (.request route technology text format)) := rfl

/-- A step that grants no request, and in which no departure comes back to a record it may not. -/
theorem step_steps (s : Session) (hgrants : s.grants = false)
    (hfound : ¬ s.Resumes fun x => ¬ found x) : Ledger.Steps found s.ledger s.step.ledger := by
  cases h : s.agenda with
  | nil =>
      rw [step_idle h]
      exact .refl
  | cons t rest =>
      have hstep : s.step = ({ s with agenda := rest } : Session).perform t := step_perform h
      have hledger : s.ledger = ⟨s.exchange.records, pendingRetries (t :: rest)⟩ := by
        rw [ledger, h]
      rw [hstep, hledger]
      by_cases hop : ∃ route technology text format,
        t = .operate (.request route technology text format)
      · obtain ⟨route, technology, text, format, rfl⟩ := hop
        have hrecords := (Exchange.request_records s.exchange route technology text format).1
        rw [perform, operate_request, ledger_turn, Exchange.perform]
        rcases hr : s.exchange.request route technology text format with ⟨why | p, e'⟩
        · dsimp only
          rw [Turn.ledger_refused, hrecords why e' hr]
          exact .refl
        · simp [grants, h, hr, Except.isOk, Except.toBool] at hgrants
      · refine perform_steps { s with agenda := rest } t (fun r t x f ht => hop ⟨r, t, x, f, ht⟩) ?_
        rintro a rfl ha
        by_contra hnot
        exact hfound ⟨a, rest, h, ha, hnot⟩

theorem step_dialled (s : Session) (hgrants : s.grants = true) :
    ∃ text d format j owner chan, s.dialled = some text ∧
      Destination.parse text s.exchange.config.defaultContext = .ok d ∧
      s.step.ledger = ⟨s.exchange.records.opened (.opened d format j owner chan),
      pendingRetries s.agenda⟩ := by
  have hgranted := hgrants
  rw [grants] at hgrants
  split at hgrants
  · next route technology text format rest h =>
      have hrecords := (Exchange.request_records s.exchange route technology text format).2
      have hstep : s.step = ({ s with agenda := rest } : Session).operate
          (.request route technology text format) := step_perform h
      have hdialled : s.dialled = some text := by simp only [dialled, h, hgranted, if_true]
      rcases hr : s.exchange.request route technology text format with ⟨why | p, e'⟩
      · simp [hr, Except.isOk, Except.toBool] at hgrants
      · obtain ⟨d, j, owner, chan, hparse, he⟩ := hrecords p e' hr
        refine ⟨text, d, format, j, owner, chan, hdialled, hparse, ?_⟩
        rw [hstep, operate_request, ledger_turn, Exchange.perform, h]
        dsimp only
        rw [hr]
        dsimp only
        rw [Turn.ledger_settled, he]
        rfl
  · exact absurd hgrants Bool.false_ne_true

theorem step_granted (s : Session) (hgrants : s.grants = true) :
    ∃ d format j owner chan,
      s.step.ledger = ⟨s.exchange.records.opened (.opened d format j owner chan),
      pendingRetries s.agenda⟩ := by
  obtain ⟨_, d, format, j, owner, chan, _, _, hstep⟩ := step_dialled s hgrants
  exact ⟨d, format, j, owner, chan, hstep⟩

theorem grants_of_retry {s : Session} {a : Acquisition} {rest : List Task}
    (h : s.agenda = .retry a :: rest) : s.grants = false := by
  simp only [grants, h]

theorem Moves.cases {s t : Session} (h : Moves s t) :
    (s.grants = true ∧ ∃ d format j owner chan,
      t.ledger = ⟨s.exchange.records.opened (.opened d format j owner chan),
      pendingRetries s.agenda⟩) ∨
    (s.grants = false ∧ Ledger.Steps (fun _ => True) s.ledger t.ledger) := by
  cases h with
  | step =>
      cases hg : s.grants with
      | true => exact .inl ⟨rfl, step_granted s hg⟩
      | false =>
          refine .inr ⟨rfl, step_steps s hg ?_⟩
          rintro ⟨a, rest, _, _, hnot⟩
          exact hnot trivial
  | others a rest ops h =>
      refine .inr ⟨grants_of_retry h, ?_⟩
      rw [ledger_interrupt]
      exact .refl

theorem Moves.sound {s t : Session} (hm : Moves s t) (h : s.ledger.Sound) : t.ledger.Sound := by
  rcases hm.cases with ⟨_, d, format, j, owner, chan, ht⟩ | ⟨_, hsteps⟩
  · rw [ht]
    exact h.opened d format j owner chan
  · exact hsteps.sound h

theorem Reachable.sound {n : Nat} {s : Session} (hs : s.Reachable n) : s.ledger.Sound := by
  induction hs with
  | @start config ops s h =>
      rw [eq_of_start h, ledger, pendingRetries_tasksOf]
      exact Ledger.sound_empty config
  | next _ hm ih => exact hm.sound ih

theorem Moves.ended {s t : Session} (hm : Moves s t) (h : s.ledger.Sound) {p : PairId}
    (hp : (s.exchange.pair p).destroyed = true) : (t.exchange.pair p).destroyed = true := by
  rcases hm.cases with ⟨_, d, format, j, owner, chan, ht⟩ | ⟨_, hsteps⟩
  · have hmem : p ∈ s.exchange.records.pairIds := by
      by_contra hout
      have hnone : s.exchange.pair p = default := Exchange.pair_of_not_mem hout
      rw [hnone] at hp
      cases hp
    change (t.ledger.exchange.pair p).destroyed = true
    rw [ht, Exchange.pair_opened_of_mem _ hmem]
    exact hp
  · exact hsteps.ended h hp

end Session
end Switchboard
