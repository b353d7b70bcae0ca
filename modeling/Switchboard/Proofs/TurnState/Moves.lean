import Switchboard.Proofs.TurnState.Effects
import Switchboard.Proofs.Moves

namespace Switchboard

theorem Acquisition.retry_suffix_wait (a : Acquisition) (below : List Task) :
    .retry a :: below <:+ a.wait ++ below := by
  rw [wait]
  split
  · exact List.suffix_cons _ _
  · exact List.suffix_refl _

namespace Session

open TurnState

theorem step_signal_of_record {s : Session} {route : Route} {c : ChannelId} {signal : Signal}
    {rest : List Task}
    {p : PairId} (h : s.agenda = .operate (.signal route c signal) :: rest)
    (hrecord : s.exchange.recordOf c = some p) :
    s.step = ({ s with agenda := rest } : Session).turn
      (s.exchange.perform (.signal route c signal)) :=
  step_signal h (Exchange.among_of_slot _ (Exchange.slot_of_recordOf hrecord))

/-- The next task is entitled to the effect. -/
def Entitles (s : Session) (effect : Effect) : Prop :=
  ∃ t rest, s.agenda = t :: rest ∧ s.exchange.Entitles t effect

@[simp] theorem backedOff_tasksOf (ops : List Operation) : backedOff (tasksOf ops) = [] := by
  induction ops with
  | nil => rfl
  | cons op ops ih => exact ih

@[simp] theorem hangupTasks_tasksOf (ops : List Operation) : hangupTasks (tasksOf ops) = [] := by
  induction ops with
  | nil => rfl
  | cons op ops ih => exact ih

theorem agenda_interrupt (s : Session) (ops : List Operation) :
    (s.interrupt ops).agenda = (tasksOf ops ++ [Task.closeScript]) ++ s.agenda := rfl

variable {may : Effect → Prop}

/-- What a session has done and laid down since it had only `rest` left to do; of the acquisitions
that wait it has touched only `own`. -/
def Laid (may : Effect → Prop) (e : Exchange) (own : List Acquisition) (rest : List Task)
    (s : Session) : Prop :=
  ∃ ts, s.agenda = ts ++ rest ∧
    ∀ w, TurnState.Leads may ⟨e, own ++ w, []⟩ ⟨s.exchange, backedOff ts ++ w, hangupTasks ts⟩

variable {e : Exchange} {own : List Acquisition}

theorem laid_turn (s : Session) {t : Turn}
    (h : ∀ w, TurnState.Leads may ⟨e, own ++ w, []⟩ (t.state w [])) :
    Laid may e own s.agenda (s.turn t) := by
  refine ⟨t.2, rfl, fun w => ?_⟩
  have hleads := h w
  rwa [Turn.state, List.append_nil] at hleads

theorem laid_quiet {t : Session} {rest : List Task} (hagenda : t.agenda = rest)
    (h : t.exchange.view = e.view) : Laid may e [] rest t :=
  ⟨[], hagenda, fun _ => leads_quiet h⟩

theorem laid_interrupt (s : Session) (ops : List Operation) :
    Laid may s.exchange [] s.agenda (s.interrupt ops) := by
  refine ⟨tasksOf ops ++ [Task.closeScript], agenda_interrupt s ops, fun w => ?_⟩
  rw [backedOff_append, backedOff_tasksOf, hangupTasks_append, hangupTasks_tasksOf]
  exact .refl

theorem laid_pause (s : Session) (point : Point) :
    Laid may s.exchange [] s.agenda (s.pause point) := by
  cases point <;> unfold pause
  · cases s.backOffScripts with
    | nil => exact laid_quiet rfl rfl
    | cons script rest => exact laid_interrupt { s with backOffScripts := rest } script
  · cases s.resolutionScripts with
    | nil => exact laid_quiet rfl rfl
    | cons script rest => exact laid_interrupt { s with resolutionScripts := rest } script

theorem laid_operate (s : Session) (op : Operation) :
    Laid (s.exchange.Entitles (.operate op)) s.exchange [] s.agenda (s.operate op) := by
  unfold operate
  cases s.exchange.missing op with
  | some answer => exact laid_quiet rfl rfl
  | none =>
      dsimp only
      split
      · exact laid_quiet rfl rfl
      · exact laid_quiet rfl rfl
      · exact laid_turn s fun _ => Exchange.perform_leads _

theorem laid_perform (s : Session) (t : Task) :
    Laid (s.exchange.Entitles t) s.exchange (backedOff [t]) s.agenda (s.perform t) := by
  have hresume : Laid (s.exchange.Entitles t) s.exchange (backedOff [t]) s.agenda
      (s.turn (s.exchange.resume t)) := laid_turn s fun _ => Exchange.resume_leads t
  cases t with
  | operate op => exact laid_operate s op
  | pause point => exact laid_pause s point
  | closeScript =>
      rw [perform]
      rw [closeScript]
      cases s.outer <;> exact laid_quiet rfl rfl
  | settle answer => exact laid_quiet rfl rfl
  | report => exact laid_quiet rfl rfl
  | raise c =>
      rw [perform]
      split
      · exact laid_quiet rfl (Exchange.view_setState _ c .up)
      · exact laid_quiet rfl rfl
  | dispatch | hangup | delist | unlock | retry | write | complete | takeOver => exact hresume

theorem step_laid {s : Session} {t : Task} {rest : List Task} (h : s.agenda = t :: rest) :
    Laid s.Entitles s.exchange (backedOff [t]) rest s.step := by
  have hstep : s.step = ({ s with agenda := rest } : Session).perform t := step_perform h
  obtain ⟨ts, hts, hleads⟩ := laid_perform { s with agenda := rest } t
  rw [hstep]
  refine ⟨ts, hts, fun w => (hleads w).mono fun effect heffect => ?_⟩
  exact ⟨t, rest, h, heffect⟩

theorem step_leads {s : Session} {t : Task} {rest : List Task} (h : s.agenda = t :: rest) :
    ∃ ts, s.step.agenda = ts ++ rest ∧
      TurnState.Leads s.Entitles ⟨s.exchange, backedOff s.agenda, []⟩
        ⟨s.step.exchange, backedOff s.step.agenda, hangupTasks ts⟩ := by
  obtain ⟨ts, hts, hleads⟩ := step_laid h
  refine ⟨ts, hts, ?_⟩
  rw [hts, h, backedOff_append, ← List.singleton_append, backedOff_append]
  exact hleads (backedOff rest)

theorem Moves.behind {s t : Session} {task : Task} {below : List Task} (hm : Moves s t)
    (h : task :: below <:+ s.agenda) :
    task :: below <:+ t.agenda ∨ s.agenda = task :: below ∧ t = s.step := by
  obtain ⟨above, hagenda⟩ := h
  cases hm with
  | others a rest ops hhead =>
      refine .inl ⟨(tasksOf ops ++ [Task.closeScript]) ++ above, ?_⟩
      simp only [agenda_interrupt, ← hagenda, List.append_assoc]
  | step =>
      cases above with
      | nil => exact .inr ⟨hagenda.symm, rfl⟩
      | cons u above =>
          obtain ⟨ts, hts, -⟩ := step_laid hagenda.symm
          refine .inl ⟨ts ++ above, ?_⟩
          rw [hts, List.append_assoc]
          rfl

/-- Whatever the move, nothing is done that the next task is not entitled to. -/
theorem Moves.leads {s t : Session} (h : Moves s t) :
    ∃ d, TurnState.Leads s.Entitles ⟨s.exchange, backedOff s.agenda, []⟩
      ⟨t.exchange, backedOff t.agenda, d⟩ := by
  cases h with
  | step =>
      cases hagenda : s.agenda with
      | nil =>
          rw [step_idle hagenda, hagenda]
          exact ⟨[], .refl⟩
      | cons u rest =>
          obtain ⟨ts, -, hleads⟩ := step_leads hagenda
          rw [← hagenda]
          exact ⟨_, hleads⟩
  | others a rest ops h =>
      obtain ⟨ts, hts, hleads⟩ : Laid s.Entitles _ [] s.agenda (s.interrupt ops) :=
        laid_interrupt s ops
      rw [hts, backedOff_append]
      exact ⟨_, hleads (backedOff s.agenda)⟩

theorem gone_until {s : Nat → Session} {n m k : Nat} {p : PairId} {side : Side}
    (hmoves : ∀ k < n, Moves (s k) (s (k + 1))) (hm : m ≤ n) (hk : k ≤ m)
    (hp : p ∈ (s k).exchange.pairIds) (h : ((s k).exchange.pair p).endpoint side = none) :
    p ∈ (s m).exchange.pairIds ∧ ((s m).exchange.pair p).endpoint side = none := by
  induction m, hk using Nat.le_induction with
  | base => exact ⟨hp, h⟩
  | succ m hk ih =>
      obtain ⟨hp', hgone⟩ := ih (Nat.le_of_succ_le hm)
      obtain ⟨d, hleads⟩ := (hmoves m hm).leads
      exact ⟨hleads.known hp', hleads.gone hp' hgone⟩

theorem agenda_of_feeds {s : Session} {c : ChannelId} (h : s.Entitles (.feeds c)) :
    ∃ rest, (∃ frame, s.agenda = .operate (.edit c (.queue frame)) :: rest) ∨
      s.agenda = .operate (.drain c) :: rest := by
  obtain ⟨u, rest, hagenda, hentitled⟩ := h
  cases hentitled with
  | dispatched _ _ hsignals | direct hsignals => cases hsignals
  | queues c frame => exact ⟨rest, .inl ⟨frame, hagenda⟩⟩
  | drains => exact ⟨rest, .inr hagenda⟩

theorem grows_until {s : Nat → Session} {n m k : Nat} {c : ChannelId}
    (hmoves : ∀ k < n, Moves (s k) (s (k + 1))) (hm : m ≤ n) (hk : k ≤ m)
    (hfeeds : ∀ i, k ≤ i → i < m → ¬ (s i).Entitles (.feeds c)) :
    ((s k).exchange.channel c).frames <+: ((s m).exchange.channel c).frames := by
  induction m, hk using Nat.le_induction with
  | base => exact List.prefix_rfl
  | succ m hk ih =>
      obtain ⟨d, hleads⟩ := (hmoves m hm).leads
      have hbefore := ih (Nat.le_of_succ_le hm) fun i hi him => hfeeds i hi (Nat.lt_succ_of_lt him)
      exact hbefore.trans (hleads.grows (hfeeds m hk (Nat.lt_succ_self m)))

theorem seated_start {config : Config} {ops : List Operation} {s : Session}
    (h : start config ops = .ok s) : TurnState.Seated s.exchange := by
  intro p side c hc
  rw [eq_of_start h] at hc
  dsimp only at hc
  rw [Exchange.pair_of_not_mem List.not_mem_nil] at hc
  cases side <;> cases hc

theorem Moves.seated {s t : Session} (hm : Moves s t) (h : TurnState.Seated s.exchange) :
    TurnState.Seated t.exchange := by
  obtain ⟨d, hleads⟩ := hm.leads
  exact hleads.seated h

theorem Reachable.seated {n : Nat} {s : Session} (h : s.Reachable n) :
    TurnState.Seated s.exchange := by
  induction h with
  | start h => exact seated_start h
  | next _ hm ih => exact hm.seated ih

end Session
end Switchboard
