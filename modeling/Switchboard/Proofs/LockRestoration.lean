import Switchboard.Proofs.TurnState.Moves
import Switchboard.Proofs.Locks.Service

namespace Switchboard.Session

variable {s t u v : Session} {rest : List Task} {τ : Party}

theorem leads_run (s : Session) (k : Nat) : s.Leads (s.run k) := by
  induction k with
  | zero => exact .refl
  | succ k ih =>
      rw [run_succ]
      exact ih.tail (.step _)

/-- What a step leaves of the locks, and what it lays down, if the next task was to leave `v`. -/
def Settles (v : Locks) (rest : List Task) (s : Session) : Prop :=
  ∃ ts, s.agenda = ts ++ rest ∧ Turn.Returns v (s.exchange, ts)

theorem settles_turn {w : Locks} {x : Turn} (h : x.Returns w) : Settles w s.agenda (s.turn x) :=
  ⟨x.2, rfl, h⟩

theorem settles_quiet {w : Locks} (hw : w.Sound) (hlocks : t.exchange.locks = w)
    (hagenda : t.agenda = rest) :
    Settles w rest t :=
  ⟨[], hagenda, Exchange.returns_of_eq hw hlocks rfl rfl⟩

theorem operate_settles (hv : s.exchange.locks.Sound) (op : Operation)
    (hop : ∀ c what, op ≠ .locking c what) :
    Settles s.exchange.locks s.agenda (s.operate op) := by
  unfold operate
  cases s.exchange.missing op with
  | some answer => exact settles_quiet hv rfl rfl
  | none =>
      dsimp only
      split
      · exact settles_quiet hv rfl rfl
      · exact settles_quiet hv rfl rfl
      · exact settles_turn (Exchange.perform_returns hv op hop)

def pauses (s : Session) : Bool :=
  match s.agenda with
  | .pause _ :: _ => true
  | _ => false

theorem pauses_of_agenda {task : Task} {later : List Task} (h : s.agenda = task :: later) :
    s.pauses = true ↔ ∃ point, task = .pause point := by
  rw [pauses, h]
  cases task <;> simp

theorem step_settles {task : Task} (hv : s.exchange.locks.Sound) (h : s.agenda = task :: rest)
    (hown : task.relocks = false) (hpause : s.pauses = false) :
    Settles (s.exchange.locks.after [task]) rest s.step := by
  have hstep : s.step = ({ s with agenda := rest } : Session).perform task := step_perform h
  have hresume : task.released = none → Settles (s.exchange.locks.after [task]) rest
      (({ s with agenda := rest } : Session).turn (s.exchange.resume task)) := by
    intro hnone
    rw [Locks.after_of_none _ (by rw [owed, List.filterMap_cons_none hnone]; rfl)]
    exact settles_turn (Exchange.resume_returns hv hnone)
  rw [hstep]
  cases task with
  | operate op =>
      refine operate_settles (s := { s with agenda := rest }) hv op ?_
      rintro c what rfl
      cases hown
  | unlock c =>
      refine settles_quiet (hv.released c) ?_ rfl
      exact Exchange.locks_unlock s.exchange c
  | pause point =>
      rw [(pauses_of_agenda h).2 ⟨point, rfl⟩] at hpause
      cases hpause
  | closeScript =>
      rw [perform]
      rw [closeScript]
      cases s.outer <;> exact settles_quiet hv rfl rfl
  | raise c =>
      rw [perform]
      split
      · exact settles_quiet hv (Exchange.locks_setState s.exchange c .up) rfl
      · exact settles_quiet hv rfl rfl
  | settle | report => exact settles_quiet hv rfl rfl
  | dispatch | hangup | delist | retry | write | complete | takeOver => exact hresume rfl

theorem exchange_pause (s : Session) (point : Point) : (s.pause point).exchange = s.exchange := by
  cases point <;> unfold pause
  · cases s.backOffScripts <;> rfl
  · cases s.resolutionScripts <;> rfl

theorem Moves.locks_sound (hm : Moves s t) (hv : s.exchange.locks.Sound) :
    t.exchange.locks.Sound := by
  cases hm with
  | others => exact hv
  | step =>
      cases h : s.agenda with
      | nil => rwa [step_idle h]
      | cons task later =>
          have hstep : s.step = ({ s with agenda := later } : Session).perform task :=
            step_perform h
          by_cases hlocking : task.relocks = true
          · obtain ⟨c, what, rfl⟩ : ∃ c what, task = .operate (.locking c what) := by
              cases task with
              | operate op => cases op <;> first | exact ⟨_, _, rfl⟩ | cases hlocking
              | _ => cases hlocking
            rw [hstep, perform]
            unfold operate
            cases s.exchange.missing (.locking c what) with
            | some answer => exact hv
            | none => exact Exchange.applyLocking_sound hv c what
          · by_cases hpause : s.pauses = true
            · obtain ⟨point, rfl⟩ := (pauses_of_agenda h).1 hpause
              rw [hstep, perform]
              rwa [exchange_pause]
            · obtain ⟨ts, -, hreturns⟩ :=
                step_settles hv h (Bool.eq_false_iff.2 hlocking) (Bool.eq_false_iff.2 hpause)
              exact hreturns.sound

theorem Leads.locks_sound (h : s.Leads t) (hv : s.exchange.locks.Sound) :
    t.exchange.locks.Sound := by
  induction h with
  | refl => exact hv
  | tail _ hm ih => exact hm.locks_sound ih

theorem Reachable.locks_sound {n : Nat} (hs : s.Reachable n) : s.exchange.locks.Sound := by
  induction hs with
  | @start config ops s h =>
      intro c
      have hnobody : ¬ c.Among ({ config } : Exchange).channels.size := fun hc =>
        Nat.lt_irrefl 0 (Nat.lt_of_lt_of_le hc.1 hc.2)
      rw [eq_of_start h, Exchange.locks, Exchange.channel_of_not_among _ hnobody]
      exact Iff.intro (fun _ => rfl) fun _ => rfl
  | next _ hm ih => exact hm.locks_sound ih

/-- What is next is carried out down to `rest`, which stood behind it. Wherever the driver lets
others go first, a script or others do whatever they like, as long as they leave `τ` as deep in
every lock as they found it. -/
inductive Completes (τ : Party) (rest : List Task) : Session → Session → Prop
  | ended {x : Session} (h : x.agenda = rest) : Completes τ rest x x
  | task {x y : Session} (task : Task) (later : List Task) (h : x.agenda = task :: (later ++ rest))
      (hpause : x.pauses = false) (next : Completes τ rest x.step y) : Completes τ rest x y
  | script {x y z : Session} (point : Point) (later : List Task)
      (h : x.agenda = .pause point :: (later ++ rest))
      (hy : x.step.Leads y) (hagenda : y.agenda = later ++ rest)
      (hdepths : y.exchange.locks.depths τ = x.exchange.locks.depths τ)
      (next : Completes τ rest y z) :
      Completes τ rest x z
  | others {x y z : Session} (a : Acquisition) (later : List Task) (ops : List Operation)
      (h : x.agenda = .retry a :: (later ++ rest)) (hy : (x.interrupt ops).Leads y)
      (hagenda : y.agenda = x.agenda)
      (hdepths : y.exchange.locks.depths τ = x.exchange.locks.depths τ)
      (next : Completes τ rest y z) : Completes τ rest x z

theorem Completes.depths (h : Completes τ rest s t) (hv : s.exchange.locks.Sound) (ts : List Task)
    (hts : s.agenda = ts ++ rest) (hown : ts.any Task.relocks = false) :
    t.exchange.locks.depths τ = (s.exchange.locks.after ts).depths τ := by
  induction h generalizing ts with
  | ended h =>
      obtain rfl : ts = [] := List.append_left_eq_self.1 (hts.symm.trans h)
      rfl
  | task task later h hpause _ ih =>
      obtain rfl : ts = task :: later := List.append_cancel_right (hts.symm.trans h)
      rw [List.any_cons, Bool.or_eq_false_iff] at hown
      obtain ⟨us, hus, hreturns⟩ := step_settles hv h hown.1 hpause
      have hlaid : (us ++ later).any Task.relocks = false := by
        rw [List.any_append]
        exact Bool.or_eq_false_iff.2 ⟨hreturns.own, hown.2⟩
      rw [ih hreturns.sound (us ++ later) (by rw [hus, List.append_assoc]) hlaid,
        Locks.after_append, hreturns.back, ← Locks.after_append]
      rfl
  | script point later h hu hagenda hdepths _ ih =>
      obtain rfl : ts = .pause point :: later := List.append_cancel_right (hts.symm.trans h)
      have hsound := Leads.locks_sound (.head (.step _) hu) hv
      rw [ih hsound later hagenda hown]
      exact Locks.depths_releases hdepths (owed later)
  | others a later ops h hu hagenda hdepths _ ih =>
      have hsound := Leads.locks_sound (.head (.others _ a _ ops h) hu) hv
      rw [ih hsound ts (hagenda.trans hts) hown]
      exact Locks.depths_releases hdepths (owed ts)

theorem Completes.leads (h : Completes τ rest s t) : s.Leads t ∧ t.agenda = rest := by
  induction h with
  | ended h => exact ⟨.refl, h⟩
  | task _ _ _ _ _ ih => exact ⟨.head (.step _) ih.1, ih.2⟩
  | script _ _ _ hu _ _ _ ih => exact ⟨.head (.step _) (hu.trans ih.1), ih.2⟩
  | others a _ ops h hu _ _ _ ih => exact ⟨.head (.others _ a _ ops h) (hu.trans ih.1), ih.2⟩

theorem owed_tasksOf (ops : List Operation) : owed (tasksOf ops) = [] := by
  induction ops with
  | nil => rfl
  | cons op ops ih => exact ih

theorem relocks_tasksOf {ops : List Operation} (hops : ∀ c what, Operation.locking c what ∉ ops) :
    (tasksOf ops).any Task.relocks = false := by
  rw [List.any_eq_false]
  intro task htask hlocking
  obtain ⟨op, hop, htask⟩ := List.mem_flatMap.1 htask
  rcases List.mem_cons.1 htask with rfl | hreport
  · cases op with
    | locking c what => exact hops c what hop
    | _ => cases hlocking
  · obtain rfl := List.mem_singleton.1 hreport
    cases hlocking

theorem depths_interrupt {ops : List Operation} (hv : s.exchange.locks.Sound)
    (hops : ∀ c what, Operation.locking c what ∉ ops)
    (h : (s.interrupt ops).Completes τ s.agenda t) :
    t.exchange.locks.depths τ = s.exchange.locks.depths τ := by
  have hown : (tasksOf ops ++ [Task.closeScript]).any Task.relocks = false := by
    rw [List.any_append, relocks_tasksOf hops]
    rfl
  have howed : owed (tasksOf ops ++ [Task.closeScript]) = [] := by
    rw [owed_append, owed_tasksOf]
    rfl
  rw [h.depths hv _ (agenda_interrupt s ops) hown, Locks.after_of_none _ howed]
  rfl

theorem agenda_run (n : Nat) (ts : List Task) (hts : s.agenda = ts ++ rest)
    (hrun : ∀ k < n, rest.length < (s.run k).agenda.length)
    (hend : (s.run n).agenda.length = rest.length) :
    (s.run n).agenda = rest := by
  induction n generalizing s ts with
  | zero =>
      have hnone : ts.length = 0 := by
        have hlength : (ts ++ rest).length = rest.length := hts ▸ hend
        rw [List.length_append] at hlength
        omega
      rw [List.length_eq_zero_iff.1 hnone] at hts
      exact hts
  | succ n ih =>
      cases ts with
      | nil =>
          have hrest : s.agenda = rest := hts
          exact absurd (hrun 0 (Nat.succ_pos n)) (by rw [run, hrest]; exact Nat.lt_irrefl _)
      | cons task later =>
          obtain ⟨us, hus, -⟩ := step_laid hts
          rw [run_step] at hend ⊢
          refine ih (us ++ later) (by rw [hus]; exact (List.append_assoc ..).symm) ?_ hend
          intro k hk
          rw [← run_step]
          exact hrun (k + 1) (Nat.succ_lt_succ hk)

theorem completes_run (n : Nat) (ts : List Task) (hts : s.agenda = ts ++ rest)
    (hrun : ∀ k < n, rest.length < (s.run k).agenda.length ∧ (s.run k).pauses = false)
    (hnext : Completes τ rest (s.run n) t) : Completes τ rest s t := by
  induction n generalizing s ts with
  | zero => exact hnext
  | succ n ih =>
      obtain ⟨hlength, hpause⟩ := hrun 0 (Nat.succ_pos n)
      cases ts with
      | nil =>
          have hrest : s.agenda = rest := hts
          exact absurd hlength (by rw [run, hrest]; exact Nat.lt_irrefl _)
      | cons task later =>
          obtain ⟨us, hus, -⟩ := step_laid hts
          refine .task task later hts hpause
            (ih (us ++ later) (by rw [hus]; exact (List.append_assoc ..).symm) ?_ ?_)
          · intro k hk
            rw [← run_step]
            exact hrun (k + 1) (Nat.succ_lt_succ hk)
          · rwa [← run_step]

/-- Any operation but those on the locks themselves, in whatever state it begins: when it is over,
each channel's lock is held as deeply as before, by the session's own thread and by the one beside
it, if those that got in between have kept to this too. -/
theorem locks_restored {n : Nat} {op : Operation} (hs : s.Reachable n)
    (hagenda : s.agenda = .operate op :: rest)
    (hop : ∀ c what, op ≠ .locking c what) (h : s.Completes τ rest t) (c : ChannelId) :
    (t.exchange.channel c).lock.depthOf τ = (s.exchange.channel c).lock.depthOf τ := by
  have hown : [Task.operate op].any Task.relocks = false := by
    cases op <;> first | rfl | exact absurd rfl (hop _ _)
  exact congrFun (h.depths hs.locks_sound [.operate op] hagenda hown) c

theorem depths_eq_of_rows {e e' : Exchange}
    (h : e'.channels.rows.map (·.lock.depthOf τ) = e.channels.rows.map (·.lock.depthOf τ)) :
    e'.locks.depths τ = e.locks.depths τ := by
  have hdepth : ∀ (x : Exchange) (c : ChannelId), x.locks.depths τ c =
      ((x.channels.get? c.number).map (·.lock.depthOf τ)).getD 0 := by
    intro x c
    rw [Locks.depths, Exchange.locks, Exchange.channel, Table.get]
    cases x.channels.get? c.number with
    | some y => rfl
    | none => rfl
  funext c
  rw [hdepth, hdepth]
  cases c.number with
  | zero => rfl
  | succ i =>
      have hrow := congrArg (·[i]?) h
      simp only [List.getElem?_map] at hrow
      rw [Table.get?, Table.get?, hrow]

def borrowing : List Operation :=
  [.request .dispatched "Local" "100@internal" ⟨4⟩, .locking ⟨1⟩ .lock, .locking ⟨2⟩ .hold,
    .onBackOff [.locking ⟨2⟩ .releaseHold, .locking ⟨1⟩ .lock, .locking ⟨1⟩ .unlock],
    .signal .dispatched ⟨1⟩ (.sendText "hello")]

theorem borrowing_restores : ∃ s t, start {} borrowing = .ok s ∧
    (s.run 11).agenda = [.operate (.signal .dispatched ⟨1⟩ (.sendText "hello")), .report] ∧
    (s.run 11).Completes .main [.report] t ∧
    ((s.run 13).exchange.channel ⟨1⟩).lock.depthOf .main = 2 ∧
    (t.exchange.channel ⟨1⟩).lock.depthOf .main = 1 ∧
    (t.exchange.channel ⟨2⟩).lock.depthOf .main = 0 := by
  have hstart : start {} borrowing = .ok { exchange := {}, agenda := tasksOf borrowing } := rfl
  let s := run 11 { exchange := {}, agenda := tasksOf borrowing }
  let u := (s.run 2).step.run 10
  have hagenda : s.agenda = [.operate (.signal .dispatched ⟨1⟩ (.sendText "hello")), .report] := rfl
  have hscript : (s.run 2).Completes .main [.report] (u.run 4) := by
    let a : Acquisition := ⟨⟨1⟩, .chan, some ⟨1⟩, .relay (.text "hello") (some ⟨1⟩)⟩
    have hpause : (s.run 2).agenda =
      .pause .backOff :: ([.retry a, .settle .done, .unlock ⟨1⟩] ++ [.report]) := rfl
    obtain ⟨us, hus, -⟩ := step_laid hpause
    have hback : u.agenda = [.retry a, .settle .done, .unlock ⟨1⟩] ++ [.report] :=
      agenda_run 10 us hus (by decide +kernel) (by decide +kernel)
    have hend : (u.run 4).agenda = [.report] :=
      agenda_run 4 _ hback (by decide +kernel) (by decide +kernel)
    refine .script .backOff _ hpause (leads_run _ 10) hback
      (depths_eq_of_rows (by decide +kernel)) ?_
    exact completes_run 4 _ hback (by decide +kernel) (.ended hend)
  have hcompletes : s.Completes .main [.report] (u.run 4) :=
    completes_run 2 [_] hagenda (by decide +kernel) hscript
  have hrestored :=
    locks_restored ((Reachable.start hstart).run 11) hagenda (fun _ _ h => by cases h) hcompletes
  refine ⟨_, u.run 4, hstart, hagenda, hcompletes, by decide +kernel, ?_, ?_⟩
  · exact (hrestored ⟨1⟩).trans (by decide +kernel)
  · exact (hrestored ⟨2⟩).trans (by decide +kernel)

end Switchboard.Session
