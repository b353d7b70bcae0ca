import Switchboard.Proofs.Detachment
import Switchboard.Proofs.RelayDelivery

namespace Switchboard

namespace Exchange

def allVars (e : Exchange) : ChannelId → List (String × String) := fun c => (e.channel c).vars

/-- The dial status, if the chan-side had one when it began to leave, has come to the owner-side, if
there is one to be told. Nothing else has changed in anybody's variables. -/
def Reports (e e' : Exchange) (p : PairId) (status : Option String) : Prop :=
  match status, (e.pair p).owner with
  | some status, some owner =>
    (e'.channel owner).getVar channelStatus = some status ∧
      (∀ name ≠ channelStatus, (e'.channel owner).getVar name = (e.channel owner).getVar name) ∧
      e'.allVars =
        Function.update e.allVars owner
        (Channel.setFirst channelStatus status (e.channel owner).vars)
  | _, _ => e'.allVars = e.allVars

variable {e e' e'' : Exchange} {p : PairId} {c owner : ChannelId} {status : String}

theorem allVars_of_channels (h : e'.channels = e.channels) : e'.allVars = e.allVars :=
  funext fun c => congrArg Channel.vars (channel_eq_of_channels h c)

theorem allVars_modifyChannel (e : Exchange) (c : ChannelId) {f : Channel → Channel}
    (h : (f (e.channel c)).vars = (e.channel c).vars) : (e.modifyChannel c f).allVars = e.allVars :=
  funext fun d => channel_modifyChannel_congr Channel.vars e c d h

theorem allVars_lock (h : e.lock? c = some e') : e'.allVars = e.allVars := by
  obtain ⟨_, -, rfl⟩ := Option.map_eq_some_iff.1 h
  exact allVars_modifyChannel e c rfl

theorem spared_allVars (frame : Frame) : Spared allVars frame none where
  spent _ _ := rfl
  lock e c _ := allVars_modifyChannel e c rfl
  glare _ _ _ := rfl
  destroy e p := allVars_of_channels (channels_destroy e p)
  place e c := by
    rw [place_eq]
    exact allVars_modifyChannel e c rfl

theorem allVars_depart (e : Exchange) (p : PairId) (side : Side) (leaver : ChannelId) :
    (e.depart p side leaver).1.allVars = e.allVars := by
  have hempty : (e.setSlot leaver .empty).allVars = e.allVars := allVars_modifyChannel e leaver rfl
  rw [depart]
  generalize e.setSlot leaver .empty = x at hempty
  split
  · exact (allVars_of_channels (channels_retire x p)).trans hempty
  · cases unserved (x.pair p) with
    | some chan => exact hempty
    | none => exact ((spared_allVars _).relay x p side false).trans hempty

theorem getVar_congr {x y : Channel} (h : x.vars = y.vars) (name : String) :
    x.getVar name = y.getVar name := by
  rw [Channel.getVar, Channel.getVar, h]

theorem allVars_setVar (hmade : owner.Among e.channels.size) (name value : String) :
    (e.setVar owner name value).allVars =
      Function.update e.allVars owner (Channel.setFirst name value (e.channel owner).vars) := by
  funext d
  by_cases hd : d = owner
  · subst hd
    rw [Function.update_self]
    exact congrArg Channel.vars (channel_modifyChannel e _ hmade)
  · rw [Function.update_of_ne hd]
    exact congrArg Channel.vars (channel_modifyChannel_of_ne e _ hd)

theorem reports_of_told (howner : (e.pair p).owner = some owner)
    (h : e'.allVars = Function.update e.allVars owner
    (Channel.setFirst channelStatus status (e.channel owner).vars)) :
    e.Reports e' p (some status) := by
  have hset : (e'.channel owner).vars = ((e.channel owner).setVar channelStatus status).vars :=
    (congrFun h owner).trans (Function.update_self ..)
  simp only [Reports, howner]
  refine ⟨?_, fun name hname => ?_, h⟩
  · rw [getVar_congr hset, Channel.getVar_setVar]
  · rw [getVar_congr hset, Channel.getVar_setVar_of_ne _ _ hname]

theorem reports_of_gone (howner : (e.pair p).owner = none) (h : e'.allVars = e.allVars)
    (status : Option String) :
    e.Reports e' p status := by
  cases status <;> simpa only [Reports, howner] using h

theorem Reports.before {status : Option String} (h : e'.Reports e'' p status)
    (hvars : e'.allVars = e.allVars)
    (hpair : e'.pair p = e.pair p) : e.Reports e'' p status := by
  have hvar : ∀ d, (e'.channel d).vars = (e.channel d).vars := congrFun hvars
  unfold Reports at h ⊢
  rw [hpair] at h
  split at h
  · obtain ⟨htold, hothers, hrest⟩ := h
    rw [hvars, hvar] at hrest
    exact ⟨htold, fun name hname => (hothers name hname).trans (getVar_congr (hvar _) name), hrest⟩
  · exact h.trans hvars

theorem allVars_chanLeaves (hmade : owner.Among e.channels.size) (p : PairId) (c : ChannelId)
    (status : String) :
    (e.chanLeaves p c status (some owner)).1.allVars =
      Function.update e.allVars owner
      (Channel.setFirst channelStatus status (e.channel owner).vars) := by
  have hunlocked : ((e.setVar owner channelStatus status).unlock owner).allVars =
      (e.setVar owner channelStatus status).allVars := allVars_modifyChannel _ owner rfl
  rw [chanLeaves, allVars_depart]
  exact hunlocked.trans (allVars_setVar hmade channelStatus status)

def reporting (p : PairId) (c : ChannelId) (status : String) : Acquisition :=
  ⟨p, .owner, some c, .dialStatus c status⟩

theorem reporting_clears (p : PairId) (c : ChannelId) (status : String) :
    (reporting p c status).Clears p .chan c := ⟨rfl, rfl, rfl⟩

/-- What may be left of a departure of the chan-side, once it is detached: the owner-side's lock is
waited for, to send it the cause, or the answer to that is noted. -/
inductive FollowsDetach : Task → Prop
  | settles (answer : Answer) : FollowsDetach (.settle answer)
  | tells (p : PairId) (frame : Frame) : FollowsDetach (.retry ⟨p, .owner, none, .relay frame none⟩)

theorem acquire_followsDetach (e : Exchange) (p : PairId) (frame : Frame) :
    ∃ task, (e.acquire ⟨p, .owner, none, .relay frame none⟩).2 = [task] ∧ FollowsDetach task := by
  have hdeliver : ∀ (x : Exchange) (peer : Option ChannelId),
      ∃ task, (x.deliver p frame none peer).2 = [task] ∧ FollowsDetach task := by
    intro x peer
    unfold deliver
    split <;> exact ⟨_, rfl, .settles _⟩
  unfold acquire
  split
  · exact hdeliver _ _
  · exact hdeliver _ _
  · exact ⟨_, rfl, .tells p frame⟩

theorem depart_followsDetach (hp : p ∈ e.pairIds) (c : ChannelId) :
    ((e.clearSide p .chan).depart p .chan c).2 = [] ∨
      ∃ task, ((e.clearSide p .chan).depart p .chan c).2 = [task] ∧ FollowsDetach task := by
  rw [depart_chan hp]
  split
  · exact .inl rfl
  · rw [relay_eq]
    cases ((e.withoutChan p c).pair p).endpoint Side.chan.peer with
    | none => exact .inr ⟨_, rfl, .settles _⟩
    | some other =>
        dsimp only
        split
        · exact .inr ⟨_, rfl, .settles _⟩
        · exact .inr (acquire_followsDetach _ p _)

/-- The turn in which the chan-side is detached. -/
structure DetachesChan (e : Exchange) (t : Turn) (p : PairId) (c : ChannelId)
    (status : Option String) : Prop where
  clears : e.Clearance t.1 p .chan c
  reports : e.Reports t.1 p status
  followsDetach : t.2 = [] ∨ ∃ task, t.2 = [task] ∧ FollowsDetach task

theorem acquire_detachesChan (hsettled : e.Settled) (hp : p ∈ e.pairIds) (c : ChannelId)
    (status : String) :
    (∃ e', e.acquire (reporting p c status) = (e', (reporting p c status).wait) ∧
      e'.allVars = e.allVars) ∨
      e.DetachesChan (e.acquire (reporting p c status)) p c (some status) := by
  have hvacant : e.VacantIfCancelled p := hsettled.cancelled p
  cases howner : (e.pair p).owner with
  | none =>
      have hacquire : e.acquire (reporting p c status) =
        (e.clearSide p .chan).depart p .chan c := by
        simp only [acquire, reporting, seek, Pair.endpoint, howner, proceed, chanLeaves]
      rw [hacquire]
      have hvars := allVars_depart (e.clearSide p .chan) p .chan c
      exact .inr ⟨depart_clearance hvacant hp .chan c, reports_of_gone howner hvars _,
        depart_followsDetach hp c⟩
  | some o =>
      have hseek : e.acquire (reporting p c status) =
          if e.refuses o then (e.spent o, (reporting p c status).wait)
          else (e.taken o).chanLeaves p c status (some o) := by
        simp only [acquire, reporting, seek, Pair.endpoint, howner, tryLock_eq]
        cases e.refuses o <;> rfl
      rw [hseek]
      cases e.refuses o with
      | true => exact .inl ⟨_, rfl, rfl⟩
      | false =>
          rw [if_neg Bool.false_ne_true]
          have hclear :
            (e.taken o).Clearance ((e.taken o).chanLeaves p c status (some o)).1 p .chan c :=
            proceed_clearance (e := e.taken o) hvacant hp (reporting_clears p c status) (some o)
          have htaken : (e.taken o).slotsAndSides = e.slotsAndSides :=
            slotsAndSides_modifyChannel o rfl
          have hmade : o.Among (e.taken o).channels.size :=
            (size_modifyChannel (e := e.spent o) o _).symm ▸ hsettled.seated p .owner o howner
          have hlocked : (e.taken o).allVars = e.allVars := allVars_modifyChannel (e.spent o) o rfl
          have hvars := allVars_chanLeaves hmade p c status
          rw [hlocked] at hvars
          have hlist : ((e.taken o).channel o).vars = (e.channel o).vars := congrFun hlocked o
          rw [hlist] at hvars
          exact .inr ⟨hclear.before htaken, reports_of_told howner hvars,
            depart_followsDetach (e := ((e.taken o).setVar o channelStatus status).unlock o) hp c⟩

theorem teardown_detachesChan (hsettled : e.Settled) (hm : e.membership c = some (p, .chan)) :
    (∃ status e', (e.channel c).getVar dialStatus = some status ∧
        e.teardown c = (e', (reporting p c status).wait ++ [Task.settle .done]) ∧
        e'.allVars = e.allVars) ∨
      ∃ e' tasks, e.teardown c = (e', tasks ++ [Task.settle .done]) ∧
        e.DetachesChan (e', tasks) p c ((e.channel c).getVar dialStatus) := by
  have hp : p ∈ e.pairIds := mem_pairIds_of_attached (membership_eq_some hm).2
  rw [teardown]
  rw [hm]
  dsimp only
  cases hstatus : (e.channel c).getVar dialStatus with
  | none =>
      have hvars := allVars_depart (e.clearSide p .chan) p .chan c
      exact .inr ⟨_, _, rfl, depart_clearance (hsettled.cancelled p) hp .chan c, hvars,
        depart_followsDetach hp c⟩
  | some status =>
      rcases acquire_detachesChan hsettled hp c status with ⟨x, hx, hsame⟩ | hsigns
      · refine .inl ⟨status, x, rfl, ?_, hsame⟩
        rw [reporting] at hx
        dsimp only
        rw [hx]
        rfl
      · exact .inr ⟨_, _, rfl, hsigns⟩

end Exchange

namespace Session

open Exchange

variable {s t : Session} {e : Exchange} {p : PairId} {c : ChannelId} {rest below : List Task}

/-- The chan-side's hangup has not begun, or it has backed off with the dial status that it found
then. -/
def AwaitsDetach (s : Session) (e : Exchange) (p : PairId) (c : ChannelId)
    (rest below : List Task) : Prop :=
  s.Ready c rest below ∧ s.exchange = e ∨
    ∃ status, (e.channel c).getVar dialStatus = some status ∧
    .retry (reporting p c status) :: below <:+ s.agenda

/-- The session's next turn detaches the chan-side. What it leaves to be done comes before `below`.
-/
def DetachesChan (s : Session) (p : PairId) (c : ChannelId) (status : Option String)
    (below : List Task) : Prop :=
  ∃ tasks, s.step.agenda = tasks ++ below ∧
    s.exchange.DetachesChan (s.step.exchange, tasks) p c status

theorem Ready.detachesChan (h : s.Ready c rest below) (hsettled : s.exchange.Settled)
    (hm : s.exchange.membership c = some (p, .chan)) :
    s.step.AwaitsDetach s.exchange p c rest below ∧ s.step.exchange.allVars = s.exchange.allVars ∨
      s.DetachesChan p c ((s.exchange.channel c).getVar dialStatus) below := by
  rcases h with ⟨hagenda, rfl⟩ | ⟨hdriven, hagenda, rfl⟩
  · have hstep : s.step = ({ s with agenda := rest } : Session).turn (s.exchange.teardown c) :=
      step_signal_of_record hagenda (membership_eq_some hm).1
    rw [DetachesChan, hstep]
    rcases teardown_detachesChan hsettled hm with ⟨status, x, hstatus, hteardown, hsame⟩ |
      ⟨x, tasks, hteardown, hsigns⟩
    · refine .inl ⟨.inr ⟨status, hstatus, ?_⟩, by rw [hteardown]; exact hsame⟩
      rw [hteardown, turn, push, List.append_assoc]
      exact Acquisition.retry_suffix_wait _ _
    · rw [hteardown]
      exact .inr ⟨tasks, List.append_assoc .., hsigns⟩
  · have hstep : s.step = ({ s with agenda := rest } : Session).turn
      (s.exchange.dispatch c .hangup) :=
      step_perform hagenda
    rw [DetachesChan, hstep]
    cases hl : s.exchange.lock? c with
    | none =>
        rw [dispatch_of_locked hdriven hl]
        exact .inl ⟨.inl ⟨.inr ⟨hdriven, rfl, rfl⟩, rfl⟩, rfl⟩
    | some x =>
        have hview := view_lock hl
        have hlocked := allVars_lock hl
        have hvar : ((x.channel c).getVar dialStatus) = (s.exchange.channel c).getVar dialStatus :=
          getVar_congr (congrFun hlocked c) dialStatus
        rw [dispatch_of_lock hdriven hl, signal]
        rcases teardown_detachesChan (hsettled.of_view hview)
          ((membership_eq_of_view hview c).trans hm) with
          ⟨status, y, hstatus, hteardown, hsame⟩ | ⟨y, tasks, hteardown, hsigns⟩
        · refine .inl ⟨.inr ⟨status, hvar.symm.trans hstatus,
            ?_⟩, by rw [hteardown]; exact hsame.trans hlocked⟩
          rw [hteardown, turn, push, List.append_assoc, List.append_assoc]
          exact Acquisition.retry_suffix_wait _ _
        · rw [hvar] at hsigns
          rw [hteardown]
          refine .inr ⟨tasks, ?_, hsigns.clears.before (slotsAndSides_eq_of_view hview),
            hsigns.reports.before hlocked (pair_eq_of_view hview p), hsigns.followsDetach⟩
          rw [turn, push, List.append_assoc, List.append_assoc]
          rfl

theorem Moves.awaitsDetach (hm : Moves s t) (hsettled : s.exchange.Settled)
    (hp : p ∈ s.exchange.pairIds)
    (hmember : e.membership c = some (p, .chan)) (hlength : rest.length < below.length)
    (h : s.AwaitsDetach e p c rest below) :
    t.AwaitsDetach e p c rest below ∧
      (s.Attends p .chan c rest below → t.exchange.allVars = s.exchange.allVars) ∨
      t = s.step ∧ s.Attends p .chan c rest below ∧
      s.DetachesChan p c ((e.channel c).getVar dialStatus) below := by
  rcases h with ⟨hready, rfl⟩ | ⟨status, hstatus, hlaid⟩
  · cases hm with
    | step =>
        rcases hready.detachesChan hsettled hmember with ⟨hawaits, hsame⟩ | hsigns
        · exact .inl ⟨hawaits, fun _ => hsame⟩
        · exact .inr ⟨rfl, .inl hready, hsigns⟩
    | others b later ops hhead =>
        rcases hready with ⟨hagenda, -⟩ | ⟨-, hagenda, -⟩ <;> rw [hhead] at hagenda <;>
          cases hagenda
  · have hback := reporting_clears p c status
    generalize ha : reporting p c status = a at hlaid hback
    by_cases hagenda : s.agenda = .retry a :: below
    · cases hm with
      | others =>
          exact .inl ⟨.inr ⟨status, hstatus, ha ▸ hlaid.trans (List.suffix_append _ _)⟩,
            fun _ => rfl⟩
      | step =>
          rw [DetachesChan, step_retry hagenda, hstatus]
          subst ha
          rcases acquire_detachesChan hsettled hp c status with ⟨x, hacquire, hsame⟩ | hsigns
          · refine .inl ⟨.inr ⟨status, hstatus, ?_⟩, fun _ => by rw [hacquire]; exact hsame⟩
            rw [hacquire, turn, push]
            exact Acquisition.retry_suffix_wait _ _
          · exact .inr ⟨rfl, .inr ⟨_, hback, hagenda⟩, _, rfl, hsigns⟩
    · rcases hm.behind hlaid with hstill | ⟨hnext, -⟩
      · exact .inl ⟨.inr ⟨status, hstatus, ha ▸ hstill⟩,
          fun hattends => absurd (hattends.agenda hlength hlaid) hagenda⟩
      · exact absurd hnext hagenda

theorem Moves.followsDetach {task : Task} (hm : Moves s t) (htask : FollowsDetach task)
    (hlaid : task :: below <:+ s.agenda) :
    (t.agenda = below ∨ ∃ next, FollowsDetach next ∧ next :: below <:+ t.agenda) ∧
      (s.agenda = task :: below → t.exchange.allVars = s.exchange.allVars) := by
  by_cases hagenda : s.agenda = task :: below
  · cases hm with
    | others a later ops hhead =>
        exact ⟨.inr ⟨task, htask, hlaid.trans (List.suffix_append _ _)⟩, fun _ => rfl⟩
    | step =>
        cases htask with
        | settles answer =>
            rw [step_perform hagenda]
            exact ⟨.inl rfl, fun _ => rfl⟩
        | tells p frame =>
            obtain ⟨next, hturn, hnext⟩ := acquire_followsDetach s.exchange p frame
            rw [step_retry hagenda]
            refine ⟨.inr ⟨next, hnext, ?_⟩, fun _ => (spared_allVars _).acquire s.exchange rfl⟩
            rw [turn, hturn]
            exact List.suffix_refl _
  · rcases hm.behind hlaid with hstill | ⟨hnext, -⟩
    · exact ⟨.inr ⟨task, htask, hstill⟩, fun hnext => absurd hnext hagenda⟩
    · exact absurd hnext hagenda

/-- It comes to its end before anything that was to follow, and none of its turns touches a
variable. -/
theorem followsDetach_over (n : Nat) {s : Nat → Session} (hmoves : ∀ k < n, Moves (s k) (s (k + 1)))
    (hlaid : (s 0).agenda = below ∨ ∃ task, FollowsDetach task ∧ task :: below <:+ (s 0).agenda)
    (hlength : rest.length < below.length) (hover : (s n).agenda = rest) :
    ∃ l ≤ n, (s l).agenda = below ∧ ∀ k < l, ∃ task, FollowsDetach task ∧
      task :: below <:+ (s k).agenda ∧
      ((s k).agenda = task :: below → (s (k + 1)).exchange.allVars = (s k).exchange.allVars) := by
  induction n generalizing s with
  | zero =>
      rcases hlaid with hend | ⟨task, -, hlaid⟩
      · rw [← hend, hover] at hlength
        exact absurd hlength (Nat.lt_irrefl _)
      · have hlong := hlaid.length_le
        rw [hover, List.length_cons] at hlong
        omega
  | succ n ih =>
      rcases hlaid with hend | ⟨task, htask, hlaid⟩
      · exact ⟨0, Nat.zero_le _, hend, fun k hk => absurd hk (Nat.not_lt_zero k)⟩
      · obtain ⟨hnext, hsame⟩ := (hmoves 0 (Nat.succ_pos n)).followsDetach htask hlaid
        obtain ⟨l, hl, hend, hrest⟩ := ih (s := fun k => s (k + 1))
          (fun k hk => hmoves (k + 1) (Nat.succ_lt_succ hk)) hnext hover
        refine ⟨l + 1, Nat.succ_le_succ hl, hend, fun k hk => ?_⟩
        cases k with
        | zero => exact ⟨task, htask, hlaid, hsame⟩
        | succ k => exact hrest k (Nat.lt_of_succ_lt_succ hk)

/-- A hangup of the chan-side, whatever others do wherever it backs off: in the turn that detaches
it, whoever is the owner-side then is told the dial status that the chan-side had when the hangup
began. In none of its other turns, those before that one or those that follow it until the hangup is
over, does it change anybody's variables. -/
theorem dial_status_reported {s : Nat → Session} {m n : Nat} (hreachable : (s 0).Reachable m)
    (hmoves : ∀ k < n, Moves (s k) (s (k + 1))) (hhangs : (s 0).Hangs c rest)
    (hmember : (s 0).exchange.membership c = some (p, .chan)) (hover : (s n).agenda = rest) :
    ∃ below, rest <:+ below ∧ ∃ j l, j < l ∧ l ≤ n ∧
      (s j).Attends p .chan c rest below ∧ s (j + 1) = (s j).step ∧
      (s j).exchange.Clearance (s (j + 1)).exchange p .chan c ∧
      (s j).exchange.Reports (s (j + 1)).exchange p (((s 0).exchange.channel c).getVar dialStatus) ∧
      (∀ k < j, (s k).Attends p .chan c rest below →
      (s (k + 1)).exchange.allVars = (s k).exchange.allVars) ∧
      (s l).agenda = below ∧ ∀ k, j < k → k < l → ∃ task, FollowsDetach task ∧
      task :: below <:+ (s k).agenda ∧
        ((s k).agenda = task :: below → (s (k + 1)).exchange.allVars = (s k).exchange.allVars) := by
  obtain ⟨below, hsuffix, hready⟩ := Ready.of_hangs hhangs
  have hlength := hready.length.2
  have hknown : ∀ k ≤ n, p ∈ (s k).exchange.pairIds := by
    intro k
    induction k with
    | zero => exact fun _ => mem_pairIds_of_attached (membership_eq_some hmember).2
    | succ k ih =>
        intro hk
        obtain ⟨d, hleads⟩ := (hmoves k hk).leads
        exact hleads.known (ih (Nat.le_of_succ_le hk))
  have hgone : ¬ (s n).AwaitsDetach (s 0).exchange p c rest below := by
    rintro (⟨hagain, -⟩ | ⟨_, -, hlaid⟩)
    · have hlong := hagain.length.1
      rw [hover] at hlong
      omega
    · have hlong := hlaid.length_le
      rw [hover, List.length_cons] at hlong
      omega
  obtain ⟨j, hj, ⟨hstep, hattends, tasks, hagenda, hsigns⟩, hquiet⟩ :=
    comes_before (·.AwaitsDetach (s 0).exchange p c rest below) (.inl ⟨hready, rfl⟩) hgone
      fun k hk hawaits =>
      (hreachable.trace hmoves k hk.le).elim fun _ hm =>
        (hmoves k hk).awaitsDetach hm.settled (hknown k hk.le) hmember hlength hawaits
  rw [← hstep] at hagenda hsigns
  have hlaid : (s (j + 1)).agenda = below ∨ ∃ task, FollowsDetach task ∧
    task :: below <:+ (s (j + 1)).agenda := by
    rcases hsigns.followsDetach with hnone | ⟨task, hone, htask⟩
    · exact .inl (hagenda.trans (congrArg (· ++ below) hnone))
    · refine .inr ⟨task, htask, ?_⟩
      rw [hagenda, show tasks = [task] from hone]
      exact List.suffix_refl _
  obtain ⟨l, hl, hend, hrest⟩ := followsDetach_over (n - (j + 1)) (s := fun k => s (j + 1 + k))
    (fun k hk => hmoves (j + 1 + k) (by omega)) hlaid hlength
    (by rw [Nat.add_sub_cancel' hj]; exact hover)
  refine ⟨below, hsuffix, j, j + 1 + l, by omega, by omega, hattends, hstep, hsigns.clears,
    hsigns.reports, hquiet,
    hend, fun k hk hkl => ?_⟩
  have hturn := hrest (k - (j + 1)) (by omega)
  rwa [← Nat.add_assoc, Nat.add_sub_cancel' hk] at hturn

/-- While the chan-side leaves and has to back off, another channel takes the owner-side's place,
and the dial status changes. -/
def substituted : List Operation :=
  [.request .dispatched "Local" "100@internal" ⟨4⟩, .newChannel "SIP/third",
    .edit ⟨3⟩ (.slot (.pair ⟨1⟩)),
    .edit ⟨2⟩ (.pushVar "DIALSTATUS" "ANSWER"), .edit ⟨2⟩ (.pushVar "DIALSTATUS" "BUSY"),
    .scriptLocks ⟨1⟩ [false], .onBackOff [.fixup ⟨1⟩ ⟨3⟩,
    .edit ⟨2⟩ (.setVar "DIALSTATUS" "CANCEL")],
    .signal .direct ⟨2⟩ .hangup]

theorem substituted_told : ∃ s, start {} substituted = .ok s ∧ (s.run 20).Hangs ⟨2⟩ [.report] ∧
    (s.run 20).exchange.membership ⟨2⟩ = some (⟨1⟩, .chan) ∧ (s.run 32).agenda = [.report] ∧
    (∃ j < 12, (s.run (20 + j)).exchange.Reports (s.run (20 + (j + 1))).exchange ⟨1⟩
    (some "ANSWER")) ∧
    ((s.run 32).exchange.channel ⟨3⟩).getVar channelStatus = some "ANSWER" := by
  have hstart : start {} substituted = .ok { exchange := {}, agenda := tasksOf substituted } := rfl
  generalize hs : ({ exchange := {}, agenda := tasksOf substituted } : Session) = s at hstart
  have hhangs : (s.run 20).Hangs ⟨2⟩ [.report] := by
    subst hs
    exact .inl rfl
  have hmember : (s.run 20).exchange.membership ⟨2⟩ = some (⟨1⟩, .chan) := by
    subst hs
    decide +kernel
  have hover : (s.run 32).agenda = [.report] := by
    subst hs
    rfl
  have hstatus : ((s.run 20).exchange.channel ⟨2⟩).getVar dialStatus = some "ANSWER" := by
    subst hs
    decide +kernel
  have htold : ((s.run 32).exchange.channel ⟨3⟩).getVar channelStatus = some "ANSWER" := by
    subst hs
    decide +kernel
  obtain ⟨_, -, j, l, hjl, hl, -, -, -, hreports, -⟩ :=
    dial_status_reported (s := fun k => s.run (20 + k))
    (n := 12) ((Reachable.start hstart).run 20)
    (fun k _ => run_succ _ (20 + k) ▸ .step _) hhangs hmember hover
  rw [show ((s.run (20 + 0)).exchange.channel ⟨2⟩).getVar dialStatus =
    some "ANSWER" from hstatus] at hreports
  exact ⟨s, hstart, hhangs, hmember, hover, ⟨j, by omega, hreports⟩, htold⟩

end Session
end Switchboard
