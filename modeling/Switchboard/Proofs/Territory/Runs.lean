import Switchboard.Proofs.Moves
import Switchboard.Proofs.Territory.Turns

namespace Switchboard

namespace Task

def settles : Task → Bool
  | settle _ | hangup _ | dispatch _ _ | write _ _ _ _ => true
  | _ => false

def fells : Task → Option ChannelId
  | hangup c | operate (.signal .dispatched c .hangup) => some c
  | _ => none

/-- Tasks of a signal that finds no bridge, down to the report on it. -/
def isPlain : Task → Bool
  | operate (.signal _ _ _) | dispatch _ _ | hangup _ | delist _ | unlock _ | retry _ | pause _ |
      raise _ | settle _
  | report => true
  | _ => false

theorem Suits.isPlain {T : Territory} {e : Exchange} {t : Task} (h : t.Suits T e) :
    t.isPlain = true := by
  cases t <;> first | rfl | cases h

end Task

namespace Exchange

theorem settles_append_settle (ts : List Task) (a : Answer) :
    (ts ++ [Task.settle a]).any Task.settles = true := by
  simp [Task.settles]

theorem settles_relayFrom (e : Exchange) (c : ChannelId) (frame : Frame) :
    (e.relayFrom c frame).2.any Task.settles = true := by
  rw [relayFrom]
  cases e.membership c with
  | none => rfl
  | some place => exact settles_append_settle _ _

theorem settles_writeKnowing (e : Exchange) (p : PairId) (c : ChannelId) (frame : Frame)
    (third : Option ChannelId) :
    (e.writeKnowing p c frame third).2.any Task.settles = true := by
  rw [writeKnowing]
  cases (e.pair p).sideOf c with
  | none => rfl
  | some side => exact settles_append_settle _ _

theorem settles_signal (e : Exchange) (c : ChannelId) (s : Signal) :
    (e.signal c s).2.any Task.settles = true := by
  cases s with
  | call dialled milliseconds =>
      rw [signal]
      rcases e.launch c with ⟨why | u, e₁⟩ <;> rfl
  | hangup =>
      rw [signal, teardown]
      rcases e.membership c with _ | ⟨p, side⟩
      · rfl
      · cases side <;> exact settles_append_settle _ _
  | answer =>
      rw [signal, answer]
      rcases e.membership c with _ | ⟨p, side⟩
      · rfl
      · cases side
        · rfl
        · exact settles_relayFrom e c _
  | write frame =>
      rw [signal, writeFrame]
      cases e.recordOf c with
      | none => rfl
      | some p =>
          dsimp only
          split
          · cases (e.channel c).bridge with
            | some b => rfl
            | none => exact settles_writeKnowing e p c frame none
          · exact settles_writeKnowing e p c frame none
  | indicate kind data =>
      change (e.indicate c kind data).2.any _ = true
      unfold indicate
      cases e.recordOf c with
      | none => rfl
      | some p =>
          dsimp only
          split
          · exact settles_relayFrom e c _
          · cases kind <;> first | rfl | exact settles_relayFrom e c _
  | beginDigit | endDigit | sendText | sendHtml => exact settles_relayFrom e c _

theorem settles_resume (e : Exchange) {t : Task} (ht : t.settles = true)
    (hsettle : ∀ a, t ≠ .settle a) :
    (e.resume t).2.any Task.settles = true := by
  cases t with
  | settle a => exact absurd rfl (hsettle a)
  | hangup c =>
      rw [resume, hangup]
      split
      · rfl
      · dsimp only
        split <;> rfl
  | dispatch c s =>
      rw [resume, dispatch]
      split
      · cases e.lock? c with
        | none => rfl
        | some e₁ =>
            dsimp only
            rw [List.any_append, settles_signal e₁ c s]
            rfl
      · rfl
  | write p c frame third => exact settles_writeKnowing e p c frame third
  | _ => cases ht

end Exchange

namespace Session

open Exchange

def Clear (T : Territory) (s : Session) : Prop := T.unscripted → s.backOffScripts = []

/-- The tasks are done after `n` steps, in which no others get in: whatever goes on outside the
territory, the exchange is written to in one way, and what is answered, if anything, is the same. -/
structure Through (T : Territory) (e : Exchange) (ts : List Task) (n : Nat) (ws : List Write)
    (b : Option Answer) :
    Prop where
  within : ∀ w ∈ ws, w.Within T
  run : ∀ (s : Session) (rest : List Task), AgreeOn T e s.exchange → Clear T s →
    s.agenda = ts ++ rest →
    s.run n = { s with exchange := s.exchange.after ws, answer := b.getD s.answer, agenda := rest }
  plain : ∀ (s : Session) (rest : List Task), AgreeOn T e s.exchange → Clear T s →
    s.agenda = ts ++ rest →
    ∀ k < n, ∃ t later, (s.run k).agenda = t :: (later ++ rest) ∧ t.isPlain = true
  settled : ts.any Task.settles = true → b.isSome = true
  hungup : ∀ t ∈ ts, ∀ c, t.fells = some c → ((e.after ws).channel c).hungup = true

variable {T : Territory} {e : Exchange} {ts us : List Task} {t : Task} {n m : Nat}
    {ws vs : List Write}
  {b d : Option Answer} {c : ChannelId} {s u : Session} {op : Operation} {ops : List Operation}

theorem Through.nil (T : Territory) (e : Exchange) : Through T e [] 0 [] none where
  within := by simp
  run s rest _ _ hagenda := by
    change s = _
    rw [List.nil_append] at hagenda
    simp [← hagenda]
  plain _ _ _ _ _ k hk := absurd hk (Nat.not_lt_zero k)
  settled h := by simp at h
  hungup t ht := by simp at ht

theorem Through.step (us : List Task) (hws : ∀ w ∈ ws, w.Within T) (hplain : t.isPlain = true)
    (hstep : ∀ (s : Session) (rest : List Task), AgreeOn T e s.exchange → Clear T s →
    s.agenda = t :: rest →
      s.step = { s with exchange := s.exchange.after ws, answer := b.getD s.answer, agenda := us ++ rest })
    (hsettled : t.settles = true → b.isSome = true ∨ us.any Task.settles = true)
    (hfells : ∀ c, t.fells = some c → ((e.after ws).channel c).hungup = true ∨
    ∃ u ∈ us, u.fells = some c)
    (hnext : Through T (e.after ws) (us ++ ts) n vs d) :
    Through T e (t :: ts) (n + 1) (ws ++ vs) (d.or b) where
  within w hw := (List.mem_append.1 hw).elim (hws w) (hnext.within w)
  run s rest hs hclear hagenda := by
    have hfirst := hstep s (ts ++ rest) hs hclear hagenda
    have hagenda' : s.step.agenda = (us ++ ts) ++ rest := by rw [hfirst, List.append_assoc]
    have hs' : AgreeOn T (e.after ws) s.step.exchange := by
      rw [hfirst]
      exact hs.after ws
    have hclear' : Clear T s.step := by
      rw [hfirst]
      exact hclear
    rw [run_step, hnext.run s.step rest hs' hclear' hagenda', hfirst, after_append]
    cases d <;> rfl
  plain s rest hs hclear hagenda k hk := by
    cases k with
    | zero => exact ⟨t, ts, hagenda, hplain⟩
    | succ k =>
        have hfirst := hstep s (ts ++ rest) hs hclear hagenda
        rw [run_step]
        refine hnext.plain s.step rest ?_ ?_ ?_ k (Nat.lt_of_succ_lt_succ hk)
        · rw [hfirst]
          exact hs.after ws
        · rw [hfirst]
          exact hclear
        · rw [hfirst, List.append_assoc]
  settled h := by
    rw [List.any_cons, Bool.or_eq_true] at h
    have hsome : d.isSome = true ∨ b.isSome = true := by
      rcases h with ht | hts
      · exact (hsettled ht).symm.imp_left fun hus =>
          hnext.settled (by rw [List.any_append, hus]; rfl)
      · exact .inl (hnext.settled (by rw [List.any_append, hts, Bool.or_true]))
    cases d with
    | some a => rfl
    | none => simpa using hsome
  hungup u hu c hc := by
    rw [after_append]
    rcases List.mem_cons.1 hu with rfl | hmem
    · rcases hfells c hc with hnow | ⟨v, hv, hvc⟩
      · exact (channel_after_loosens hnext.within _ c).hungup hnow
      · exact hnext.hungup v (List.mem_append_left ts hv) c hvc
    · exact hnext.hungup u (List.mem_append_right us hmem) c hc

theorem resume_does (he : e.SelfContained T) (ht : t.Suits T e) (hsettle : ∀ a, t ≠ .settle a) :
    Does T e (·.resume t) (t.stepBound - 1) := by
  cases t with
  | settle a => exact absurd rfl (hsettle a)
  | retry a => exact retry_does he ht
  | pause point => exact does_tasks [] (T := T) (e := e) (by simp)
  | dispatch c s => exact dispatch_does he ht.1 s ht.2
  | hangup c => exact hangup_does he ht
  | delist c =>
      have hdelist : Writes T e (·.delist c) := writes_write (w := .delist c) ht
      exact hdelist.does he fun e₁ _ => does_tasks [] (T := T) (e := e₁) (by simp)
  | unlock c =>
      exact (unlock_writes ht).does he fun e₁ _ => does_tasks [] (T := T) (e := e₁) (by simp)
  | _ => cases ht

theorem step_resume {s : Session} {rest : List Task} (ht : t.Suits T e)
    (hsettle : ∀ a, t ≠ .settle a)
    (hclear : Clear T s) (hagenda : s.agenda = t :: rest) :
    s.step = ({ s with agenda := rest } : Session).turn (s.exchange.resume t) := by
  simp only [Session.step, hagenda]
  cases t with
  | settle a => exact absurd rfl (hsettle a)
  | dispatch | hangup | delist | unlock | retry => rfl
  | pause point =>
      obtain ⟨rfl, hunscripted⟩ := ht
      simp only [perform, pause, hclear hunscripted]
      rfl
  | _ => cases ht

theorem hungup_of_fells (he : e.SelfContained T) (ht : t.Suits T e) (hc : t.fells = some c)
    (hx : e.resume t = (e.after ws, us)) : ((e.after ws).channel c).hungup = true := by
  cases t with
  | hangup d =>
      obtain rfl : d = c := Option.some.inj hc
      have hafter : e.after ws = (e.hangup d).1 := (congrArg Prod.fst hx).symm
      rw [hafter, hangup]
      split
      · next hhungup => exact hhungup
      · exact congrArg Channel.hungup (channel_modifyChannel e _ (he.made d ht))
  | operate op => cases ht
  | _ => cases hc

/-- Tasks about a self-contained territory come to an end. -/
theorem runs (he : e.SelfContained T) (hts : ∀ t ∈ ts, t.Suits T e) :
    ∃ n ws b, Through T e ts n ws b := by
  induction hm : stepBound ts + 5 * T.credit e using Nat.strong_induction_on generalizing e ts with
  | _ m ih =>
      cases ts with
      | nil => exact ⟨0, [], none, .nil T e⟩
      | cons t ts =>
          have ht := hts t List.mem_cons_self
          have hlater := fun u hu => hts u (List.mem_cons_of_mem t hu)
          by_cases hsettle : ∃ a, t = .settle a
          · obtain ⟨a, rfl⟩ := hsettle
            obtain ⟨n, vs, d, hnext⟩ :=
              ih (stepBound ts + 5 * T.credit e)
              (by simp [← hm, stepBound, Task.stepBound]) he hlater rfl
            refine ⟨n + 1, [] ++ vs, d.or (some a), .step [] (by simp) rfl (fun s rest _ _ hagenda => ?_)
              (fun _ => .inl rfl) (fun c hc => by cases hc) hnext⟩
            rw [Session.step, hagenda]
            rfl
          · have hnot : ∀ a, t ≠ .settle a := fun a ha => hsettle ⟨a, ha⟩
            obtain ⟨ws, us, hws, hx, hus, hbound⟩ := resume_does he ht hnot
            replace hx : ∀ x, AgreeOn T e x → x.resume t = (x.after ws, us) := hx
            have hless : stepBound (us ++ ts) + 5 * T.credit (e.after ws) < m := by
              have hpos : 0 < t.stepBound := by cases t <;> simp [Task.stepBound]
              rw [← hm, stepBound_append]
              simp only [stepBound]
              omega
            obtain ⟨n, vs, d, hnext⟩ :=
              ih _ hless (he.after hws) (fun u hu => (List.mem_append.1 hu).elim (hus u)
              fun hu => (hlater u hu).after hws) rfl
            refine ⟨n + 1, ws ++ vs, d.or none,
              .step us hws ht.isPlain (fun s rest hs hclear hagenda => ?_)
              (fun hsettles => .inr ?_) (fun c hc => .inl (hungup_of_fells he ht hc (hx e (.refl T e)))) hnext⟩
            · rw [step_resume ht hnot hclear hagenda, hx s.exchange hs]
              rfl
            · have hlaid := settles_resume e hsettles hnot
              rwa [hx e (.refl T e)] at hlaid

theorem Through.raise (h : Through T e ts n ws b) (hb : b.isSome = true) (hc : c ∈ T.channels) :
    ∃ vs, Through T e (ts ++ [Task.raise c]) (n + 1) (ws ++ vs) b := by
  obtain ⟨a, rfl⟩ := Option.isSome_iff_exists.1 hb
  let vs : List Write := if a = .done then [.channel c ({ · with state := .up })] else []
  have hvs : ∀ w ∈ vs, w.Within T := by
    intro w hw
    simp only [vs] at hw
    split at hw
    · rw [List.mem_singleton.1 hw]
      exact ⟨hc, fun _ => ⟨.inl rfl, rfl, id, id⟩⟩
    · cases hw
  refine ⟨vs, fun w hw => (List.mem_append.1 hw).elim (h.within w) (hvs w),
    fun s rest hs hclear hagenda => ?_,
    fun s rest hs hclear hagenda k hk => ?_, fun _ => rfl, fun t ht d hd => ?_⟩
  · have hfirst := h.run s (.raise c :: rest) hs hclear (by rw [hagenda, List.append_assoc]; rfl)
    rw [run_succ, hfirst, Session.step]
    dsimp only
    rw [perform, after_append]
    simp only [Option.getD_some, vs]
    split <;> rfl
  · have hagenda' : s.agenda = ts ++ .raise c :: rest := by rw [hagenda, List.append_assoc]; rfl
    rcases Nat.lt_or_eq_of_le (Nat.le_of_lt_succ hk) with hlt | rfl
    · obtain ⟨t, later, hk, hplain⟩ := h.plain s _ hs hclear hagenda' k hlt
      exact ⟨t, later ++ [Task.raise c], by rw [hk, List.append_assoc]; rfl, hplain⟩
    · exact ⟨.raise c, [], by rw [h.run s _ hs hclear hagenda']; rfl, rfl⟩
  · rw [after_append]
    rcases List.mem_append.1 ht with hmem | hmem
    · exact (channel_after_loosens hvs _ d).hungup (h.hungup t hmem d hd)
    · rw [List.mem_singleton.1 hmem] at hd
      cases hd

theorem send_does (he : e.SelfContained T) (hc : c ∈ T.channels) (s : Signal)
    (hs : s = .hangup ∨ (e.channel c).bridge = none)
    (hanswer : s ≠ .answer) : Does T e (·.send c s) 6 := by
  have hdispatch : Does T e (fun x => (x, [.dispatch c s])) 6 :=
    does_tasks [.dispatch c s] (T := T) (by simpa [Task.Suits] using ⟨hc, hs⟩)
  cases s with
  | answer => exact absurd rfl hanswer
  | hangup =>
      have hhangup : Does T e (fun x => (x, [.hangup c])) 3 :=
        does_tasks [.hangup c] (T := T) (by simpa [Task.Suits] using hc)
      exact hhangup.mono (by omega)
  | write frame =>
      cases hzombie : (e.channel c).zombie with
      | true =>
          refine ((does_settled T e .done).mono (by omega)).congr fun x hx => ?_
          simp only [send, hx.channel hc, hzombie, if_true]
      | false =>
          cases hdriven : e.isDriven c with
          | true =>
              refine hdispatch.congr fun x hx => ?_
              simp only [send, hx.channel hc, hzombie, hx.isDriven hc, hdriven, if_true]
              rfl
          | false =>
              have hwritten :=
                modifyChannel_writes (e := e)
                (f := fun x => { x with written := x.written ++ [frame] })
                hc fun _ => rfl
              refine ((hwritten.does he fun e₁ _ => does_settled T e₁ .done).mono (by omega)).congr
                fun x hx => ?_
              simp only [send, hx.channel hc, hzombie, hx.isDriven hc, hdriven]
              rfl
  | call | indicate | beginDigit | endDigit | sendText | sendHtml => exact hdispatch

theorem settles_send (e : Exchange) (c : ChannelId) (s : Signal) :
    (e.send c s).2.any Task.settles = true := by
  cases s with
  | write frame =>
      rw [send]
      split
      · rfl
      · split <;> rfl
  | _ => rfl

theorem perform_runs {route : Route} {σ : Signal} (he : e.SelfContained T) (hc : c ∈ T.channels)
    (hk : Does T e (·.perform (.signal route c σ)) m)
    (hsettles : (e.perform (.signal route c σ)).2.any Task.settles = true)
    (hfells : ∀ d, (Task.operate (.signal route c σ)).fells = some d →
      ∃ u ∈ (e.perform (.signal route c σ)).2, u.fells = some d) :
    ∃ n ws a, Through T e [.operate (.signal route c σ)] n ws (some a) := by
  obtain ⟨ws, us, hws, hx, hus, -⟩ := hk
  replace hx : ∀ x, AgreeOn T e x → x.perform (.signal route c σ) = (x.after ws, us) := hx
  obtain ⟨n, vs, b, hnext⟩ := runs (he.after hws) hus
  rw [hx e (.refl T e)] at hsettles hfells
  obtain ⟨a, rfl⟩ := Option.isSome_iff_exists.1 (hnext.settled hsettles)
  refine ⟨n + 1, ws ++ vs, a, Through.step us (t := .operate (.signal route c σ)) (b := none)
    (d := some a) hws rfl
    (fun u rest hu _ hagenda => ?_) (by simp [Task.settles]) (fun d hd => .inr (hfells d hd))
    (by rwa [List.append_nil])⟩
  rw [step_signal hagenda ((hu.selfContained he).made c hc), hx _ hu]
  rfl

theorem answer_runs (he : e.SelfContained T) (hc : c ∈ T.channels)
    (hbridge : (e.channel c).bridge = none) :
    ∃ n ws a, Through T e [.operate (.signal .dispatched c .answer)] n ws (some a) := by
  have hdispatch : ∀ t ∈ [Task.dispatch c .answer], t.Suits T e := by
    simpa [Task.Suits] using ⟨hc, hbridge⟩
  obtain ⟨n, ws, b, hnext⟩ := runs he hdispatch
  have hb := hnext.settled rfl
  obtain ⟨vs, hraised⟩ := hnext.raise hb hc
  obtain ⟨a, rfl⟩ := Option.isSome_iff_exists.1 hb
  refine ⟨n + 1 + 1, [] ++ (ws ++ vs), a, Through.step [.dispatch c .answer, .raise c]
    (t := .operate (.signal .dispatched c .answer)) (b := none) (d := some a) (by simp) rfl
    (fun u rest hu _ hagenda => ?_) (by simp [Task.settles]) (by simp [Task.fells]) hraised⟩
  rw [step_signal hagenda ((hu.selfContained he).made c hc)]
  rfl

theorem signal_runs (he : e.SelfContained T) (hc : c ∈ T.channels) (route : Route) (σ : Signal)
    (hs : σ = .hangup ∨ (e.channel c).bridge = none) :
    ∃ n ws a, Through T e [.operate (.signal route c σ)] n ws (some a) := by
  cases route with
  | direct =>
      exact perform_runs he hc (signal_does he hc σ hs) (settles_signal e c σ)
        fun d hd => by cases hd
  | dispatched =>
      by_cases hanswer : σ = .answer
      · subst hanswer
        exact answer_runs he hc (hs.resolve_left (by simp))
      · refine perform_runs he hc (send_does he hc σ hs hanswer) (settles_send e c σ) fun d hd => ?_
        cases σ with
        | hangup => exact ⟨.hangup c, List.mem_singleton_self _, hd⟩
        | _ => cases hd

def concluded (s : Session) (ws : List Write) (a : Answer) : Session :=
  { s with exchange := s.exchange.after ws, answer := a }.report

theorem Through.reported {op : Operation} {a : Answer} (h : Through T e [.operate op] n ws (some a))
    {s : Session}
    {rest : List Task} (hs : AgreeOn T e s.exchange) (hclear : Clear T s)
    (hagenda : s.agenda = .operate op :: .report :: rest) :
    s.run (n + 1) = { s.concluded ws a with agenda := rest } ∧
      ∀ k < n + 1, ∃ t later, (s.run k).agenda = t :: (later ++ rest) ∧ t.isPlain = true := by
  have hdone := h.run s (.report :: rest) hs hclear hagenda
  refine ⟨?_, fun k hk => ?_⟩
  · rw [run_succ, hdone]
    rfl
  · rcases Nat.lt_or_eq_of_le (Nat.le_of_lt_succ hk) with hlt | rfl
    · obtain ⟨t, later, hk, hplain⟩ := h.plain s _ hs hclear hagenda k hlt
      exact ⟨t, later ++ [Task.report], by rw [hk, List.append_assoc]; rfl, hplain⟩
    · exact ⟨.report, [], by rw [hdone]; rfl, rfl⟩

/-- The operations are carried out before anything else that is to be done, and end in `t`. -/
def Carries (s : Session) (ops : List Operation) (t : Session) : Prop :=
  ∃ n, (s.push (tasksOf ops)).run n = t ∧ t.agenda = s.agenda ∧
    ∀ k < n, s.agenda.length < ((s.push (tasksOf ops)).run k).agenda.length

theorem carries_nil (s : Session) : s.Carries [] s :=
  ⟨0, rfl, rfl, fun k hk => absurd hk (Nat.not_lt_zero k)⟩

theorem Through.carries {T : Territory} {e : Exchange} {n : Nat} {ws : List Write} {a : Answer}
    (h : Through T e [.operate op] n ws (some a)) (hs : Exchange.AgreeOn T e s.exchange)
    (hclear : Clear T s)
    (hnext : (s.concluded ws a).Carries ops u) : s.Carries (op :: ops) u := by
  obtain ⟨m, hrun, hagenda, hlength⟩ := hnext
  have hpushed : (s.push (tasksOf (op :: ops))).agenda =
    .operate op :: .report :: (tasksOf ops ++ s.agenda) := rfl
  obtain ⟨hdone, hplain⟩ := h.reported (s := s.push (tasksOf (op :: ops))) hs hclear hpushed
  have hpush : (s.push (tasksOf (op :: ops))).run (n + 1) = (s.concluded ws a).push (tasksOf ops) :=
    hdone
  refine ⟨n + 1 + m, ?_, hagenda, fun k hk => ?_⟩
  · rw [run_add, hpush, hrun]
  · by_cases hfirst : k < n + 1
    · obtain ⟨t, later, hk, -⟩ := hplain k hfirst
      rw [hk]
      simp only [List.length_cons, List.length_append]
      omega
    · obtain ⟨j, rfl⟩ := Nat.exists_eq_add_of_le (Nat.le_of_not_lt hfirst)
      rw [run_add, hpush]
      exact hlength j (by omega)

end Session
end Switchboard
