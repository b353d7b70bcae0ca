import Switchboard.Proofs.LockRestoration
import Switchboard.Proofs.Optimization

namespace Switchboard

def Exchange.Open (e : Exchange) (c : ChannelId) : Prop := (e.channel c).lock.openTo .main = true

namespace Session

open Exchange

variable {s : Session} {e e' : Exchange} {a b : Answer} {c : ChannelId} {σ : Signal}
    {tasks rest : List Task}

/-- Left to itself the session gets done with all that stands before `rest`, and then `e` is the
exchange and `a` the answer. -/
def Ends (s : Session) (rest : List Task) (e : Exchange) (a : Answer) : Prop :=
  ∃ n, s.run n = s.updated e a rest ∧ ∀ k < n, rest.length < (s.run k).agenda.length

theorem Ends.unique (h : s.Ends rest e a) (h' : s.Ends rest e' b) : e = e' ∧ a = b := by
  obtain ⟨n, hn, hbefore⟩ := h
  obtain ⟨m, hm, hbefore'⟩ := h'
  have hsame : n = m := by
    rcases Nat.lt_trichotomy n m with hlt | rfl | hlt
    · have hlong := hbefore' n hlt
      rw [hn] at hlong
      exact absurd hlong (Nat.lt_irrefl _)
    · rfl
    · have hlong := hbefore m hlt
      rw [hm] at hlong
      exact absurd hlong (Nat.lt_irrefl _)
  subst hsame
  have hstanding : s.updated e a rest = s.updated e' b rest := hn.symm.trans hm
  exact ⟨congrArg exchange hstanding, congrArg answer hstanding⟩

theorem ends_here : (s.updated e a rest).Ends rest e a :=
  ⟨0, rfl, fun _ hk => absurd hk (Nat.not_lt_zero _)⟩

theorem Ends.step (hstep : s.step = s.updated e' b tasks) (hlong : rest.length < s.agenda.length)
    (h : (s.updated e' b tasks).Ends rest e a) : s.Ends rest e a := by
  obtain ⟨n, hn, hbefore⟩ := h
  rw [← hstep] at hn hbefore
  refine ⟨n + 1, ?_, fun k hk => ?_⟩
  · rw [run_step, hn, hstep]
    rfl
  · cases k with
    | zero => exact hlong
    | succ k =>
        rw [run_step]
        exact hbefore k (Nat.lt_of_succ_lt_succ hk)

theorem ends_settle : (s.updated e a (.settle b :: rest)).Ends rest e b :=
  .step rfl (Nat.lt_succ_self _) ends_here

theorem ends_direct (hagenda : s.agenda = .operate (.signal .direct c σ) :: rest)
    (hc : c.Among s.exchange.channels.size) (hanswers : s.exchange.signal c σ = e.settled a) :
    s.Ends rest e a := by
  have hstep : s.step = s.updated e s.answer (.settle a :: rest) := by
    rw [step_signal hagenda hc, Exchange.perform, hanswers]
    rfl
  exact .step hstep (by rw [hagenda]; exact Nat.lt_succ_self _) ends_settle

theorem ends_dispatched (hagenda : s.agenda = .operate (.signal .dispatched c σ) :: rest)
    (hc : c.Among s.exchange.channels.size)
    (hsend : s.exchange.send c σ = (s.exchange, [.dispatch c σ]))
    (hdriven : s.exchange.isDriven c = true) (hopen : s.exchange.Open c)
    (hanswers : (s.exchange.writing c).signal c σ = (e.writing c).settled a)
    (hlock : (e.channel c).lock = (s.exchange.channel c).lock) (hsound : (e.channel c).lock.Sound) :
    s.Ends rest e a := by
  have hsends : s.step = s.updated s.exchange s.answer (.dispatch c σ :: rest) := by
    rw [step_signal hagenda hc, Exchange.perform, hsend]
    rfl
  have htells : (s.updated s.exchange s.answer (.dispatch c σ :: rest)).step =
      s.updated (e.writing c) s.answer (.settle a :: .unlock c :: rest) := by
    have hturn : s.exchange.dispatch c σ = (e.writing c, [.settle a, .unlock c]) := by
      rw [dispatch_of_lock hdriven (lock?_writing hopen), hanswers]
      rfl
    rw [step_perform rfl]
    change (s.updated s.exchange s.answer rest).turn (s.exchange.dispatch c σ) = _
    rw [hturn]
    rfl
  have hgivesBack : (s.updated (e.writing c) a (.unlock c :: rest)).step = s.updated e a rest := by
    have hback : (e.writing c).unlock c = e := unlock_writing (by rw [hlock]; exact hopen) hsound
    rw [step_perform rfl]
    change s.updated ((e.writing c).unlock c) a rest = _
    rw [hback]
  have hlong : rest.length < s.agenda.length := by
    rw [hagenda]
    exact Nat.lt_succ_self _
  have hsettles : (s.updated (e.writing c) s.answer (.settle a :: .unlock c :: rest)).step =
      s.updated (e.writing c) a (.unlock c :: rest) := rfl
  refine .step hsends hlong (.step htells (Nat.lt_succ_self _) ?_)
  refine .step hsettles ?_ (.step hgivesBack ?_ ends_here)
  · exact Nat.lt_succ_of_lt (Nat.lt_succ_self _)
  · exact Nat.lt_succ_self _

theorem ends_undriven (hagenda : s.agenda = .operate (.signal .dispatched c σ) :: rest)
    (hc : c.Among s.exchange.channels.size)
    (hsend : s.exchange.send c σ = (s.exchange, [.dispatch c σ]))
    (hdriven : s.exchange.isDriven c = false) :
    s.Ends rest s.exchange (.failed (s.exchange.notLocal c)) := by
  have hsends : s.step = s.updated s.exchange s.answer (.dispatch c σ :: rest) := by
    rw [step_signal hagenda hc, Exchange.perform, hsend]
    rfl
  have hrefuses : (s.updated s.exchange s.answer (.dispatch c σ :: rest)).step =
      s.updated s.exchange s.answer (.settle (.failed (s.exchange.notLocal c)) :: rest) := by
    rw [step_perform rfl]
    change (s.updated s.exchange s.answer rest).turn (s.exchange.dispatch c σ) = _
    rw [dispatch, hdriven, if_neg Bool.false_ne_true]
    rfl
  exact .step hsends (by rw [hagenda]; exact Nat.lt_succ_self _)
    (.step hrefuses (Nat.lt_succ_self _) ends_settle)

end Session
end Switchboard
