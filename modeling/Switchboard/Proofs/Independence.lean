import Switchboard.Proofs.Territory.Runs

namespace Switchboard

/-- Both endpoints of the pair are in their places and bridged to nobody, and nobody holds their
locks or is laid down to be in the way. -/
structure Exchange.Undisturbed (e : Exchange) (p : PairId) (a b : ChannelId) : Prop where
  owner : (e.pair p).owner = some a
  chan : (e.pair p).chan = some b
  apart : a ≠ b
  slot : ∀ c ∈ [a, b], (e.channel c).slot = .pair p
  bridge : ∀ c ∈ [a, b], (e.channel c).bridge = none
  lock : ∀ c ∈ [a, b], (e.channel c).lock.holder = none
  noScriptedFailure : ∀ x ∈ e.contention.attempts, x.1 ∈ [a, b] → x.2 = true

def PairId.territory (p : PairId) {a b : ChannelId} (h : a ≠ b) : Territory where
  pairs q := q = p
  channels := [a, b]
  nodup := by simpa using h
  unscripted := False

namespace Exchange.Undisturbed

variable {e : Exchange} {p q : PairId} {a b c d : ChannelId}

theorem selfContained (h : e.Undisturbed p a b) : e.SelfContained (p.territory h.apart) where
  made c hc := among_of_slot e (h.slot c hc)
  slot c hc q hq := Slot.pair.inj (hq.symm.trans (h.slot c hc))
  seated q hq side c hc := by
    obtain rfl : q = p := hq
    cases side with
    | owner => exact List.mem_cons.2 (.inl (Option.some.inj (hc.symm.trans h.owner)))
    | chan =>
        exact List.mem_cons_of_mem _ (List.mem_singleton.2 (Option.some.inj (hc.symm.trans h.chan)))
  free c hc := RecursiveLock.openTo_iff.2 (.inl (h.lock c hc))
  noScriptedFailure := .inr h.noScriptedFailure

theorem territories_apart (h : e.Undisturbed p a b) (h' : e.Undisturbed q c d) (hpq : p ≠ q) :
    (p.territory h.apart).Apart (q.territory h'.apart) := by
  refine ⟨fun r hp hq => hpq (hp.symm.trans hq), fun z hz hz' => hpq ?_⟩
  exact Slot.pair.inj ((h.slot z hz).symm.trans (h'.slot z hz'))

end Exchange.Undisturbed

namespace Session

def answers (s : Session) : List Answer := s.level.finished.map Report.answer

variable {s : Session}

theorem answers_concluded (s : Session) (ws : List Write) (a : Answer) :
    (s.concluded ws a).answers = s.answers ++ [a] := by
  simp [concluded, report, answers, Exchange.report]

/-- Any two pairs that are undisturbed, and any signals to an endpoint of each: what is done to the
one leaves every other record and every other channel as it was. In whichever order the two are
carried out, each answers the same, and the exchange comes to be the same. -/
theorem pairs_independent {p q : PairId} {a b c d x y : ChannelId} (hpq : p ≠ q)
    (hp : s.exchange.Undisturbed p a b) (hq : s.exchange.Undisturbed q c d) (hx : x ∈ [a, b])
    (hy : y ∈ [c, d])
    (route route' : Route) (σ τ : Signal) :
    ∃ r r' t u v,
      s.Carries [.signal route x σ] t ∧ t.answers = s.answers ++ [r] ∧
      (∀ o ≠ p, t.exchange.pair o = s.exchange.pair o) ∧
      (∀ z ∉ [a, b], t.exchange.channel z = s.exchange.channel z) ∧
      s.Carries [.signal route x σ, .signal route' y τ] u ∧ u.answers = s.answers ++ [r, r'] ∧
      s.Carries [.signal route' y τ, .signal route x σ] v ∧ v.answers = s.answers ++ [r', r] ∧
      u.exchange.Same v.exchange := by
  have hapart := hp.territories_apart hq hpq
  obtain ⟨n, ws, r, hσ⟩ := signal_runs hp.selfContained hx route σ (.inr (hp.bridge x hx))
  obtain ⟨m, vs, r', hτ⟩ := signal_runs hq.selfContained hy route' τ (.inr (hq.bridge y hy))
  have hsame := Exchange.after_comm hapart hσ.within hτ.within s.exchange
  have hlater := (Exchange.AgreeOn.refl _ s.exchange).elsewhere hapart hσ.within
  have hlater' := (Exchange.AgreeOn.refl _ s.exchange).elsewhere hapart.symm hτ.within
  have hclear : ∀ u, Clear (p.territory hp.apart) u := fun _ => False.elim
  have hclear' : ∀ u, Clear (q.territory hq.apart) u := fun _ => False.elim
  refine ⟨r, r', s.concluded ws r, (s.concluded ws r).concluded vs r',
    (s.concluded vs r').concluded ws r,
    hσ.carries (.refl _ _) (hclear s) (carries_nil _), answers_concluded s ws r, fun o ho => ?_,
    fun z hz => ?_,
    hσ.carries (.refl _ _) (hclear s) (hτ.carries hlater (hclear' _) (carries_nil _)), ?_,
    hτ.carries (.refl _ _) (hclear' s) (hσ.carries hlater' (hclear _) (carries_nil _)), ?_, hsame⟩
  · exact Exchange.pair_after_of_not hσ.within ho s.exchange
  · exact Exchange.channel_after_of_not_mem hσ.within hz s.exchange
  · rw [answers_concluded, answers_concluded, List.append_assoc]
    rfl
  · rw [answers_concluded, answers_concluded, List.append_assoc]
    rfl

def neighbours : List Operation :=
  [.request .dispatched "Local" "100@internal" ⟨4⟩, .request .dispatched "Local" "200@internal" ⟨4⟩]

theorem neighbours_independent : ∃ s n, start {} neighbours = .ok s ∧ (s.run n).Reachable 2 ∧
    (s.run n).exchange.Undisturbed ⟨1⟩ ⟨1⟩ ⟨2⟩ ∧ (s.run n).exchange.Undisturbed ⟨2⟩ ⟨3⟩ ⟨4⟩ ∧
    ∃ r r' t u v,
      (s.run n).Carries [.signal .dispatched ⟨1⟩ .hangup] t ∧ t.answers = (s.run n).answers ++ [r] ∧
      (∀ o ≠ ⟨1⟩, t.exchange.pair o = (s.run n).exchange.pair o) ∧
      (∀ z ∉ [⟨1⟩, ⟨2⟩], t.exchange.channel z = (s.run n).exchange.channel z) ∧
      (s.run n).Carries [.signal .dispatched ⟨1⟩ .hangup,
      .signal .direct ⟨4⟩ (.sendText "hello")] u ∧
      u.answers = (s.run n).answers ++ [r, r'] ∧
      (s.run n).Carries [.signal .direct ⟨4⟩ (.sendText "hello"),
      .signal .dispatched ⟨1⟩ .hangup] v ∧
      v.answers = (s.run n).answers ++ [r', r] ∧ u.exchange.Same v.exchange := by
  have hstart : start {} neighbours = .ok { exchange := {}, agenda := tasksOf neighbours } := rfl
  have hreachable := (Reachable.start hstart).run 6
  have hp : (run 6 { exchange := {}, agenda := tasksOf neighbours }).exchange.Undisturbed ⟨1⟩
    ⟨1⟩ ⟨2⟩ := by
    constructor <;> decide +kernel
  have hq : (run 6 { exchange := {}, agenda := tasksOf neighbours }).exchange.Undisturbed ⟨2⟩
    ⟨3⟩ ⟨4⟩ := by
    constructor <;> decide +kernel
  refine ⟨_, 6, hstart, ?_, hp, hq,
    pairs_independent (by decide) hp hq (by decide) (by decide) .dispatched .direct
    .hangup (.sendText "hello")⟩
  have hgranted : granted { exchange := {}, agenda := tasksOf neighbours } 6 = 2 := by
    decide +kernel
  rwa [hgranted] at hreachable

end Session
end Switchboard
