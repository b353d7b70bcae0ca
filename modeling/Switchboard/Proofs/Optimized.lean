import Switchboard.Proofs.TurnState.Moves

namespace Switchboard

namespace TurnState

variable {may : Effect → Prop} {x y : TurnState} {p : PairId}

theorem Step.optimized (hs : Step may x y) (hcalls : ¬ may (.calls p))
    (h : (x.exchange.pair p).phase = .optimized) : (y.exchange.pair p).phase = .optimized := by
  cases hs with
  | quiet hview => rwa [Exchange.pair_eq_of_view hview]
  | enter e w d a => exact (Exchange.pair_modifyPair_congr Pair.phase e a.pair p rfl).trans h
  | leave e w d a => rwa [Exchange.phase_leaveGlare]
  | @depart e w d a side leaver =>
      rcases Exchange.pair_vacate_or e a.pair p side leaver with ⟨hp, -⟩ | ⟨-, hp⟩ <;>
        dsimp only <;> rw [hp]
      · exact h
      · rw [Pair.phase_detached]
        exact Pair.phase_clear_of_optimized h side
  | call e w d q chan hmay =>
      have hne : p ≠ q := fun hpq => hcalls (hpq ▸ hmay)
      dsimp only
      rwa [Exchange.pair_modifyPair_of_ne _ _ hne]
  | optimize e w d q =>
      rcases Exchange.pair_modifyPair_or e q p ({ · with phase := .optimized }) with hp | ⟨-, hp⟩
      · dsimp only
        rwa [hp]
      · dsimp only
        rw [hp]
  | reseat e w d q side old new =>
      -- A masquerade that is carried out changes who sits in the pair, and not its phase.
      refine (Exchange.pair_modifyPair_congr Pair.phase e q p ?_).trans h
      cases side <;> rfl
  | grow hgrown => rwa [hgrown.pair]
  | @opened e e' w d q owner chan hopened =>
      have hne : p ≠ q := by
        rintro rfl
        dsimp only at h
        rw [Exchange.pair_of_not_mem hopened.new] at h
        cases h
      dsimp only
      rwa [hopened.elsewhere p hne]
  | start | queue | serve | mark | scheduleHangup | swap | feed | refit | register => exact h

theorem Leads.optimized (hs : Leads may x y) (hcalls : ¬ may (.calls p))
    (h : (x.exchange.pair p).phase = .optimized) : (y.exchange.pair p).phase = .optimized := by
  induction hs with
  | refl => exact h
  | tail _ hstep ih => exact hstep.optimized hcalls ih

/-- What an optimised pair lets through is the bare hangup of its owner-side. -/
theorem Step.bare_of_optimized (hs : Step may x y) (h : (x.exchange.pair p).phase = .optimized)
    (hthrough : ∀ a, may (.carries a) → a.pair = p) (hfeeds : ∀ c, ¬ may (.feeds c))
    (c : ChannelId) :
    (y.exchange.channel c).frames = (x.exchange.channel c).frames ∨
      (∃ a, may (.carries a) ∧ a.purpose.leaving = some .owner) ∧
        (y.exchange.channel c).frames = (x.exchange.channel c).frames ++ [Frame.bare .hangup] := by
  rcases hs.frames with hsame | ⟨a, rest, b, f, hmay, -, -, hend, hmessage, hphase, hy⟩ |
    ⟨b, hmay, -⟩
  · exact .inl (hsame c)
  · have hp := hthrough a hmay
    rw [hp, h] at hphase
    obtain ⟨q, side, source, purpose⟩ := a
    cases purpose with
    | relay frame source => cases hphase rfl
    | dialStatus leaver status => cases hmessage
    | ownerLeaving leaver =>
        cases hmessage
        rw [hy, Exchange.queueFrame]
        rcases Exchange.channel_modifyChannel_or x.exchange b c
          (fun z => { z with frames := z.frames ++ [Frame.bare .hangup] }) with hc |
          ⟨-, hc⟩ <;> rw [hc]
        · exact .inl rfl
        · exact .inr ⟨⟨_, hmay, rfl⟩, rfl⟩
  · exact absurd hmay (hfeeds b)

theorem Leads.bare_of_optimized (hs : Leads may x y) (hcalls : ¬ may (.calls p))
    (h : (x.exchange.pair p).phase = .optimized) (hthrough : ∀ a, may (.carries a) → a.pair = p)
    (hfeeds : ∀ c, ¬ may (.feeds c)) (c : ChannelId) :
    ∃ hangups, (y.exchange.channel c).frames =
        (x.exchange.channel c).frames ++ List.replicate hangups (.bare .hangup) ∧
      (hangups ≠ 0 → ∃ a, may (.carries a) ∧ a.purpose.leaving = some .owner) := by
  induction hs with
  | refl => exact ⟨0, by simp, fun hne => absurd rfl hne⟩
  | tail hsteps hstep ih =>
      obtain ⟨hangups, hframes, hleaving⟩ := ih
      rcases hstep.bare_of_optimized (Leads.optimized hsteps hcalls h) hthrough hfeeds c with
        hsame | ⟨howner, hbare⟩
      · exact ⟨hangups, hsame.trans hframes, hleaving⟩
      · refine ⟨hangups + 1, ?_, fun _ => howner⟩
        rw [hbare, hframes, List.append_assoc, ← List.replicate_succ']

end TurnState

namespace Exchange

variable {e : Exchange}

theorem phase_launch {c : ChannelId} {p : PairId} (hmember : e.membership c = some (p, .owner))
    (hok : (e.launch c).1 = .ok ()) : ((e.launch c).2.pair p).phase = .dialplanLaunched := by
  have hend : (e.pair p).endpoint .owner = some c := (membership_eq_some hmember).2
  have hp : p ∈ e.pairIds := mem_pairIds_of_attached hend
  revert hok
  rw [launch]
  rw [hmember]
  dsimp only
  cases (e.pair p).chan with
  | none => exact fun hok => by cases hok
  | some chan =>
      dsimp only
      split
      · exact fun hok => by cases hok
      · split
        · exact fun hok => by cases hok
        · generalize hx : ((e.handOver c chan).extensionExists _ _ _).2 = x
          have hrecords : x.records = e.records := by rw [← hx]; rfl
          have hstart := records_startDialplan x chan
          rcases hs : x.startDialplan chan with ⟨_ | _, y⟩ <;> rw [hs] at hstart
          · exact fun hok => by cases hok
          · intro _
            have hy : p ∈ y.pairIds := by rwa [pairIds_eq_of_records (hstart.trans hrecords)]
            exact congrArg Pair.phase (revised_modifyPair hy _).here

end Exchange

namespace Session

theorem Entitles.not_retry {s : Session} {p : PairId} (h : s.Entitles (.calls p)) (a : Acquisition)
    (rest : List Task) : s.agenda ≠ .retry a :: rest := by
  rintro hagenda
  obtain ⟨t, rest', ht, hentitles⟩ := h
  rw [hagenda] at ht
  cases ht
  cases hentitles

theorem phase_step_of_calls {s : Session} {p : PairId} (h : s.Entitles (.calls p)) :
    (s.step.exchange.pair p).phase = .dialplanLaunched := by
  obtain ⟨t, rest, hagenda, hentitles⟩ := h
  have hanswer : ∀ (e : Exchange) (c : ChannelId) (dialled : String) (milliseconds : Option Nat),
      (e.signal c (.call dialled milliseconds)).1 = (e.launch c).2 := by
    intro e c dialled milliseconds
    rw [Exchange.signal]
    rcases e.launch c with ⟨_ | _, e'⟩ <;> rfl
  cases hentitles with
  | @dispatched c signal e' _ hdriven hl h =>
      cases h with
      | @calls _ dialled milliseconds hs hp hok =>
          subst hs
          have hstep : s.step.exchange = (s.exchange.dispatch c (.call dialled milliseconds)).1 :=
            congrArg exchange (step_perform hagenda)
          have hdispatch : (s.exchange.dispatch c (.call dialled milliseconds)).1 =
            (e'.launch c).2 := by
            rw [Exchange.dispatch_of_lock hdriven hl]
            exact hanswer e' c dialled milliseconds
          rw [hstep, hdispatch]
          exact Exchange.phase_launch hp hok
  | @direct c signal _ h =>
      cases h with
      | @calls _ dialled milliseconds hs hp hok =>
          subst hs
          have hstep : s.step.exchange = (s.exchange.signal c (.call dialled milliseconds)).1 :=
            congrArg exchange (step_signal_of_record hagenda (Exchange.membership_eq_some hp).1)
          rw [hstep, hanswer]
          exact Exchange.phase_launch hp hok

/-- What the next task sends goes through the one record, and nobody else puts anything on a queue.
-/
def KeepsTo (s : Session) (p : PairId) : Prop :=
  (∀ a, s.Entitles (.carries a) → a.pair = p) ∧ ∀ c, ¬ s.Entitles (.feeds c)

/-- Along any run, with any operations of others wherever a driver has backed off, an optimised pair
stays optimised exactly as long as no call of its owner-side goes through. As long as it does,
nothing goes through its record but the bare hangup of an owner-side that leaves. -/
theorem stays_optimized_iff {s : Nat → Session} {n : Nat} {p : PairId}
    (hmoves : ∀ k < n, Moves (s k) (s (k + 1))) (hp : ((s 0).exchange.pair p).phase = .optimized) :
    ((∀ k ≤ n, ((s k).exchange.pair p).phase = .optimized) ↔ ∀ k < n, ¬ (s k).Entitles (.calls p)) ∧
    ∀ k < n, ((s k).exchange.pair p).phase = .optimized →
      ((s (k + 1)).exchange.pair p).phase = .optimized → (s k).KeepsTo p → ∀ c, ∃ hangups,
        ((s (k + 1)).exchange.channel c).frames =
          ((s k).exchange.channel c).frames ++ List.replicate hangups (.bare .hangup) ∧
        (hangups ≠ 0 → ∃ a, (s k).Entitles (.carries a) ∧ a.purpose.leaving = some .owner) := by
  -- A call that goes through leaves no doubt about the phase.
  have hcalled : ∀ k < n, ((s (k + 1)).exchange.pair p).phase = .optimized →
      ¬ (s k).Entitles (.calls p) := by
    intro k hk hafter hcalls
    have hmove := hmoves k hk
    generalize s (k + 1) = t at hmove hafter
    cases hmove with
    | step =>
        rw [phase_step_of_calls hcalls] at hafter
        cases hafter
    | others a rest ops hagenda => exact hcalls.not_retry a rest hagenda
  refine ⟨⟨fun hall k hk => hcalled k hk (hall (k + 1) hk), ?_⟩, ?_⟩
  · intro hcalls k
    induction k with
    | zero => exact fun _ => hp
    | succ k ih =>
        intro hk
        obtain ⟨d, hleads⟩ := (hmoves k hk).leads
        exact hleads.optimized (hcalls k hk) (ih (Nat.le_of_succ_le hk))
  · intro k hk hbefore hafter hkeeps c
    obtain ⟨d, hleads⟩ := (hmoves k hk).leads
    exact hleads.bare_of_optimized (hcalled k hk hafter) hbefore hkeeps.1 hkeeps.2 c

/-- The chan-side is bridged to a third channel whose place the owner-side is about to take already,
so that the masquerade is refused; then the owner-side is called. -/
def recalled : List Operation :=
  [.addExtension "internal" "100", .request .dispatched "Local" "100@internal" ⟨4⟩,
    .newChannel "SIP/third", .masquerade ⟨1⟩ ⟨3⟩, .transfer .bridge ⟨2⟩ ⟨3⟩,
    .signal .dispatched ⟨2⟩ (.write (.voice ⟨⟨4⟩, [0]⟩)),
    .signal .dispatched ⟨1⟩ (.call "100" none)]

theorem recalled_relaunches : ∃ s, start {} recalled = .ok s ∧
    ((s.run 20).exchange.pair ⟨1⟩).phase = .optimized ∧
    ((s.run 40).exchange.pair ⟨1⟩).phase = .dialplanLaunched :=
  ⟨_, rfl, by decide +kernel, by decide +kernel⟩

theorem recalled_calls : ∃ s, start {} recalled = .ok s ∧
    ((s.run 20).exchange.pair ⟨1⟩).phase = .optimized ∧
    ∃ k < 20, (s.run (20 + k)).Entitles (.calls ⟨1⟩) := by
  have hoptimized :
    ((run 20 { exchange := {}, agenda := tasksOf recalled }).exchange.pair ⟨1⟩).phase =
      .optimized := by decide +kernel
  refine ⟨_, rfl, hoptimized, ?_⟩
  by_contra hnone
  have hmoves : ∀ k < 20, Moves (run (20 + k) { exchange := {}, agenda := tasksOf recalled })
      (run (20 + (k + 1)) { exchange := {}, agenda := tasksOf recalled }) := by
    intro k _
    rw [← Nat.add_assoc, run_succ]
    exact .step _
  have hstays :=
    (stays_optimized_iff hmoves hoptimized).1.2 fun k hk hcalls => hnone ⟨k, hk, hcalls⟩
  exact absurd (hstays 20 (Nat.le_refl 20)) (by decide +kernel)

end Session
end Switchboard
