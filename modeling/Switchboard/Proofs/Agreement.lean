import Switchboard.Proofs.Moves
import Switchboard.Proofs.Places.Service

namespace Switchboard

def Exchange.Agrees (e : Exchange) : Prop :=
  ∀ c p, (e.channel c).slot = .pair p ↔ (e.pair p).owner = some c ∨ (e.pair p).chan = some c

namespace Exchange

theorem exists_endpoint {x : Pair} {c : ChannelId} :
    (∃ side, x.endpoint side = some c) ↔ x.owner = some c ∨ x.chan = some c := by
  constructor
  · rintro ⟨_ | _, h⟩
    · exact .inl h
    · exact .inr h
  · rintro (h | h)
    · exact ⟨.owner, h⟩
    · exact ⟨.chan, h⟩

theorem agrees_iff_places {e : Exchange} : e.Agrees ↔
    ∀ c p, (e.places.place c).slot = .pair p ↔ ∃ side, e.places.seat p side = some c :=
  forall_congr' fun _ => forall_congr' fun _ => iff_congr Iff.rfl exists_endpoint.symm

theorem isSome_lock? {e : Exchange} {c : ChannelId} :
    (e.lock? c).isSome = (e.channel c).lock.openTo .main := by
  unfold lock? RecursiveLock.lock?
  split
  · next h => rw [h]; rfl
  · next h => rw [Bool.eq_false_iff.2 h]; rfl

end Exchange

namespace Session

/-- The next task is a take-over that need not wait for the clone, and the clone's slot holds a
pair. -/
def Crosses (s : Session) : Prop :=
  ∃ survivor clone rest p, s.agenda = .takeOver survivor clone :: rest ∧
    (s.exchange.channel clone).lock.openTo .main = true ∧ (s.exchange.channel clone).slot = .pair p

/-- Slots and sides match, every task of the agenda fits them, and no script runs in between. -/
structure Orderly (s : Session) : Prop where
  matched : s.exchange.places.Matched
  prompt : Prompt s.exchange.places s.agenda
  backOff : s.backOffScripts = []
  resolution : s.resolutionScripts = []

theorem matched_start (config : Config) : ({ config } : Exchange).places.Matched := by
  have hplace : ∀ c, ({ config } : Exchange).places.place c = ⟨.empty, .proxy, none, none⟩ := by
    intro c
    have hnobody : ¬ c.Among ({ config } : Exchange).channels.size := fun hc =>
      Nat.lt_irrefl 0 (Nat.lt_of_lt_of_le hc.1 hc.2)
    change (({ config } : Exchange).channel c).place = _
    rw [Exchange.channel_of_not_among _ hnobody]
    rfl
  have hseat : ∀ p side, ({ config } : Exchange).places.seat p side = none := by
    intro p side
    change (({ config } : Exchange).pair p).endpoint side = none
    rw [Exchange.pair_of_not_mem List.not_mem_nil]
    cases side <;> rfl
  constructor
  case registered => rfl
  all_goals simp [hplace, hseat]

theorem orderly_start {config : Config} {ops : List Operation} {s : Session}
    (h : start config ops = .ok s) (hops : ∀ op ∈ ops, op.keepsSlots = true) : s.Orderly := by
  rw [eq_of_start h]
  refine ⟨matched_start config, .fits fun t ht => ?_, rfl, rfl⟩
  obtain ⟨op, hop, ht⟩ := List.mem_flatMap.1 ht
  rcases List.mem_cons.1 ht with rfl | ht
  · exact hops op hop
  · rw [List.mem_singleton.1 ht]
    trivial

theorem Orderly.turn {s : Session} {t : Turn} (ht : t.Orderly s.exchange.places)
    (hrest : ∀ u ∈ s.agenda, u.Fits s.exchange.places) (hb : s.backOffScripts = [])
    (hr : s.resolutionScripts = []) : (s.turn t).Orderly :=
  ⟨ht.matched, ht.prompt.append fun u hu => (hrest u hu).mono ht.channels, hb, hr⟩

theorem Orderly.operate {s : Session} (h : s.exchange.places.Matched) {op : Operation}
    (hop : op.keepsSlots = true) (hrest : ∀ u ∈ s.agenda, u.Fits s.exchange.places)
    (hb : s.backOffScripts = []) (hr : s.resolutionScripts = []) : (s.operate op).Orderly := by
  unfold Session.operate
  cases hmissing : s.exchange.missing op with
  | some answer => exact ⟨h, .fits hrest, hb, hr⟩
  | none =>
      dsimp only
      split
      · cases hop
      · cases hop
      · exact turn (Exchange.perform_orderly h _ hop hmissing) hrest hb hr

theorem Orderly.perform {s : Session} (h : s.exchange.places.Matched) {t : Task}
    (ht : t.Fits s.exchange.places ∨ ∃ a : Acquisition, t = .retry a ∧ a.InPlace s.exchange.places)
    (hfree : ∀ survivor clone, t = .takeOver survivor clone →
    (s.exchange.lock? clone).isSome = true →
      ∀ p, (s.exchange.channel clone).slot ≠ .pair p)
    (hrest : ∀ u ∈ s.agenda, u.Fits s.exchange.places) (hb : s.backOffScripts = [])
    (hr : s.resolutionScripts = []) : (s.perform t).Orderly := by
  have hresume := turn (Exchange.resume_orderly h t ht hfree) hrest hb hr
  have hquiet : s.Orderly := ⟨h, .fits hrest, hb, hr⟩
  rcases ht with ht | ⟨a, rfl, -⟩
  · cases t with
    | operate op => exact operate h ht hrest hb hr
    | pause point =>
        cases point <;> unfold Session.perform Session.pause
        · rw [hb]
          exact hquiet
        · rw [hr]
          exact hquiet
    | settle answer => exact ⟨h, .fits hrest, hb, hr⟩
    | report => exact ⟨h, .fits hrest, hb, hr⟩
    | raise c =>
        rw [Session.perform]
        split
        · rw [← Exchange.places_setState s.exchange c .up] at h hrest
          exact ⟨h, .fits hrest, hb, hr⟩
        · exact hquiet
    | closeScript => exact ht.elim
    | dispatch | hangup | delist | unlock | retry | write | complete | takeOver => exact hresume
  · exact hresume

theorem Orderly.step {s : Session} (h : s.Orderly) (hc : ¬ s.Crosses) : s.step.Orderly := by
  obtain ⟨hm, hp, hb, hr⟩ := h
  cases hagenda : s.agenda with
  | nil =>
      rw [step_idle hagenda]
      exact ⟨hm, hp, hb, hr⟩
  | cons t rest =>
      have hstep : s.step = ({ s with agenda := rest } : Session).perform t := step_perform hagenda
      have hfree : ∀ survivor clone, t = .takeOver survivor clone →
          (s.exchange.lock? clone).isSome = true →
          ∀ p, (s.exchange.channel clone).slot ≠ .pair p := by
        rintro survivor clone rfl hl p hslot
        exact hc ⟨survivor, clone, rest, p, hagenda, Exchange.isSome_lock?.symm.trans hl, hslot⟩
      rw [hagenda] at hp
      rw [hstep]
      cases hp with
      | fits hts =>
          have hrest : ∀ u ∈ rest, u.Fits s.exchange.places := fun u hu => hts u (.tail t hu)
          exact Orderly.perform (s := { s with agenda := rest }) hm
            (.inl (hts t (.head rest))) hfree hrest hb hr
      | retry ha hrest =>
          exact Orderly.perform (s := { s with agenda := rest }) hm
            (.inr ⟨_, rfl, ha⟩) hfree hrest hb hr
      | @paused a rest ha hrest =>
          have hpause : ∀ u : Session, u.backOffScripts = [] → u.perform (.pause .backOff) = u := by
            intro u hu
            simp only [Session.perform, pause, hu]
          rw [hpause { s with agenda := .retry a :: rest } hb]
          exact ⟨hm, .retry ha hrest, hb, hr⟩

theorem Orderly.agrees {s : Session} (h : s.Orderly) : s.exchange.Agrees :=
  Exchange.agrees_iff_places.2 h.matched.agree

theorem Orderly.not_agrees {s : Session} (h : s.Orderly) (hc : s.Crosses) :
    ¬ s.step.exchange.Agrees := by
  obtain ⟨survivor, clone, rest, p, hagenda, hlock, hslot⟩ := hc
  have hp := h.prompt
  rw [hagenda] at hp
  have hknown : survivor.Among s.exchange.channels.size ∧ clone.Among s.exchange.channels.size := by
    cases hp with
    | fits hts => exact hts _ (.head rest)
  have hstep : s.step.exchange = (s.exchange.takeOver survivor clone).1 :=
    congrArg exchange (step_perform hagenda)
  rw [hstep, Exchange.agrees_iff_places]
  exact Exchange.takeOver_disagrees h.matched hknown.1 hknown.2
    (Exchange.isSome_lock?.trans hlock) hslot

/-- In a session of operations that leave the slots to the driver, whatever they are, slots and
records agree at every step exactly as long as no channel takes over one whose slot holds a pair. -/
theorem agrees_iff {config : Config} {ops : List Operation} {s : Session} {n : Nat}
    (hstart : start config ops = .ok s) (hops : ∀ op ∈ ops, op.keepsSlots = true) :
    (∀ k ≤ n, (s.run k).exchange.Agrees) ↔ ∀ k < n, ¬ (s.run k).Crosses := by
  have hzero := orderly_start hstart hops
  constructor
  · intro hagrees
    have horderly : ∀ k ≤ n, (s.run k).Orderly := by
      intro k
      induction k with
      | zero => exact fun _ => hzero
      | succ k ih =>
          intro hk
          have hbefore := ih (Nat.le_of_succ_le hk)
          have hafter := hagrees (k + 1) hk
          rw [run_succ] at hafter ⊢
          exact hbefore.step fun hc => hbefore.not_agrees hc hafter
    intro k hk hc
    have hafter := hagrees (k + 1) hk
    rw [run_succ] at hafter
    exact (horderly k (Nat.le_of_lt hk)).not_agrees hc hafter
  · intro hcrosses
    have horderly : ∀ k ≤ n, (s.run k).Orderly := by
      intro k
      induction k with
      | zero => exact fun _ => hzero
      | succ k ih =>
          intro hk
          rw [run_succ]
          exact (ih (Nat.le_of_succ_le hk)).step (hcrosses k hk)
    exact fun k hk => (horderly k hk).agrees

/-- The chan-side of one pair is bridged to the owner-side of another, and the first pair steps out
of the call. -/
def chained : List Operation :=
  [.request .dispatched "Local" "100@internal" ⟨4⟩, .request .dispatched "Local" "200@internal" ⟨4⟩,
    .transfer .bridge ⟨2⟩ ⟨3⟩, .signal .dispatched ⟨2⟩ (.write (.voice ⟨⟨4⟩, [0]⟩))]

/-- When all is done the survivor's slot holds the second pair, and the pair the clone. -/
theorem chained_disagree : ∃ s, start {} chained = .ok s ∧ (s.run 40).agenda = [] ∧
    ((s.run 40).exchange.channel ⟨1⟩).slot = .pair ⟨2⟩ ∧
    ((s.run 40).exchange.pair ⟨2⟩).owner = some ⟨3⟩ ∧ ¬ (s.run 40).exchange.Agrees := by
  refine ⟨_, rfl, by decide +kernel, by decide +kernel, by decide +kernel, fun hagrees => ?_⟩
  have hseat := (hagrees ⟨1⟩ ⟨2⟩).1 (by decide +kernel)
  exact absurd hseat (by decide +kernel)

theorem chained_crosses : ∃ s, start {} chained = .ok s ∧ (∀ op ∈ chained, op.keepsSlots = true) ∧
    ∃ k < 40, (s.run k).Crosses := by
  have hops : ∀ op ∈ chained, op.keepsSlots = true := by decide
  have hstart : start {} chained = .ok { exchange := {}, agenda := tasksOf chained } := rfl
  refine ⟨_, hstart, hops, ?_⟩
  by_contra hnone
  have hagrees := (agrees_iff (n := 40) hstart hops).2 fun k hk hc => hnone ⟨k, hk, hc⟩
  have hseat := (hagrees 40 (Nat.le_refl 40) ⟨1⟩ ⟨2⟩).1 (by decide +kernel)
  exact absurd hseat (by decide +kernel)

end Session
end Switchboard
