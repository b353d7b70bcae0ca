import Switchboard.Proofs.Listing
import Switchboard.Proofs.Places.Frame

namespace Switchboard

namespace Exchange

variable (e : Exchange)

def bookings : Config × (PairId → Destination) := (e.config, fun p => (e.pair p).destination)

theorem bookings_modifyPair (p : PairId) {f : Pair → Pair}
    (h : (f (e.pair p)).destination = (e.pair p).destination) :
    (e.modifyPair p f).bookings = e.bookings := by
  apply Prod.ext
  · rfl
  · funext q
    by_cases hq : q = p
    · subst hq
      exact pair_modifyPair_congr Pair.destination e q q h
    · exact congrArg Pair.destination (pair_modifyPair_of_ne e f hq)

theorem bookings_destroy (p : PairId) : (e.destroy p).bookings = e.bookings := by
  rw [destroy]
  split
  · rfl
  · exact bookings_modifyPair e p rfl

theorem bookings_leaveGlare (p : PairId) : (e.leaveGlare p).bookings = e.bookings := by
  have hleft := bookings_modifyPair e p (f := ({ · with glare := (e.pair p).glare.leave.2 })) rfl
  rw [leaveGlare]
  dsimp only
  split
  · exact (bookings_destroy _ p).trans hleft
  · exact hleft

theorem bookings_detach (p : PairId) (side : Side) : (e.detach p side).bookings = e.bookings := by
  have hclear : (e.clearSide p side).bookings = e.bookings :=
    bookings_modifyPair e p (f := (·.clear side)) (by cases side <;> rfl)
  have hcancel : ((e.clearSide p side).cancelGlare p).bookings = e.bookings :=
    (bookings_modifyPair _ p rfl).trans hclear
  rw [detach]
  split
  · rw [retire_eq]
    split
    · exact hcancel
    · exact (bookings_destroy _ p).trans hcancel
  · exact hclear

theorem deviceState_of_parsed {device exten context : String}
    (h : Destination.parseDevice device = some (exten, context)) :
    e.deviceState device =
      (if (context, exten) ∈ e.extensions then
        if e.ownerActive exten context = true then .inUse else .notInUse
      else .invalid,
      { e with lookups := e.lookups ++
      [⟨context, exten, 1, none, e.hasExtension context exten⟩] }) := by
  rw [deviceState, h]
  by_cases hfound : (context, exten) ∈ e.extensions
  · simp [extensionExists, hasExtension, hfound, ownerActive]
    rfl
  · simp [extensionExists, hasExtension, hfound]

theorem ownerActive_iff {exten context : String}
    (hlisted : e.registry.pairs = e.pairIds.filter fun p => !(e.pair p).isVacant) :
    e.ownerActive exten context = true ↔ ∃ p ∈ e.pairIds, (e.pair p).destination.exten = exten ∧
      (e.pair p).destination.context = context ∧ (e.pair p).owner ≠ none := by
  have hlive : ∀ p, (e.pair p).owner ≠ none → (e.pair p).isVacant = false :=
    fun p h => Pair.not_isVacant_iff.2 ⟨.owner, h⟩
  simp only [ownerActive, hlisted, List.any_filter, List.any_eq_true, Bool.and_eq_true,
    decide_eq_true_eq, Option.isSome_iff_ne_none, Bool.not_eq_true']
  constructor
  · rintro ⟨p, hp, -, ⟨hexten, hcontext⟩, howner⟩
    exact ⟨p, hp, hexten, hcontext, howner⟩
  · rintro ⟨p, hp, hexten, hcontext, howner⟩
    exact ⟨p, hp, hlive p howner, ⟨hexten, hcontext⟩, howner⟩

end Exchange

open Exchange

theorem Ledger.Step.bookings {found : Pair → Prop} {l l' : Ledger} (hs : Step found l l') :
    l'.exchange.bookings = l.exchange.bookings := by
  cases hs with
  | enter e m p side => exact bookings_modifyPair e p rfl
  | leave e m p => exact bookings_leaveGlare e p
  | await => rfl
  | detach e m p side => exact bookings_detach e p side
  | replace e m p side c => exact bookings_modifyPair e p (by cases side <;> rfl)
  | rephase e m p phase => exact bookings_modifyPair e p rfl

theorem Ledger.Steps.bookings {found : Pair → Prop} {l l' : Ledger} (hs : Steps found l l') :
    l'.exchange.bookings = l.exchange.bookings := by
  induction hs with
  | refl => rfl
  | tail _ hstep ih => exact hstep.bookings.trans ih

namespace Session

theorem grants_eq_isSome (s : Session) : s.grants = s.dialled.isSome := by
  cases hg : s.grants with
  | true =>
      obtain ⟨text, _, _, _, _, _, hd, _⟩ := step_dialled s hg
      rw [hd]
      rfl
  | false =>
      rw [dialled]
      split
      · rw [hg]
        rfl
      · rfl

/-- Sessions that may come about under these settings, with the destinations of the requests that
were granted on the way, as they were written and in their order. -/
inductive Dialled (config : Config) : List String → Session → Prop
  | start {ops s} (h : start config ops = .ok s) : Dialled config [] s
  | next {texts s t} (hs : Dialled config texts s) (h : Moves s t) :
      Dialled config (texts ++ s.dialled.toList) t

variable {config : Config} {texts : List String} {s : Session}

theorem Dialled.reachable (hs : s.Dialled config texts) : s.Reachable texts.length := by
  induction hs with
  | start h => exact .start h
  | @next texts s t _ hm ih =>
      have hlength : s.dialled.toList.length = s.grants.toNat := by
        rw [grants_eq_isSome]
        cases s.dialled <;> rfl
      rw [List.length_append, hlength]
      exact .next ih hm

theorem Dialled.next_number (hs : s.Dialled config texts) :
    s.exchange.pairs.next = texts.length + 1 :=
  congrArg (· + 1) hs.reachable.size

theorem Moves.bookings {t : Session} (hm : Moves s t) (hg : s.grants = false) :
    t.exchange.bookings = s.exchange.bookings := by
  rcases hm.cases with ⟨htrue, -⟩ | ⟨-, hsteps⟩
  · rw [hg] at htrue
    cases htrue
  · exact hsteps.bookings

theorem Moves.booked {t : Session} (hm : Moves s t) (hg : s.grants = true) :
    ∃ text d, s.dialled = some text ∧
      Destination.parse text s.exchange.config.defaultContext = .ok d ∧
      t.exchange.config = s.exchange.config ∧
      (t.exchange.pair ⟨s.exchange.pairs.next⟩).destination = d ∧
      ∀ q ≠ ⟨s.exchange.pairs.next⟩, t.exchange.pair q = s.exchange.pair q := by
  obtain ⟨text, d, format, j, owner, chan, hdialled, hparse, hstep⟩ := step_dialled s hg
  have ht : t.exchange.records = s.exchange.records.opened (.opened d format j owner chan) := by
    cases hm with
    | step => exact congrArg Ledger.exchange hstep
    | others a rest ops h =>
        rw [grants_of_retry h] at hg
        cases hg
  have hpair : ∀ q, t.exchange.pair q =
      (s.exchange.records.opened (.opened d format j owner chan)).pair q := fun q => by
    rw [← ht, pair_records]
  have hsettings : t.exchange.records.config = s.exchange.config := by
    rw [ht]
    rfl
  refine ⟨text, d, hdialled, hparse, hsettings, ?_, fun q hq => ?_⟩
  · rw [hpair]
    exact congrArg Pair.destination (pair_opened_next s.exchange.records _)
  · rw [hpair]
    exact pair_opened_of_ne _ hq

def dialledIn (s : Session) : Nat → List String
  | 0 => []
  | n + 1 => s.dialledIn n ++ (s.run n).dialled.toList

theorem Dialled.run (hs : s.Dialled config texts) (k : Nat) :
    (s.run k).Dialled config (texts ++ s.dialledIn k) := by
  induction k with
  | zero =>
      rw [dialledIn, List.append_nil]
      exact hs
  | succ k ih =>
      rw [run_succ, dialledIn, ← List.append_assoc]
      exact .next ih (.step _)

theorem Dialled.bookings (hs : s.Dialled config texts) :
    s.exchange.config = config ∧ ∀ i text, texts[i]? = some text →
      Destination.parse text config.defaultContext = .ok (s.exchange.pair ⟨i + 1⟩).destination := by
  induction hs with
  | start h =>
      rw [eq_of_start h]
      refine ⟨rfl, fun i text hi => ?_⟩
      cases hi
  | @next texts s t hs hm ih =>
      obtain ⟨hconfig, hbooked⟩ := ih
      cases hg : s.grants with
      | true =>
          obtain ⟨text, d, hdialled, hparse, hsettings, hnew, hold⟩ := hm.booked hg
          rw [hs.next_number] at hnew hold
          refine ⟨hsettings.trans hconfig, fun i other hi => ?_⟩
          rw [hdialled, Option.toList_some] at hi
          rcases Nat.lt_or_ge i texts.length with hlt | hge
          · rw [List.getElem?_append_left hlt] at hi
            have hne : (⟨i + 1⟩ : PairId) ≠ ⟨texts.length + 1⟩ := fun h =>
              hlt.ne (Nat.succ.inj (PairId.mk.inj h))
            rw [hold _ hne]
            exact hbooked i other hi
          · rw [List.getElem?_append_right hge, List.getElem?_singleton] at hi
            obtain ⟨hlast, hsame⟩ := Option.ite_none_right_eq_some.1 hi
            obtain rfl : i = texts.length := by omega
            obtain rfl := Option.some.inj hsame
            rw [hnew, ← hconfig]
            exact hparse
      | false =>
          have hkept := hm.bookings hg
          have hnone : s.dialled = none := by
            rw [grants_eq_isSome, Option.isSome_eq_false_iff] at hg
            exact Option.isNone_iff_eq_none.1 hg
          rw [hnone, Option.toList_none, List.append_nil]
          refine ⟨(congrArg Prod.fst hkept).trans hconfig, fun i text hi => ?_⟩
          rw [hbooked i text hi]
          exact congrArg Except.ok (congrFun (congrArg Prod.snd hkept) ⟨i + 1⟩).symm

/-- Of all requests that were granted, one for the extension in the context still has its
owner-side. -/
def Occupied (config : Config) (texts : List String) (s : Session) (exten context : String) :
    Prop :=
  ∃ i text d, texts[i]? = some text ∧ Destination.parse text config.defaultContext = .ok d ∧
    d.exten = exten ∧ d.context = context ∧ (s.exchange.pair ⟨i + 1⟩).owner ≠ none

theorem Dialled.ownerActive_iff (hs : s.Dialled config texts) (exten context : String) :
    s.exchange.ownerActive exten context = true ↔ Occupied config texts s exten context := by
  have hbooked := hs.bookings.2
  have hsize : s.exchange.pairs.size = texts.length := hs.reachable.size
  have hlisted := hs.reachable.sound.listed
  dsimp only [ledger, records] at hlisted
  rw [Exchange.ownerActive_iff s.exchange hlisted]
  constructor
  · rintro ⟨⟨n⟩, hp, hexten, hcontext, howner⟩
    rw [mem_pairIds] at hp
    obtain ⟨i, rfl⟩ := Nat.exists_eq_succ_of_ne_zero (Nat.pos_iff_ne_zero.1 hp.1)
    have hi : i < texts.length := by
      rw [hsize] at hp
      exact hp.2
    have htext := List.getElem?_eq_getElem hi
    exact ⟨i, _, _, htext, hbooked i _ htext, hexten, hcontext, howner⟩
  · rintro ⟨i, text, d, htext, hparse, hexten, hcontext, howner⟩
    have hd : d = (s.exchange.pair ⟨i + 1⟩).destination :=
      Except.ok.inj (hparse.symm.trans (hbooked i text htext))
    have hend : (s.exchange.pair ⟨i + 1⟩).endpoint .owner ≠ none := howner
    exact ⟨⟨i + 1⟩, mem_pairIds_of_endpoint hend, hd ▸ hexten, hd ▸ hcontext, howner⟩

/-- A device is unknown to the dialplan, or in use as long as anybody who was ever requested for it
has its owner-side. The question itself leaves nothing behind but the record that it was asked. -/
theorem device_follows_owners (hs : s.Dialled config texts) (device : String) :
    s.exchange.pairs.size = texts.length ∧
    ∃ state asked, s.exchange.deviceState device =
        (state, { s.exchange with lookups := s.exchange.lookups ++ asked }) ∧
      (state = .invalid ↔ ∀ exten context, Destination.parseDevice device = some (exten, context) →
        (context, exten) ∉ s.exchange.extensions) ∧
      ∀ exten context, Destination.parseDevice device = some (exten, context) →
        (context, exten) ∈ s.exchange.extensions →
        (state = .inUse ↔ Occupied config texts s exten context) ∧
        (state = .notInUse ↔ ¬ Occupied config texts s exten context) := by
  refine ⟨hs.reachable.size, ?_⟩
  cases hd : Destination.parseDevice device with
  | none =>
      refine ⟨.invalid, [], ?_, ?_, ?_⟩
      · rw [deviceState, hd, List.append_nil]
      · simp
      · simp
  | some place =>
      obtain ⟨exten, context⟩ := place
      have hactive := hs.ownerActive_iff exten context
      refine ⟨_, _, deviceState_of_parsed s.exchange hd, ?_, ?_⟩
      · by_cases hknown : (context, exten) ∈ s.exchange.extensions
        · rw [if_pos hknown]
          refine ⟨fun h => ?_, fun h => absurd hknown (h exten context rfl)⟩
          split at h <;> cases h
        · rw [if_neg hknown]
          refine ⟨fun _ exten' context' h => ?_, fun _ => rfl⟩
          obtain ⟨rfl, rfl⟩ := Prod.mk.inj (Option.some.inj h)
          exact hknown
      · intro exten' context' h hknown
        obtain ⟨rfl, rfl⟩ := Prod.mk.inj (Option.some.inj h)
        rw [if_pos hknown, ← hactive]
        cases s.exchange.ownerActive exten context <;> simp

/-- Two requests for one extension, the first of which leaves the context to the settings. The
owner-side of the second leaves. -/
def shared : List Operation :=
  [.addExtension "internal" "100", .request .direct "Local" "100" ⟨4⟩,
    .request .dispatched "Local" "100@internal/n" ⟨4⟩, .signal .dispatched ⟨3⟩ .hangup]

theorem shared_in_use : ∃ s, start { defaultContext := "internal" } shared = .ok s ∧
    s.dialledIn 30 = ["100", "100@internal/n"] ∧ ((s.run 30).exchange.pair ⟨2⟩).owner = none ∧
    ((s.run 30).exchange.deviceState "100@internal/b").1 = .inUse := by
  have hstart : start { defaultContext := "internal" } shared =
      .ok { exchange := { config := { defaultContext := "internal" } }, agenda := tasksOf shared } := rfl
  generalize hs : ({ exchange := _, agenda := tasksOf shared } : Session) = s at hstart
  have hdialled : s.dialledIn 30 = ["100", "100@internal/n"] := by
    subst hs
    decide +kernel
  have hrun := (Dialled.start hstart).run 30
  rw [hdialled, List.nil_append] at hrun
  obtain ⟨-, state, asked, hstate, -, hknown⟩ := device_follows_owners hrun "100@internal/b"
  have hinternal : ("internal", "100") ∈ (s.run 30).exchange.extensions := by
    subst hs
    decide +kernel
  refine ⟨s, hstart, hdialled, ?_, ?_⟩
  · subst hs
    decide +kernel
  · rw [hstate, (hknown "100" "internal" (by decide +kernel) hinternal).1]
    refine ⟨0, "100", ⟨"100", "internal", {}⟩, rfl, by decide +kernel, rfl, rfl, ?_⟩
    subst hs
    decide +kernel

end Session
end Switchboard
