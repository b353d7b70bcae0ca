import Switchboard.Proofs.Detachment

namespace Switchboard

namespace Pair

variable {x : Pair} {side : Side} {o : ChannelId}

theorem left_of_live (h : x.glare.isCancelled = false) :
    x.left = { x with glare := x.glare.leave.2 } := by
  rw [left]
  refine if_neg fun hexit => ?_
  rw [Glare.leave_destroy_iff.1 hexit] at h
  cases h

theorem detached_of_attached {s : Side} (h : x.endpoint s = some o) (hs : s ≠ side) :
    x.detached side = x.clear side := by
  rw [detached]
  refine if_neg fun hvacant => ?_
  have hnone := Exchange.endpoint_of_isVacant hvacant s
  rw [Exchange.endpoint_clear, if_neg hs, h] at hnone
  cases hnone

end Pair

namespace TurnState

open Exchange

variable {may : Effect → Prop} {x y : TurnState} {p : PairId} {side : Side} {o : ChannelId}

/-- What a channel holds on to: its side, of a record that is not left to relays. -/
def Seat (e : Exchange) (p : PairId) (side : Side) : Option ChannelId × Bool :=
  ((e.pair p).endpoint side, (e.pair p).glare.isCancelled)

theorem Step.seat (hs : Step may x y) (hp : p ∈ x.exchange.pairIds)
    (h : Seat x.exchange p side = (some o, false)) :
    Seat y.exchange p side = (some o, false) ∨
      (∃ old new, may (.reseats old new) ∧ Seat y.exchange p side = (some new, false)) ∨
      (y.exchange.pair p).endpoint side = none ∧ ∃ a ∈ x.waiting, a.pair = p ∧
      a.purpose.leaving = some side := by
  obtain ⟨hend, hlive⟩ := Prod.mk.inj h
  have hsame : y.exchange.pair p = x.exchange.pair p →
    Seat y.exchange p side = (some o, false) := fun hp => by
    rw [Seat, hp]
    exact h
  have hmodify : ∀ (e : Exchange) (q : PairId) (f : Pair → Pair), Seat e p side = (some o, false) →
      (f (e.pair q)).endpoint side = (e.pair q).endpoint side →
      (f (e.pair q)).glare.isCancelled = (e.pair q).glare.isCancelled →
      Seat (e.modifyPair q f) p side = (some o, false) := fun e q f he hside hglare =>
    (pair_modifyPair_congr (fun z => (z.endpoint side, z.glare.isCancelled)) e q p
      (Prod.ext hside hglare)).trans he
  cases hs with
  | quiet hview => exact .inl (hsame (pair_eq_of_view hview p))
  | enter e w d a => exact .inl (hmodify e a.pair Pair.entered h rfl (Glare.isCancelled_enter _))
  | call e w d q chan => exact .inl (hmodify (e.serve chan) q _ h rfl rfl)
  | optimize e w d q => exact .inl (hmodify e q _ h rfl rfl)
  | leave e w d a =>
      rcases pair_leaveGlare_or e a.pair p with hq | ⟨-, hq⟩
      · exact .inl (hsame hq)
      · rw [Pair.left_of_live hlive] at hq
        refine .inl ?_
        rw [Seat, hq]
        exact Prod.ext hend ((Glare.isCancelled_leave _).trans hlive)
  | @depart e w d a s leaver hside =>
      rcases pair_vacate_or e a.pair p s leaver with ⟨hq, -⟩ | ⟨hpair, hq⟩
      · exact .inl (hsame hq)
      · by_cases hs : side = s
        · refine .inr (.inr ⟨?_, a, .head w, hpair.symm, hs ▸ hside⟩)
          dsimp only
          rw [hq, Pair.endpoint_detached, if_pos hs]
        · rw [Pair.detached_of_attached hend hs] at hq
          refine .inl ?_
          rw [Seat, hq, endpoint_clear, if_neg hs, Pair.glare_clear]
          exact h
  | reseat e w d q s old new hmay =>
      rcases pair_modifyPair_or e q p (·.replaced s new) with hq | ⟨-, hq⟩
      · exact .inl (hsame hq)
      · have hcell : ((e.pair p).replaced s new).glare.isCancelled = false := by
          cases s <;> exact hlive
        by_cases hs : side = s
        · refine .inr (.inl ⟨old, new, hmay, ?_⟩)
          rw [Seat, hq, endpoint_replaced, if_pos hs, hcell]
        · refine .inl ?_
          rw [Seat, hq, endpoint_replaced, if_neg hs, hcell, hend]
  | grow hgrown => exact .inl (hsame (hgrown.pair p))
  | @opened e e' w d q owner chan hopened =>
      exact .inl (hsame (hopened.elsewhere p fun hpq => hopened.new (hpq ▸ hp)))
  | _ => exact .inl h

theorem Leads.occupied (hs : Leads may x y) (hcarries : ∀ a, ¬ may (.carries a))
    (hwaiting : x.waiting = [])
    (hp : p ∈ x.exchange.pairIds) (h : Seat x.exchange p side = (some o, false)) :
    ∃ d, Seat y.exchange p side = (some d, false) := by
  induction hs with
  | refl => exact ⟨o, h⟩
  | tail hsteps hstep ih =>
      obtain ⟨d, hd⟩ := ih
      rcases hstep.seat (Leads.known hsteps hp) hd with hsame | ⟨-, new, -, hnew⟩ | ⟨-, a, ha, -⟩
      · exact ⟨d, hsame⟩
      · exact ⟨new, hnew⟩
      · rcases Leads.carries hsteps ha with hold | hmay
        · rw [hwaiting] at hold
          cases hold
        · exact absurd hmay (hcarries a)

/-- Whoever is about to leave the side is the channel that is on it. -/
def Owned (p : PairId) (side : Side) (o : ChannelId) (a : Acquisition) : Prop :=
  a.pair = p → a.purpose.leaving = some side → a.purpose.leaver = some o

theorem Step.owned (hs : Step may x y) (hend : (x.exchange.pair p).endpoint side = some o)
    (h : ∀ a ∈ x.waiting, Owned p side o a) : ∀ a ∈ y.waiting, Owned p side o a := by
  intro a ha
  rcases hs.waits ha with hold | hrelay | ⟨-, s, leaver, hside, hleaver, hmember⟩
  · exact h a hold
  · intro _ hside
    cases hp : a.purpose with
    | relay =>
        rw [hp] at hside
        cases hside
    | dialStatus | ownerLeaving =>
        rw [hp] at hrelay
        cases hrelay
  · rintro rfl hside'
    obtain rfl := Option.some.inj (hside.symm.trans hside')
    rw [hleaver, ← (membership_eq_some hmember).2, hend]

theorem Leads.seat (hs : Leads may x y) (hreseats : ∀ old new, ¬ may (.reseats old new))
    (hp : p ∈ x.exchange.pairIds) (h : Seat x.exchange p side = (some o, false))
    (hown : ∀ a ∈ x.waiting, Owned p side o a) :
    Seat y.exchange p side = (some o, false) ∧ (∀ a ∈ y.waiting, Owned p side o a) ∨
      (y.exchange.pair p).endpoint side = none ∧
        ∃ a : Acquisition, a.Clears p side o ∧ (a ∈ x.waiting ∨ may (.carries a)) := by
  induction hs with
  | refl => exact .inl ⟨h, hown⟩
  | tail hsteps hstep ih =>
      rcases ih with ⟨hseat, howned⟩ | ⟨hgone, hclears⟩
      · rcases hstep.seat (Leads.known hsteps hp) hseat with hsame | ⟨old, new, hmay, -⟩ |
          ⟨hnone, a, ha, hpair, hside⟩
        · exact .inl ⟨hsame, hstep.owned (Prod.mk.inj hseat).1 howned⟩
        · exact absurd hmay (hreseats old new)
        · exact .inr ⟨hnone, a, ⟨hpair, hside, howned a ha hpair hside⟩, Leads.carries hsteps ha⟩
      · exact .inr ⟨hstep.gone (Leads.known hsteps hp) hgone, hclears⟩

end TurnState

namespace Session

open Exchange

variable {s t : Session} {p : PairId} {side : Side} {c o : ChannelId} {rest below : List Task}

/-- What stands before `rest` takes nobody off the side but the channel that is on it. -/
def Owned (s : Session) (p : PairId) (side : Side) (o : ChannelId) (rest : List Task) : Prop :=
  ∃ above, s.agenda = above ++ rest ∧ ∀ a, .retry a ∈ above → TurnState.Owned p side o a

theorem membership_of_seat {e : Exchange} (hrecord : e.recordOf o = some p)
    (hend : (e.pair p).endpoint side = some o) : ∃ s, e.membership o = some (p, s) := by
  have hside : ∃ s, (e.pair p).sideOf o = some s := by
    rw [Pair.sideOf]
    split
    · exact ⟨_, rfl⟩
    · split
      · exact ⟨_, rfl⟩
      · cases side <;> contradiction
  obtain ⟨s, hs⟩ := hside
  refine ⟨s, ?_⟩
  simp [membership, hrecord, hs]

theorem Ready.clearance (h : s.Ready o rest below) (hsettled : s.exchange.Settled)
    (hrecord : s.exchange.recordOf o = some p) (hend : (s.exchange.pair p).endpoint side = some o)
    (hgone : (s.step.exchange.pair p).endpoint side = none) :
    s.exchange.Clearance s.step.exchange p side o := by
  obtain ⟨s', hmember⟩ := membership_of_seat hrecord hend
  rcases h.step (hsettled.cancelled p) hmember with ⟨-, hview⟩ | hcleared
  · rw [pair_eq_of_view hview, hend] at hgone
    cases hgone
  · by_cases hs : side = s'
    · exact hs ▸ hcleared
    · rw [hcleared.seats p side fun _ => hs, hend] at hgone
      cases hgone

theorem retry_clearance {a : Acquisition} (hagenda : s.agenda = .retry a :: rest)
    (hsettled : s.exchange.Settled)
    (ha : a.Clears p side o) (hend : (s.exchange.pair p).endpoint side = some o)
    (hgone : (s.step.exchange.pair p).endpoint side = none) :
    s.exchange.Clearance s.step.exchange p side o := by
  have hstep : s.step = ({ s with agenda := rest } : Session).turn (s.exchange.retry a) :=
    step_perform hagenda
  rw [hstep, retry_eq] at hgone ⊢
  rcases acquire_clearance (hsettled.cancelled p) (mem_pairIds_of_attached hend) ha with
    ⟨x, hx, hview⟩ | hcleared
  · rw [hx, turn, push] at hgone
    rw [pair_eq_of_view hview, hend] at hgone
    cases hgone
  · exact hcleared

theorem not_carries_of_reseats {u : Task} {old new : ChannelId} (hagenda : s.agenda = u :: rest)
    (h : s.Entitles (.reseats old new)) : backedOff [u] = [] ∧ ∀ a, ¬ s.Entitles (.carries a) := by
  obtain ⟨u', rest', hagenda', hentitled⟩ := h
  obtain ⟨rfl, rfl⟩ := List.cons.inj (hagenda.symm.trans hagenda')
  cases hentitled with
  | dispatched _ _ hsignals | direct hsignals => cases hsignals
  | reseats | fixes =>
      refine ⟨rfl, fun a hcarries => ?_⟩
      obtain ⟨u, rest'', hagenda'', hentitled⟩ := hcarries
      rw [hagenda] at hagenda''
      obtain ⟨rfl, -⟩ := List.cons.inj hagenda''
      cases hentitled

/-- A turn that empties the side of its channel is a turn of the channel's own hangup. -/
theorem attends_of_gone {u : Task} {a : Acquisition} {later : List Task}
    (hagenda : s.agenda = u :: later) (hsettled : s.exchange.Settled) (ha : a.Clears p side o)
    (hcomes : a ∈ backedOff [u] ∨ s.Entitles (.carries a))
    (hend : (s.exchange.pair p).endpoint side = some o)
    (hgone : (s.step.exchange.pair p).endpoint side = none) :
    (∃ later below, s.Attends p side o later below) ∧
      s.exchange.Clearance s.step.exchange p side o := by
  by_cases hretry : u = .retry a
  · subst hretry
    exact ⟨⟨[], _, .inr ⟨a, ha, hagenda⟩⟩, retry_clearance hagenda hsettled ha hend hgone⟩
  · have hbegins : s.Begins a := by
      refine ⟨hcomes.resolve_left fun h => ?_, fun later hlater => ?_⟩
      · exact hretry (List.mem_singleton.1 (mem_backedOff.1 h)).symm
      · rw [hagenda] at hlater
        exact hretry (List.cons.inj hlater).1
    obtain ⟨later, hhangs, hrecord⟩ := hbegins.hangs ha.2.2
    obtain ⟨below, -, hready⟩ := Ready.of_hangs hhangs
    exact ⟨⟨later, below, .inl hready⟩, hready.clearance hsettled (ha.1 ▸ hrecord) hend hgone⟩

theorem step_seat {u : Task} {later : List Task} (hagenda : s.agenda = u :: later)
    (hsettled : s.exchange.Settled) (hend : (s.exchange.pair p).endpoint side = some o)
    (hown : ∀ a, u = .retry a → TurnState.Owned p side o a)
    (hplace : ∀ d, (s.step.exchange.pair p).endpoint side = some d → d = o) :
    (∃ ts, s.step.agenda = ts ++ later ∧ (s.step.exchange.pair p).endpoint side = some o ∧
      ∀ a, .retry a ∈ ts → TurnState.Owned p side o a) ∨
    (∃ later below, s.Attends p side o later below) ∧
      s.exchange.Clearance s.step.exchange p side o := by
  have hp := mem_pairIds_of_attached hend
  have hseat : TurnState.Seat s.exchange p side = (some o, false) := by
    refine Prod.ext hend (Bool.eq_false_iff.2 fun hcancelled => ?_)
    rw [endpoint_of_isVacant (hsettled.cancelled p hcancelled)] at hend
    cases hend
  obtain ⟨ts, hts, hleads⟩ := step_laid hagenda
  have hleads := hleads []
  rw [List.append_nil, List.append_nil] at hleads
  by_cases hreseats : ∃ old new, s.Entitles (.reseats old new)
  · obtain ⟨old, new, hreseats⟩ := hreseats
    obtain ⟨hnone, hcarries⟩ := not_carries_of_reseats hagenda hreseats
    rw [hnone] at hleads
    obtain ⟨d, hd⟩ := hleads.occupied hcarries rfl hp hseat
    obtain ⟨hend', -⟩ := Prod.mk.inj hd
    refine .inl ⟨ts, hts, hplace d hend' ▸ hend', fun a ha => ?_⟩
    rcases hleads.carries (mem_backedOff.2 ha) with hold | hmay
    · cases hold
    · exact absurd hmay (hcarries a)
  · have hwaiting : ∀ a ∈ backedOff [u], TurnState.Owned p side o a := fun a ha =>
      hown a (List.mem_singleton.1 (mem_backedOff.1 ha)).symm
    rcases hleads.seat (fun old new h => hreseats ⟨old, new, h⟩) hp hseat hwaiting with
      ⟨hseat', hown'⟩ | ⟨hgone, a, ha, hcomes⟩
    · exact .inl ⟨ts, hts, (Prod.mk.inj hseat').1, fun a ha => hown' a (mem_backedOff.2 ha)⟩
    · exact .inr (attends_of_gone hagenda hsettled ha hcomes hend hgone)

/-- A channel stays on its side until a turn of its own hangup clears the side. -/
theorem Moves.seat (hm : Moves s t) (hsettled : s.exchange.Settled) (hover : s.agenda ≠ rest)
    (hend : (s.exchange.pair p).endpoint side = some o) (howned : s.Owned p side o rest)
    (hplace : ∀ d, (t.exchange.pair p).endpoint side = some d → d = o) :
    (t.exchange.pair p).endpoint side = some o ∧ t.Owned p side o rest ∨
      t = s.step ∧ (∃ later below, s.Attends p side o later below) ∧
        s.exchange.Clearance t.exchange p side o := by
  obtain ⟨above, hagenda, hown⟩ := howned
  cases hm with
  | others b later ops hhead =>
      refine .inl ⟨hend, (tasksOf ops ++ [Task.closeScript]) ++ above, ?_, fun a ha => ?_⟩
      · rw [agenda_interrupt, hagenda, ← List.append_assoc]
      · rcases List.mem_append.1 ha with ha | ha
        · rw [← mem_backedOff, backedOff_append, backedOff_tasksOf] at ha
          cases ha
        · exact hown a ha
  | step =>
      cases above with
      | nil => exact absurd hagenda hover
      | cons u above =>
          have hhead : ∀ a, u = .retry a → TurnState.Owned p side o a := fun a hu =>
            hown a (hu ▸ .head above)
          rcases step_seat hagenda hsettled hend hhead hplace with
            ⟨ts, hts, hend', hlaid⟩ | hattends
          · refine .inl ⟨hend', ts ++ above, by rw [hts, List.append_assoc]; rfl, fun a ha => ?_⟩
            exact (List.mem_append.1 ha).elim (hlaid a) fun ha => hown a (.tail u ha)
          · exact .inr ⟨rfl, hattends⟩

theorem Hangs.owned (h : s.Hangs c rest) : s.Owned p side o rest := by
  rcases h with hagenda | ⟨-, hagenda⟩ <;>
    exact ⟨[_], hagenda, fun a ha => by cases List.mem_singleton.1 ha⟩

/-- With the next turn the channel's own hangup clears its side, and the news for it is still to
come. -/
structure Forestalls (s t : Session) (p : PairId) (side : Side) (c o : ChannelId)
    (rest : List Task) : Prop where
  untold : s.Untold p side c rest
  seat : (s.exchange.pair p).endpoint side.peer = some o
  attends : ∃ later below, s.Attends p side.peer o later below
  step : t = s.step
  cleared : s.exchange.Clearance t.exchange p side.peer o

/-- Until the news is out, or the other channel's own hangup has forestalled it, it is still to come
and this channel is where it was. -/
theorem told_or_untold {s : Nat → Session} {m n k : Nat} (hreachable : (s 0).Reachable m)
    (hmoves : ∀ k < n, Moves (s k) (s (k + 1))) (hhangs : (s 0).Hangs c rest)
    (hmember : (s 0).exchange.membership c = some (p, side))
    (hpeer : ((s 0).exchange.pair p).endpoint side.peer = some o)
    (hplace : ∀ k ≤ n, ∀ d, ((s k).exchange.pair p).endpoint side.peer = some d → d = o)
    (hphase : side = .chan → ∀ k < n, (s k).Announces p side c rest →
      ((s k).exchange.pair p).phase ≠ .optimized) (hk : k ≤ n) :
    (∃ i < k, ((s i).exchange.pair p).endpoint side.peer = some o ∧
      (s i).exchange.Tells (s (i + 1)).exchange o) ∨
    (∃ i < k, Forestalls (s i) (s (i + 1)) p side c o rest) ∨
    (s k).Untold p side c rest ∧ ((s k).exchange.pair p).endpoint side.peer = some o ∧
      (s k).Owned p side.peer o rest := by
  induction k with
  | zero => exact .inr (.inr ⟨.inr ⟨hhangs, hmember⟩, hpeer, hhangs.owned⟩)
  | succ k ih =>
      obtain ⟨_, hm⟩ := hreachable.trace hmoves k (Nat.le_of_succ_le hk)
      rcases ih (Nat.le_of_succ_le hk) with ⟨i, hi, htold⟩ | ⟨i, hi, hgone⟩ |
        ⟨huntold, hend, howned⟩
      · exact .inl ⟨i, Nat.lt_succ_of_lt hi, htold⟩
      · exact .inr (.inl ⟨i, Nat.lt_succ_of_lt hi, hgone⟩)
      · rcases (hmoves k hk).untold hm.settled huntold with ⟨-, hannounces, hinformed⟩ | huntold'
        · cases hinformed with
          | told hend' htells =>
              obtain rfl := Option.some.inj (hend.symm.trans hend')
              exact .inl ⟨k, Nat.lt_succ_self k, hend, htells⟩
          | gone hnone => cases hend.symm.trans hnone
          | optimized hside hopt => exact absurd hopt (hphase hside k hk hannounces)
        · rcases (hmoves k hk).seat hm.settled huntold.not_over hend howned (hplace (k + 1) hk) with
            ⟨hend', howned'⟩ | ⟨hstep, hattends, hcleared⟩
          · exact .inr (.inr ⟨huntold', hend', howned'⟩)
          · exact .inr (.inl ⟨k, Nat.lt_succ_self k, ⟨huntold, hend, hattends, hstep, hcleared⟩⟩)

/-- Once the hangup of an endpoint is over, whatever others did wherever it had backed off, the
channel on the other side has been sent a hangup, or a turn of its own hangup has cleared its side
while the news for it was still to come; as long as nobody else is put in its place. The chan-side's
hangup has to find the pair in the call: a turn of it that does not puts nothing on any queue. -/
theorem survivor_told {s : Nat → Session} {m n : Nat} (hreachable : (s 0).Reachable m)
    (hmoves : ∀ k < n, Moves (s k) (s (k + 1))) (hhangs : (s 0).Hangs c rest)
    (hmember : (s 0).exchange.membership c = some (p, side))
    (hpeer : ((s 0).exchange.pair p).endpoint side.peer = some o)
    (hplace : ∀ k ≤ n, ∀ d, ((s k).exchange.pair p).endpoint side.peer = some d → d = o)
    (hover : (s n).agenda = rest) :
    ((side = .chan → ∀ k < n, (s k).Announces p side c rest →
        ((s k).exchange.pair p).phase ≠ .optimized) →
      (∃ k < n, ((s k).exchange.pair p).endpoint side.peer = some o ∧
        (s k).exchange.Tells (s (k + 1)).exchange o ∧
        ((∀ i < n, ¬ (s i).Entitles (.feeds o)) → (s 0).exchange.Tells (s n).exchange o)) ∨
      ∃ k < n, Forestalls (s k) (s (k + 1)) p side c o rest ∧
        ((s n).exchange.pair p).endpoint side.peer = none) ∧
    (side = .chan → ∀ k < n, (s k).Announces p side c rest → s (k + 1) = (s k).step →
      ((s k).exchange.pair p).phase = .optimized →
      ∀ d, ((s (k + 1)).exchange.channel d).frames = ((s k).exchange.channel d).frames) := by
  refine ⟨fun hphase => ?_, fun hside k _ hannounces hstep hopt d => ?_⟩
  · rcases told_or_untold hreachable hmoves hhangs hmember hpeer hplace hphase (Nat.le_refl n) with
      ⟨k, hk, hend, htells⟩ | ⟨k, hk, hgone⟩ | ⟨huntold, -⟩
    · refine .inl ⟨k, hk, hend, htells, fun hfeeds => ?_⟩
      have hbefore := grows_until hmoves hk.le (Nat.zero_le k) fun i _ hi => hfeeds i (hi.trans hk)
      have hafter := grows_until hmoves (Nat.le_refl n) hk fun i _ hi => hfeeds i hi
      exact (htells.grow hafter).after hbefore
    · obtain ⟨d, hleads⟩ := (hmoves k hk).leads
      have hknown := hleads.known (mem_pairIds_of_attached hgone.seat)
      exact .inr ⟨k, hk, hgone, (gone_until hmoves (Nat.le_refl n) hk hknown hgone.cleared.seat).2⟩
    · exact absurd hover huntold.not_over
  · subst hside
    rw [hstep]
    exact hannounces.silent hopt d

/-- The pair has stepped out of the call, but the masquerade was refused; then the chan-side is hung
up. -/
def silenced : List Operation :=
  [.addExtension "internal" "100", .request .dispatched "Local" "100@internal" ⟨4⟩,
    .newChannel "SIP/third", .masquerade ⟨1⟩ ⟨3⟩, .transfer .bridge ⟨2⟩ ⟨3⟩,
    .signal .dispatched ⟨2⟩ (.write (.voice ⟨⟨4⟩, [0]⟩)), .signal .direct ⟨2⟩ .hangup]

theorem silenced_untold : ∃ s, start {} silenced = .ok s ∧ (s.run 23).Hangs ⟨2⟩ [.report] ∧
    (s.run 23).exchange.membership ⟨2⟩ = some (⟨1⟩, .chan) ∧
    ((s.run 23).exchange.pair ⟨1⟩).owner = some ⟨1⟩ ∧ (s.run 26).agenda = [.report] ∧
    (s.run 26).answer = .done ∧ ((s.run 26).exchange.pair ⟨1⟩).owner = some ⟨1⟩ ∧
    ((s.run 26).exchange.channel ⟨1⟩).hungup = false ∧
    ((s.run 26).exchange.channel ⟨1⟩).frames = [] :=
  ⟨_, rfl, .inl rfl, by decide +kernel, by decide +kernel,
    rfl, by decide +kernel, by decide +kernel,
    by decide +kernel, by decide +kernel⟩

def belated : List Operation :=
  [.request .dispatched "Local" "100@internal" ⟨4⟩, .scriptLocks ⟨1⟩ [false],
    .signal .direct ⟨2⟩ .hangup]

theorem belated_told : ∃ s, start {} belated = .ok s ∧ (s.run 6).Hangs ⟨2⟩ [.report] ∧
    (s.run 6).exchange.membership ⟨2⟩ = some (⟨1⟩, .chan) ∧
    ((s.run 6).exchange.pair ⟨1⟩).endpoint .owner = some ⟨1⟩ ∧ (s.run 10).agenda = [.report] ∧
    (∀ k ≤ 4, ((s.run (6 + k)).exchange.pair ⟨1⟩).phase ≠ .optimized) ∧
    (s.run 6).exchange.Tells (s.run 10).exchange ⟨1⟩ := by
  have hstart : start {} belated = .ok { exchange := {}, agenda := tasksOf belated } := rfl
  have hhangs : (run 6 { exchange := {}, agenda := tasksOf belated }).Hangs ⟨2⟩ [.report] :=
    .inl rfl
  have hmember : (run 6 { exchange := {}, agenda := tasksOf belated }).exchange.membership ⟨2⟩ =
      some (⟨1⟩, .chan) := by decide +kernel
  have hseat : ∀ k ≤ 4, ((run (6 + k) { exchange := {}, agenda := tasksOf belated }).exchange.pair
      ⟨1⟩).endpoint .owner = some ⟨1⟩ := by decide +kernel
  have hover : (run 10 { exchange := {}, agenda := tasksOf belated }).agenda = [.report] := rfl
  have hphase : ∀ k ≤ 4, ((run (6 + k) { exchange := {}, agenda := tasksOf belated }).exchange.pair
      ⟨1⟩).phase ≠ .optimized := by decide +kernel
  refine ⟨_, hstart, hhangs, hmember, hseat 0 (by decide), hover, hphase, ?_⟩
  have hmoves : ∀ k < 4, Moves (run (6 + k) { exchange := {}, agenda := tasksOf belated })
      (run (6 + (k + 1)) { exchange := {}, agenda := tasksOf belated }) :=
        fun k _ => run_succ _ (6 + k) ▸ .step _
  have hfeeds : ∀ k < 4, ¬ (run (6 + k) { exchange := {}, agenda := tasksOf belated }).Entitles
    (.feeds ⟨1⟩) := by
    intro k hk hfeeds
    have hcases : k = 0 ∨ k = 1 ∨ k = 2 ∨ k = 3 := by omega
    obtain ⟨rest, ⟨frame, hagenda⟩ | hagenda⟩ := agenda_of_feeds hfeeds <;>
      rcases hcases with rfl | rfl | rfl | rfl <;> cases hagenda
  obtain ⟨htold, -⟩ := survivor_told
    (s := fun k => run (6 + k) { exchange := {}, agenda := tasksOf belated }) (n := 4)
    ((Reachable.start hstart).run 6) hmoves hhangs hmember (hseat 0 (by decide))
    (fun k hk d hd => Option.some.inj (hd.symm.trans (hseat k hk))) hover
  rcases htold fun _ k hk _ => hphase k hk.le with ⟨-, -, -, -, htells⟩ | ⟨-, -, -, hnone⟩
  · exact htells hfeeds
  · cases hnone.symm.trans (hseat 4 (Nat.le_refl 4))

end Session
end Switchboard
