import Switchboard.Proofs.Clearance
import Switchboard.Proofs.TurnState.ChanServed
import Switchboard.Proofs.HangupNews

namespace Switchboard

/-- On the side there is the channel or nobody, and in its slot the record or nothing. -/
structure Exchange.Keeps (e : Exchange) (p : PairId) (side : Side) (c : ChannelId) : Prop where
  seat : ∀ d, (e.pair p).endpoint side = some d → d = c
  slot : (e.channel c).slot = .pair p ∨ (e.channel c).slot = .empty

theorem Exchange.Keeps.mono {e e' : Exchange} {p : PairId} {side : Side} {c : ChannelId}
    (h : e.Keeps p side c) (hseat : ∀ d, (e'.pair p).endpoint side = some d →
    (e.pair p).endpoint side = some d)
    (hslot : (e'.channel c).slot = (e.channel c).slot ∨ (e'.channel c).slot = .empty) :
    e'.Keeps p side c := by
  refine ⟨fun d hd => h.seat d (hseat d hd), ?_⟩
  rcases hslot with hsame | hempty
  · rw [hsame]
    exact h.slot
  · exact .inr hempty

theorem Exchange.Keeps.of_slotsAndSides {e e' : Exchange} {p : PairId} {side : Side} {c : ChannelId}
    (h : e.Keeps p side c) (he : e'.slotsAndSides = e.slotsAndSides) : e'.Keeps p side c := by
  have hseat : (e'.pair p).endpoint side = (e.pair p).endpoint side :=
    congrArg Prod.fst (congrFun (congrFun (congrArg Prod.snd he) p) side)
  exact h.mono (fun d hd => hseat ▸ hd) (.inl (congrFun (congrArg Prod.fst he) c))

namespace TurnState

open Exchange

structure Spares (may : Effect → Prop) (c : ChannelId) : Prop where
  swaps : ∀ survivor clone, may (.swaps survivor clone) → c ≠ survivor ∧ c ≠ clone
  reseats : ∀ old new, may (.reseats old new) → c ≠ old
  refits : ¬ may (.refits c)

variable {may : Effect → Prop} {x y : TurnState} {p : PairId} {side : Side} {c : ChannelId}

theorem Step.keeps (hs : Step may x y) (hspares : Spares may c) (hp : p ∈ x.exchange.pairIds)
    (hc : c.Among x.exchange.channels.size) (h : x.exchange.Keeps p side c) :
    y.exchange.Keeps p side c := by
  cases hs with
  | quiet hview => exact h.of_slotsAndSides (slotsAndSides_eq_of_view hview)
  | enter e w d a => exact h.of_slotsAndSides (slotsAndSides_modifyPair a.pair fun _ => ⟨rfl, rfl⟩)
  | queue e w d a o | serve e w d o | mark e w d o | feed e w d o =>
      exact h.of_slotsAndSides (slotsAndSides_modifyChannel o rfl)
  | leave e w d a =>
      have hchannel := channel_eq_of_channels (channels_leaveGlare e a.pair) c
      exact h.mono (fun _ => endpoint_leaveGlare e) (.inl (congrArg Channel.slot hchannel))
  | @depart e w d a s leaver =>
      refine h.mono (fun o ho => (endpoint_vacate e ho).1) ?_
      have hdetach := channel_eq_of_channels (channels_detach e a.pair s) c
      have hempty :=
        channel_modifyChannel_or (e.detach a.pair s) leaver c ({ · with slot := .empty })
      exact hempty.imp (fun h => congrArg Channel.slot (h.trans hdetach)) fun h =>
        congrArg Channel.slot h.2
  | call e w d q chan =>
      have hserve : (e.serve chan).slotsAndSides = e.slotsAndSides :=
        slotsAndSides_modifyChannel chan rfl
      exact h.of_slotsAndSides ((slotsAndSides_modifyPair q fun _ => ⟨rfl, rfl⟩).trans hserve)
  | optimize e w d q => exact h.of_slotsAndSides (slotsAndSides_modifyPair q fun _ => ⟨rfl, rfl⟩)
  | swap e w d survivor clone hmay =>
      obtain ⟨hsurvivor, hclone⟩ := hspares.swaps survivor clone hmay
      exact h.mono (fun _ ho => ho)
        (.inl (congrArg ChannelView.slot (channelView_swapIdentities_of_ne e hsurvivor hclone)))
  | reseat e w d q s old new hmay hslot hend =>
      refine ⟨fun o ho => ?_, h.slot⟩
      rcases pair_modifyPair_or e q p (·.replaced s new) with hq | ⟨rfl, hq⟩ <;> rw [hq] at ho
      · exact h.seat o ho
      · rw [endpoint_replaced] at ho
        split at ho
        · next hs =>
            subst hs
            exact absurd (h.seat old hend).symm (hspares.reseats old new hmay)
        · exact h.seat o ho
  | refit e w d o s hmay =>
      have hne : c ≠ o := by
        rintro rfl
        exact hspares.refits hmay
      exact h.mono (fun _ ho => ho)
        (.inl (congrArg Channel.slot (channel_modifyChannel_of_ne e _ hne)))
  | grow hgrown =>
      refine h.mono (fun o ho => hgrown.pair p ▸ ho) (.inl ?_)
      rcases hgrown.channelView c with hchannelView | ⟨hnew, -⟩
      · exact congrArg ChannelView.slot hchannelView
      · exact absurd hc hnew
  | @opened e e' w d q owner chan hopened =>
      have hne : p ≠ q := fun hpq => hopened.new (hpq ▸ hp)
      have hold : ∀ o, o = owner ∨ o = chan → c ≠ o := by
        rintro o ho rfl
        exact (hopened.made c ho).1 hc
      refine h.mono (fun o ho => hopened.elsewhere p hne ▸ ho) (.inl ?_)
      exact congrArg ChannelView.slot
        (hopened.channelView c (hold owner (.inl rfl)) (hold chan (.inr rfl)))
  | register => exact h.of_slotsAndSides rfl
  | start | scheduleHangup => exact h

theorem Leads.keeps (hs : Leads may x y) (hspares : Spares may c) (hp : p ∈ x.exchange.pairIds)
    (hc : c.Among x.exchange.channels.size) (h : x.exchange.Keeps p side c) :
    y.exchange.Keeps p side c := by
  induction hs with
  | refl => exact h
  | tail hsteps hstep ih =>
      exact hstep.keeps hspares (Leads.known hsteps hp) (hc.mono (Leads.channels hsteps)) ih

end TurnState

/-- The task may put somebody else where the channel is, or another record into its slot. -/
def Task.Reaches (c : ChannelId) : Task → Prop
  | .operate (.fixup old _) => old = c
  | .takeOver survivor clone => survivor = c ∨ clone = c
  | .operate (.edit d (.slot _)) => d = c
  | _ => False

namespace Session

open Exchange

variable {s t : Session} {p : PairId} {side : Side} {c : ChannelId} {rest below : List Task}

/-- The next task takes the channel out of its place, or puts another record into its slot. -/
def Displaces (s : Session) (p : PairId) (side : Side) (c : ChannelId) : Prop :=
  (∃ t rest, s.agenda = t :: rest ∧ t.Reaches c) ∧ ¬ s.step.exchange.Keeps p side c

theorem spares_of_agenda {task : Task} (hagenda : s.agenda = task :: rest)
    (hreaches : ¬ task.Reaches c)
    (hrelease : task ≠ .operate (.release c)) : TurnState.Spares s.Entitles c := by
  have hhead : ∀ {effect}, s.Entitles effect → s.exchange.Entitles task effect := by
    rintro effect ⟨u, later, hu, h⟩
    rw [hagenda] at hu
    obtain ⟨rfl, -⟩ := List.cons.inj hu
    exact h
  refine ⟨fun survivor clone h => ?_, fun old new h => ?_, fun h => ?_⟩
  · cases hhead h with
    | swaps => exact ⟨fun hc => hreaches (.inl hc.symm), fun hc => hreaches (.inr hc.symm)⟩
    | dispatched _ _ h => cases h
    | direct h => cases h
  · cases hhead h with
    | reseats => exact fun hc => hreaches (.inl hc.symm)
    | fixes => exact fun hc => hreaches hc.symm
    | dispatched _ _ h => cases h
    | direct h => cases h
  · cases hhead h with
    | refits => exact hreaches rfl
    | releases => exact hrelease rfl
    | dispatched _ _ h => cases h
    | direct h => cases h

theorem keeps_release (h : s.exchange.Keeps p side c)
    (hagenda : s.agenda = .operate (.release c) :: rest) :
    s.step.exchange.Keeps p side c := by
  have hstep : s.step = ({ s with agenda := rest } : Session).operate (.release c) :=
    step_perform hagenda
  rw [hstep]
  unfold operate
  cases s.exchange.missing (.release c) with
  | some answer => exact h
  | none =>
      refine h.mono (fun _ hd => hd) ?_
      have hempty := channel_modifyChannel_or (s.exchange.delist c) c c ({ · with slot := .empty })
      exact hempty.imp (congrArg Channel.slot) fun h => congrArg Channel.slot h.2

theorem Moves.keeps (hm : Moves s t) (hp : p ∈ s.exchange.pairIds)
    (hc : c.Among s.exchange.channels.size)
    (h : s.exchange.Keeps p side c) (hstays : ¬ s.Displaces p side c) :
    t.exchange.Keeps p side c := by
  have hleads := hm.leads
  cases hm with
  | others => exact h
  | step =>
      cases hagenda : s.agenda with
      | nil =>
          rw [step_idle hagenda]
          exact h
      | cons task later =>
          by_cases hreaches : task.Reaches c
          · by_contra hlost
            exact hstays ⟨⟨task, later, hagenda, hreaches⟩, hlost⟩
          · by_cases hrelease : task = .operate (.release c)
            · subst hrelease
              exact keeps_release h hagenda
            · obtain ⟨d, hleads⟩ := hleads
              exact hleads.keeps (spares_of_agenda hagenda hreaches hrelease) hp hc h

def Ready (s : Session) (c : ChannelId) (rest below : List Task) : Prop :=
  s.agenda = .operate (.signal .direct c .hangup) :: rest ∧ below = .settle .done :: rest ∨
    s.exchange.isDriven c = true ∧ s.agenda = .dispatch c .hangup :: rest ∧
      below = .settle .done :: .unlock c :: rest

/-- The next turn is the hangup's own: its first, or the one after a back-off. -/
def Attends (s : Session) (p : PairId) (side : Side) (c : ChannelId) (rest below : List Task) :
    Prop :=
  s.Ready c rest below ∨ ∃ a : Acquisition, a.Clears p side c ∧ s.agenda = .retry a :: below

/-- The hangup has cleared nothing yet. -/
def Pends (s : Session) (p : PairId) (side : Side) (c : ChannelId) (rest below : List Task) :
    Prop :=
  s.Ready c rest below ∧ s.exchange.membership c = some (p, side) ∨
    ∃ a : Acquisition, a.Clears p side c ∧ .retry a :: below <:+ s.agenda

theorem Ready.length (h : s.Ready c rest below) :
    s.agenda.length = rest.length + 1 ∧ rest.length < below.length := by
  rcases h with ⟨hagenda, rfl⟩ | ⟨-, hagenda, rfl⟩
  · exact ⟨congrArg List.length hagenda, Nat.lt_succ_self _⟩
  · exact ⟨congrArg List.length hagenda, Nat.lt_succ_of_lt (Nat.lt_succ_self _)⟩

theorem Ready.of_hangs (h : s.Hangs c rest) : ∃ below, rest <:+ below ∧ s.Ready c rest below := by
  rcases h with hagenda | ⟨hdriven, hagenda⟩
  · exact ⟨_, List.suffix_cons _ _, .inl ⟨hagenda, rfl⟩⟩
  · exact ⟨_, (List.suffix_cons _ _).trans (List.suffix_cons _ _), .inr ⟨hdriven, hagenda, rfl⟩⟩

theorem Attends.agenda {a : Acquisition} (h : s.Attends p side c rest below)
    (hlength : rest.length < below.length)
    (hlaid : .retry a :: below <:+ s.agenda) : s.agenda = .retry a :: below := by
  rcases h with hready | ⟨b, -, hnext⟩
  · have hlong := hlaid.length_le
    have hshort := hready.length.1
    rw [List.length_cons] at hlong
    omega
  · rw [hnext] at hlaid ⊢
    exact (hlaid.eq_of_length rfl).symm

/-- The hangup's first turn clears its side, or it backs off, or it waits for its channel's lock. -/
theorem Ready.step (h : s.Ready c rest below) (hvacant : s.exchange.VacantIfCancelled p)
    (hm : s.exchange.membership c = some (p, side)) :
    s.step.Pends p side c rest below ∧ s.step.exchange.view = s.exchange.view ∨
      s.exchange.Clearance s.step.exchange p side c := by
  rcases h with ⟨hagenda, rfl⟩ | ⟨hdriven, hagenda, rfl⟩
  · have hstep : s.step = ({ s with agenda := rest } : Session).turn (s.exchange.teardown c) :=
      step_signal_of_record hagenda (membership_eq_some hm).1
    rw [hstep]
    rcases teardown_clearance hvacant hm with ⟨a, x, ha, hteardown, hview⟩ | hcleared
    · refine .inl ⟨.inr ⟨a, ha, ?_⟩, by rw [hteardown]; exact hview⟩
      rw [hteardown, turn, push, List.append_assoc]
      exact a.retry_suffix_wait _
    · exact .inr hcleared
  · have hstep : s.step = ({ s with agenda := rest } : Session).turn
      (s.exchange.dispatch c .hangup) :=
      step_perform hagenda
    rw [hstep]
    cases hl : s.exchange.lock? c with
    | none =>
        rw [dispatch_of_locked hdriven hl]
        exact .inl ⟨.inl ⟨.inr ⟨hdriven, rfl, rfl⟩, hm⟩, rfl⟩
    | some e =>
        have hview := view_lock hl
        have hm' := (membership_eq_of_view hview c).trans hm
        have hvacant' : e.VacantIfCancelled p := by
          rw [VacantIfCancelled, pair_eq_of_view hview]
          exact hvacant
        rw [dispatch_of_lock hdriven hl, signal]
        rcases teardown_clearance hvacant' hm' with ⟨a, x, ha, hteardown, hx⟩ | hcleared
        · refine .inl ⟨.inr ⟨a, ha, ?_⟩, by rw [hteardown]; exact hx.trans hview⟩
          rw [hteardown, turn, push, List.append_assoc, List.append_assoc]
          exact a.retry_suffix_wait _
        · exact .inr (hcleared.before (slotsAndSides_eq_of_view hview))

theorem Moves.pends (hm : Moves s t) (hvacant : s.exchange.VacantIfCancelled p)
    (hp : p ∈ s.exchange.pairIds)
    (hlength : rest.length < below.length) (h : s.Pends p side c rest below) :
    t.Pends p side c rest below ∧
        (s.Attends p side c rest below → t.exchange.view = s.exchange.view) ∨
      t = s.step ∧ s.Attends p side c rest below ∧ s.exchange.Clearance t.exchange p side c := by
  rcases h with ⟨hready, hmember⟩ | ⟨a, ha, hlaid⟩
  · cases hm with
    | step =>
        rcases hready.step hvacant hmember with ⟨hpends, hview⟩ | hcleared
        · exact .inl ⟨hpends, fun _ => hview⟩
        · exact .inr ⟨rfl, .inl hready, hcleared⟩
    | others b later ops hhead =>
        rcases hready with ⟨hagenda, -⟩ | ⟨-, hagenda, -⟩ <;> rw [hhead] at hagenda <;>
          cases hagenda
  · by_cases hagenda : s.agenda = .retry a :: below
    · cases hm with
      | others => exact .inl ⟨.inr ⟨a, ha, hlaid.trans (List.suffix_append _ _)⟩, fun _ => rfl⟩
      | step =>
          have hstep : s.step = ({ s with agenda := below } : Session).turn (s.exchange.retry a) :=
            step_perform hagenda
          rw [hstep, retry_eq]
          rcases acquire_clearance hvacant hp ha with ⟨x, hacquire, hview⟩ | hcleared
          · refine .inl ⟨.inr ⟨a, ha, ?_⟩, fun _ => by rw [hacquire]; exact hview⟩
            rw [hacquire, turn, push]
            exact a.retry_suffix_wait _
          · exact .inr ⟨rfl, .inr ⟨a, ha, hagenda⟩, hcleared⟩
    · rcases hm.behind hlaid with hstill | ⟨hnext, -⟩
      · exact .inl ⟨.inr ⟨a, ha, hstill⟩,
          fun hattends => absurd (hattends.agenda hlength hlaid) hagenda⟩
      · exact absurd hnext hagenda

theorem clears_before {s : Nat → Session} {n : Nat} (hmoves : ∀ k < n, Moves (s k) (s (k + 1)))
    (hvacant : ∀ k < n, (s k).exchange.VacantIfCancelled p)
    (hp : ∀ k < n, p ∈ (s k).exchange.pairIds)
    (hready : (s 0).Ready c rest below) (hmember : (s 0).exchange.membership c = some (p, side))
    (hover : (s n).agenda = rest) :
    ∃ j < n, (s j).Attends p side c rest below ∧ s (j + 1) = (s j).step ∧
      (s j).exchange.Clearance (s (j + 1)).exchange p side c ∧
      ∀ k < j, (s k).Attends p side c rest below →
      (s (k + 1)).exchange.view = (s k).exchange.view := by
  have hlength := hready.length.2
  by_contra hnone
  -- As long as nothing is cleared the hangup is still to be finished.
  have hpends : ∀ k ≤ n, (s k).Pends p side c rest below ∧
      ∀ i < k, (s i).Attends p side c rest below →
      (s (i + 1)).exchange.view = (s i).exchange.view := by
    intro k
    induction k with
    | zero => exact fun _ => ⟨.inl ⟨hready, hmember⟩, fun i hi => absurd hi (Nat.not_lt_zero i)⟩
    | succ k ih =>
        intro hk
        obtain ⟨hpending, hquiet⟩ := ih (Nat.le_of_succ_le hk)
        rcases (hmoves k hk).pends (hvacant k hk) (hp k hk) hlength hpending with
          ⟨hstill, hview⟩ | ⟨hstep, hattends, hcleared⟩
        · refine ⟨hstill, fun i hi => ?_⟩
          rcases Nat.lt_succ_iff_lt_or_eq.1 hi with hlt | rfl
          · exact hquiet i hlt
          · exact hview
        · exact absurd ⟨k, hk, hattends, hstep, hcleared, hquiet⟩ hnone
  rcases (hpends n (Nat.le_refl n)).1 with ⟨hready', -⟩ | ⟨a, -, hlaid⟩
  · have hlong := hready'.length.1
    rw [hover] at hlong
    omega
  · have hlong := hlaid.length_le
    rw [hover, List.length_cons] at hlong
    omega

/-- A hangup of an endpoint, whatever others do wherever it backs off: one of its own turns clears
the side that the endpoint was on when it began and the slot of the endpoint, and takes nothing from
anybody else; the turns before it show nothing. There is nobody else on that side then, and no other
record in that slot, exactly as long as no displacement has come before. -/
theorem hangup_detaches_own {s : Nat → Session} {m n : Nat} (hreachable : (s 0).Reachable m)
    (hmoves : ∀ k < n, Moves (s k) (s (k + 1))) (hhangs : (s 0).Hangs c rest)
    (hmember : (s 0).exchange.membership c = some (p, side)) (hover : (s n).agenda = rest) :
    ∃ below, rest <:+ below ∧ ∃ j < n, (s j).Attends p side c rest below ∧ s (j + 1) = (s j).step ∧
      (s j).exchange.Clearance (s (j + 1)).exchange p side c ∧
      (∀ k < j, (s k).Attends p side c rest below →
      (s (k + 1)).exchange.view = (s k).exchange.view) ∧
      ((∀ k ≤ j, (s k).exchange.Keeps p side c) ↔ ∀ k < j, ¬ (s k).Displaces p side c) := by
  obtain ⟨hrecord, hend⟩ := membership_eq_some hmember
  have hknown : ∀ k ≤ n, p ∈ (s k).exchange.pairIds ∧ c.Among (s k).exchange.channels.size := by
    intro k
    induction k with
    | zero =>
        exact fun _ => ⟨mem_pairIds_of_attached hend, among_of_slot _ (slot_of_recordOf hrecord)⟩
    | succ k ih =>
        intro hk
        obtain ⟨hp, hc⟩ := ih (Nat.le_of_succ_le hk)
        obtain ⟨d, hleads⟩ := (hmoves k hk).leads
        exact ⟨hleads.known hp, hc.mono (TurnState.Leads.channels hleads)⟩
  have hvacant : ∀ k < n, (s k).exchange.VacantIfCancelled p := fun k hk =>
    (hreachable.trace hmoves k hk.le).elim fun _ hm => hm.settled.cancelled p
  obtain ⟨below, hsuffix, hready⟩ := Ready.of_hangs hhangs
  obtain ⟨j, hj, hattends, hstep, hcleared, hquiet⟩ :=
    clears_before hmoves hvacant (fun k hk => (hknown k hk.le).1) hready hmember hover
  refine ⟨below, hsuffix, j, hj, hattends, hstep, hcleared, hquiet, ?_, ?_⟩
  · rintro hkeeps k hk ⟨⟨task, later, hagenda, hreaches⟩, hlost⟩
    have hafter := hkeeps (k + 1) hk
    have hmove := hmoves k (hk.trans hj)
    generalize s (k + 1) = t at hafter hmove
    cases hmove with
    | step => exact hlost hafter
    | others a later' ops hhead =>
        rw [hhead] at hagenda
        cases hagenda
        exact hreaches
  · intro hstays k
    induction k with
    | zero =>
        refine fun _ => ⟨fun d hd => ?_, .inl (slot_of_recordOf hrecord)⟩
        rw [hend] at hd
        exact (Option.some.inj hd).symm
    | succ k ih =>
        intro hk
        have hkn : k < n := Nat.lt_trans hk hj
        obtain ⟨hp, hc⟩ := hknown k hkn.le
        exact (hmoves k hkn).keeps hp hc (ih (Nat.le_of_succ_le hk)) (hstays k hk)

/-- While the owner-side leaves and has to back off for the chan-side, another channel takes its
place in the record. -/
def deposed : List Operation :=
  [.addExtension "internal" "100", .request .dispatched "Local" "100@internal" ⟨4⟩,
    .signal .dispatched ⟨1⟩ (.call "100" none), .newChannel "SIP/third",
    .edit ⟨3⟩ (.slot (.pair ⟨1⟩)),
    .scriptLocks ⟨2⟩ [false], .onBackOff [.fixup ⟨1⟩ ⟨3⟩], .signal .direct ⟨1⟩ .hangup]

theorem deposed_detached : ∃ s, start {} deposed = .ok s ∧ (s.run 22).Hangs ⟨1⟩ [.report] ∧
    (s.run 22).exchange.membership ⟨1⟩ = some (⟨1⟩, .owner) ∧ (s.run 31).agenda = [.report] ∧
    (s.run 28).Attends ⟨1⟩ .owner ⟨1⟩ [.report] [.settle .done, .report] ∧
    ((s.run 28).exchange.pair ⟨1⟩).owner = some ⟨3⟩ ∧
    ((s.run 28).exchange.pair ⟨1⟩).ownerUse = .held ∧
    ((s.run 28).exchange.channel ⟨3⟩).slot = .pair ⟨1⟩ ∧
    ((s.run 29).exchange.pair ⟨1⟩).owner = none ∧
    ((s.run 29).exchange.pair ⟨1⟩).ownerUse = .dropped ∧
    ((s.run 31).exchange.channel ⟨3⟩).hungup = false :=
  ⟨_, rfl, .inl rfl, by decide +kernel, rfl,
    .inr ⟨⟨⟨1⟩, .chan, some ⟨1⟩, .ownerLeaving ⟨1⟩⟩, ⟨rfl, rfl, rfl⟩, rfl⟩,
    by decide +kernel, by decide +kernel, by decide +kernel, by decide +kernel, by decide +kernel,
    by decide +kernel⟩

def insisted : List Operation :=
  [.request .dispatched "Local" "100@internal" ⟨4⟩, .scriptLocks ⟨2⟩ [false],
    .onBackOff [.signal .direct ⟨1⟩ .hangup], .signal .direct ⟨1⟩ .hangup]

theorem insisted_detached : ∃ s, start {} insisted = .ok s ∧ (s.run 8).Hangs ⟨1⟩ [.report] ∧
    (s.run 8).exchange.membership ⟨1⟩ = some (⟨1⟩, .owner) ∧ (s.run 21).agenda = [.report] ∧
    ∃ j < 13, (s.run (8 + j)).exchange.Clearance (s.run (8 + (j + 1))).exchange ⟨1⟩ .owner ⟨1⟩ ∧
      (s.run (8 + j)).exchange.Keeps ⟨1⟩ .owner ⟨1⟩ := by
  have hstart : start {} insisted = .ok { exchange := {}, agenda := tasksOf insisted } := rfl
  generalize hs : ({ exchange := {}, agenda := tasksOf insisted } : Session) = s at hstart
  have hhangs : (s.run 8).Hangs ⟨1⟩ [.report] := by
    subst hs
    exact .inl rfl
  have hmember : (s.run 8).exchange.membership ⟨1⟩ = some (⟨1⟩, .owner) := by
    subst hs
    decide +kernel
  have hover : (s.run 21).agenda = [.report] := by
    subst hs
    rfl
  obtain ⟨_, -, j, hj, -, -, hcleared, -, hkeeps⟩ :=
    hangup_detaches_own (s := fun k => s.run (8 + k)) (n := 13)
    ((Reachable.start hstart).run 8) (fun k _ => run_succ _ (8 + k) ▸ .step _) hhangs hmember hover
  have hplace : ∀ k ≤ 13, (((s.run (8 + k)).exchange.pair ⟨1⟩).owner = some ⟨1⟩ ∨
      ((s.run (8 + k)).exchange.pair ⟨1⟩).owner = none) ∧
      (((s.run (8 + k)).exchange.channel ⟨1⟩).slot = .pair ⟨1⟩ ∨
        ((s.run (8 + k)).exchange.channel ⟨1⟩).slot = .empty) := by
    subst hs
    decide +kernel
  have hstays : ∀ k ≤ 13, (s.run (8 + k)).exchange.Keeps ⟨1⟩ .owner ⟨1⟩ := by
    intro k hk
    refine ⟨fun d hd => ?_, (hplace k hk).2⟩
    rcases (hplace k hk).1 with howner | howner <;> rw [Pair.endpoint, howner] at hd
    · exact (Option.some.inj hd).symm
    · cases hd
  refine ⟨s, hstart, hhangs, hmember, hover, j, hj, hcleared, ?_⟩
  refine hkeeps.2 (fun k hk hdisplaces => hdisplaces.2 ?_) j (Nat.le_refl j)
  rw [← run_succ]
  exact hstays (k + 1) (Nat.succ_le_of_lt (hk.trans hj))

end Session
end Switchboard
