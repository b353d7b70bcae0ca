import Switchboard.Proofs.TurnState.Moves
import Switchboard.Proofs.TurnState.ChanServed

namespace Switchboard

def Operation.isHosted : Operation → Bool
  | .edit _ (.slot _) | .fixup _ _ | .release _ | .unregister _ => false
  | _ => true

theorem Task.nothing_of_awaits {t : Task} (h : t.awaits = true) :
    t.acquisition = none ∧ t.hangupTarget = none ∧ ∀ c s, t ≠ .dispatch c s := by
  cases t with
  | operate | report => exact ⟨rfl, rfl, fun c s heq => nomatch heq⟩
  | _ => cases h

namespace Exchange

open TurnState

variable {e : Exchange} {p : PairId} {c : ChannelId} {w : List Acquisition} {d : List ChannelId}
  {called pending : ChannelId → Prop} {e₀ : Exchange}

theorem isDriven_iff : e.isDriven c = true ↔
    (e.channel c).technology = .proxy ∧ e.proxyRegistered = true := by
  simp [isDriven]

theorem teardown_departs (h : ChanServed p called pending e₀ ⟨e, w, d⟩)
    (hc : ((e.teardown c).1.pair p).chan = some c) :
    (e.pair p).chan = some c ∧ ∃ a ∈ backedOff (e.teardown c).2 ++ w, a.Departs p c := by
  have hmay : KeepsChan fun effect => ∃ a, effect = .carries a := by
    constructor <;> simp
  have hmarks : ∀ b, (∃ a, Effect.marks b = .carries a) → called b := fun _ ⟨_, hb⟩ => nomatch hb
  have hrelays : ∀ q, RelaysOn (fun effect => ∃ a, effect = .carries a) q := fun q a _ _ => ⟨a, rfl⟩
  cases hm : e.membership c with
  | none =>
      rw [teardown, hm] at hc
      rw [membership_of_chan (h.slot c hc).1 hc] at hm
      cases hm
  | some seat =>
      have hmade := among_of_slot e (slot_of_recordOf (membership_eq_some hm).1)
      have hleads : Leads (fun effect => ∃ a, effect = .carries a) ⟨e, w, d⟩
        ((e.teardown c).state w d) :=
        teardown_leads (fun a _ _ _ => ⟨a, rfl⟩) fun q _ => hrelays q
      have hchan := (hleads.stayed hmay hmarks h hmade hc).1
      have hseat := membership_of_chan (h.slot c hchan).1 hchan
      refine ⟨hchan, ?_⟩
      -- The departure begins, and has not come to its end.
      have hstays : ∀ (a : Acquisition) (t : Turn), a.Departs p c → (t.1.pair p).chan = some c →
          Leads (fun effect => ∃ a, effect = .carries a) ⟨e, a :: w, d⟩ (t.state w d) →
          ∃ a ∈ backedOff (t.2 ++ [Task.settle .done]) ++ w, a.Departs p c := by
        intro a t ha hc' hleads
        have hstart : Step (fun effect => ∃ a, effect = .carries a) ⟨e, w, d⟩ ⟨e, a :: w, d⟩ :=
          .start e w d a ⟨a, rfl⟩ ha.2.1 ha.2.2 (ha.1 ▸ hseat)
        obtain ⟨-, hwaits⟩ := hleads.stayed hmay hmarks (hstart.chanServed hmay hmarks h) hmade hc'
        refine ⟨a, ?_, ha⟩
        rw [backedOff_append, show backedOff [.settle .done] = [] from rfl, List.append_nil]
        exact hwaits a (.head w) ha
      revert hc
      rw [teardown]
      rw [hseat]
      dsimp only
      cases (e.channel c).getVar dialStatus with
      | none =>
          intro hc
          let a : Acquisition := ⟨p, .owner, some c, .dialStatus c ""⟩
          exact hstays a _ ⟨rfl, rfl, rfl⟩ hc (depart_leads (a := a) (hrelays p) rfl rfl)
      | some status =>
          intro hc
          let a : Acquisition := ⟨p, .owner, some c, .dialStatus c status⟩
          exact hstays a _ ⟨rfl, rfl, rfl⟩ hc (acquire_leads (a := a) ⟨a, rfl⟩ fun _ => hrelays p)

theorem channels_fixup (e : Exchange) (old new : ChannelId) :
    (e.fixup old new).2.channels = e.channels ∧
    (e.fixup old new).2.proxyRegistered = e.proxyRegistered := by
  rw [fixup]
  cases e.recordOf new with
  | none => exact ⟨rfl, rfl⟩
  | some q =>
      dsimp only
      split
      · exact ⟨rfl, rfl⟩
      · split <;> exact ⟨rfl, rfl⟩

theorem pair_fixup (old new : ChannelId) (h : (e.pair p).chan ≠ some old) :
    ((e.fixup old new).2.pair p).chan = (e.pair p).chan ∧
      ((e.fixup old new).2.pair p).phase = (e.pair p).phase ∧
      (((e.fixup old new).2.pair p).owner = none → (e.pair p).owner = none) := by
  rw [fixup]
  cases e.recordOf new with
  | none => exact ⟨rfl, rfl, id⟩
  | some q =>
      dsimp only
      split
      · have hchan :=
          pair_modifyPair_congr Pair.chan e q p (f := ({ · with owner := some new })) rfl
        have hphase :=
          pair_modifyPair_congr Pair.phase e q p (f := ({ · with owner := some new })) rfl
        refine ⟨hchan, hphase, fun hnone => ?_⟩
        rcases pair_modifyPair_or e q p ({ · with owner := some new }) with hp | ⟨-, hp⟩ <;>
          dsimp only at hnone <;>
          rw [hp] at hnone
        · exact hnone
        · cases hnone
      · split
        · next hq =>
            have hne : p ≠ q := fun hp => h (hp ▸ hq)
            dsimp only
            rw [pair_modifyPair_of_ne _ _ hne]
            exact ⟨rfl, rfl, id⟩
        · exact ⟨rfl, rfl, id⟩

theorem takeOver_chanServed {survivor clone : ChannelId}
    (h : ChanServed p called pending e₀ ⟨e, w, d⟩)
    (hsurvivor : (e.pair p).chan ≠ some survivor) (hclone : (e.pair p).chan ≠ some clone) :
    ChanServed p called pending e₀ ⟨(e.takeOver survivor clone).1, w, d⟩ := by
  rw [takeOver]
  cases hl : e.lock? clone with
  | none => exact h
  | some x =>
      have hview := view_lock hl
      have hpair := pair_eq_of_view hview p
      let y := x.swapIdentities survivor clone
      have hy : (y.pair p).chan ≠ some survivor := by
        change (x.pair p).chan ≠ some survivor
        rwa [hpair]
      obtain ⟨hchannels, hregistered⟩ := channels_fixup y survivor clone
      obtain ⟨hchan, hphase, howner⟩ := pair_fixup (e := y) survivor clone hy
      have hswap : ChanServed p called pending e₀ ⟨y, w, d⟩ := by
        refine h.transfer (congrArg ExchangeView.registered hview) ?_ ?_ ?_ ?_ fun c hc => ?_
        · exact (size_swapIdentities x survivor clone).trans (size_eq_of_view hview)
        · exact congrArg Pair.chan hpair
        · exact congrArg Pair.phase hpair
        · exact fun hnone => (congrArg Pair.owner hpair).symm.trans hnone
        · have hs : c ≠ survivor := fun heq => hsurvivor (heq ▸ hc)
          have hcl : c ≠ clone := fun heq => hclone (heq ▸ hc)
          exact channelFacts_eq_of_channelView
            ((channelView_swapIdentities_of_ne x hs hcl).trans (channelView_eq_of_view hview c))
      have hfixup : ChanServed p called pending e₀
          ⟨if y.isDriven clone then (y.fixup survivor clone).2 else y, w, d⟩ := by
        split
        · refine hswap.transfer hregistered (congrArg Table.size hchannels) hchan hphase howner
            fun c _ => ?_
          exact congrArg channelFacts (channel_eq_of_channels hchannels c)
        · exact hswap
      refine hfixup.transfer rfl ?_ rfl rfl id fun c _ => ?_
      · exact size_modifyChannel clone _
      · exact channel_modifyChannel_congr channelFacts _ clone c rfl

end Exchange

namespace Session

variable {s t : Session} {p : PairId} {c : ChannelId} {rest : List Task}

/-- The next task leaves slots, sides and driver to the exchange, and moves neither the pair's
chan-side nor another channel into its place. -/
def spares (s : Session) (p : PairId) : Bool :=
  match s.agenda with
  | .operate op :: _ => op.isHosted
  | .takeOver survivor clone :: _ =>
    (s.exchange.pair p).chan ≠ some survivor && (s.exchange.pair p).chan ≠ some clone
  | _ => true

theorem isHosted_of_spares (h : s.spares p = true) {op : Operation}
    (hagenda : s.agenda = .operate op :: rest) :
    op.isHosted = true := by
  rwa [spares, hagenda] at h

theorem ne_of_spares (h : s.spares p = true) {survivor clone : ChannelId}
    (hagenda : s.agenda = .takeOver survivor clone :: rest) :
    (s.exchange.pair p).chan ≠ some survivor ∧ (s.exchange.pair p).chan ≠ some clone := by
  rw [spares, hagenda] at h
  simpa using h

theorem keepsChan_of_spares (h : s.spares p = true)
    (htask : ∀ survivor clone rest, s.agenda ≠ .takeOver survivor clone :: rest) :
    TurnState.KeepsChan s.Entitles := by
  constructor
  · rintro survivor clone ⟨u, rest, hagenda, hentitles⟩
    cases hentitles with
    | swaps => exact htask survivor clone rest hagenda
    | dispatched _ _ hsignals | direct hsignals => cases hsignals
  · rintro old new ⟨u, rest, hagenda, hentitles⟩
    cases hentitles with
    | reseats => exact htask old new rest hagenda
    | fixes => cases isHosted_of_spares h hagenda
    | dispatched _ _ hsignals | direct hsignals => cases hsignals
  · rintro c ⟨u, rest, hagenda, hentitles⟩
    cases hentitles with
    | refits | releases => cases isHosted_of_spares h hagenda
    | dispatched _ _ hsignals | direct hsignals => cases hsignals
  · rintro ⟨u, rest, hagenda, hentitles⟩
    cases hentitles with
    | unregisters => cases isHosted_of_spares h hagenda
    | dispatched _ _ hsignals | direct hsignals => cases hsignals

def Hears (s : Session) (c : ChannelId) : Prop := .dispatch c .hangup ∈ s.agenda

/-- The pair's chan-side, once it has been left alone, has a dialplan or is to be hung up. -/
def ChanServed (s : Session) (p : PairId) : Prop :=
  TurnState.ChanServed p s.Hears (fun c => c ∈ hangupTasks s.agenda ∨ s.Hears c) s.exchange
    ⟨s.exchange, backedOff s.agenda, []⟩

theorem chanServed_start {config : Config} {ops : List Operation} (h : start config ops = .ok s) :
    s.ChanServed p := by
  have hnone : (s.exchange.pair p).chan = none := by
    rw [eq_of_start h, Exchange.pair_of_not_mem (List.not_mem_nil)]
    rfl
  have hwaiting : backedOff s.agenda = [] := by
    rw [eq_of_start h]
    exact backedOff_tasksOf ops
  constructor
  case registered =>
    rw [eq_of_start h]
  case fresh => exact id
  case leaver =>
    rw [hwaiting]
    exact fun a ha => absurd ha List.not_mem_nil
  case slot | served | called =>
    intro c hc
    rw [hnone] at hc
    cases hc
  case attended =>
    intro c _ hc
    rw [hnone] at hc
    cases hc

theorem ChanServed.isDriven (h : s.ChanServed p) (hc : (s.exchange.pair p).chan = some c) :
    s.exchange.isDriven c = true := by
  exact Exchange.isDriven_iff.2 ⟨(h.slot c hc).2, h.registered⟩

theorem ChanServed.hangup (h : s.ChanServed p) (hagenda : s.agenda = .hangup c :: rest)
    (hc : (s.step.exchange.pair p).chan = some c) :
    s.step.Hears c ∨ ∃ a ∈ backedOff s.step.agenda, a.Departs p c := by
  have hstep : s.step = ({ s with agenda := rest } : Session).turn (s.exchange.hangup c) :=
    step_perform hagenda
  rw [hstep] at hc ⊢
  rw [Exchange.hangup] at hc ⊢
  by_cases hhungup : (s.exchange.channel c).hungup = true
  · rw [if_pos hhungup] at hc ⊢
    rcases h.called c hc hhungup with hhears | ⟨a, ha, hdeparts⟩
    · left
      rw [Hears, hagenda] at hhears
      rcases List.mem_cons.1 hhears with heq | hmem
      · cases heq
      · exact .tail _ hmem
    · right
      dsimp only at ha
      rw [hagenda] at ha
      exact ⟨a, ha, hdeparts⟩
  · rw [if_neg hhungup] at hc ⊢
    have htechnology := Exchange.channel_modifyChannel_congr Channel.technology s.exchange c c
      (f := ({ · with hungup := true })) rfl
    have hdriven : (s.exchange.modifyChannel c ({ · with hungup := true })).isDriven c = true :=
      Exchange.isDriven_iff.2 ⟨htechnology.trans (h.slot c hc).2, h.registered⟩
    left
    dsimp only [Hears]
    rw [hdriven]
    exact .head _

theorem ChanServed.dispatch (h : s.ChanServed p) (hagenda : s.agenda = .dispatch c .hangup :: rest)
    (hc : (s.step.exchange.pair p).chan = some c) :
    s.step.Hears c ∨ ∃ a ∈ backedOff s.step.agenda, a.Departs p c := by
  have hstep : s.step = ({ s with agenda := rest } : Session).turn
    (s.exchange.dispatch c .hangup) :=
    step_perform hagenda
  have hwaiting : backedOff s.agenda = backedOff rest := by rw [hagenda]; rfl
  rw [hstep] at hc ⊢
  by_cases hdriven : s.exchange.isDriven c = true
  · cases hl : s.exchange.lock? c with
    | none =>
        left
        rw [Exchange.dispatch_of_locked hdriven hl]
        exact .head _
    | some e =>
        rw [Exchange.dispatch_of_lock hdriven hl] at hc ⊢
        have hview := Exchange.view_lock hl
        obtain ⟨-, a, ha, hdeparts⟩ :=
          Exchange.teardown_departs (TurnState.ChanServed.of_view h hview) hc
        refine .inr ⟨a, ?_, hdeparts⟩
        have hagenda' : backedOff (((e.teardown c).2 ++ [Task.unlock c]) ++ rest) =
            backedOff (e.teardown c).2 ++ backedOff s.agenda := by
          rw [backedOff_append, backedOff_append, hwaiting,
            show backedOff [.unlock c] = [] from rfl,
            List.append_nil]
        rw [← hagenda'] at ha
        exact ha
  · rw [Exchange.dispatch] at hc
    rw [if_neg hdriven] at hc
    exact absurd (h.isDriven hc) hdriven

theorem ChanServed.step_takeOver {survivor clone : ChannelId} (h : s.ChanServed p)
    (hagenda : s.agenda = .takeOver survivor clone :: rest) (hspares : s.spares p = true)
    (hphase : (s.exchange.pair p).phase = .fresh → (s.step.exchange.pair p).phase ≠ .optimized) :
    s.step.ChanServed p := by
  have hstep : s.step = ({ s with agenda := rest } : Session).turn
    (s.exchange.takeOver survivor clone) :=
    step_perform hagenda
  have hlaid : backedOff (s.exchange.takeOver survivor clone).2 = [] := by
    rw [Exchange.takeOver]
    cases s.exchange.lock? clone <;> rfl
  have hwaiting : backedOff s.step.agenda = backedOff s.agenda := by
    have hturn : s.step.agenda = (s.exchange.takeOver survivor clone).2 ++ rest := by
      rw [hstep]; rfl
    rw [hturn, hagenda, backedOff_append, hlaid]
    rfl
  have hkept : ∀ u ∈ s.agenda, u ≠ .takeOver survivor clone → u ∈ s.step.agenda := by
    intro u hu hne
    rw [hagenda] at hu
    rw [hstep]
    exact List.mem_append_right _ ((List.mem_cons.1 hu).resolve_left hne)
  obtain ⟨hsurvivor, hclone⟩ := ne_of_spares hspares hagenda
  have hend := Exchange.takeOver_chanServed h hsurvivor hclone
  have hexchange : s.step.exchange = (s.exchange.takeOver survivor clone).1 := by rw [hstep]; rfl
  rw [ChanServed, hwaiting]
  rw [← hexchange] at hend
  refine hend.rebase (fun hskips => hphase hskips.1 hskips.2) (fun c _ hhears => .inl ?_)
    fun c _ hpending => .inl ?_
  · exact hkept _ hhears (by rintro ⟨⟩)
  · rcases hpending.resolve_right List.not_mem_nil with hsentenced | hhears
    · obtain ⟨u, hu, hc⟩ := List.mem_filterMap.1 hsentenced
      refine .inl (List.mem_filterMap.2 ⟨u, hkept u hu ?_, hc⟩)
      rintro rfl
      cases hc
    · exact .inr (hkept _ hhears (by rintro ⟨⟩))

theorem ChanServed.step (h : s.ChanServed p) (hspares : s.spares p = true)
    (hphase : (s.exchange.pair p).phase = .fresh → (s.step.exchange.pair p).phase ≠ .optimized) :
    s.step.ChanServed p := by
  cases hagenda : s.agenda with
  | nil =>
      rw [step_idle hagenda]
      exact h
  | cons t rest =>
      by_cases htask : ∃ survivor clone, t = .takeOver survivor clone
      · obtain ⟨survivor, clone, rfl⟩ := htask
        exact h.step_takeOver hagenda hspares hphase
      · have hkeeps := keepsChan_of_spares hspares fun survivor clone rest' heq =>
          htask ⟨survivor, clone, by
          rw [hagenda] at heq
          exact (List.cons.inj heq).1⟩
        obtain ⟨ts, hts, hleads⟩ := step_leads hagenda
        have hbegin : TurnState.ChanServed p (fun c => s.Entitles (.marks c) ∨ s.Hears c)
            (fun c => c ∈ hangupTasks s.agenda ∨ s.Hears c) s.exchange
            ⟨s.exchange, backedOff s.agenda, []⟩ :=
          h.rebase (TurnState.not_skips _ p) (fun _ _ hhears => .inl (.inr hhears))
            fun _ _ hpending => .inl (hpending.resolve_right List.not_mem_nil)
        have hend := hleads.chanServed hkeeps (fun _ => .inl) hbegin
        -- What the task was to see to has been seen to, or is seen to further.
        have hheard : ∀ c, (s.step.exchange.pair p).chan = some c → s.Hears c →
            s.step.Hears c ∨ ∃ a ∈ backedOff s.step.agenda, a.Departs p c := by
          intro c hc hhears
          rw [Hears, hagenda] at hhears
          rcases List.mem_cons.1 hhears with rfl | hmem
          · exact h.dispatch hagenda hc
          · left
            rw [Hears, hts]
            exact List.mem_append_right ts hmem
        refine hend.rebase (fun hskips => hphase hskips.1 hskips.2) (fun c hc hcalled => ?_)
          fun c hc hpending => ?_
        · rcases hcalled with ⟨u, rest', heq, hmarks⟩ | hhears
          · rw [hagenda] at heq
            obtain ⟨rfl, rfl⟩ := List.cons.inj heq
            cases hmarks with
            | marks => exact h.hangup hagenda hc
            | dispatched _ _ hsignals | direct hsignals => cases hsignals
          · exact hheard c hc hhears
        · rcases hpending with (hsentenced | hhears) | hdue
          · obtain ⟨u, hu, hhangup⟩ := List.mem_filterMap.1 hsentenced
            rw [hagenda] at hu
            rcases List.mem_cons.1 hu with rfl | hmem
            · cases u with
              | hangup d =>
                  obtain rfl : d = c := Option.some.inj hhangup
                  exact (h.hangup hagenda hc).imp_left .inr
              | _ => cases hhangup
            · refine .inl (.inl (List.mem_filterMap.2 ⟨u, ?_, hhangup⟩))
              rw [hts]
              exact List.mem_append_right ts hmem
          · exact (hheard c hc hhears).imp_left .inr
          · refine .inl (.inl ?_)
            rw [hts, hangupTasks_append]
            exact List.mem_append_left _ hdue

theorem Moves.chanServed (hm : Moves s t) (h : s.ChanServed p) (hspares : s.spares p = true)
    (hphase : (s.exchange.pair p).phase = .fresh → (t.exchange.pair p).phase ≠ .optimized) :
    t.ChanServed p := by
  cases hm with
  | step => exact h.step hspares hphase
  | others a rest ops hhead =>
      have hkept : ∀ u ∈ s.agenda, u ∈ (s.interrupt ops).agenda := by
        intro u hu
        rw [agenda_interrupt]
        exact List.mem_append_right _ hu
      have hwaiting : backedOff (s.interrupt ops).agenda = backedOff s.agenda := by
        rw [agenda_interrupt, backedOff_append, backedOff_append, backedOff_tasksOf]
        rfl
      rw [ChanServed, hwaiting]
      refine h.rebase (TurnState.not_skips _ p) (fun c _ hhears => .inl (hkept _ hhears))
        fun c _ hpending => .inl ?_
      rcases hpending.resolve_right List.not_mem_nil with hsentenced | hhears
      · obtain ⟨u, hu, hc⟩ := List.mem_filterMap.1 hsentenced
        exact .inl (List.mem_filterMap.2 ⟨u, hkept u hu, hc⟩)
      · exact .inr (hkept _ hhears)

/-- Along any run, with any operations of others wherever a driver has backed off, in which the
pair's chan-side is left in its place and the pair does not step out of its call before it is
called: when nothing is in progress and the owner-side has left, the chan-side that is still there
is served. -/
theorem attended_at_rest {config : Config} {ops : List Operation} {s : Nat → Session} {n : Nat}
    (hstart : start config ops = .ok (s 0)) (hmoves : ∀ k < n, Moves (s k) (s (k + 1)))
    (hspares : ∀ k < n, (s k).spares p = true)
    (hphase : ∀ k < n, ((s k).exchange.pair p).phase = .fresh →
      ((s (k + 1)).exchange.pair p).phase ≠ .optimized)
    (hrest : (s n).AtRest) (howner : ((s n).exchange.pair p).owner = none)
    (hchan : ((s n).exchange.pair p).chan = some c) :
    ((s n).exchange.channel c).dialplanStarted = true := by
  have hserved : ∀ k ≤ n, (s k).ChanServed p := by
    intro k
    induction k with
    | zero => exact fun _ => chanServed_start hstart
    | succ k ih =>
        exact fun hk => (hmoves k hk).chanServed (ih (Nat.le_of_succ_le hk)) (hspares k hk)
          (hphase k hk)
  have hawaits := fun u hu => Task.nothing_of_awaits (hrest u hu)
  rcases (hserved n (Nat.le_refl n)).attended c howner hchan with
    hstarted | (hsentenced | hhears) | hdue | ⟨a, ha, -⟩ | hskips
  · exact hstarted
  · obtain ⟨u, hu, hc⟩ := List.mem_filterMap.1 hsentenced
    rw [(hawaits u hu).2.1] at hc
    cases hc
  · exact absurd rfl ((hawaits _ hhears).2.2 c .hangup)
  · exact absurd hdue List.not_mem_nil
  · obtain ⟨u, hu, hc⟩ := List.mem_filterMap.1 ha
    rw [(hawaits u hu).1] at hc
    cases hc
  · exact absurd hskips (TurnState.not_skips _ p)

/-- The chan-side of a pair that nobody has called is bridged to a third channel, and writes to it.
-/
def deserted : List Operation :=
  [.request .dispatched "Local" "100@internal" ⟨4⟩, .newChannel "SIP/third",
    .transfer .bridge ⟨2⟩ ⟨3⟩,
    .signal .dispatched ⟨2⟩ (.write (.voice ⟨⟨4⟩, [0]⟩))]

theorem deserted_unserved : ∃ s, start {} deserted = .ok s ∧
    (∀ k < 27, (s.run k).spares ⟨1⟩ = true) ∧
    (s.run 27).agenda = [] ∧ ((s.run 27).exchange.pair ⟨1⟩).owner = none ∧
    ((s.run 27).exchange.pair ⟨1⟩).chan = some ⟨2⟩ ∧
    ((s.run 27).exchange.channel ⟨2⟩).dialplanStarted = false ∧
    ((s.run 27).exchange.channel ⟨2⟩).hungup = false :=
  ⟨_, rfl, by decide +kernel, by decide +kernel, by decide +kernel, by decide +kernel, by decide +kernel,
    by decide +kernel⟩

def relieved : List Operation :=
  [.addExtension "internal" "100", .request .dispatched "Local" "100@internal" ⟨4⟩,
    .signal .dispatched ⟨1⟩ (.call "100" none), .newChannel "SIP/third", .transfer .bridge ⟨2⟩ ⟨3⟩,
    .signal .dispatched ⟨2⟩ (.write (.voice ⟨⟨4⟩, [0]⟩))]

theorem relieved_served : ∃ s, start {} relieved = .ok s ∧ (∀ k < 35, (s.run k).spares ⟨1⟩ = true) ∧
    (∀ k < 35, ((s.run k).exchange.pair ⟨1⟩).phase = .fresh →
      ((s.run (k + 1)).exchange.pair ⟨1⟩).phase ≠ .optimized) ∧
    (s.run 35).AtRest ∧ ((s.run 35).exchange.pair ⟨1⟩).owner = none ∧
    ((s.run 35).exchange.pair ⟨1⟩).chan = some ⟨2⟩ ∧
    ((s.run 35).exchange.channel ⟨2⟩).dialplanStarted = true := by
  have hstart : start {} relieved = .ok { exchange := {}, agenda := tasksOf relieved } := rfl
  have hspares : ∀ k < 35, (run k { exchange := {}, agenda := tasksOf relieved }).spares
    ⟨1⟩ = true := by
    decide +kernel
  have hphase :
    ∀ k < 35, ((run k { exchange := {}, agenda := tasksOf relieved }).exchange.pair ⟨1⟩).phase =
      .fresh →
      ((run (k + 1) { exchange := {}, agenda := tasksOf relieved }).exchange.pair ⟨1⟩).phase ≠
        .optimized := by
    decide +kernel
  have hrest : (run 35 { exchange := {}, agenda := tasksOf relieved }).AtRest := by decide +kernel
  have howner : ((run 35 { exchange := {}, agenda := tasksOf relieved }).exchange.pair ⟨1⟩).owner =
    none := by
    decide +kernel
  have hchan : ((run 35 { exchange := {}, agenda := tasksOf relieved }).exchange.pair ⟨1⟩).chan =
    some ⟨2⟩ := by
    decide +kernel
  refine ⟨_, hstart, hspares, hphase, hrest, howner, hchan, ?_⟩
  exact attended_at_rest (s := fun k => run k { exchange := {}, agenda := tasksOf relieved }) hstart
    (fun k _ => run_succ _ k ▸ .step _) hspares hphase hrest howner hchan

end Session
end Switchboard
