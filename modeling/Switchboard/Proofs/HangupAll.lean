import Switchboard.Proofs.Accounting
import Switchboard.Proofs.ChanService
import Switchboard.Proofs.TurnState.EndpointsKept
import Switchboard.Proofs.Destruction
import Switchboard.Proofs.ListedChannels
import Switchboard.Proofs.Territory.Runs

namespace Switchboard

def Exchange.keepsSeats (e : Exchange) : Operation → Bool
  | .fixup _ _ | .edit _ (.slot _) => false
  | .release c => (e.recordOf c).isNone
  | _ => true

theorem TurnState.Leads.registered {may : Effect → Prop} {x y : TurnState} (hs : Leads may x y)
    (hmay : ¬ may (.registers false)) (h : x.exchange.proxyRegistered = true) :
    y.exchange.proxyRegistered = true := by
  induction hs with
  | refl => exact h
  | tail _ hstep ih => exact hstep.registered hmay ih

namespace Session

open Exchange

/-- What is next moves nobody from its place, and lets nobody take another's. -/
def keepsSeats (s : Session) : Bool :=
  match s.agenda with
  | .operate op :: _ => s.exchange.keepsSeats op
  | .takeOver _ _ :: _ => false
  | _ => true

variable {s t : Session} {p : PairId} {side : Side} {c : ChannelId} {rest : List Task}

theorem keepsEndpoints_of_keepsSeats (h : s.keepsSeats = true)
    (hrelease : ∀ c rest, s.agenda ≠ .operate (.release c) :: rest) :
    TurnState.KeepsEndpoints s.Entitles := by
  constructor
  · rintro survivor clone ⟨u, rest, hagenda, hentitles⟩
    cases hentitles with
    | swaps =>
        rw [keepsSeats, hagenda] at h
        cases h
    | dispatched _ _ hsignals | direct hsignals => cases hsignals
  · rintro old new ⟨u, rest, hagenda, hentitles⟩
    cases hentitles with
    | reseats | fixes =>
        rw [keepsSeats, hagenda] at h
        cases h
    | dispatched _ _ hsignals | direct hsignals => cases hsignals
  · rintro c ⟨u, rest, hagenda, hentitles⟩
    cases hentitles with
    | refits =>
        rw [keepsSeats, hagenda] at h
        cases h
    | releases => exact hrelease c rest hagenda
    | dispatched _ _ hsignals | direct hsignals => cases hsignals

/-- The endpoints of the pair are in their places, and one that was hung up is about to leave. -/
def EndpointsKept (s : Session) (p : PairId) : Prop :=
  TurnState.EndpointsKept p s.Hears ⟨s.exchange, backedOff s.agenda, []⟩

theorem endpointsKept_start {config : Config} {ops : List Operation}
    (h : start config ops = .ok s) : s.EndpointsKept p := by
  have hnobody : ∀ side c, (s.exchange.pair p).endpoint side ≠ some c := by
    intro side c hc
    rw [eq_of_start h, Exchange.pair_of_not_mem List.not_mem_nil] at hc
    cases side <;> cases hc
  have hwaiting : backedOff s.agenda = [] := by
    rw [eq_of_start h]
    exact backedOff_tasksOf ops
  constructor
  case leaver =>
    rw [hwaiting]
    exact fun a ha => absurd ha List.not_mem_nil
  case slot => exact fun side c hc => absurd hc (hnobody side c)
  case apart => exact fun side _ c hc => absurd hc (hnobody side c)
  case called => exact fun side c hc => absurd hc (hnobody side c)

theorem EndpointsKept.mono (h : s.EndpointsKept p) (hexchange : t.exchange = s.exchange)
    (hwaiting : backedOff t.agenda = backedOff s.agenda) (hkept : ∀ u ∈ s.agenda, u ∈ t.agenda) :
    t.EndpointsKept p := by
  rw [EndpointsKept, hexchange, hwaiting]
  exact TurnState.EndpointsKept.rebase h fun side c _ hhears => .inl (hkept _ hhears)

theorem EndpointsKept.hangup (h : s.EndpointsKept p)
    (hregistered : s.exchange.proxyRegistered = true)
    (hagenda : s.agenda = .hangup c :: rest)
    (hc : (s.step.exchange.pair p).endpoint side = some c) :
    s.step.Hears c ∨ ∃ a ∈ backedOff s.step.agenda, a.Leaves p side c := by
  have hstep : s.step = ({ s with agenda := rest } : Session).turn (s.exchange.hangup c) :=
    step_perform hagenda
  rw [hstep] at hc ⊢
  rw [Exchange.hangup] at hc ⊢
  by_cases hhungup : (s.exchange.channel c).hungup = true
  · rw [if_pos hhungup] at hc ⊢
    rcases h.called side c hc hhungup with hhears | ⟨a, ha, hleaves⟩
    · left
      rw [Hears, hagenda] at hhears
      rcases List.mem_cons.1 hhears with heq | hmem
      · cases heq
      · exact .tail _ hmem
    · right
      dsimp only at ha
      rw [hagenda] at ha
      exact ⟨a, ha, hleaves⟩
  · rw [if_neg hhungup] at hc ⊢
    have htechnology := Exchange.channel_modifyChannel_congr Channel.technology s.exchange c c
      (f := ({ · with hungup := true })) rfl
    have hdriven : (s.exchange.modifyChannel c ({ · with hungup := true })).isDriven c = true :=
      Exchange.isDriven_iff.2 ⟨htechnology.trans (h.slot side c hc).2, hregistered⟩
    left
    dsimp only [Hears]
    rw [hdriven]
    exact .head _

theorem EndpointsKept.dispatch (h : s.EndpointsKept p)
    (hregistered : s.exchange.proxyRegistered = true)
    (hagenda : s.agenda = .dispatch c .hangup :: rest)
    (hc : (s.step.exchange.pair p).endpoint side = some c) :
    s.step.Hears c ∨ ∃ a ∈ backedOff s.step.agenda, a.Leaves p side c := by
  have hstep : s.step = ({ s with agenda := rest } : Session).turn
    (s.exchange.dispatch c .hangup) :=
    step_perform hagenda
  have hwaiting : backedOff s.agenda = backedOff rest := by rw [hagenda]; rfl
  rw [hstep] at hc ⊢
  by_cases hdriven : s.exchange.isDriven c = true
  · cases hl : s.exchange.lock? c with
    | none =>
        left
        rw [Exchange.dispatch_of_locked hdriven hl]
        exact .head _
    | some e =>
        rw [Exchange.dispatch_of_lock hdriven hl] at hc ⊢
        have hquiet : TurnState.Leads (fun _ => False) ⟨s.exchange, backedOff s.agenda, []⟩
          ⟨e, backedOff s.agenda, []⟩ :=
          TurnState.leads_quiet (Exchange.view_lock hl)
        have hlocked :=
          hquiet.endpointsKept ⟨fun _ _ => id, fun _ _ => id, fun _ => id⟩ (fun _ => False.elim) h
        obtain ⟨a, ha, hleaves⟩ := Exchange.teardown_leaves hlocked hc
        refine .inr ⟨a, ?_, hleaves⟩
        have hagenda' : backedOff (((e.teardown c).2 ++ [Task.unlock c]) ++ rest) =
            backedOff (e.teardown c).2 ++ backedOff s.agenda := by
          rw [backedOff_append, backedOff_append, hwaiting,
            show backedOff [.unlock c] = [] from rfl,
            List.append_nil]
        rw [← hagenda'] at ha
        exact ha
  · rw [Exchange.dispatch] at hc
    rw [if_neg hdriven] at hc
    exact absurd (Exchange.isDriven_iff.2 ⟨(h.slot side c hc).2, hregistered⟩) hdriven

theorem EndpointsKept.step_release (h : s.EndpointsKept p)
    (hagenda : s.agenda = .operate (.release c) :: rest)
    (hkeeps : s.keepsSeats = true) : s.step.EndpointsKept p := by
  have hstep : s.step = ({ s with agenda := rest } : Session).operate (.release c) :=
    step_perform hagenda
  have hout : s.exchange.recordOf c = none := by
    rw [keepsSeats, hagenda] at hkeeps
    simpa [Exchange.keepsSeats] using hkeeps
  have hwaiting : backedOff rest = backedOff s.agenda := by rw [hagenda]; rfl
  have hhears : ∀ b, s.Hears b → .dispatch b .hangup ∈ rest := by
    intro b hb
    rw [Hears, hagenda] at hb
    exact (List.mem_cons.1 hb).resolve_left (by rintro ⟨⟩)
  rw [hstep]
  unfold operate
  cases s.exchange.missing (.release c) with
  | some answer =>
      rw [EndpointsKept, hwaiting]
      exact TurnState.EndpointsKept.rebase h fun _ b _ hb => .inl (hhears b hb)
  | none =>
      have hreleased := TurnState.EndpointsKept.release h hout
      rw [← hwaiting] at hreleased
      exact hreleased.rebase fun _ b _ hb => .inl (.tail _ (hhears b hb))

theorem EndpointsKept.step (h : s.EndpointsKept p) (hregistered : s.exchange.proxyRegistered = true)
    (hkeeps : s.keepsSeats = true) : s.step.EndpointsKept p := by
  cases hagenda : s.agenda with
  | nil =>
      rw [step_idle hagenda]
      exact h
  | cons u rest =>
      by_cases hrelease : ∃ b, u = .operate (.release b)
      · obtain ⟨b, rfl⟩ := hrelease
        exact h.step_release hagenda hkeeps
      · have hstill := keepsEndpoints_of_keepsSeats hkeeps fun b later heq => hrelease ⟨b, by
          rw [hagenda] at heq
          exact (List.cons.inj heq).1⟩
        obtain ⟨ts, hts, hleads⟩ := step_leads hagenda
        have hbegin : TurnState.EndpointsKept p (fun c => s.Entitles (.marks c) ∨ s.Hears c)
            ⟨s.exchange, backedOff s.agenda, []⟩ :=
              TurnState.EndpointsKept.rebase h fun _ _ _ hhears => .inl (.inr hhears)
        have hend := hleads.endpointsKept hstill (fun _ => .inl) hbegin
        -- What the task was to see to has been seen to, or is seen to further.
        refine hend.rebase fun side c hc hcalled => ?_
        rcases hcalled with hmarks | hhears
        · obtain ⟨later, hhangup⟩ := marks_of_entitles hmarks
          exact h.hangup hregistered hhangup hc
        · rw [Hears, hagenda] at hhears
          rcases List.mem_cons.1 hhears with rfl | hmem
          · exact h.dispatch hregistered hagenda hc
          · left
            rw [Hears, hts]
            exact List.mem_append_right ts hmem

/-- The invariant of a session in which endpoints stay in their places until they are hung up. -/
structure InOrder (s : Session) : Prop where
  registered : s.exchange.proxyRegistered = true
  endpointsKept : ∀ p, s.EndpointsKept p
  listedInvariant : s.ListedInvariant
  seated : TurnState.Seated s.exchange
  sound : s.ledger.Sound
  tallied : s.exchange.records.Tallied

theorem inOrder_start {config : Config} {ops : List Operation} (h : start config ops = .ok s) :
    s.InOrder where
  registered := by rw [eq_of_start h]
  endpointsKept p := endpointsKept_start h
  listedInvariant := listedInvariant_start h
  seated := seated_start h
  sound := (Reachable.start h).sound
  tallied :=
    have htallied := (Reachable.start h).tallied
    ⟨htallied.tokens, htallied.inUse⟩

theorem Moves.inOrder (hm : Moves s t) (h : s.InOrder) (hkeeps : s.keepsSeats = true)
    (hregistered : t.exchange.proxyRegistered = true) : t.InOrder where
  registered := hregistered
  endpointsKept p := by
    cases hm with
    | step => exact (h.endpointsKept p).step h.registered hkeeps
    | others a rest ops hagenda =>
        refine (h.endpointsKept p).mono rfl ?_ fun u hu => ?_
        · rw [agenda_interrupt, backedOff_append, backedOff_append, backedOff_tasksOf]
          rfl
        · rw [agenda_interrupt]
          exact List.mem_append_right _ hu
  listedInvariant := hm.listedInvariant h.listedInvariant
  seated := hm.seated h.seated
  sound := hm.sound h.sound
  tallied := hm.tallied h.sound h.tallied

theorem InOrder.push (h : s.InOrder) (ops : List Operation) : (s.push (tasksOf ops)).InOrder where
  registered := h.registered
  endpointsKept p := by
    refine (h.endpointsKept p).mono rfl ?_ fun u hu => List.mem_append_right _ hu
    rw [Session.push, backedOff_append, backedOff_tasksOf, List.nil_append]
  listedInvariant c hc :=
    ⟨(h.listedInvariant c hc).1,
    fun hhungup => List.mem_append_right _ ((h.listedInvariant c hc).2 hhungup)⟩
  seated := h.seated
  sound := by
    have hledger : (s.push (tasksOf ops)).ledger = s.ledger := by
      simp only [ledger, Session.push, pendingRetries_append, pendingRetries_tasksOf,
        Multiset.zero_add]
    rw [hledger]
    exact h.sound
  tallied := h.tallied

theorem InOrder.step {later : List Task} {u : Task} (h : s.InOrder)
    (hagenda : s.agenda = u :: later)
    (hplain : u.isPlain = true) : s.step.InOrder := by
  have hkeeps : s.keepsSeats = true := by
    rw [keepsSeats, hagenda]
    cases u with
    | operate op => cases op <;> first | rfl | cases hplain
    | takeOver => cases hplain
    | _ => rfl
  obtain ⟨ts, -, hleads⟩ := step_leads hagenda
  refine (Moves.step s).inOrder h hkeeps (hleads.registered ?_ h.registered)
  rintro ⟨u', later', hagenda', hentitles⟩
  obtain ⟨rfl, -⟩ := List.cons.inj (hagenda.symm.trans hagenda')
  cases hentitles with
  | unregisters => cases hplain
  | dispatched _ _ hsignals | direct hsignals => cases hsignals

theorem InOrder.run {n : Nat} (h : s.InOrder)
    (hplain : ∀ k < n, ∃ u later, (s.run k).agenda = u :: later ∧ u.isPlain = true) :
    (s.run n).InOrder := by
  induction n with
  | zero => exact h
  | succ n ih =>
      obtain ⟨u, later, hagenda, hu⟩ := hplain n (Nat.lt_succ_self n)
      rw [run_succ]
      exact (ih fun k hk => hplain k (Nat.lt_succ_of_lt hk)).step hagenda hu

theorem InOrder.vacant (h : s.InOrder) (hrest : s.AtRest)
    (hall : ∀ c, c.Among s.exchange.channels.size → (s.exchange.channel c).hungup = true)
    (p : PairId) :
    (s.exchange.pair p).isVacant = true := by
  have hawaits := fun u hu => Task.nothing_of_awaits (hrest u hu)
  by_contra hnot
  obtain ⟨side, hside⟩ := Pair.not_isVacant_iff.1 (Bool.eq_false_iff.2 hnot)
  obtain ⟨c, hc⟩ := Option.ne_none_iff_exists'.1 hside
  rcases (h.endpointsKept p).called side c hc (hall c (h.seated p side c hc)) with
    hhears | ⟨a, ha, -⟩
  · exact (hawaits _ hhears).2.2 c .hangup rfl
  · obtain ⟨u, hu, hacquisition⟩ := List.mem_filterMap.1 ha
    rw [(hawaits u hu).1] at hacquisition
    cases hacquisition

theorem InOrder.ended (h : s.InOrder) (hrest : s.AtRest) (hp : p ∈ s.exchange.pairIds)
    (hvacant : (s.exchange.pair p).isVacant = true) :
    (s.exchange.pair p).destroyed = true ∧ (s.exchange.pair p).glare.inFlight = 0 := by
  have hrecord := h.sound.record p hp
  rw [ledger, hrest.pendingRetries, Multiset.count_zero] at hrecord
  refine ⟨?_, hrecord.inFlight⟩
  rcases hrecord.vacant hvacant with hdestroyed | ⟨_, hpos⟩
  · exact hdestroyed
  · exact absurd hpos (Nat.lt_irrefl 0)

theorem InOrder.unused (h : s.InOrder) (hvacant : ∀ p, (s.exchange.pair p).isVacant = true) :
    s.exchange.moduleUse.inUse = 0 := by
  have huse : s.exchange.moduleUse.inUse = s.exchange.records.holds := h.tallied.inUse
  rw [huse]
  refine List.sum_eq_zero fun k hk => ?_
  obtain ⟨p, hp, rfl⟩ := List.mem_map.1 hk
  obtain ⟨howner, hchan⟩ := Pair.isVacant_iff.1 (hvacant p)
  rw [Pair.holds_eq_attached (h.tallied.tokens p hp), Pair.attached, Exchange.pair_records,
    howner, hchan]
  rfl

theorem InOrder.drained (h : s.InOrder) (hrest : s.AtRest)
    (hall : ∀ c, c.Among s.exchange.channels.size → (s.exchange.channel c).hungup = true) :
    s.exchange.listed = [] ∧ s.exchange.registry.pairs = [] ∧ s.exchange.moduleUse.inUse = 0 ∧
    (∀ p ∈ s.exchange.pairIds, (s.exchange.pair p).destroyed = true ∧
    (s.exchange.pair p).glare.inFlight = 0) ∧
    s.exchange.registry.stats.registered = s.exchange.registry.stats.unlinked ∧
    s.exchange.registry.stats.unlinked = s.exchange.registry.stats.destroyed := by
  have hvacant := h.vacant hrest hall
  have hended := fun p hp => h.ended hrest (p := p) hp (hvacant p)
  have hunlisted : s.exchange.registry.pairs = [] := by
    have hlisted : s.exchange.registry.pairs =
        s.exchange.pairIds.filter fun p => !(s.exchange.pair p).isVacant := h.sound.listed
    rw [hlisted]
    exact List.filter_eq_nil_iff.2 fun p _ => by simp [hvacant p]
  have hbalance : s.exchange.registry.stats.unlinked + s.exchange.registry.size =
      s.exchange.registry.stats.registered := h.sound.balanced.size
  have hregistered : s.exchange.registry.stats.registered = s.exchange.pairs.size :=
    h.sound.registered
  have hdestroyed : s.exchange.registry.stats.destroyed =
      s.exchange.pairIds.countP fun p => (s.exchange.pair p).destroyed := h.sound.destroyed
  rw [List.countP_eq_length.2 fun p hp => (hended p hp).1, Exchange.length_pairIds] at hdestroyed
  rw [Registry.size, hunlisted, List.length_nil, Nat.add_zero] at hbalance
  refine ⟨?_, hunlisted, h.unused hvacant, hended, hbalance.symm, ?_⟩
  · refine List.eq_nil_iff_forall_not_mem.2 fun c hc => ?_
    obtain ⟨hmade, hdelisted⟩ := h.listedInvariant c hc
    exact absurd (hrest _ (hdelisted (hall c hmade))) Bool.false_ne_true
  · rw [hbalance, hregistered, hdestroyed]

def everywhere (s : Session) : Territory where
  pairs _ := True
  channels := s.exchange.channelIds
  nodup := by
    refine List.Nodup.map ?_ (List.Nodup.map ?_ List.nodup_range)
    · exact fun a b h => ChannelId.mk.inj h
    · exact fun a b h => Nat.succ.inj h
  unscripted := s.backOffScripts = []

theorem mem_channelIds {e : Exchange} : c ∈ e.channelIds ↔ c.Among e.channels.size := by
  obtain ⟨n⟩ := c
  simp only [channelIds, Table.numbers, List.mem_map, List.mem_range, ChannelId.mk.injEq,
    ChannelId.Among]
  constructor
  · rintro ⟨_, ⟨i, hi, rfl⟩, rfl⟩
    omega
  · rintro ⟨hpos, hle⟩
    exact ⟨n, ⟨n - 1, by omega, by omega⟩, rfl⟩

theorem InOrder.selfContained (h : s.InOrder)
    (hfree : ∀ c ∈ s.exchange.channelIds, (s.exchange.channel c).lock.holder = none)
    (hwilling : s.backOffScripts = [] ∨ ∀ x ∈ s.exchange.contention.attempts, x.2 = true) :
    s.exchange.SelfContained s.everywhere where
  made _ hc := mem_channelIds.1 hc
  slot _ _ _ _ := trivial
  seated q _ side c hc := mem_channelIds.2 (h.seated q side c hc)
  free c hc := RecursiveLock.openTo_iff.2 (.inl (hfree c hc))
  noScriptedFailure := hwilling.imp_right fun h x hx _ => h x hx

/-- The channels of a territory are hung up one after the other. -/
theorem InOrder.hangups {T : Territory} {order : List ChannelId} (h : s.InOrder)
    (hcontained : s.exchange.SelfContained T)
    (hclear : Clear T s) (horder : ∀ c ∈ order, c ∈ T.channels) :
    ∃ t ws, s.Carries (order.map fun c => .signal .dispatched c .hangup) t ∧ t.InOrder ∧
      (∀ w ∈ ws, w.Within T) ∧ t.exchange = s.exchange.after ws ∧
      ∀ c ∈ order, (t.exchange.channel c).hungup = true := by
  induction order generalizing s with
  | nil => exact ⟨s, [], carries_nil s, h, by simp, rfl, by simp⟩
  | cons c order ih =>
      obtain ⟨n, ws, a, hthrough⟩ :=
        signal_runs hcontained (horder c List.mem_cons_self) .dispatched .hangup (.inl rfl)
      -- On its own the first hangup leaves everything in order, and the territory self-contained.
      have hpushed : (s.push (tasksOf [.signal .dispatched c .hangup])).agenda =
          .operate (.signal .dispatched c .hangup) :: .report :: s.agenda := rfl
      obtain ⟨hdone, hplain⟩ :=
        hthrough.reported (s := s.push (tasksOf [.signal .dispatched c .hangup]))
        (.refl _ _) hclear hpushed
      have hconcluded : (s.push (tasksOf [.signal .dispatched c .hangup])).run (n + 1) =
        s.concluded ws a := hdone
      have hinOrder : (s.concluded ws a).InOrder := by
        rw [← hconcluded]
        refine (h.push _).run fun k hk => ?_
        obtain ⟨u, later, hagenda, hu⟩ := hplain k hk
        exact ⟨u, _, hagenda, hu⟩
      obtain ⟨t, vs, hcarries, ht, hvs, hexchange, hhungup⟩ :=
        ih hinOrder (hcontained.after hthrough.within) hclear
        fun b hb => horder b (List.mem_cons_of_mem c hb)
      have hafter : t.exchange = (s.exchange.after ws).after vs := hexchange
      refine ⟨t, ws ++ vs, hthrough.carries (.refl _ _) hclear hcarries, ht,
        fun w hw => (List.mem_append.1 hw).elim (hthrough.within w)
        (hvs w), by rw [hafter, after_append], ?_⟩
      intro b hb
      rcases List.mem_cons.1 hb with rfl | hb
      · rw [hafter]
        exact (channel_after_loosens hvs _ b).hungup (hthrough.hungup _ List.mem_cons_self b rfl)
      · exact hhungup b hb

/-- Along any run, with any operations of others wherever a driver has backed off, in which the
driver stays registered, nobody is moved from its place and nobody takes another's: when nothing is
in progress and nobody is in the way, every channel that was ever made can be hung up, in any order,
and nothing is left of the channels and of their pairs. -/
theorem hangups_drain {config : Config} {ops : List Operation} {s : Nat → Session} {n : Nat}
    {order : List ChannelId} (hstart : start config ops = .ok (s 0))
    (hmoves : ∀ k < n, Moves (s k) (s (k + 1)))
    (hkeeps : ∀ k < n, (s k).keepsSeats = true)
    (hregistered : ∀ k ≤ n, (s k).exchange.proxyRegistered = true) (hrest : (s n).AtRest)
    (hfree : ∀ c ∈ (s n).exchange.channelIds, ((s n).exchange.channel c).lock.holder = none)
    (hwilling : (s n).backOffScripts = [] ∨ ∀ x ∈ (s n).exchange.contention.attempts, x.2 = true)
    (horder : order.Perm (s n).exchange.channelIds) :
    ∃ t, (s n).Carries (order.map fun c => .signal .dispatched c .hangup) t ∧
      t.exchange.channelIds = (s n).exchange.channelIds ∧
      t.exchange.listed = [] ∧ t.exchange.registry.pairs = [] ∧ t.exchange.moduleUse.inUse = 0 ∧
      (∀ p ∈ t.exchange.pairIds, (t.exchange.pair p).destroyed = true ∧
      (t.exchange.pair p).glare.inFlight = 0) ∧
      t.exchange.registry.stats.registered = t.exchange.registry.stats.unlinked ∧
      t.exchange.registry.stats.unlinked = t.exchange.registry.stats.destroyed := by
  have hinOrder : ∀ k ≤ n, (s k).InOrder := by
    intro k
    induction k with
    | zero => exact fun _ => inOrder_start hstart
    | succ k ih =>
        exact fun hk => (hmoves k hk).inOrder (ih (Nat.le_of_succ_le hk)) (hkeeps k hk)
          (hregistered (k + 1) hk)
  have hend := hinOrder n (Nat.le_refl n)
  obtain ⟨t, ws, hcarries, ht, -, hexchange, hhungup⟩ :=
    hend.hangups (hend.selfContained hfree hwilling) id
    fun c hc => horder.mem_iff.1 hc
  have hsize : t.exchange.channels.size = (s n).exchange.channels.size := by
    rw [hexchange, size_after]
  have hagenda : t.agenda = (s n).agenda := hcarries.choose_spec.2.1
  refine ⟨t, hcarries, ?_, ht.drained ?_ fun c hc => hhungup c ?_⟩
  · simp only [channelIds, Table.numbers, hsize]
  · rw [AtRest, hagenda]
    exact hrest
  · rw [hsize] at hc
    exact horder.mem_iff.2 (mem_channelIds.2 hc)

/-- A call, a request of which the second endpoint is refused, and a pair that is hung up while a
relay of the first one has backed off; at the end an attempt on a lock is still laid down to fail.
-/
def bustle : List Operation :=
  [.addExtension "internal" "100", .request .dispatched "Local" "100@internal" ⟨4⟩,
    .signal .dispatched ⟨1⟩ (.call "100" none),
    .scriptAllocations [none, some (.refused "no room")],
    .request .dispatched "Local" "200@internal" ⟨4⟩,
    .request .dispatched "Local" "300@internal" ⟨4⟩,
    .scriptLocks ⟨1⟩ [false], .onBackOff [.signal .dispatched ⟨4⟩ .hangup],
    .signal .dispatched ⟨2⟩ (.sendText "hello"), .scriptLocks ⟨1⟩ [false]]

theorem bustle_drains : ∃ s, start {} bustle = .ok s ∧ (∀ k < 51, (s.run k).keepsSeats = true) ∧
    (∀ k ≤ 51, (s.run k).exchange.proxyRegistered = true) ∧ (s.run 51).AtRest ∧
    (∀ c ∈ (s.run 51).exchange.channelIds, ((s.run 51).exchange.channel c).lock.holder = none) ∧
    (s.run 51).backOffScripts = [] ∧
    [⟨5⟩, ⟨2⟩, ⟨3⟩, ⟨1⟩, ⟨4⟩].Perm (s.run 51).exchange.channelIds ∧
    ∃ t, (s.run 51).Carries ([⟨5⟩, ⟨2⟩, ⟨3⟩, ⟨1⟩, ⟨4⟩].map
    fun c => .signal .dispatched c .hangup) t ∧
      t.exchange.channelIds = (s.run 51).exchange.channelIds ∧
      t.exchange.listed = [] ∧ t.exchange.registry.pairs = [] ∧ t.exchange.moduleUse.inUse = 0 ∧
      (∀ p ∈ t.exchange.pairIds, (t.exchange.pair p).destroyed = true ∧
      (t.exchange.pair p).glare.inFlight = 0) ∧
      t.exchange.registry.stats.registered = t.exchange.registry.stats.unlinked ∧
      t.exchange.registry.stats.unlinked = t.exchange.registry.stats.destroyed := by
  have hstart : start {} bustle = .ok { exchange := {}, agenda := tasksOf bustle } := rfl
  have hkeeps : ∀ k < 51, (run k { exchange := {}, agenda := tasksOf bustle }).keepsSeats =
    true := by
    decide +kernel
  have hregistered : ∀ k ≤ 51,
    (run k { exchange := {}, agenda := tasksOf bustle }).exchange.proxyRegistered = true := by
    decide +kernel
  have hrest : (run 51 { exchange := {}, agenda := tasksOf bustle }).AtRest := by decide +kernel
  have hfree : ∀ c ∈ (run 51 { exchange := {}, agenda := tasksOf bustle }).exchange.channelIds,
      ((run 51 { exchange := {}, agenda := tasksOf bustle }).exchange.channel c).lock.holder =
      none := by
    decide +kernel
  have hscripts : (run 51 { exchange := {}, agenda := tasksOf bustle }).backOffScripts.isEmpty =
    true := by
    decide +kernel
  have horder : [⟨5⟩, ⟨2⟩, ⟨3⟩, ⟨1⟩, ⟨4⟩].Perm
      (run 51 { exchange := {}, agenda := tasksOf bustle }).exchange.channelIds := by
    decide +kernel
  refine ⟨_, hstart, hkeeps, hregistered, hrest, hfree, List.isEmpty_iff.1 hscripts, horder, ?_⟩
  exact hangups_drain (s := fun k => run k { exchange := {}, agenda := tasksOf bustle }) hstart
    (fun k _ => run_succ _ k ▸ .step _) hkeeps hregistered hrest hfree
    (.inl (List.isEmpty_iff.1 hscripts)) horder

end Session
end Switchboard
