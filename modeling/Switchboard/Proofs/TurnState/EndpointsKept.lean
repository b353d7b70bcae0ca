import Switchboard.Proofs.TurnState.ChanServed

namespace Switchboard

def Acquisition.Leaves (a : Acquisition) (p : PairId) (side : Side) (c : ChannelId) : Prop :=
  a.pair = p ∧ a.purpose.leaving = some side ∧ a.purpose.leaver = some c

namespace TurnState

open Exchange

/-- No effect is allowed that changes slots or sides by hand. -/
structure KeepsEndpoints (may : Effect → Prop) : Prop where
  swaps : ∀ survivor clone, ¬ may (.swaps survivor clone)
  reseats : ∀ old new, ¬ may (.reseats old new)
  refits : ∀ c, ¬ may (.refits c)

/-- What a step leaves of an endpoint that stays in its place. -/
structure StaysEndpoint (may : Effect → Prop) (x y : TurnState) (p : PairId) (side : Side)
    (c : ChannelId) : Prop where
  seat : (x.exchange.pair p).endpoint side = some c
  slot : (y.exchange.channel c).slot = (x.exchange.channel c).slot
  technology : (y.exchange.channel c).technology = (x.exchange.channel c).technology
  marked : (y.exchange.channel c).hungup = true → (x.exchange.channel c).hungup = true ∨
    may (.marks c)
  leaves : ∀ a ∈ x.waiting, a.Leaves p side c → a ∈ y.waiting

structure Enters (x y : TurnState) (p : PairId) (side : Side) (c : ChannelId) : Prop where
  made : ¬ c.Among x.exchange.channels.size
  channelView : (y.exchange.channel c).channelView = .unused (.pair p) .proxy
  alone : ∀ s, (y.exchange.pair p).endpoint s = some c → s = side

/-- Endpoints have the pair in their slots; one that was hung up is about to leave, or is in
`called`, which is covered elsewhere. -/
structure EndpointsKept (p : PairId) (called : ChannelId → Prop) (x : TurnState) : Prop where
  leaver : ∀ a ∈ x.waiting, ∀ l, a.purpose.leaver = some l → l.Among x.exchange.channels.size ∧
    ∀ side, (x.exchange.pair p).endpoint side = some l → a.Leaves p side l
  slot : ∀ side c, (x.exchange.pair p).endpoint side = some c →
    (x.exchange.channel c).slot = .pair p ∧ (x.exchange.channel c).technology = .proxy
  apart : ∀ side s c, (x.exchange.pair p).endpoint side = some c →
    (x.exchange.pair p).endpoint s = some c →
    s = side
  called : ∀ side c, (x.exchange.pair p).endpoint side = some c →
    (x.exchange.channel c).hungup = true →
    called c ∨ ∃ a ∈ x.waiting, a.Leaves p side c

variable {may : Effect → Prop} {x y : TurnState} {p : PairId} {side : Side} {c : ChannelId}
  {called : ChannelId → Prop} {e : Exchange} {w : List Acquisition} {d : List ChannelId}

theorem staysEndpoint_of_same (hc : (y.exchange.pair p).endpoint side = some c)
    (hpair : (y.exchange.pair p).endpoint side = (x.exchange.pair p).endpoint side)
    (hchannel : channelFacts (y.exchange.channel c) = channelFacts (x.exchange.channel c))
    (hw : ∀ a ∈ x.waiting, a.Leaves p side c → a ∈ y.waiting) : StaysEndpoint may x y p side c where
  seat := hpair.symm.trans hc
  slot := congrArg Prod.fst hchannel
  technology := congrArg (·.2.1) hchannel
  marked h := .inl ((congrArg (·.2.2.2) hchannel).symm.trans h)
  leaves := hw

theorem staysEndpoint_modifyChannel (b : ChannelId) {f : Channel → Channel}
    (hc : (e.pair p).endpoint side = some c)
    (hslot : ∀ z, (f z).slot = z.slot ∧ (f z).technology = z.technology)
    (hmarked : ∀ z, (f z).hungup = true → z.hungup = true ∨ may (.marks b)) :
    StaysEndpoint may ⟨e, w, d⟩ ⟨e.modifyChannel b f, w, d⟩ p side c := by
  rcases channel_modifyChannel_or e b c f with hsame | ⟨rfl, hnew⟩
  · exact staysEndpoint_of_same hc rfl (congrArg channelFacts hsame) fun _ ha _ => ha
  · constructor <;> dsimp only <;> try rw [hnew]
    case seat => exact hc
    case slot => exact (hslot _).1
    case technology => exact (hslot _).2
    case marked => exact hmarked _
    case leaves => exact fun _ ha _ => ha

theorem staysEndpoint_leave {a : Acquisition} (hrelay : a.purpose.isRelay = true)
    (hc : ((e.leaveGlare a.pair).pair p).endpoint side = some c) :
    StaysEndpoint may ⟨e, a :: w, d⟩ ⟨e.leaveGlare a.pair, w, d⟩ p side c := by
  refine staysEndpoint_of_same hc (hc.trans (endpoint_leaveGlare e hc).symm) ?_
    fun b hb hleaves => ?_
  · exact congrArg channelFacts (channel_eq_of_channels (channels_leaveGlare e a.pair) c)
  · rcases List.mem_cons.1 hb with rfl | hb
    · obtain ⟨-, hleaving, -⟩ := hleaves
      cases hp : b.purpose <;> rw [hp] at hrelay hleaving
      · cases hleaving
      · cases hrelay
      · cases hrelay
    · exact hb

theorem staysEndpoint_depart {a : Acquisition} {left : Side} {leaver : ChannelId}
    (hleft : a.purpose.leaving = some left)
    (hleaver : (e.pair p).endpoint side = some leaver → a.Leaves p side leaver)
    (hc : ((e.vacate a.pair left leaver).pair p).endpoint side = some c) :
    StaysEndpoint may ⟨e, a :: w, d⟩ ⟨e.vacate a.pair left leaver, w,
      e.leftUnserved a.pair left ++ d⟩ p side c := by
  obtain ⟨hseat, hother⟩ := endpoint_vacate e hc
  have hne : c ≠ leaver := by
    rintro rfl
    obtain ⟨hpair, hleaving, -⟩ := hleaver hseat
    exact hother hpair.symm (Option.some.inj (hleaving.symm.trans hleft))
  have hchannel : (e.vacate a.pair left leaver).channel c = e.channel c := by
    rw [vacate, setSlot, channel_modifyChannel_of_ne _ _ hne]
    exact channel_eq_of_channels (channels_detach e a.pair left) c
  refine staysEndpoint_of_same hc (hc.trans hseat.symm) (congrArg channelFacts hchannel)
    fun b hb hleaves => ?_
  rcases List.mem_cons.1 hb with rfl | hb
  · exact absurd (Option.some.inj (hleaves.2.1.symm.trans hleft)) (hother hleaves.1.symm)
  · exact hb

theorem enters_opened {e' : Exchange} {owner chan : ChannelId} (h : e.Opened e' p owner chan)
    (hc : (e'.pair p).endpoint side = some c) : Enters ⟨e, w, d⟩ ⟨e', w, d⟩ p side c := by
  obtain ⟨destination, format, j, hrecord⟩ := h.record
  rw [hrecord] at hc
  have hmade := h.made c (by cases side <;> simp_all [Pair.opened, Pair.endpoint])
  refine ⟨hmade.1, hmade.2.2, fun s hs => ?_⟩
  dsimp only at hs
  rw [hrecord] at hs
  have happart := h.apart
  cases s <;> cases side <;> simp_all [Pair.opened, Pair.endpoint]

theorem Step.staysEndpoint (hs : Step may x y) (hmay : KeepsEndpoints may)
    (h : x.EndpointsKept p called)
    (hc : (y.exchange.pair p).endpoint side = some c) :
    StaysEndpoint may x y p side c ∨ Enters x y p side c := by
  cases hs with
  | quiet hview =>
      have hbearing := channelFacts_eq_of_channelView (channelView_eq_of_view hview c)
      exact .inl (staysEndpoint_of_same hc
        (congrArg (·.endpoint side) (pair_eq_of_view hview p)) hbearing fun _ ha _ => ha)
  | enter e w d a =>
      have hpair :=
        congrFun (pair_modifyPair_congr Pair.endpoint e a.pair p (f := Pair.entered) rfl) side
      exact .inl (staysEndpoint_of_same hc hpair rfl fun _ ha _ => .tail _ ha)
  | start e w d a => exact .inl (staysEndpoint_of_same hc rfl rfl fun _ ha _ => .tail _ ha)
  | queue e w d a b | feed e w d b | serve e w d b =>
      exact .inl (staysEndpoint_modifyChannel b hc (fun _ => ⟨rfl, rfl⟩) fun _ => .inl)
  | mark e w d b hmarks =>
      exact .inl (staysEndpoint_modifyChannel b hc (fun _ => ⟨rfl, rfl⟩) fun _ _ => .inr hmarks)
  | leave e w d a hrelay => exact .inl (staysEndpoint_leave hrelay hc)
  | @depart e w d a left leaver hleft hleaver =>
      exact .inl (staysEndpoint_depart hleft ((h.leaver a (.head w) leaver hleaver).2 side) hc)
  | call e w d q chan =>
      have hpair := congrFun (pair_modifyPair_congr Pair.endpoint (e.serve chan) q p
        (f := ({ · with phase := .dialplanLaunched })) rfl) side
      have hserve : StaysEndpoint may ⟨e, w, d⟩ ⟨e.serve chan, w, d⟩ p side c :=
        staysEndpoint_modifyChannel chan (hpair.symm.trans hc) (fun _ => ⟨rfl, rfl⟩) fun _ => .inl
      exact .inl ⟨hserve.seat, hserve.slot, hserve.technology, hserve.marked, hserve.leaves⟩
  | optimize e w d q =>
      have hpair :=
        congrFun (pair_modifyPair_congr Pair.endpoint e q p
        (f := ({ · with phase := .optimized })) rfl) side
      exact .inl (staysEndpoint_of_same hc hpair rfl fun _ ha _ => ha)
  | scheduleHangup | register => exact .inl (staysEndpoint_of_same hc rfl rfl fun _ ha _ => ha)
  | swap e w d survivor clone hswaps => exact absurd hswaps (hmay.swaps survivor clone)
  | reseat e w d q s old new hreseats => exact absurd hreseats (hmay.reseats old new)
  | refit e w d b s hrefits => exact absurd hrefits (hmay.refits b)
  | @grow e e' w d hgrown =>
      have hpair := congrArg (·.endpoint side) (hgrown.pair p)
      have hmade := among_of_slot e (h.slot side c (hpair.symm.trans hc)).1
      have hchannelView := (hgrown.channelView c).resolve_right fun hnew => hnew.1 hmade
      exact .inl (staysEndpoint_of_same hc hpair (channelFacts_eq_of_channelView hchannelView)
        fun _ ha _ => ha)
  | @opened e e' w d q owner chan hopened =>
      by_cases hq : p = q
      · subst hq
        exact .inr (enters_opened hopened hc)
      · have hpair := congrArg (·.endpoint side) (hopened.elsewhere p hq)
        have hmade := among_of_slot e (h.slot side c (hpair.symm.trans hc)).1
        have hchannelView := hopened.channelView c
          (fun ho => (hopened.made owner (.inl rfl)).1 (ho ▸ hmade))
          fun hch => (hopened.made chan (.inr rfl)).1 (hch ▸ hmade)
        exact .inl (staysEndpoint_of_same hc hpair (channelFacts_eq_of_channelView hchannelView)
          fun _ ha _ => ha)

theorem EndpointsKept.membership (h : EndpointsKept p called x)
    (hc : (x.exchange.pair p).endpoint side = some c) :
    x.exchange.membership c = some (p, side) := by
  have hside : (x.exchange.pair p).sideOf c = some side := by
    have halone := fun s => h.apart side s c hc
    cases side with
    | chan => simp_all [Pair.sideOf, Pair.endpoint]
    | owner =>
        have hchan : (x.exchange.pair p).chan ≠ some c := by
          intro hchan
          cases halone .chan hchan
        simp_all [Pair.sideOf, Pair.endpoint]
  simp [Exchange.membership, recordOf, (h.slot side c hc).1, hside]

theorem Step.endpointsKept (hs : Step may x y) (hmay : KeepsEndpoints may)
    (hmarks : ∀ c, may (.marks c) → called c)
    (h : x.EndpointsKept p called) : y.EndpointsKept p called := by
  have hstays : ∀ side c, (y.exchange.pair p).endpoint side = some c →
      StaysEndpoint may x y p side c ∨ Enters x y p side c :=
        fun _ _ hc => hs.staysEndpoint hmay h hc
  constructor
  case leaver =>
    intro a ha l hl
    have hold : l.Among x.exchange.channels.size ∧
        ∀ side, (x.exchange.pair p).endpoint side = some l → a.Leaves p side l := by
      rcases hs.waits ha with ha | hrelay | ⟨-, side, leaver, hside, hleaver, hmember⟩
      · exact h.leaver a ha l hl
      · rw [hrelay] at hl
        cases hl
      · obtain rfl : leaver = l := Option.some.inj (hleaver.symm.trans hl)
        refine ⟨among_of_slot x.exchange (slot_of_recordOf (membership_eq_some hmember).1),
          fun s hs => ?_⟩
        obtain ⟨hpair, rfl⟩ := Prod.mk.inj (Option.some.inj (hmember.symm.trans (h.membership hs)))
        exact ⟨hpair, hside, hleaver⟩
    refine ⟨hold.1.mono hs.channels, fun side hside => ?_⟩
    rcases hstays side l hside with hkept | henters
    · exact hold.2 side hkept.seat
    · exact absurd hold.1 henters.made
  case slot =>
    intro side c hc
    rcases hstays side c hc with hkept | henters
    · rw [hkept.slot, hkept.technology]
      exact h.slot side c hkept.seat
    · exact ⟨congrArg ChannelView.slot henters.channelView,
        congrArg ChannelView.technology henters.channelView⟩
  case apart =>
    intro side s c hc hother
    rcases hstays side c hc with hkept | henters
    · rcases hstays s c hother with hkept' | henters'
      · exact h.apart side s c hkept.seat hkept'.seat
      · exact (henters'.alone side hc).symm
    · exact henters.alone s hother
  case called =>
    intro side c hc hhungup
    rcases hstays side c hc with hkept | henters
    · rcases hkept.marked hhungup with hold | hmarked
      · rcases h.called side c hkept.seat hold with hcalled | ⟨a, ha, hleaves⟩
        · exact .inl hcalled
        · exact .inr ⟨a, hkept.leaves a ha hleaves, hleaves⟩
      · exact .inl (hmarks c hmarked)
    · have hnot : (y.exchange.channel c).hungup = false :=
        congrArg ChannelView.hungup henters.channelView
      rw [hnot] at hhungup
      cases hhungup

theorem Leads.endpointsKept (hs : Leads may x y) (hmay : KeepsEndpoints may)
    (hmarks : ∀ c, may (.marks c) → called c)
    (h : x.EndpointsKept p called) : y.EndpointsKept p called := by
  induction hs with
  | refl => exact h
  | tail _ hstep ih => exact hstep.endpointsKept hmay hmarks ih

/-- An endpoint that was there before and is there afterwards has not left, and if it was about to
it still is. -/
theorem Leads.keptEndpoint (hs : Leads may x y) (hmay : KeepsEndpoints may)
    (hmarks : ∀ c, may (.marks c) → called c)
    (h : x.EndpointsKept p called) (hmade : c.Among x.exchange.channels.size)
    (hc : (y.exchange.pair p).endpoint side = some c) :
    (x.exchange.pair p).endpoint side = some c ∧ ∀ a ∈ x.waiting, a.Leaves p side c →
      a ∈ y.waiting := by
  induction hs with
  | refl => exact ⟨hc, fun _ ha _ => ha⟩
  | tail hsteps hstep ih =>
      rcases hstep.staysEndpoint hmay (Leads.endpointsKept hsteps hmay hmarks h) hc with
        hkept | henters
      · obtain ⟨hseat, hleaves⟩ := ih hkept.seat
        exact ⟨hseat, fun a ha hl => hkept.leaves a (hleaves a ha hl) hl⟩
      · exact absurd (hmade.mono (Leads.channels hsteps)) henters.made

theorem EndpointsKept.rebase {called' : ChannelId → Prop} (h : EndpointsKept p called ⟨e, w, d⟩)
    (hcalled : ∀ side c, (e.pair p).endpoint side = some c → called c →
      called' c ∨ ∃ a ∈ w, a.Leaves p side c) : EndpointsKept p called' ⟨e, w, []⟩ where
  leaver := h.leaver
  slot := h.slot
  apart := h.apart
  called side c hc hhungup := (h.called side c hc hhungup).elim (hcalled side c hc) .inr

theorem EndpointsKept.release (h : EndpointsKept p called ⟨e, w, d⟩) (hc : e.recordOf c = none) :
    EndpointsKept p called ⟨e.release c, w, d⟩ := by
  have hsame : ∀ side b, (e.pair p).endpoint side = some b →
    (e.release c).channel b = e.channel b := by
    intro side b hb
    have hne : b ≠ c := by
      rintro rfl
      simp [recordOf, (h.slot side b hb).1] at hc
    exact channel_modifyChannel_of_ne (e.delist c) _ hne
  refine ⟨fun a ha l hl => ?_, fun side b hb => ?_, h.apart, fun side b hb hhungup => ?_⟩
  · obtain ⟨hmade, hplace⟩ := h.leaver a ha l hl
    exact ⟨hmade.mono (size_modifyChannel (e := e.delist c) c _).ge, hplace⟩
  · dsimp only
    rw [hsame side b hb]
    exact h.slot side b hb
  · dsimp only at hhungup
    rw [hsame side b hb] at hhungup
    exact h.called side b hb hhungup

end TurnState

namespace Exchange

open TurnState

variable {e : Exchange} {p : PairId} {side : Side} {c : ChannelId} {w : List Acquisition}
    {d : List ChannelId}
  {called : ChannelId → Prop}

theorem teardown_starts (hm : e.membership c = some (p, side)) :
    ∃ (x : Exchange) (a : Acquisition) (t : Turn), x.view = e.view ∧ a.Leaves p side c ∧
      e.teardown c = (t.1, t.2 ++ [Task.settle .done]) ∧
      ∀ w d, Leads (fun effect => ∃ a, effect = .carries a) ⟨x, a :: w, d⟩ (t.state w d) := by
  have hrelays : RelaysOn (fun effect => ∃ a, effect = .carries a) p := fun a _ _ => ⟨a, rfl⟩
  rw [teardown]
  rw [hm]
  cases side with
  | chan =>
      dsimp only
      cases (e.channel c).getVar dialStatus with
      | none =>
          let a : Acquisition := ⟨p, .owner, some c, .dialStatus c ""⟩
          exact ⟨e, a, _, rfl, ⟨rfl, rfl, rfl⟩, rfl,
            fun w d => depart_leads (a := a) hrelays rfl rfl⟩
      | some status =>
          let a : Acquisition := ⟨p, .owner, some c, .dialStatus c status⟩
          exact ⟨e, a, _, rfl, ⟨rfl, rfl, rfl⟩, rfl,
            fun w d => acquire_leads (a := a) ⟨a, rfl⟩ fun _ => hrelays⟩
  | owner =>
      let a : Acquisition := ⟨p, .chan, some c, .ownerLeaving c⟩
      exact ⟨_, a, _, view_passAnsweredElsewhere e p c, ⟨rfl, rfl, rfl⟩, rfl,
        fun w d => acquire_leads (a := a) ⟨a, rfl⟩ fun _ => hrelays⟩

theorem teardown_leaves (h : EndpointsKept p called ⟨e, w, d⟩)
    (hc : ((e.teardown c).1.pair p).endpoint side = some c) :
    ∃ a ∈ backedOff (e.teardown c).2 ++ w, a.Leaves p side c := by
  have hmay : KeepsEndpoints fun effect => ∃ a, effect = .carries a := by
    constructor <;> simp
  have hmarks : ∀ b, (∃ a, Effect.marks b = .carries a) → called b := fun _ ⟨_, hb⟩ => nomatch hb
  cases hm : e.membership c with
  | none =>
      rw [teardown, hm] at hc
      have hseat : e.membership c = some (p, side) := h.membership hc
      rw [hm] at hseat
      cases hseat
  | some place =>
      obtain ⟨q, s⟩ := place
      obtain ⟨x, a, t, hx, ha, hturn, hleads⟩ := teardown_starts hm
      have hmade := among_of_slot e (slot_of_recordOf (membership_eq_some hm).1)
      rw [hturn] at hc ⊢
      have hmember : x.membership c = some (a.pair, s) := by
        rw [membership_eq_of_view hx, hm, ha.1]
      have hstart : Step (fun effect => ∃ a, effect = .carries a) ⟨x, w, d⟩ ⟨x, a :: w, d⟩ :=
        .start x w d a ⟨a, rfl⟩ ha.2.1 ha.2.2 hmember
      have hbegin := hstart.endpointsKept hmay hmarks ((leads_quiet hx).endpointsKept hmay hmarks h)
      obtain ⟨hseat, hwaits⟩ :=
        (hleads w d).keptEndpoint hmay hmarks hbegin ((size_eq_of_view hx).symm ▸ hmade) hc
      obtain ⟨rfl, rfl⟩ :=
        Prod.mk.inj (Option.some.inj (hmember.symm.trans (hbegin.membership hseat)))
      have hleaves : a.Leaves a.pair s c := ⟨rfl, ha.2⟩
      refine ⟨a, ?_, hleaves⟩
      rw [backedOff_append, show backedOff [.settle .done] = [] from rfl, List.append_nil]
      exact hwaits a (.head w) hleaves

end Exchange
end Switchboard
