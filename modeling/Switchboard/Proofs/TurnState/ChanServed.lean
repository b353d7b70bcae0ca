import Switchboard.Proofs.TurnState.Effects

namespace Switchboard

def Acquisition.Departs (a : Acquisition) (p : PairId) (c : ChannelId) : Prop :=
  a.pair = p ∧ a.purpose.leaving = some .chan ∧ a.purpose.leaver = some c

namespace TurnState

open Exchange

/-- No effect is allowed that changes slots, sides or the driver's registration by hand. -/
structure KeepsChan (may : Effect → Prop) : Prop where
  swaps : ∀ survivor clone, ¬ may (.swaps survivor clone)
  reseats : ∀ old new, ¬ may (.reseats old new)
  refits : ∀ c, ¬ may (.refits c)
  registers : ¬ may (.registers false)

/-- What a step leaves of a chan-side that stays in its place. -/
structure Stays (may : Effect → Prop) (x y : TurnState) (p : PairId) (c : ChannelId) : Prop where
  chan : (x.exchange.pair p).chan = some c
  slot : (y.exchange.channel c).slot = (x.exchange.channel c).slot
  technology : (y.exchange.channel c).technology = (x.exchange.channel c).technology
  served : (x.exchange.channel c).dialplanStarted = true →
    (y.exchange.channel c).dialplanStarted = true
  marked : (y.exchange.channel c).hungup = true → (x.exchange.channel c).hungup = true ∨
    may (.marks c)
  phase : (y.exchange.pair p).phase = (x.exchange.pair p).phase ∨
    (y.exchange.pair p).phase = .dialplanLaunched ∧ (y.exchange.channel c).dialplanStarted = true ∨
    (y.exchange.pair p).phase = .optimized
  owner : (y.exchange.pair p).owner = none → (x.exchange.pair p).owner = none ∨
    (y.exchange.pair p).phase = (x.exchange.pair p).phase ∧
      ((x.exchange.pair p).phase.dialplanStarted = true ∨ c ∈ y.toHangUp)
  departs : ∀ a ∈ x.waiting, a.Departs p c → a ∈ y.waiting
  toHangUp : c ∈ x.toHangUp → c ∈ y.toHangUp

structure Arrives (x y : TurnState) (p : PairId) (c : ChannelId) : Prop where
  new : p ∉ x.exchange.pairIds
  made : ¬ c.Among x.exchange.channels.size
  channelView : (y.exchange.channel c).channelView = .unused (.pair p) .proxy
  phase : (y.exchange.pair p).phase = .fresh
  owner : (y.exchange.pair p).owner ≠ none

variable {may : Effect → Prop} {x y : TurnState} {p : PairId} {c : ChannelId}
    {called pending : ChannelId → Prop}
  {e₀ : Exchange}

def Skips (e₀ e : Exchange) (p : PairId) : Prop :=
  (e₀.pair p).phase = .fresh ∧ (e.pair p).phase = .optimized

theorem not_skips (e : Exchange) (p : PairId) : ¬ Skips e e p := by
  rintro ⟨hfresh, hout⟩
  rw [hfresh] at hout
  cases hout

/-- The chan-side of `p` has a dialplan or is to be hung up once it is alone; `e₀` is the exchange
at the beginning, and the channels in `called` and `pending` are hung up elsewhere. -/
structure ChanServed (p : PairId) (called pending : ChannelId → Prop) (e₀ : Exchange)
    (x : TurnState) : Prop where
  registered : x.exchange.proxyRegistered = true
  fresh : (x.exchange.pair p).phase = .fresh → (e₀.pair p).phase = .fresh
  leaver : ∀ a ∈ x.waiting, ∀ l, a.purpose.leaver = some l → l.Among x.exchange.channels.size ∧
    ((x.exchange.pair p).chan = some l → a.pair = p ∧ a.purpose.leaving = some .chan)
  slot : ∀ c, (x.exchange.pair p).chan = some c →
    (x.exchange.channel c).slot = .pair p ∧ (x.exchange.channel c).technology = .proxy
  served : ∀ c, (x.exchange.pair p).chan = some c → (x.exchange.pair p).phase ≠ .fresh →
    (x.exchange.channel c).dialplanStarted = true ∨ Skips e₀ x.exchange p
  called : ∀ c, (x.exchange.pair p).chan = some c → (x.exchange.channel c).hungup = true →
    called c ∨ ∃ a ∈ x.waiting, a.Departs p c
  attended : ∀ c, (x.exchange.pair p).owner = none → (x.exchange.pair p).chan = some c →
    (x.exchange.channel c).dialplanStarted = true ∨ pending c ∨ c ∈ x.toHangUp ∨
      (∃ a ∈ x.waiting, a.Departs p c) ∨ Skips e₀ x.exchange p

theorem Step.channels (hs : Step may x y) :
    x.exchange.channels.size ≤ y.exchange.channels.size := by
  have hmodify : ∀ (e : Exchange) (c : ChannelId) (f : Channel → Channel),
      e.channels.size ≤ (e.modifyChannel c f).channels.size :=
        fun e c f => (Table.size_modify _ _ _).ge
  cases hs with
  | quiet h => exact (size_eq_of_view h).ge
  | leave e w d a => exact (congrArg Table.size (channels_leaveGlare e a.pair)).ge
  | @depart e w d a side leaver =>
      refine Nat.le_trans ?_ (hmodify (e.detach a.pair side) leaver _)
      rw [channels_detach]
  | call e w d q chan => exact hmodify e chan _
  | queue e w d a c | serve e w d c | mark e w d c | feed e w d c | refit e w d c =>
      exact hmodify e c _
  | swap e w d survivor clone => exact (size_swapIdentities e survivor clone).ge
  | grow h => exact h.channels
  | opened h => exact h.channels
  | enter | start | optimize | scheduleHangup | reseat | register => exact Nat.le_refl _

theorem Step.waits (hs : Step may x y) {a : Acquisition} (ha : a ∈ y.waiting) :
    a ∈ x.waiting ∨ a.purpose.leaver = none ∨ y.exchange = x.exchange ∧ ∃ side leaver,
      a.purpose.leaving = some side ∧ a.purpose.leaver = some leaver ∧
      x.exchange.membership leaver = some (a.pair, side) := by
  cases hs with
  | enter e w d b hmay hrelay =>
      rcases List.mem_cons.1 ha with rfl | ha
      · refine .inr (.inl ?_)
        cases hp : a.purpose <;> rw [hp] at hrelay <;> first | rfl | cases hrelay
      · exact .inl ha
  | start e w d b hmay hside hleaver hmember =>
      rcases List.mem_cons.1 ha with rfl | ha
      · exact .inr (.inr ⟨rfl, _, _, hside, hleaver, hmember⟩)
      · exact .inl ha
  | leave | depart => exact .inl (.tail _ ha)
  | _ => exact .inl ha

def channelFacts (z : Channel) : Slot × Technology × Bool × Bool :=
  (z.slot, z.technology, z.dialplanStarted, z.hungup)

def pairFacts (z : Pair) : Option ChannelId × Option ChannelId × Phase := (z.owner, z.chan, z.phase)

theorem channelFacts_eq_of_channelView {z z' : Channel} (h : z'.channelView = z.channelView) :
    channelFacts z' = channelFacts z :=
  congrArg (fun f : ChannelView => (f.slot, f.technology, f.dialplanStarted, f.hungup)) h

section Stays

variable {e : Exchange} {w : List Acquisition} {d : List ChannelId}

theorem stays_of_same (hc : (y.exchange.pair p).chan = some c)
    (hpair : pairFacts (y.exchange.pair p) = pairFacts (x.exchange.pair p))
    (hchannel : channelFacts (y.exchange.channel c) = channelFacts (x.exchange.channel c))
    (hw : ∀ a ∈ x.waiting, a.Departs p c → a ∈ y.waiting) (hd : c ∈ x.toHangUp → c ∈ y.toHangUp) :
    Stays may x y p c := by
  obtain ⟨howner, hseat, hphase⟩ : _ ∧ _ ∧ _ := by simpa only [pairFacts, Prod.mk.injEq] using hpair
  obtain ⟨hslot, htechnology, hserved, hmarked⟩ : _ ∧ _ ∧ _ ∧ _ := by
    simpa only [channelFacts, Prod.mk.injEq] using hchannel
  constructor
  case chan => rw [← hseat, hc]
  case slot => exact hslot
  case technology => exact htechnology
  case served => rw [hserved]; exact id
  case marked => rw [hmarked]; exact .inl
  case phase => exact .inl hphase
  case owner => rw [howner]; exact .inl
  case departs => exact hw
  case toHangUp => exact hd

theorem stays_modifyChannel (b : ChannelId) {f : Channel → Channel} (hc : (e.pair p).chan = some c)
    (hslot : ∀ z, (f z).slot = z.slot ∧ (f z).technology = z.technology)
    (hserved : ∀ z : Channel, z.dialplanStarted = true → (f z).dialplanStarted = true)
    (hmarked : ∀ z, (f z).hungup = true → z.hungup = true ∨ may (.marks b)) :
    Stays may ⟨e, w, d⟩ ⟨e.modifyChannel b f, w, d⟩ p c := by
  rcases channel_modifyChannel_or e b c f with hsame | ⟨rfl, hnew⟩
  · exact stays_of_same hc rfl (congrArg channelFacts hsame) (fun _ ha _ => ha) id
  · constructor <;> dsimp only <;> try rw [hnew]
    case chan => exact hc
    case slot => exact (hslot _).1
    case technology => exact (hslot _).2
    case served => exact hserved _
    case marked => exact hmarked _
    case phase => exact .inl rfl
    case owner => exact .inl
    case departs => exact fun _ ha _ => ha
    case toHangUp => exact id

theorem stays_leave {a : Acquisition} (hrelay : a.purpose.isRelay = true)
    (hc : ((e.leaveGlare a.pair).pair p).chan = some c) :
    Stays may ⟨e, a :: w, d⟩ ⟨e.leaveGlare a.pair, w, d⟩ p c := by
  have hpair : pairFacts ((e.leaveGlare a.pair).pair p) = pairFacts (e.pair p) := by
    rcases pair_leaveGlare_or e a.pair p with hp | ⟨-, hp⟩ <;> rw [hp] at hc ⊢
    have hends : ∀ s, (e.pair p).left.endpoint s = (e.pair p).endpoint s := fun s =>
      (Pair.endpoint_left (e.pair p) s).resolve_right fun hv => by
        rw [(Pair.isVacant_iff.1 hv).2] at hc
        cases hc
    exact Prod.ext (hends .owner) (Prod.ext (hends .chan) (Pair.phase_left _))
  refine stays_of_same hc hpair ?_ (fun b hb hdeparts => ?_) id
  · exact congrArg channelFacts (channel_eq_of_channels (channels_leaveGlare e a.pair) c)
  · rcases List.mem_cons.1 hb with rfl | hb
    · obtain ⟨-, hleaving, -⟩ := hdeparts
      cases hp : b.purpose <;> rw [hp] at hrelay hleaving
      · cases hleaving
      · cases hrelay
      · cases hrelay
    · exact hb

theorem started_or_leftUnserved (hc : (e.pair p).chan = some c) :
    (e.pair p).phase.dialplanStarted = true ∨ c ∈ e.leftUnserved p .owner := by
  have hend : (e.pair p).endpoint .chan = some c := hc
  have hp := mem_pairIds_of_attached hend
  cases hphase : (e.pair p).phase.dialplanStarted with
  | true => exact .inl rfl
  | false =>
      right
      have hcleared : (e.clearSide p .owner).pair p = (e.pair p).clear .owner :=
        (revised_clearSide hp .owner).here
      have hchan : ((e.pair p).clear .owner).chan = some c := hc
      rw [leftUnserved, hcleared]
      rw [if_neg (by simp [Pair.isVacant, hchan]), unserved,
        if_neg (by simp [Pair.clear, hphase]), hchan]
      exact List.mem_singleton_self c

theorem stays_depart {a : Acquisition} {side : Side} {leaver : ChannelId}
    (hside : a.purpose.leaving = some side)
    (hleaver : (e.pair p).chan = some leaver → a.pair = p ∧ a.purpose.leaving = some .chan)
    (hc : ((e.vacate a.pair side leaver).pair p).chan = some c) :
    Stays may ⟨e, a :: w, d⟩ ⟨e.vacate a.pair side leaver, w,
      e.leftUnserved a.pair side ++ d⟩ p c := by
  obtain ⟨hchan, hother⟩ := endpoint_vacate e (s := .chan) hc
  have hne : c ≠ leaver := by
    rintro rfl
    obtain ⟨hpair, hleaving⟩ := hleaver hchan
    exact hother hpair.symm (Option.some.inj (hleaving.symm.trans hside))
  have hchannel : (e.vacate a.pair side leaver).channel c = e.channel c := by
    rw [vacate, setSlot, channel_modifyChannel_of_ne _ _ hne]
    exact channel_eq_of_channels (channels_detach e a.pair side) c
  have hphase : ((e.vacate a.pair side leaver).pair p).phase = (e.pair p).phase := by
    rcases pair_vacate_or e a.pair p side leaver with ⟨hq, -⟩ | ⟨hq, hdetached⟩
    · rw [hq]
    · rw [hdetached, Pair.phase_detached]
      cases side with
      | owner => rfl
      | chan => exact absurd rfl (hother hq)
  constructor <;> dsimp only <;> try rw [hchannel]
  case chan => exact hchan
  case served => exact id
  case marked => exact .inl
  case phase => exact .inl hphase
  case owner =>
    intro hnone
    rcases pair_vacate_or e a.pair p side leaver with ⟨hq, -⟩ | ⟨rfl, -⟩
    · exact .inl (by rw [← hq]; exact hnone)
    · refine .inr ⟨hphase, ?_⟩
      cases side with
      | chan => exact absurd rfl (hother rfl)
      | owner => exact (started_or_leftUnserved hchan).imp_right (List.mem_append_left _)
  case departs =>
    intro b hb hdeparts
    rcases List.mem_cons.1 hb with rfl | hb
    · exact absurd (Option.some.inj (hdeparts.2.1.symm.trans hside)) (hother hdeparts.1.symm)
    · exact hb
  case toHangUp => exact List.mem_append_right _

theorem stays_call {q : PairId} {chan : ChannelId} (hchan : (e.pair q).chan = some chan)
    (hslot : ∀ c, (e.pair p).chan = some c → (e.channel c).slot = .pair p)
    (hc : (((e.serve chan).modifyPair q ({ · with phase := .dialplanLaunched })).pair p).chan =
    some c) :
    Stays may ⟨e, w, d⟩ ⟨(e.serve chan).modifyPair q ({ · with phase := .dialplanLaunched }), w, d⟩ p c := by
  have hchan' : (e.pair p).chan = some c :=
    (pair_modifyPair_congr Pair.chan (e.serve chan) q p rfl).symm.trans hc
  have hserve : Stays may ⟨e, w, d⟩ ⟨e.serve chan, w, d⟩ p c :=
    stays_modifyChannel chan hchan' (fun _ => ⟨rfl, rfl⟩) (fun _ _ => rfl) fun _ => .inl
  constructor
  case chan => exact hchan'
  case slot => exact hserve.slot
  case technology => exact hserve.technology
  case served => exact hserve.served
  case marked => exact hserve.marked
  case phase =>
    rcases pair_modifyPair_or (e.serve chan) q p ({ · with phase := .dialplanLaunched }) with
      hq | ⟨rfl, hq⟩
    · exact .inl (congrArg Pair.phase hq)
    · refine .inr (.inl ⟨congrArg Pair.phase hq, ?_⟩)
      obtain rfl : chan = c := Option.some.inj (hchan.symm.trans hchan')
      exact congrArg Channel.dialplanStarted
        (channel_modifyChannel e _ (among_of_slot e (hslot chan hchan')))
  case owner => exact fun hnone => .inl ((pair_modifyPair_congr Pair.owner (e.serve chan) q p rfl).symm.trans hnone)
  case departs => exact hserve.departs
  case toHangUp => exact hserve.toHangUp

theorem stays_optimize {q : PairId}
    (hc : ((e.modifyPair q ({ · with phase := .optimized })).pair p).chan = some c) :
    Stays may ⟨e, w, d⟩ ⟨e.modifyPair q ({ · with phase := .optimized }), w, d⟩ p c where
  chan := (pair_modifyPair_congr Pair.chan e q p rfl).symm.trans hc
  slot := rfl
  technology := rfl
  served := id
  marked := .inl
  phase := by
    rcases pair_modifyPair_or e q p ({ · with phase := .optimized }) with hq | ⟨-, hq⟩
    · exact .inl (congrArg Pair.phase hq)
    · exact .inr (.inr (congrArg Pair.phase hq))
  owner hnone := .inl ((pair_modifyPair_congr Pair.owner e q p rfl).symm.trans hnone)
  departs _ ha _ := ha
  toHangUp := id

end Stays

theorem Step.stays (hs : Step may x y) (hmay : KeepsChan may) (h : x.ChanServed p called pending e₀)
    (hc : (y.exchange.pair p).chan = some c) : Stays may x y p c ∨ Arrives x y p c := by
  cases hs with
  | quiet hview =>
      have hbearing := channelFacts_eq_of_channelView (channelView_eq_of_view hview c)
      exact .inl (stays_of_same hc (congrArg pairFacts (pair_eq_of_view hview p)) hbearing
        (fun _ ha _ => ha) id)
  | enter e w d a =>
      have hpair := pair_modifyPair_congr pairFacts e a.pair p (f := Pair.entered) rfl
      exact .inl (stays_of_same hc hpair rfl (fun _ ha _ => .tail _ ha) id)
  | start e w d a => exact .inl (stays_of_same hc rfl rfl (fun _ ha _ => .tail _ ha) id)
  | queue e w d a b | feed e w d b =>
      exact .inl (stays_modifyChannel b hc (fun _ => ⟨rfl, rfl⟩) (fun _ => id) fun _ => .inl)
  | leave e w d a hrelay => exact .inl (stays_leave hrelay hc)
  | @depart e w d a side leaver hside hleaver =>
      exact .inl (stays_depart hside (h.leaver a (.head w) leaver hleaver).2 hc)
  | call e w d q chan hmay' hchan => exact .inl (stays_call hchan (fun b hb => (h.slot b hb).1) hc)
  | serve e w d b =>
      exact .inl (stays_modifyChannel b hc (fun _ => ⟨rfl, rfl⟩) (fun _ _ => rfl) fun _ => .inl)
  | optimize e w d q => exact .inl (stays_optimize hc)
  | mark e w d b hmarks =>
      exact .inl (stays_modifyChannel b hc (fun _ => ⟨rfl, rfl⟩) (fun _ => id)
        fun _ _ => .inr hmarks)
  | scheduleHangup e w d b => exact .inl (stays_of_same hc rfl rfl (fun _ ha _ => ha) (.tail _))
  | swap e w d survivor clone hswaps => exact absurd hswaps (hmay.swaps survivor clone)
  | reseat e w d q side old new hreseats => exact absurd hreseats (hmay.reseats old new)
  | refit e w d b s hrefits => exact absurd hrefits (hmay.refits b)
  | @grow e e' w d hgrown =>
      have hpair := hgrown.pair p
      dsimp only at hc
      have hmade := among_of_slot e (h.slot c ((congrArg Pair.chan hpair).symm.trans hc)).1
      have hchannelView := (hgrown.channelView c).resolve_right fun hnew => hnew.1 hmade
      exact .inl (stays_of_same hc (congrArg pairFacts hpair)
        (channelFacts_eq_of_channelView hchannelView) (fun _ ha _ => ha) id)
  | @opened e e' w d q owner chan hopened =>
      dsimp only at hc
      by_cases hq : p = q
      · subst hq
        obtain ⟨destination, format, j, hrecord⟩ := hopened.record
        rw [hrecord] at hc
        obtain rfl : chan = c := Option.some.inj hc
        obtain ⟨hmade, -, hchannelView⟩ := hopened.made chan (.inr rfl)
        refine .inr ⟨hopened.new, hmade, hchannelView, ?_, ?_⟩ <;> dsimp only <;> rw [hrecord]
        · rfl
        · exact Option.some_ne_none owner
      · have hpair := hopened.elsewhere p hq
        have hmade := among_of_slot e (h.slot c ((congrArg Pair.chan hpair).symm.trans hc)).1
        have hchannelView := hopened.channelView c
          (fun ho => (hopened.made owner (.inl rfl)).1 (ho ▸ hmade))
          fun hch => (hopened.made chan (.inr rfl)).1 (hch ▸ hmade)
        have hbearing := channelFacts_eq_of_channelView hchannelView
        exact .inl (stays_of_same hc (congrArg pairFacts hpair) hbearing (fun _ ha _ => ha) id)
  | register e w d b => exact .inl (stays_of_same hc rfl rfl (fun _ ha _ => ha) id)

theorem Step.fresh (hs : Step may x y) (h : (y.exchange.pair p).phase = .fresh) :
    (x.exchange.pair p).phase = .fresh := by
  cases hs with
  | quiet hview => rwa [pair_eq_of_view hview] at h
  | enter e w d a => exact (pair_modifyPair_congr Pair.phase e a.pair p rfl).symm.trans h
  | leave e w d a => rwa [phase_leaveGlare] at h
  | @depart e w d a side leaver =>
      rcases pair_vacate_or e a.pair p side leaver with ⟨hp, -⟩ | ⟨-, hp⟩ <;> dsimp only at h ⊢ <;>
        rw [hp] at h
      · exact h
      · rw [Pair.phase_detached] at h
        cases side with
        | owner => exact h
        | chan =>
            cases hphase : (e.pair p).phase <;> simp [Pair.clear, Phase.chanDeparted, hphase] at h
  | call e w d q chan =>
      rcases pair_modifyPair_or (e.serve chan) q p ({ · with phase := .dialplanLaunched }) with hp |
        ⟨-, hp⟩ <;>
        dsimp only at h <;> rw [hp] at h
      · exact h
      · cases h
  | optimize e w d q =>
      rcases pair_modifyPair_or e q p ({ · with phase := .optimized }) with hp | ⟨-, hp⟩ <;>
        dsimp only at h <;> rw [hp] at h
      · exact h
      · cases h
  | reseat e w d q side old new =>
      refine (pair_modifyPair_congr Pair.phase e q p ?_).symm.trans h
      cases side <;> rfl
  | grow hgrown => rwa [hgrown.pair] at h
  | @opened e e' w d q owner chan hopened =>
      by_cases hq : p = q
      · subst hq
        exact congrArg Pair.phase (pair_of_not_mem hopened.new)
      · dsimp only at h
        rwa [hopened.elsewhere p hq] at h
  | start | queue | serve | mark | scheduleHangup | swap | feed | refit | register => exact h

theorem Step.registered (hs : Step may x y) (hmay : ¬ may (.registers false))
    (h : x.exchange.proxyRegistered = true) : y.exchange.proxyRegistered = true := by
  have hdestroy : ∀ (e : Exchange) (q : PairId),
    (e.destroy q).proxyRegistered = e.proxyRegistered := by
    intro e q
    rw [destroy]
    split <;> rfl
  cases hs with
  | quiet hview => exact (congrArg ExchangeView.registered hview).trans h
  | leave e w d a =>
      dsimp only [leaveGlare]
      split
      · exact (hdestroy _ a.pair).trans h
      · exact h
  | @depart e w d a side leaver =>
      change (e.detach a.pair side).proxyRegistered = true
      rw [detach]
      split
      · rw [retire_eq]
        split
        · exact h
        · exact (hdestroy _ a.pair).trans h
      · exact h
  | grow hgrown => exact hgrown.registered.trans h
  | opened hopened => exact hopened.registered.trans h
  | register e w d b hb =>
      cases b with
      | true => rfl
      | false => exact absurd hb hmay
  | enter | start | queue | call | serve | optimize | mark | scheduleHangup | swap | reseat | feed |
  refit => exact h

theorem Stays.served_or (h : Stays may x y p c)
    (hx : (x.exchange.channel c).dialplanStarted = true ∨ Skips e₀ x.exchange p) :
    (y.exchange.channel c).dialplanStarted = true ∨ Skips e₀ y.exchange p := by
  rcases hx with hstarted | ⟨hfresh, hout⟩
  · exact .inl (h.served hstarted)
  · rcases h.phase with hsame | ⟨-, hstarted⟩ | hstill
    · exact .inr ⟨hfresh, hsame.trans hout⟩
    · exact .inl hstarted
    · exact .inr ⟨hfresh, hstill⟩

theorem Step.chanServed (hs : Step may x y) (hmay : KeepsChan may)
    (hmarks : ∀ c, may (.marks c) → called c)
    (h : x.ChanServed p called pending e₀) : y.ChanServed p called pending e₀ := by
  have hstays := fun c => hs.stays (c := c) hmay h
  constructor
  case registered => exact hs.registered hmay.registers h.registered
  case fresh => exact fun hfresh => h.fresh (hs.fresh hfresh)
  case leaver =>
    intro a ha l hl
    have hold : l.Among x.exchange.channels.size ∧ ((x.exchange.pair p).chan = some l →
        a.pair = p ∧ a.purpose.leaving = some .chan) := by
      rcases hs.waits ha with ha | hrelay | ⟨-, side, leaver, hside, hleaver, hmember⟩
      · exact h.leaver a ha l hl
      · rw [hrelay] at hl
        cases hl
      · obtain rfl : leaver = l := Option.some.inj (hleaver.symm.trans hl)
        have hslot := slot_of_recordOf (membership_eq_some hmember).1
        refine ⟨among_of_slot x.exchange hslot, fun hc => ?_⟩
        obtain ⟨hpair, rfl⟩ := Prod.mk.inj (Option.some.inj
          (hmember.symm.trans (membership_of_chan (h.slot leaver hc).1 hc)))
        exact ⟨hpair, hside⟩
    refine ⟨hold.1.mono hs.channels, fun hc => ?_⟩
    rcases hstays l hc with hkept | harrives
    · exact hold.2 hkept.chan
    · exact absurd hold.1 harrives.made
  case slot =>
    intro c hc
    rcases hstays c hc with hkept | harrives
    · rw [hkept.slot, hkept.technology]
      exact h.slot c hkept.chan
    · exact ⟨congrArg ChannelView.slot harrives.channelView,
        congrArg ChannelView.technology harrives.channelView⟩
  case served =>
    intro c hc hphase
    rcases hstays c hc with hkept | harrives
    · -- From fresh there is no way past the call but by skipping it.
      by_cases hfresh : (x.exchange.pair p).phase = .fresh
      · rcases hkept.phase with hsame | ⟨-, hstarted⟩ | hout
        · exact absurd (hsame.trans hfresh) hphase
        · exact .inl hstarted
        · exact .inr ⟨h.fresh hfresh, hout⟩
      · exact hkept.served_or (h.served c hkept.chan hfresh)
    · exact absurd harrives.phase hphase
  case called =>
    intro c hc hhungup
    rcases hstays c hc with hkept | harrives
    · rcases hkept.marked hhungup with hold | hmarked
      · rcases h.called c hkept.chan hold with hcalled | ⟨a, ha, hdeparts⟩
        · exact .inl hcalled
        · exact .inr ⟨a, hkept.departs a ha hdeparts, hdeparts⟩
      · exact .inl (hmarks c hmarked)
    · have hnot : (y.exchange.channel c).hungup = false :=
        congrArg ChannelView.hungup harrives.channelView
      rw [hnot] at hhungup
      cases hhungup
  case attended =>
    intro c howner hc
    rcases hstays c hc with hkept | harrives
    · rcases hkept.owner howner with hgone | ⟨-, hstarted | hdue⟩
      · rcases h.attended c hgone hkept.chan with hstarted | hpending | hdue |
          ⟨a, ha, hdeparts⟩ | hskips
        · exact .inl (hkept.served hstarted)
        · exact .inr (.inl hpending)
        · exact .inr (.inr (.inl (hkept.toHangUp hdue)))
        · exact .inr (.inr (.inr (.inl ⟨a, hkept.departs a ha hdeparts, hdeparts⟩)))
        · exact (hkept.served_or (.inr hskips)).imp_right fun hskips => .inr (.inr (.inr hskips))
      · -- The owner-side has just left, and the record said that the chan-side is served.
        have hphase : (x.exchange.pair p).phase ≠ .fresh := by
          intro hfresh
          rw [hfresh] at hstarted
          cases hstarted
        exact (hkept.served_or (h.served c hkept.chan hphase)).imp_right fun hskips =>
          .inr (.inr (.inr hskips))
      · exact .inr (.inr (.inl hdue))
    · exact absurd howner harrives.owner

theorem Leads.chanServed (hs : Leads may x y) (hmay : KeepsChan may)
    (hmarks : ∀ c, may (.marks c) → called c)
    (h : x.ChanServed p called pending e₀) : y.ChanServed p called pending e₀ := by
  induction hs with
  | refl => exact h
  | tail _ hstep ih => exact hstep.chanServed hmay hmarks ih

theorem ChanServed.of_view {e e' : Exchange} {w : List Acquisition} {d : List ChannelId}
    (h : ChanServed p called pending e₀ ⟨e, w, d⟩) (he : e'.view = e.view) :
    ChanServed p called pending e₀ ⟨e', w, d⟩ :=
  have hquiet : Step (fun _ => False) ⟨e, w, d⟩ ⟨e', w, d⟩ := .quiet he
  hquiet.chanServed ⟨fun _ _ => id, fun _ _ => id, fun _ => id, id⟩ (fun _ => False.elim) h

theorem Leads.channels (hs : Leads may x y) :
    x.exchange.channels.size ≤ y.exchange.channels.size := by
  induction hs with
  | refl => exact Nat.le_refl _
  | tail _ hstep ih => exact Nat.le_trans ih hstep.channels

/-- A chan-side that is in its place at the end has been there all the time, and what was to take it
from there is still to come. -/
theorem Leads.stayed (hs : Leads may x y) (hmay : KeepsChan may)
    (hmarks : ∀ c, may (.marks c) → called c)
    (h : x.ChanServed p called pending e₀) (hmade : c.Among x.exchange.channels.size)
    (hc : (y.exchange.pair p).chan = some c) :
    (x.exchange.pair p).chan = some c ∧ ∀ a ∈ x.waiting, a.Departs p c → a ∈ y.waiting := by
  induction hs with
  | refl => exact ⟨hc, fun _ ha _ => ha⟩
  | tail hsteps hstep ih =>
      rcases hstep.stays hmay (Leads.chanServed hsteps hmay hmarks h) hc with hkept | harrives
      · obtain ⟨hchan, hdeparts⟩ := ih hkept.chan
        exact ⟨hchan, fun a ha hd => hkept.departs a (hdeparts a ha hd) hd⟩
      · exact absurd (hmade.mono (Leads.channels hsteps)) harrives.made

theorem ChanServed.rebase {e : Exchange} {w : List Acquisition} {d : List ChannelId}
    {called' pending' : ChannelId → Prop} (h : ChanServed p called pending e₀ ⟨e, w, d⟩)
    (hskips : ¬ Skips e₀ e p)
    (hcalled : ∀ c, (e.pair p).chan = some c → called c → called' c ∨ ∃ a ∈ w, a.Departs p c)
    (hpending : ∀ c, (e.pair p).chan = some c → pending c ∨ c ∈ d →
      pending' c ∨ ∃ a ∈ w, a.Departs p c) : ChanServed p called' pending' e ⟨e, w, []⟩ where
  registered := h.registered
  fresh := id
  leaver := h.leaver
  slot := h.slot
  served c hc hphase := .inl ((h.served c hc hphase).resolve_right hskips)
  called c hc hhungup := (h.called c hc hhungup).elim (hcalled c hc) .inr
  attended c howner hc := by
    rcases h.attended c howner hc with hstarted | hpend | hdue | hwaits | hskip
    · exact .inl hstarted
    · exact .inr ((hpending c hc (.inl hpend)).imp_right fun hwaits => .inr (.inl hwaits))
    · exact .inr ((hpending c hc (.inr hdue)).imp_right fun hwaits => .inr (.inl hwaits))
    · exact .inr (.inr (.inr (.inl hwaits)))
    · exact absurd hskip hskips

theorem ChanServed.transfer {e e' : Exchange} {w : List Acquisition} {d : List ChannelId}
    (h : ChanServed p called pending e₀ ⟨e, w, d⟩)
    (hregistered : e'.proxyRegistered = e.proxyRegistered)
    (hsize : e'.channels.size = e.channels.size) (hchan : (e'.pair p).chan = (e.pair p).chan)
    (hphase : (e'.pair p).phase = (e.pair p).phase)
    (howner : (e'.pair p).owner = none → (e.pair p).owner = none)
    (hbearing : ∀ c, (e.pair p).chan = some c →
    channelFacts (e'.channel c) = channelFacts (e.channel c)) :
    ChanServed p called pending e₀ ⟨e', w, d⟩ := by
  have hsame : ∀ c, (e'.pair p).chan = some c → (e.pair p).chan = some c ∧
      (e'.channel c).slot = (e.channel c).slot ∧
      (e'.channel c).technology = (e.channel c).technology ∧
      (e'.channel c).dialplanStarted = (e.channel c).dialplanStarted ∧
      (e'.channel c).hungup = (e.channel c).hungup := by
    intro c hc
    have hc' := hchan.symm.trans hc
    simpa [channelFacts, hc'] using hbearing c hc'
  constructor
  case registered => exact hregistered.trans h.registered
  case fresh => exact fun hfresh => h.fresh (hphase.symm.trans hfresh)
  case leaver =>
    intro a ha l hl
    obtain ⟨hmade, hplace⟩ := h.leaver a ha l hl
    exact ⟨hmade.mono hsize.ge, fun hc => hplace (hchan.symm.trans hc)⟩
  case slot =>
    intro c hc
    obtain ⟨hc', hslot, htechnology, -, -⟩ := hsame c hc
    rw [hslot, htechnology]
    exact h.slot c hc'
  case served =>
    intro c hc hpast
    obtain ⟨hc', -, -, hserved, -⟩ := hsame c hc
    dsimp only at hpast ⊢
    rw [hserved, Skips, hphase]
    exact h.served c hc' (hphase ▸ hpast)
  case called =>
    intro c hc hhungup
    obtain ⟨hc', -, -, -, hsame⟩ := hsame c hc
    exact h.called c hc' (hsame.symm.trans hhungup)
  case attended =>
    intro c hnone hc
    obtain ⟨hc', -, -, hserved, -⟩ := hsame c hc
    dsimp only
    rw [hserved, Skips, hphase]
    exact h.attended c (howner hnone) hc'

end TurnState
end Switchboard
