import Switchboard.Proofs.Departure
import Switchboard.Proofs.Destruction

namespace Switchboard

namespace Exchange

/-- The record, the registry and the counters after the endpoint has left the side; a chan-side on
which no dialplan was started has left with it. -/
structure RecordLeft (e e' : Exchange) (p : PairId) (side : Side) : Prop where
  seat : (e'.pair p).endpoint side = none
  token : (e'.pair p).token side = .dropped
  phase : (e'.pair p).phase =
    if side = .chan ∨ (e.pair p).leavesChanUnserved side = true then
      if (e.pair p).phase = .optimized then .optimized else .torn
    else (e.pair p).phase
  stays : (e.pair p).endpoint side.peer ≠ none → (e.pair p).leavesChanUnserved side = false →
    e'.pair p = (e.pair p).clear side ∧ e'.registry = e.registry ∧ p ∈ e'.registry.pairs
  ends : (e.pair p).endpoint side.peer = none ∨ (e.pair p).leavesChanUnserved side = true →
    e'.pair p =
      { e.pair p with
        owner := none, chan := none, ownerUse := .dropped, chanUse := .dropped
        phase := (e'.pair p).phase, destroyed := true } ∧
    e'.registry = (e.registry.unlink p).noteDestroyed ∧ p ∉ e'.registry.pairs
  inUse : e'.moduleUse.inUse + (if (e.pair p).leavesChanUnserved side then 2 else 1) =
    e.moduleUse.inUse
  pairs : ∀ q ≠ p, e'.pair q = e.pair q
  size : e'.pairs.size = e.pairs.size

/-- The channel has been hung up, and has left the side of the pair that it was on. -/
structure PairLeft (e e' : Exchange) (p : PairId) (side : Side) (c : ChannelId) : Prop extends
    RecordLeft e e' p side where
  leaver : e'.channel c = (e.channel c).afterLeaving
  other : ∀ d, (e.pair p).endpoint side.peer = some d → e'.channel d =
    if (e.pair p).leavesChanUnserved side then
      ((e.channel d).afterPeerLeft (e.channel c) (e.pair p) side).afterLeaving
    else (e.channel d).afterPeerLeft (e.channel c) (e.pair p) side
  cause : (Frame.hangup (e.channel c).hangupCause).hangupCause = some (e.channel c).hangupCause
  listed : e'.listed =
    e.listed.filter fun d => d ≠ c ∧
    ¬ ((e.pair p).leavesChanUnserved side = true ∧ (e.pair p).chan = some d)
  channels : ∀ d ≠ c, (e.pair p).endpoint side.peer ≠ some d → e'.channel d = e.channel d
  made : e'.channels.size = e.channels.size
  attempts : e'.contention.attempts.Sublist e.contention.attempts
  rest : e' =
    { e with
      channels := e'.channels, pairs := e'.pairs, listed := e'.listed, registry := e'.registry
      moduleUse := e'.moduleUse
      contention := { e.contention with attempts := e'.contention.attempts } }

/-- The channel belongs to the pair and has a driver, and it can be hung up. -/
structure CanHangUp (e : Exchange) (p : PairId) (c : ChannelId) : Prop extends LockFree e c where
  slot : (e.channel c).slot = .pair p
  driven : e.isDriven c = true
  live : (e.channel c).hungup = false

variable {e : Exchange} {p : PairId} {side : Side} {c d : ChannelId}

/-- The owner-side has warned the chan-side and left. -/
def ownerLeft (e : Exchange) (attempts : List (ChannelId × Bool)) (p : PairId) (c d : ChannelId) :
    Exchange :=
  (((e.leaving c).scripted attempts).modifyChannel d
    (·.afterBareHangup (e.channel c) .owner)).sideEmptied p .owner c

section Widowed

variable (attempts : List (ChannelId × Bool))

theorem channel_ownerLeft (hd : d.Among e.channels.size) (hdc : d ≠ c) :
    (e.ownerLeft attempts p c d).channel d = (e.channel d).afterBareHangup
      (e.channel c) .owner := by
  have hbeside : ((e.leaving c).scripted attempts).channel d = e.channel d :=
    channel_modifyChannel_of_ne e _ hdc
  have hamong : d.Among ((e.leaving c).scripted attempts).channels.size := by
    rwa [leaving, scripted, size_modifyChannel]
  rw [ownerLeft, sideEmptied, setSlot, channel_modifyChannel_of_ne _ _ hdc, ← hbeside]
  exact channel_modifyChannel _ _ hamong

theorem pair_ownerLeft (hp : p ∈ e.pairIds) :
    (e.ownerLeft attempts p c d).pair p = (e.pair p).clear .owner :=
  pair_sideEmptied (e := ((e.leaving c).scripted attempts).modifyChannel d _) hp .owner c

theorem canHangUp_ownerLeft (hother : e.CanHangUp p d) (hdc : d ≠ c)
    (hattempts : attempts.Sublist e.contention.attempts) : (e.ownerLeft attempts p c d).CanHangUp p d := by
  have hchannel := channel_ownerLeft attempts (p := p) (among_of_slot e hother.slot) hdc
  constructor
  case toLockFree => exact hother.toLockFree.mono (by rw [hchannel, Channel.lock_afterBareHangup]) hattempts
  case slot => exact (congrArg Channel.slot hchannel).trans hother.slot
  case driven =>
    rw [isDriven, hchannel]
    exact hother.driven
  case live => exact (congrArg Channel.hungup hchannel).trans hother.live

theorem membership_ownerLeft (hother : e.CanHangUp p d) (hdc : d ≠ c)
    (hend : (e.pair p).chan = some d)
    (hattempts : attempts.Sublist e.contention.attempts) :
    (e.ownerLeft attempts p c d).membership d = some (p, .chan) := by
  have hp : p ∈ e.pairIds :=
    mem_pairIds_of_attached (show (e.pair p).endpoint .chan = some d from hend)
  have hrecord := pair_ownerLeft attempts (c := c) (d := d) hp
  have hslot := (canHangUp_ownerLeft attempts hother hdc hattempts).slot
  refine membership_of_endpoint hslot (by rw [hrecord]; exact hend) fun o ho => ?_
  rw [hrecord] at ho
  cases ho

theorem unlock_ownerLeft (hcd : c ≠ d) (hopen : (e.channel c).lock.openTo .main = true)
    (hsound : (e.channel c).lock.Sound) :
    ((((e.ownerLeft attempts p c d).clearSide p .chan).retire p).modifyChannel d
      Channel.afterLeaving).unlock c =
      (((((e.scripted attempts).clearSide p .owner).clearSide p .chan).retire p).modifyChannel d
      fun x =>
        (x.afterBareHangup (e.channel c) .owner).afterLeaving).modifyChannel c
          Channel.afterLeaving := by
  generalize hrecordLeft : ((e.scripted attempts).clearSide p .owner).clearSide p .chan = b
  have hbase : (b.retire p).channel c = e.channel c :=
    (channel_eq_of_channels (channels_retire b p) c).trans (hrecordLeft ▸ rfl)
  have hretired : ((e.ownerLeft attempts p c d).clearSide p .chan).retire p =
      (((b.retire p).leaving c).modifyChannel d (·.afterBareHangup (e.channel c) .owner)).setSlot c
      .empty := by
    rw [leaving, setSlot, ← retire_modifyChannel, ← retire_modifyChannel, ← retire_modifyChannel]
    exact hrecordLeft ▸ rfl
  rw [hretired]
  exact unlock_leaving_between hcd (hbase ▸ hopen) (hbase ▸ hsound) _ _

end Widowed

theorem pair_retire (hp : p ∈ e.pairIds) (hidle : (e.pair p).glare = .idle)
    (hlive : (e.pair p).destroyed = false) :
    (e.retire p).pair p =
      { e.pair p with
        owner := none, chan := none, ownerUse := .dropped, chanUse := .dropped,
        destroyed := true } := by
  rw [(revised_retire hp).here, Pair.retired]
  simp only [hidle, Glare.cancel, Bool.false_eq_true, if_false, Pair.finished, hlive]

theorem registry_retire_idle (hp : p ∈ e.pairIds) (hidle : (e.pair p).glare = .idle)
    (hlive : (e.pair p).destroyed = false) :
    (e.retire p).registry = (e.registry.unlink p).noteDestroyed := by
  rw [registry_retire hp, ← (revised_retire hp).here, pair_retire hp hidle hlive, hlive,
    if_neg nofun]

theorem moduleUse_retire (hp : p ∈ e.pairIds) (htokens : ∀ side, (e.pair p).token side = .dropped) :
    (e.retire p).moduleUse = e.moduleUse := by
  have howner : ((e.cancelGlare p).pair p).ownerUse = .dropped := by
    rw [(revised_cancelGlare hp).here]
    exact htokens .owner
  have hchan : ((e.cancelGlare p).pair p).chanUse = .dropped := by
    rw [(revised_cancelGlare hp).here]
    exact htokens .chan
  rw [retire_eq]
  split
  · rfl
  · rw [destroy]
    simp only [howner, hchan]
    split <;> rfl

theorem inUse_clearSide (htallied : e.Tallied) (hend : (e.pair p).endpoint side ≠ none) :
    (e.clearSide p side).moduleUse.inUse + 1 = e.moduleUse.inUse := by
  have hp := mem_pairIds_of_endpoint hend
  have hheld : (e.pair p).token side = .held := (htallied.tokens p hp side).2 hend
  have hpos := holds_le hp
  have hweight := Pair.holds_clear (e.pair p) side
  rw [hheld] at hweight
  rw [← htallied.inUse] at hpos
  change (e.moduleUse.drop ((e.pair p).token side)).inUse + 1 = _
  rw [hheld, ModuleUse.inUse_drop]
  simp only [ModuleUse.Token.weight] at hweight ⊢
  omega

theorem rest_retire (e : Exchange) (p : PairId) : e.retire p =
    { e with
      pairs := (e.retire p).pairs, registry := (e.retire p).registry,
      moduleUse := (e.retire p).moduleUse } := by
  rw [retire_eq]
  split
  · rfl
  · rw [destroy]
    split <;> rfl

theorem recordLeft_told {e' : Exchange} (hseat : (e.pair p).endpoint side = some c)
    (hend : (e.pair p).endpoint side.peer = some d)
    (hleaves : (e.pair p).leavesChanUnserved side = false)
    (htallied : e.Tallied) (hlisted : p ∈ e.registry.pairs)
    (h : e'.records = (e.clearSide p side).records) :
    e.RecordLeft e' p side := by
  have hrevised := revised_clearSide (mem_pairIds_of_attached hseat) side
  have hpair : e'.pair p = (e.pair p).clear side := (pair_eq_of_records h p).trans hrevised.here
  have hregistry : e'.registry = e.registry := (congrArg (fun x : Exchange => x.registry) h :)
  have huse : e'.moduleUse = (e.clearSide p side).moduleUse :=
    (congrArg (fun x : Exchange => x.moduleUse) h :)
  have husage := inUse_clearSide htallied (by rw [hseat]; exact Option.some_ne_none c)
  constructor
  case seat =>
    rw [hpair]
    cases side <;> rfl
  case token =>
    rw [hpair]
    cases side <;> rfl
  case phase => rw [hpair, Pair.phase_clear hleaves]
  case stays => exact fun _ _ => ⟨hpair, hregistry, hregistry ▸ hlisted⟩
  case ends =>
    rintro (hnone | hstranded)
    · rw [hend] at hnone
      cases hnone
    · rw [hleaves] at hstranded
      cases hstranded
  case inUse => rw [hleaves, if_neg Bool.false_ne_true, huse, husage]
  case pairs => exact fun q hq => (pair_eq_of_records h q).trans (hrevised.elsewhere q hq)
  case size => exact (congrArg (·.pairs.size) h).trans hrevised.size

theorem recordLeft_ended {b e' : Exchange} {x : Pair} (hrevised : Revised e b p x)
    (hp : p ∈ e.pairIds)
    (hx : x =
      { e.pair p with owner := none, chan := none, ownerUse := .dropped, chanUse := .dropped, phase := x.phase })
    (hphase : x.phase = if side = .chan ∨ (e.pair p).leavesChanUnserved side = true then
      if (e.pair p).phase = .optimized then .optimized else .torn else (e.pair p).phase)
    (hidle : (e.pair p).glare = .idle) (hlive : (e.pair p).destroyed = false)
    (hregistry : b.registry = e.registry)
    (huse : b.moduleUse.inUse + (if (e.pair p).leavesChanUnserved side then 2 else 1) =
    e.moduleUse.inUse)
    (halone : (e.pair p).endpoint side.peer = none ∨ (e.pair p).leavesChanUnserved side = true)
    (h : e'.records = (b.retire p).records) : e.RecordLeft e' p side := by
  have hp' : p ∈ b.pairIds := hrevised.pairIds ▸ hp
  have hpair : e'.pair p =
      { e.pair p with
        owner := none, chan := none, ownerUse := .dropped, chanUse := .dropped, phase := x.phase
        destroyed := true } := by
    rw [pair_eq_of_records h p,
      pair_retire hp' (by rw [hrevised.here, hx, hidle]) (by rw [hrevised.here, hx, hlive]),
      hrevised.here, hx]
  have hend : e'.registry = (e.registry.unlink p).noteDestroyed := by
    rw [← hregistry, ← registry_retire_idle hp' (by rw [hrevised.here, hx, hidle])
      (by rw [hrevised.here, hx, hlive])]
    exact (congrArg (fun x : Exchange => x.registry) h :)
  have huse' : e'.moduleUse = b.moduleUse := by
    rw [← moduleUse_retire hp' fun s => by rw [hrevised.here, hx]; cases s <;> rfl]
    exact (congrArg (fun x : Exchange => x.moduleUse) h :)
  have hrevised' := hrevised.trans (revised_retire hp')
  constructor
  case seat =>
    rw [hpair]
    cases side <;> rfl
  case token =>
    rw [hpair]
    cases side <;> rfl
  case phase => rw [hpair, hphase]
  case stays =>
    intro hsome hstays
    rcases halone with hnone | hleaves
    · exact absurd hnone hsome
    · rw [hstays] at hleaves
      cases hleaves
  case ends =>
    refine fun _ => ⟨by rw [hpair], hend, ?_⟩
    rw [hend]
    change p ∉ (e.registry.unlink p).pairs
    rw [Registry.pairs_unlink]
    simp
  case inUse => rw [huse', huse]
  case pairs => exact fun q hq => (pair_eq_of_records h q).trans (hrevised'.elsewhere q hq)
  case size => exact (congrArg (·.pairs.size) h).trans hrevised'.size

/-- Whoever is on the other side has heard of the leaver. -/
def peerTold (e : Exchange) (p : PairId) (side : Side) (c : ChannelId) : Exchange :=
  match (e.pair p).endpoint side.peer with
  | some d => e.modifyChannel d fun x =>
    if (e.pair p).leavesChanUnserved side then
        (x.afterPeerLeft (e.channel c) (e.pair p) side).afterLeaving
    else x.afterPeerLeft (e.channel c) (e.pair p) side
  | none => e

theorem channel_peerTold (hend : (e.pair p).endpoint side.peer = some d)
    (hd : d.Among e.channels.size) :
    (e.peerTold p side c).channel d =
      if (e.pair p).leavesChanUnserved side then
        ((e.channel d).afterPeerLeft (e.channel c) (e.pair p) side).afterLeaving
      else (e.channel d).afterPeerLeft (e.channel c) (e.pair p) side := by
  rw [peerTold]
  rw [hend]
  exact channel_modifyChannel e _ hd

theorem channel_peerTold_of_ne {o : ChannelId} (ho : (e.pair p).endpoint side.peer ≠ some o) :
    (e.peerTold p side c).channel o = e.channel o := by
  rw [peerTold]
  split
  · next d hend => exact channel_modifyChannel_of_ne e _ fun h => ho (h ▸ hend)
  · rfl

theorem size_peerTold : (e.peerTold p side c).channels.size = e.channels.size := by
  rw [peerTold]
  split
  · exact size_modifyChannel _ _
  · rfl

theorem pairLeft_of_peerTold {e' : Exchange} (hc : c.Among e.channels.size)
    (hother : ∀ d, (e.pair p).endpoint side.peer = some d → d.Among e.channels.size ∧ d ≠ c)
    (hrecordLeft : e.RecordLeft e' p side)
    (hchannels : e'.channels =
    ((e.peerTold p side c).modifyChannel c Channel.afterLeaving).channels)
    (hlisted : e'.listed =
      e.listed.filter fun d => d ≠ c ∧
      ¬ ((e.pair p).leavesChanUnserved side = true ∧ (e.pair p).chan = some d))
    (hattempts : e'.contention.attempts.Sublist e.contention.attempts)
    (hrest : e' =
      { e with
        channels := e'.channels, pairs := e'.pairs, listed := e'.listed, registry := e'.registry
        moduleUse := e'.moduleUse
        contention := { e.contention with attempts := e'.contention.attempts } }) :
    e.PairLeft e' p side c := by
  have hapart : (e.pair p).endpoint side.peer ≠ some c := fun h => (hother c h).2 rfl
  have hbeside : ∀ o ≠ c, e'.channel o = (e.peerTold p side c).channel o := fun o ho =>
    (channel_eq_of_channels hchannels o).trans (channel_modifyChannel_of_ne _ _ ho)
  constructor
  case toRecordLeft => exact hrecordLeft
  case leaver =>
    have hsame : (e.peerTold p side c).channel c = e.channel c := channel_peerTold_of_ne hapart
    have hamong : c.Among (e.peerTold p side c).channels.size := by
      rw [size_peerTold]
      exact hc
    rw [channel_eq_of_channels hchannels c, channel_modifyChannel _ _ hamong, hsame]
  case other =>
    intro d hend
    obtain ⟨hd, hdc⟩ := hother d hend
    rw [hbeside d hdc, channel_peerTold hend hd]
  case cause => exact Frame.hangupCause_hangup _
  case listed => exact hlisted
  case channels => exact fun o hoc ho => (hbeside o hoc).trans (channel_peerTold_of_ne ho)
  case made => rw [hchannels, size_modifyChannel, size_peerTold]
  case attempts => exact hattempts
  case rest => exact hrest

theorem listed_delist (hleaves : (e.pair p).leavesChanUnserved side = false) (c : ChannelId) :
    (e.delist c).listed =
      e.listed.filter fun d => d ≠ c ∧
      ¬ ((e.pair p).leavesChanUnserved side = true ∧ (e.pair p).chan = some d) := by
  simp only [hleaves, Bool.false_eq_true, false_and, not_false_eq_true, and_true]
  rfl

theorem pairLeft_told {attempts : List (ChannelId × Bool)} (hc : c.Among e.channels.size)
    (hd : d.Among e.channels.size) (hdc : d ≠ c) (hseat : (e.pair p).endpoint side = some c)
    (hend : (e.pair p).endpoint side.peer = some d)
    (hleaves : (e.pair p).leavesChanUnserved side = false)
    (htallied : e.Tallied) (hlisted : p ∈ e.registry.pairs)
    (hattempts : attempts.Sublist e.contention.attempts) :
    e.PairLeft (((((e.scripted attempts).clearSide p side).modifyChannel d
      (·.afterPeerLeft (e.channel c) (e.pair p) side)).modifyChannel c Channel.afterLeaving).delist
      c) p side c := by
  refine pairLeft_of_peerTold hc ?_ (recordLeft_told hseat hend hleaves htallied hlisted rfl) ?_
    (listed_delist hleaves c) hattempts rfl
  · intro o ho
    obtain rfl := Option.some.inj (hend.symm.trans ho)
    exact ⟨hd, hdc⟩
  · rw [peerTold]
    simp only [hend, hleaves, Bool.false_eq_true, if_false]
    rfl

theorem pairLeft_last (hc : c.Among e.channels.size) (hseat : (e.pair p).endpoint side = some c)
    (hnone : (e.pair p).endpoint side.peer = none) (hidle : (e.pair p).glare = .idle)
    (hlive : (e.pair p).destroyed = false) (htallied : e.Tallied) :
    e.PairLeft ((((e.clearSide p side).retire p).modifyChannel c Channel.afterLeaving).delist c) p
      side c := by
  have hp := mem_pairIds_of_attached hseat
  have hleaves : (e.pair p).leavesChanUnserved side = false := by
    cases side with
    | owner =>
        have hchan : (e.pair p).chan = none := hnone
        rw [Pair.leavesChanUnserved, hchan]
        rfl
    | chan => rfl
  have hdropped : (e.pair p).token side.peer = .dropped := by
    have htoken := htallied.tokens p hp side.peer
    cases hheld : (e.pair p).token side.peer with
    | held => exact absurd hnone (htoken.1 hheld)
    | dropped => rfl
  have hrecord : (e.pair p).clear side =
      { e.pair p with
        owner := none, chan := none, ownerUse := .dropped, chanUse := .dropped
        phase := ((e.pair p).clear side).phase } := by
    cases side with
    | owner =>
        have hchan : (e.pair p).chan = none := hnone
        have huse : (e.pair p).chanUse = .dropped := hdropped
        simp only [Pair.clear, ← hchan, ← huse]
    | chan =>
        have howner : (e.pair p).owner = none := hnone
        have huse : (e.pair p).ownerUse = .dropped := hdropped
        simp only [Pair.clear, ← howner, ← huse]
  have hrest := rest_retire (e.clearSide p side) p
  refine pairLeft_of_peerTold hc ?_ ?_ ?_ ?_ ?_ ?_
  · intro o ho
    rw [hnone] at ho
    cases ho
  · refine recordLeft_ended (revised_clearSide hp side) hp hrecord
      (Pair.phase_clear hleaves) hidle hlive rfl ?_
      (.inl hnone) rfl
    rw [hleaves, if_neg Bool.false_ne_true,
      inUse_clearSide htallied (by rw [hseat]; exact Option.some_ne_none c)]
  · rw [peerTold]
    rw [hnone, hrest]
    rfl
  · rw [← listed_delist hleaves c, hrest]
    rfl
  · rw [hrest]
    exact .refl _
  · rw [hrest]
    rfl

theorem pairLeft_unserved {attempts : List (ChannelId × Bool)} (hc : c.Among e.channels.size)
    (hd : d.Among e.channels.size) (hdc : d ≠ c) (hseat : (e.pair p).owner = some c)
    (hend : (e.pair p).chan = some d) (hleaves : (e.pair p).leavesChanUnserved .owner = true)
    (hidle : (e.pair p).glare = .idle)
    (hlive : (e.pair p).destroyed = false) (htallied : e.Tallied)
    (hattempts : attempts.Sublist e.contention.attempts) :
    e.PairLeft
      ((((((((e.scripted attempts).clearSide p .owner).clearSide p .chan).retire p).modifyChannel d
      fun x => (x.afterPeerLeft (e.channel c) (e.pair p) .owner).afterLeaving).modifyChannel c
      Channel.afterLeaving).delist d).delist c) p .owner c := by
  have hp : p ∈ e.pairIds :=
    mem_pairIds_of_attached (show (e.pair p).endpoint .owner = some c from hseat)
  have hfirst := revised_clearSide (e := e.scripted attempts) hp .owner
  have hsecond :=
    revised_clearSide (e := (e.scripted attempts).clearSide p .owner) (hfirst.pairIds ▸ hp) .chan
  rw [hfirst.here] at hsecond
  have husage : (((e.scripted attempts).clearSide p .owner).clearSide p .chan).moduleUse.inUse + 2 =
      e.moduleUse.inUse := by
    have howner : (e.clearSide p .owner).moduleUse.inUse + 1 = e.moduleUse.inUse :=
      inUse_clearSide htallied (by rw [Pair.endpoint, hseat]; exact Option.some_ne_none c)
    have hstill : ((e.clearSide p .owner).pair p).endpoint .chan ≠ none := by
      rw [(revised_clearSide hp .owner).here]
      change (e.pair p).chan ≠ none
      rw [hend]
      exact Option.some_ne_none d
    have hchan := inUse_clearSide (htallied.clearSide hp .owner) hstill
    exact (congrArg (· + 1) hchan).trans howner
  have hrest : (((e.scripted attempts).clearSide p .owner).clearSide p .chan).retire p =
      { e.scripted attempts with
        pairs := ((((e.scripted attempts).clearSide p .owner).clearSide p .chan).retire p).pairs
        registry :=
          ((((e.scripted attempts).clearSide p .owner).clearSide p .chan).retire p).registry
        moduleUse :=
        ((((e.scripted attempts).clearSide p .owner).clearSide p .chan).retire p).moduleUse } :=
    rest_retire _ p
  refine pairLeft_of_peerTold hc ?_ ?_ ?_ ?_ ?_ ?_
  · intro o ho
    obtain rfl := Option.some.inj (hend.symm.trans ho)
    exact ⟨hd, hdc⟩
  · have hrevised := hfirst.trans hsecond
    refine recordLeft_ended ⟨hrevised.size, hrevised.here,
      hrevised.elsewhere⟩ hp rfl ?_ hidle hlive rfl ?_ (.inr hleaves)
      rfl
    · rw [if_pos (.inr hleaves)]
      change (((e.pair p).clear .owner).clear .chan).phase = _
      cases hphase : (e.pair p).phase <;> simp [Pair.clear, Phase.chanDeparted, hphase]
    · rw [if_pos hleaves, husage]
  · rw [peerTold]
    simp only [show (e.pair p).endpoint Side.owner.peer = some d from hend, hleaves, if_true]
    rw [hrest]
    rfl
  · rw [hrest]
    change (e.listed.filter (· ≠ d)).filter (· ≠ c) = _
    rw [List.filter_filter]
    refine List.filter_congr fun o _ => ?_
    simp [hleaves, hend, eq_comm]
  · rw [hrest]
    exact hattempts
  · rw [hrest]
    generalize (((e.scripted attempts).clearSide p .owner).clearSide p .chan).retire p = b
    rfl

end Exchange

namespace Session

open Exchange

variable {s : Session} {e x : Exchange} {a : Answer} {tasks rest : List Task} {p : PairId}
    {side : Side}
  {c d : ChannelId}

theorem hangup_runsTo (hleaver : e.CanHangUp p c)
    (hteardown : (e.leaving c).teardown c = (x, tasks)) :
    (s.updated e a (.hangup c :: rest)).RunsTo
      (s.updated x a (tasks ++ .unlock c :: .delist c :: rest)) := by
  have hdispatch := dispatch_leaving hleaver.driven hleaver.lock
  rw [hteardown] at hdispatch
  refine (runsTo_resume (t := .hangup _) (fun _ => rfl)
    (hangup_live hleaver.driven hleaver.live)).trans ?_
  refine (runsTo_resume (t := .dispatch _ _) (fun _ => rfl) hdispatch).trans ⟨0, ?_⟩
  rw [List.append_assoc]
  rfl

theorem runsTo_over : (s.updated e a (.settle .done :: .unlock c :: .delist c :: rest)).RunsTo
    (s.updated ((e.unlock c).delist c) .done rest) :=
  runsTo_settle.trans (runsTo_unlock.trans (runsTo_resume (t := .delist _) (fun _ => rfl) rfl))

variable (rest) in
theorem last_runsTo (hm : e.membership c = some (p, side))
    (hnone : (e.pair p).endpoint side.peer = none)
    (hleaver : e.CanHangUp p c) (hsound : (e.channel c).lock.Sound) :
    (s.updated e a (.hangup c :: rest)).RunsTo
      (s.updated ((((e.clearSide p side).retire p).modifyChannel c Channel.afterLeaving).delist c)
      .done rest) := by
  have hchannel : ((e.clearSide p side).retire p).channel c = e.channel c :=
    channel_eq_of_channels (channels_retire _ p) c
  have hback :=
    unlock_leaving (e := (e.clearSide p side).retire p) (hchannel ▸ hleaver.lock)
    (hchannel ▸ hsound)
  have hteardown := teardown_last ((membership_leaving c c).trans hm) hnone
  have hgone : ((e.leaving c).sideEmptied p side c).retire p =
      (((e.clearSide p side).retire p).leaving c).setSlot c .empty := by
    rw [sideEmptied, setSlot, retire_modifyChannel]
    exact congrArg (·.setSlot c .empty) (retire_modifyChannel (e.clearSide p side) c _ p)
  rw [hgone] at hteardown
  rw [← hback]
  exact (hangup_runsTo hleaver hteardown).trans runsTo_over

variable (rest) in
theorem told_runsTo (hm : e.membership c = some (p, side))
    (hend : (e.pair p).endpoint side.peer = some d)
    (hdc : d ≠ c) (hleaves : (e.pair p).leavesChanUnserved side = false)
    (hidle : (e.pair p).glare = .idle)
    (hleaver : e.CanHangUp p c) (hfree : e.LockFree d) (hsound : e.locks.Sound) :
    ∃ attempts, attempts.Sublist e.contention.attempts ∧
      (s.updated e a (.hangup c :: rest)).RunsTo
        (s.updated (((((e.scripted attempts).clearSide p side).modifyChannel d
          (·.afterPeerLeft (e.channel c) (e.pair p) side)).modifyChannel c
          Channel.afterLeaving).delist c) .done rest) := by
  obtain ⟨_, hattempts, y, hy, hteardown, hfree', hsound', hcause⟩ :=
    teardown_leaving hm hend hdc hfree (hsound d)
  have hpair : y.pair p = e.pair p := hy ▸ rfl
  obtain ⟨attempts, hattempts', hdepart⟩ := depart_told (c := c) (hpair ▸ hend) (hpair ▸ hleaves)
    (hpair ▸ hidle) hdc
    hfree' hsound'
  rw [hdepart, hpair, hcause] at hteardown
  have hback := unlock_leaving_between
    (e := (e.scripted attempts).clearSide p side) hdc.symm hleaver.lock (hsound c)
    (·.afterBareHangup (e.channel c) side) fun x => { x with frames := x.frames ++
      if ((e.pair p).clear side).phase.isMasqueraded then []
      else [.hangup (e.channel c).hangupCause] }
  simp only [Channel.afterBareHangup_then_told _ _ hend hleaves] at hback
  refine ⟨attempts, hattempts'.trans (hy ▸ hattempts), ?_⟩
  rw [← hback]
  refine (hangup_runsTo hleaver hteardown).trans (runsTo_settle.trans ?_)
  subst hy
  exact runsTo_over

variable (rest) in
theorem unserved_runsTo (hm : e.membership c = some (p, .owner)) (hend : (e.pair p).chan = some d)
    (hdc : d ≠ c) (hleaves : (e.pair p).leavesChanUnserved .owner = true)
    (hleaver : e.CanHangUp p c)
    (hother : e.CanHangUp p d) (hsound : e.locks.Sound) :
    ∃ attempts, attempts.Sublist e.contention.attempts ∧
      (s.updated e a (.hangup c :: rest)).RunsTo
        (s.updated
        ((((((((e.scripted attempts).clearSide p .owner).clearSide p .chan).retire p).modifyChannel
        d
          fun x => (x.afterPeerLeft (e.channel c) (e.pair p) .owner).afterLeaving).modifyChannel c
          Channel.afterLeaving).delist d).delist c) .done rest) := by
  obtain ⟨attempts, hattempts, y, hy, hteardown, -⟩ :=
    teardown_leaving hm hend hdc hother.toLockFree (hsound d)
  have hpair : y.pair p = e.pair p := hy ▸ rfl
  have hleft : y.sideEmptied p .owner c = e.ownerLeft attempts p c d := hy ▸ rfl
  rw [depart_leavesChanUnserved (c := c) (hpair ▸ hend) (hpair ▸ hleaves), hleft] at hteardown
  have hp : p ∈ e.pairIds := mem_pairIds_of_attached (membership_eq_some hm).2
  have hchannel := channel_ownerLeft attempts (p := p) (among_of_slot e hother.slot) hdc
  have hlast := last_runsTo (s := s) (a := a) (.settle .done :: .unlock c :: .delist c :: rest)
    (membership_ownerLeft attempts hother hdc hend hattempts)
    (by rw [pair_ownerLeft attempts hp]; rfl)
    (canHangUp_ownerLeft attempts hother hdc hattempts) (by rw [hchannel]; exact hsound d)
  have hback := unlock_ownerLeft attempts (p := p) hdc.symm hleaver.lock (hsound c)
  simp only [Channel.afterBareHangup_of_leavesChanUnserved _ _ hleaves] at hback
  refine ⟨attempts, hattempts, (hangup_runsTo hleaver hteardown).trans (hlast.trans ?_)⟩
  rw [← hback]
  exact runsTo_over

theorem occupied_of_rest {n : Nat} (hs : s.Reachable n) (hrest : s.AtRest)
    (hseat : (s.exchange.pair p).endpoint side = some c) :
    p ∈ s.exchange.registry.pairs ∧ (s.exchange.pair p).destroyed = false ∧
      (s.exchange.pair p).glare = .idle := by
  have hp := mem_pairIds_of_attached hseat
  have hoccupied : (s.exchange.pair p).isVacant = false :=
    Pair.not_isVacant_iff.2 ⟨side, by rw [hseat]; exact Option.some_ne_none c⟩
  have hregistered : s.exchange.registry.pairs =
      s.exchange.pairIds.filter fun p => !(s.exchange.pair p).isVacant := hs.sound.listed
  have hrecord := hs.record hp
  rw [hrest.pendingRetries, Multiset.count_zero] at hrecord
  obtain ⟨hlive, hcancelled⟩ := hrecord.live hoccupied
  refine ⟨hregistered ▸ List.mem_filter.2 ⟨hp, by rw [hoccupied]; rfl⟩, hlive, ?_⟩
  have hnone := hrecord.inFlight
  have hdetected := hrecord.detected
  cases hglare : (s.exchange.pair p).glare <;> simp_all [Glare.inFlight, Glare.isCancelled]

/-- What a hangup does when nobody is in its way, on either side and in every phase. -/
theorem hangup_effect {n : Nat} (hs : s.Reachable n) (hrest : s.AtRest)
    (hagenda : s.agenda = .operate (.signal .dispatched c .hangup) :: rest)
    (hseat : (s.exchange.pair p).endpoint side = some c)
    (happart : ∀ d, (s.exchange.pair p).owner = some d → (s.exchange.pair p).chan ≠ some d)
    (hready : ∀ side d, (s.exchange.pair p).endpoint side = some d → s.exchange.CanHangUp p d) :
    ∃ e', s.RunsTo (s.updated e' .done rest) ∧ s.exchange.PairLeft e' p side c := by
  have hleaver := hready side c hseat
  have hc := among_of_slot _ hleaver.slot
  have hm := membership_of_endpoint hleaver.slot hseat happart
  obtain ⟨hlisted, hlive, hidle⟩ := occupied_of_rest hs hrest hseat
  have hbegins : s.RunsTo (s.updated s.exchange s.answer (.hangup c :: rest)) :=
    runsTo_of_step (step_signal_of_record hagenda (membership_eq_some hm).1)
  cases hend : (s.exchange.pair p).endpoint side.peer with
  | none =>
      exact ⟨_, hbegins.trans (last_runsTo rest hm hend hleaver (hs.locks_sound c)),
        pairLeft_last hc hseat hend hidle hlive hs.tallied⟩
  | some d =>
      have hother := hready side.peer d hend
      have hdc : d ≠ c := by
        rintro rfl
        cases side with
        | owner => exact happart d hseat hend
        | chan => exact happart d hend hseat
      have hd := among_of_slot _ hother.slot
      cases hleaves : (s.exchange.pair p).leavesChanUnserved side with
      | false =>
          obtain ⟨attempts, hattempts, hruns⟩ := told_runsTo rest hm hend hdc hleaves hidle hleaver
            hother.toLockFree hs.locks_sound
          exact ⟨_, hbegins.trans hruns,
            pairLeft_told hc hd hdc hseat hend hleaves hs.tallied hlisted hattempts⟩
      | true =>
          obtain rfl : side = .owner := by
            cases side with
            | owner => rfl
            | chan => cases hleaves
          obtain ⟨attempts, hattempts, hruns⟩ :=
            unserved_runsTo rest hm hend hdc hleaves hleaver hother
            hs.locks_sound
          exact ⟨_, hbegins.trans hruns,
            pairLeft_unserved hc hd hdc hseat hend hleaves hidle hlive hs.tallied hattempts⟩

def outbid : List Operation :=
  [.addExtension "internal" "100", .request .dispatched "Local" "100@internal" ⟨4⟩,
    .signal .dispatched ⟨1⟩ (.call "100" none), .edit ⟨1⟩ .answeredElsewhere,
    .edit ⟨1⟩ (.hangupCause 26),
    .signal .dispatched ⟨1⟩ .hangup]

theorem outbid_tells : ∃ s, start {} outbid = .ok s ∧
    (s.run 17).agenda = [.operate (.signal .dispatched ⟨1⟩ .hangup), .report] ∧ (s.run 17).AtRest ∧
    ((s.run 17).exchange.pair ⟨1⟩).owner = some ⟨1⟩ ∧
    ((s.run 17).exchange.pair ⟨1⟩).chan = some ⟨2⟩ ∧
    (s.run 17).exchange.CanHangUp ⟨1⟩ ⟨1⟩ ∧ (s.run 17).exchange.CanHangUp ⟨1⟩ ⟨2⟩ ∧
    ∃ e', (s.run 17).RunsTo ((s.run 17).updated e' .done [.report]) ∧
      (e'.channel ⟨2⟩).frames = [.bare .hangup, .hangup 26] ∧
      (e'.channel ⟨2⟩).answeredElsewhere = true ∧
      (e'.channel ⟨1⟩).slot = .empty ∧ e'.listed = [⟨2⟩] ∧ (e'.pair ⟨1⟩).owner = none ∧
      (e'.pair ⟨1⟩).phase = .dialplanLaunched ∧ e'.registry.pairs = [⟨1⟩] ∧
      e'.moduleUse.inUse = 1 := by
  have hstart : start {} outbid = .ok { exchange := {}, agenda := tasksOf outbid } := rfl
  generalize hs : ({ exchange := {}, agenda := tasksOf outbid } : Session) = s at hstart
  have hagenda : (s.run 17).agenda = [.operate (.signal .dispatched ⟨1⟩ .hangup), .report] := by
    subst hs
    rfl
  have hrest : (s.run 17).AtRest := by
    subst hs
    decide +kernel
  have howner : ((s.run 17).exchange.pair ⟨1⟩).owner = some ⟨1⟩ := by
    subst hs
    decide +kernel
  have hchan : ((s.run 17).exchange.pair ⟨1⟩).chan = some ⟨2⟩ := by
    subst hs
    decide +kernel
  have hattempts : (s.run 17).exchange.contention.attempts = [] := by
    subst hs
    rfl
  have hfirst : (s.run 17).exchange.CanHangUp ⟨1⟩ ⟨1⟩ := by
    refine ⟨⟨?_, fun a ha => by rw [hattempts] at ha; cases ha⟩, ?_, ?_, ?_⟩ <;> subst hs <;>
      decide +kernel
  have hsecond : (s.run 17).exchange.CanHangUp ⟨1⟩ ⟨2⟩ := by
    refine ⟨⟨?_, fun a ha => by rw [hattempts] at ha; cases ha⟩, ?_, ?_, ?_⟩ <;> subst hs <;>
      decide +kernel
  have hready : ∀ side d, ((s.run 17).exchange.pair ⟨1⟩).endpoint side = some d →
      (s.run 17).exchange.CanHangUp ⟨1⟩ d := by
    rintro (_ | _) d hd
    · exact Option.some.inj (howner.symm.trans hd) ▸ hfirst
    · exact Option.some.inj (hchan.symm.trans hd) ▸ hsecond
  have hphase : ((s.run 17).exchange.pair ⟨1⟩).phase = .dialplanLaunched := by
    subst hs
    decide +kernel
  have hleaves : ((s.run 17).exchange.pair ⟨1⟩).leavesChanUnserved .owner = false := by
    rw [Pair.leavesChanUnserved, hphase]
    simp [Phase.dialplanStarted]
  have hseat : ((s.run 17).exchange.pair ⟨1⟩).endpoint .owner = some ⟨1⟩ := howner
  obtain ⟨e', hruns, heffect⟩ := hangup_effect ((Reachable.start hstart).run 17) hrest hagenda hseat
    (fun d hd => by rw [hchan, ← hd, howner]; decide) hready
  have hother := heffect.other ⟨2⟩ hchan
  rw [hleaves, if_neg Bool.false_ne_true] at hother
  have hkept :=
    heffect.stays (by rw [Side.peer, Pair.endpoint, hchan]; exact Option.some_ne_none _) hleaves
  refine ⟨s, hstart, hagenda, hrest, howner, hchan, hfirst, hsecond, e', hruns, ?_, ?_, ?_, ?_,
    heffect.seat,
    ?_, ?_, ?_⟩
  · rw [hother]
    subst hs
    decide +kernel
  · rw [hother]
    subst hs
    decide +kernel
  · rw [heffect.leaver]
    rfl
  · rw [heffect.listed]
    subst hs
    decide +kernel
  · rw [hkept.1]
    exact hphase
  · rw [hkept.2.1]
    subst hs
    rfl
  · have huse : (s.run 17).exchange.moduleUse.inUse = 2 := by
      subst hs
      decide +kernel
    have hless := heffect.inUse
    rw [hleaves, if_neg Bool.false_ne_true] at hless
    omega

end Session
end Switchboard

