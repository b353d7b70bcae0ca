import Switchboard.Proofs.TurnState.Effects

namespace Switchboard

/-- When it comes to its end the acquisition clears the side, and the slot of the channel. -/
def Acquisition.Clears (a : Acquisition) (p : PairId) (side : Side) (c : ChannelId) : Prop :=
  a.pair = p ∧ a.purpose.leaving = some side ∧ a.purpose.leaver = some c

theorem Pair.token_retired {x : Pair} {side : Side} (h : x.token side = .dropped) :
    x.retired.token side = .dropped := by
  rw [retired]
  split
  · exact h
  · rw [finished]
    split
    · exact h
    · cases side <;> rfl

namespace Exchange

/-- The slots of all channels, and the endpoints and tokens of all records. -/
def slotsAndSides (e : Exchange) :
    (ChannelId → Slot) × (PairId → Side → Option ChannelId × ModuleUse.Token) :=
  (fun c => (e.channel c).slot, fun p side => ((e.pair p).endpoint side, (e.pair p).token side))

/-- The side of one record is cleared with its token, and the slot of one channel; nobody else loses
anything. -/
structure Clearance (e e' : Exchange) (p : PairId) (side : Side) (c : ChannelId) : Prop where
  seat : (e'.pair p).endpoint side = none
  token : (e'.pair p).token side = .dropped
  slot : (e'.channel c).slot = .empty
  seats : ∀ q s, (q = p → s ≠ side) → (e'.pair q).endpoint s = (e.pair q).endpoint s
  tokens : ∀ q s, (q = p → s ≠ side) → (e.pair q).endpoint s ≠ none →
    (e'.pair q).token s = (e.pair q).token s
  slots : ∀ d ≠ c, (e'.channel d).slot = (e.channel d).slot

variable {e e' e'' : Exchange} {p : PairId} {side : Side} {c : ChannelId}

theorem slotsAndSides_eq_of_view (h : e'.view = e.view) : e'.slotsAndSides = e.slotsAndSides := by
  apply Prod.ext
  · funext c
    exact congrArg ChannelView.slot (channelView_eq_of_view h c)
  · funext p side
    simp only [slotsAndSides, pair_eq_of_view h p]

theorem slotsAndSides_modifyPair (p : PairId) {f : Pair → Pair}
    (h : ∀ side, (f (e.pair p)).endpoint side = (e.pair p).endpoint side ∧
      (f (e.pair p)).token side = (e.pair p).token side) :
      (e.modifyPair p f).slotsAndSides = e.slotsAndSides := by
  apply Prod.ext
  · rfl
  · funext q side
    refine pair_modifyPair_congr (fun x => (x.endpoint side, x.token side)) e p q ?_
    exact Prod.ext (h side).1 (h side).2

theorem slotsAndSides_modifyChannel (c : ChannelId) {f : Channel → Channel}
    (h : (f (e.channel c)).slot = (e.channel c).slot) :
    (e.modifyChannel c f).slotsAndSides = e.slotsAndSides := by
  apply Prod.ext
  · funext d
    exact channel_modifyChannel_congr Channel.slot e c d h
  · rfl

theorem slotsAndSides_place (frame : Frame) (source : Option ChannelId) (peer : ChannelId) :
    (e.place frame source peer).slotsAndSides = e.slotsAndSides := by
  obtain ⟨x, hx, hplace⟩ := view_place e frame source peer
  rw [hplace]
  exact (slotsAndSides_modifyChannel peer rfl).trans (slotsAndSides_eq_of_view hx)

theorem slotsAndSides_releasePeer (peer : Option ChannelId) :
    (e.releasePeer peer).slotsAndSides = e.slotsAndSides :=
  slotsAndSides_eq_of_view (view_releasePeer e peer)

theorem slotsAndSides_deliver (frame : Frame) (source peer : Option ChannelId)
    (hlive : (e.pair p).glare.isCancelled = false) :
    (e.deliver p frame source peer).1.slotsAndSides = e.slotsAndSides := by
  unfold deliver
  rw [if_neg (by rw [hlive]; exact Bool.false_ne_true)]
  refine (slotsAndSides_modifyPair p fun _ => ⟨rfl, rfl⟩).trans
    ((slotsAndSides_releasePeer peer).trans ?_)
  cases peer with
  | none => rfl
  | some o =>
      dsimp only
      split
      · rfl
      · exact slotsAndSides_place frame source o

theorem slotsAndSides_relay (s : Side) (frame : Frame) (source : Option ChannelId) (locked : Bool)
    (hlive : (e.pair p).glare.isCancelled = false) :
    (e.relay p s frame source locked).1.slotsAndSides = e.slotsAndSides := by
  have hentered : (e.modifyPair p Pair.entered).slotsAndSides = e.slotsAndSides :=
    slotsAndSides_modifyPair p fun _ => ⟨rfl, rfl⟩
  have hlive' : ((e.modifyPair p Pair.entered).pair p).glare.isCancelled = false := by
    rw [pair_modifyPair_congr (·.glare.isCancelled) e p p (Glare.isCancelled_enter _)]
    exact hlive
  rw [relay_eq]
  cases (e.pair p).endpoint s.peer with
  | none => rfl
  | some other =>
      dsimp only
      split
      · rfl
      · have hseek := view_seek (e.modifyPair p Pair.entered) p s.peer
        rw [acquire]
        rcases hs : (e.modifyPair p Pair.entered).seek p s.peer with ⟨sought, x⟩
        rw [hs] at hseek
        have hkept : x.slotsAndSides = e.slotsAndSides :=
          (slotsAndSides_eq_of_view hseek).trans hentered
        have hopen : (x.pair p).glare.isCancelled = false := by
          rw [pair_eq_of_view hseek]
          exact hlive'
        cases sought with
        | gone => exact (slotsAndSides_deliver frame source none hopen).trans hkept
        | taken o => exact (slotsAndSides_deliver frame source (some o) hopen).trans hkept
        | busy => exact hkept

theorem Clearance.before (h : e'.Clearance e'' p side c) (he : e'.slotsAndSides = e.slotsAndSides) :
    e.Clearance e'' p side c := by
  have hslot : ∀ d, (e'.channel d).slot = (e.channel d).slot := congrFun (congrArg Prod.fst he)
  have hseat : ∀ q s, ((e'.pair q).endpoint s, (e'.pair q).token s) =
      ((e.pair q).endpoint s, (e.pair q).token s) :=
        fun q s => congrFun (congrFun (congrArg Prod.snd he) q) s
  refine ⟨h.seat, h.token, h.slot, fun q s hq => ?_, fun q s hq hend => ?_, fun d hd => ?_⟩
  · rw [h.seats q s hq]
    exact (Prod.mk.inj (hseat q s)).1
  · rw [← (Prod.mk.inj (hseat q s)).1] at hend
    rw [h.tokens q s hq hend]
    exact (Prod.mk.inj (hseat q s)).2
  · rw [h.slots d hd, hslot]

theorem Clearance.after (h : e.Clearance e' p side c) (he : e''.slotsAndSides = e'.slotsAndSides) :
    e.Clearance e'' p side c := by
  have hslot : ∀ d, (e''.channel d).slot = (e'.channel d).slot := congrFun (congrArg Prod.fst he)
  have hseat : ∀ q s, ((e''.pair q).endpoint s, (e''.pair q).token s) =
      ((e'.pair q).endpoint s, (e'.pair q).token s) :=
        fun q s => congrFun (congrFun (congrArg Prod.snd he) q) s
  refine ⟨?_, ?_, ?_, fun q s hq => ?_, fun q s hq hend => ?_, fun d hd => ?_⟩
  · exact (Prod.mk.inj (hseat p side)).1.trans h.seat
  · exact (Prod.mk.inj (hseat p side)).2.trans h.token
  · exact (hslot c).trans h.slot
  · exact (Prod.mk.inj (hseat q s)).1.trans (h.seats q s hq)
  · exact (Prod.mk.inj (hseat q s)).2.trans (h.tokens q s hq hend)
  · exact (hslot d).trans (h.slots d hd)

theorem clearance_empty (hp : p ∈ e.pairIds) (side : Side) (c : ChannelId) :
    e.Clearance ((e.clearSide p side).setSlot c .empty) p side c := by
  have hclear := revised_clearSide hp side
  have hpair : ∀ q, ((e.clearSide p side).setSlot c .empty).pair q = (e.clearSide p side).pair q :=
    fun _ => rfl
  refine ⟨?_, ?_, ?_, fun q s hq => ?_, fun q s hq _ => ?_, fun d hd => ?_⟩
  · rw [hpair, hclear.here, endpoint_clear, if_pos rfl]
  · rw [hpair, hclear.here]
    cases side <;> rfl
  · by_cases hc : c.Among e.channels.size
    · rw [setSlot, channel_modifyChannel (e.clearSide p side) _ hc]
    · rw [channel_of_not_among]
      · rfl
      · rwa [setSlot, size_modifyChannel]
  · rw [hpair]
    by_cases hqp : q = p
    · subst hqp
      rw [hclear.here, endpoint_clear, if_neg (hq rfl)]
    · rw [hclear.elsewhere q hqp]
  · rw [hpair]
    by_cases hqp : q = p
    · subst hqp
      rw [hclear.here]
      have hs := hq rfl
      cases side <;> cases s <;> first | rfl | exact absurd rfl hs
    · rw [hclear.elsewhere q hqp]
  · exact congrArg Channel.slot (channel_modifyChannel_of_ne (e.clearSide p side) _ hd)

theorem Clearance.retire (h : e.Clearance e' p side c) (hp : p ∈ e'.pairIds)
    (hv : (e'.pair p).isVacant = true) : e.Clearance (e'.retire p) p side c := by
  have hretire := revised_retire hp
  have hgone : ∀ s, ((e'.retire p).pair p).endpoint s = none := fun s => by
    rw [hretire.here]
    exact endpoint_of_isVacant (Pair.isVacant_retired hv) s
  have hslot : ∀ d, ((e'.retire p).channel d).slot = (e'.channel d).slot := fun d =>
    congrArg Channel.slot (channel_eq_of_channels (channels_retire e' p) d)
  refine ⟨hgone side, ?_, (hslot c).trans h.slot, fun q s hq => ?_, fun q s hq hend => ?_,
    fun d hd => ?_⟩
  · rw [hretire.here]
    exact Pair.token_retired h.token
  · by_cases hqp : q = p
    · subst hqp
      rw [hgone, ← h.seats q s hq, endpoint_of_isVacant hv]
    · rw [hretire.elsewhere q hqp]
      exact h.seats q s hq
  · by_cases hqp : q = p
    · subst hqp
      rw [← h.seats q s hq, endpoint_of_isVacant hv] at hend
      exact absurd rfl hend
    · rw [hretire.elsewhere q hqp]
      exact h.tokens q s hq hend
  · rw [hslot, h.slots d hd]

def VacantIfCancelled (e : Exchange) (p : PairId) : Prop :=
  (e.pair p).glare.isCancelled = true → (e.pair p).isVacant = true

theorem depart_clearance (hvacant : e.VacantIfCancelled p) (hp : p ∈ e.pairIds) (side : Side)
    (c : ChannelId) :
    e.Clearance ((e.clearSide p side).depart p side c).1 p side c := by
  have hempty := clearance_empty hp side c
  have hclear : ((e.clearSide p side).setSlot c .empty).pair p = (e.pair p).clear side :=
    (revised_clearSide hp side).here
  have hp' : p ∈ ((e.clearSide p side).setSlot c .empty).pairIds := by
    rwa [pairIds_eq_of_size (e := e) (Table.size_modify _ _ _)]
  rw [depart]
  generalize (e.clearSide p side).setSlot c .empty = x at hempty hclear hp' ⊢
  by_cases hv : (x.pair p).isVacant = true
  · rw [if_pos hv]
    exact hempty.retire hp' hv
  · rw [if_neg hv]
    cases unserved (x.pair p) with
    | some chan => exact hempty
    | none =>
        -- Nobody has left this record to relays in flight, so the hangup takes nothing with it.
        refine hempty.after (slotsAndSides_relay side _ none false ?_)
        rw [Bool.eq_false_iff]
        intro hcancelled
        rw [hclear, Pair.glare_clear] at hcancelled
        rw [hclear] at hv
        exact hv (Pair.isVacant_clear (hvacant hcancelled))

theorem proceed_clearance (hvacant : e.VacantIfCancelled p) (hp : p ∈ e.pairIds) {a : Acquisition}
    (ha : a.Clears p side c) (peer : Option ChannelId) :
    e.Clearance (e.proceed a peer).1 p side c := by
  obtain ⟨q, at_, source, purpose⟩ := a
  obtain ⟨rfl, hside, hleaver⟩ := ha
  cases purpose with
  | relay frame source => cases hside
  | dialStatus leaver status =>
      cases hside
      cases hleaver
      cases peer with
      | none => exact depart_clearance hvacant hp .chan c
      | some owner =>
          have hquiet : ((e.setVar owner channelStatus status).unlock owner).view = e.view := by
            simp
          exact (depart_clearance
            (e := (e.setVar owner channelStatus status).unlock owner) hvacant hp
            .chan c).before (slotsAndSides_eq_of_view hquiet)
  | ownerLeaving leaver =>
      cases hside
      cases hleaver
      cases peer with
      | none => exact depart_clearance hvacant hp .owner c
      | some chan =>
          have hquiet : ((e.queueFrame chan (.bare .hangup)).unlock chan).slotsAndSides =
            e.slotsAndSides :=
            (slotsAndSides_modifyChannel chan rfl).trans (slotsAndSides_modifyChannel chan rfl)
          exact (depart_clearance (e := (e.queueFrame chan (.bare .hangup)).unlock chan) hvacant hp
            .owner c).before hquiet

/-- A departure that meets a held lock has done nothing yet. Otherwise its side is cleared. -/
theorem acquire_clearance (hvacant : e.VacantIfCancelled p) (hp : p ∈ e.pairIds) {a : Acquisition}
    (ha : a.Clears p side c) :
    (∃ e', e.acquire a = (e', a.wait) ∧ e'.view = e.view) ∨
      e.Clearance (e.acquire a).1 p side c := by
  have hseek := view_seek e a.pair a.side
  rw [acquire]
  rcases hs : e.seek a.pair a.side with ⟨sought, x⟩
  rw [hs] at hseek
  have hvacant' : x.VacantIfCancelled p := by
    rw [VacantIfCancelled, pair_eq_of_view hseek]
    exact hvacant
  have hp' : p ∈ x.pairIds := by
    rwa [pairIds_eq_of_size (congrArg (Table.size ∘ ExchangeView.pairs) hseek)]
  cases sought with
  | gone =>
      exact .inr ((proceed_clearance hvacant' hp' ha none).before (slotsAndSides_eq_of_view hseek))
  | taken o =>
      exact .inr ((proceed_clearance hvacant' hp' ha (some o)).before
        (slotsAndSides_eq_of_view hseek))
  | busy => exact .inl ⟨x, rfl, hseek⟩

theorem teardown_clearance (hvacant : e.VacantIfCancelled p)
    (hm : e.membership c = some (p, side)) :
    (∃ (a : Acquisition) (e' : Exchange),
        a.Clears p side c ∧ e.teardown c = (e', a.wait ++ [Task.settle .done]) ∧ e'.view = e.view) ∨
      e.Clearance (e.teardown c).1 p side c := by
  have hp : p ∈ e.pairIds := mem_pairIds_of_attached (membership_eq_some hm).2
  rw [teardown]
  rw [hm]
  cases side with
  | chan =>
      dsimp only
      cases (e.channel c).getVar dialStatus with
      | none => exact .inr (depart_clearance hvacant hp .chan c)
      | some status =>
          have ha : Acquisition.Clears ⟨p, .owner, some c, .dialStatus c status⟩ p .chan c :=
            ⟨rfl, rfl, rfl⟩
          rcases acquire_clearance hvacant hp ha with ⟨x, hx, hview⟩ | hcleared
          · exact .inl ⟨_, x, ha, by dsimp only; rw [hx], hview⟩
          · exact .inr hcleared
  | owner =>
      have hquiet := view_passAnsweredElsewhere e p c
      have hvacant' : (e.passAnsweredElsewhere p c).VacantIfCancelled p := by
        rw [VacantIfCancelled, pair_eq_of_view hquiet]
        exact hvacant
      have hp' : p ∈ (e.passAnsweredElsewhere p c).pairIds := by
        rwa [pairIds_eq_of_size (congrArg (Table.size ∘ ExchangeView.pairs) hquiet)]
      have ha : Acquisition.Clears ⟨p, .chan, some c, .ownerLeaving c⟩ p .owner c := ⟨rfl, rfl, rfl⟩
      rcases acquire_clearance hvacant' hp' ha with ⟨x, hx, hview⟩ | hcleared
      · exact .inl ⟨_, x, ha, by dsimp only; rw [hx], hview.trans hquiet⟩
      · exact .inr (hcleared.before (slotsAndSides_eq_of_view hquiet))

end Exchange
end Switchboard
