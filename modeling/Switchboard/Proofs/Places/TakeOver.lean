import Switchboard.Proofs.Places.Masquerade

namespace Switchboard.Exchange

open Turn

variable {e : Exchange} {survivor clone : ChannelId}

theorem size_modifyChannel (c : ChannelId) (f : Channel → Channel) :
    (e.modifyChannel c f).channels.size = e.channels.size :=
  Table.size_modify _ _ _

theorem size_swapMonitors (a b : ChannelId) :
    (e.swapMonitors a b).channels.size = e.channels.size :=
  congrArg Places.channels (places_swapMonitors e a b)

theorem places_swapIdentities (hs : survivor.Among e.channels.size)
    (hc : clone.Among e.channels.size)
    (hne : survivor ≠ clone) : (e.swapIdentities survivor clone).places =
      { e.places.moved survivor clone with seat := e.places.seat } := by
  have hhere : (e.modifyChannel clone ({ · with slot := .empty })).channel survivor =
    e.channel survivor :=
    channel_modifyChannel_of_ne e _ hne
  rw [swapIdentities]
  rw [hhere, places_put (g := fun x => { x with
      slot := (e.channel survivor).slot, technology := (e.channel survivor).technology,
      bridge := none })
    _ ?_ fun _ => rfl, places_swapMonitors, places_put (g := fun x => { x with
      slot := (e.channel clone).slot, technology := (e.channel clone).technology }) _ ?_
      fun _ => rfl,
    places_put (g := ({ · with slot := .empty })) e hc fun _ => rfl]
  · apply Places.ext
    case place =>
      funext d
      by_cases hd : d = clone
      · subst hd
        simp [Places.put, Places.moved, hne.symm]
        exact ⟨rfl, rfl⟩
      · by_cases hds : d = survivor
        · subst hds
          simp [Places.put, Places.moved, hd]
          exact ⟨rfl, rfl⟩
        · simp [Places.put, Places.moved, hd, hds]
    all_goals rfl
  · rwa [size_modifyChannel]
  · rwa [size_swapMonitors, size_modifyChannel, size_modifyChannel]

theorem places_swapIdentities_self (hc : clone.Among e.channels.size) :
    (e.swapIdentities clone clone).places = e.places.shed clone := by
  have hhere : (e.modifyChannel clone ({ · with slot := .empty })).channel clone =
      { e.channel clone with slot := .empty } := channel_modifyChannel e _ hc
  rw [swapIdentities]
  rw [hhere, places_put (g := fun x => { x with
      slot := .empty, technology := (e.channel clone).technology, bridge := none }) _ ?_
      fun _ => rfl,
    places_swapMonitors, places_put (g := fun x => { x with
      slot := (e.channel clone).slot, technology := (e.channel clone).technology }) _ ?_
      fun _ => rfl,
    places_put (g := ({ · with slot := .empty })) e hc fun _ => rfl]
  · apply Places.ext
    case place =>
      funext d
      by_cases hd : d = clone
      · subst hd
        simp [Places.put, Places.shed]
        rfl
      · simp [Places.put, Places.shed, hd]
    all_goals rfl
  · rwa [size_modifyChannel]
  · rwa [size_swapMonitors, size_modifyChannel, size_modifyChannel]

theorem endpoint_replaced (x : Pair) (side s : Side) (c : ChannelId) :
    (x.replaced side c).endpoint s = if s = side then some c else x.endpoint s := by
  cases side <;> cases s <;> rfl

theorem fixup_of_recordOf {p : PairId} {side : Side} (hp : e.recordOf clone = some p)
    (hside : (e.pair p).endpoint side = some survivor)
    (hapart : (e.pair p).owner = some survivor → (e.pair p).chan ≠ some survivor) :
    (e.fixup survivor clone).2 = e.modifyPair p (·.replaced side clone) := by
  rw [fixup]
  rw [hp]
  dsimp only
  cases side with
  | owner =>
      have howner : (e.pair p).owner = some survivor := hside
      rw [if_pos howner]
      rfl
  | chan =>
      have hchan : (e.pair p).chan = some survivor := hside
      rw [if_neg fun howner => hapart howner hchan, if_pos hchan]
      rfl

theorem places_modifyPair_replaced {p : PairId} {side : Side} (hp : p ∈ e.pairIds) :
    (e.modifyPair p (·.replaced side clone)).places =
      { e.places with seat := fun q s => if q = p ∧ s = side then some clone
      else e.places.seat q s } := by
  have hrevised := revised_modifyPair hp (·.replaced side clone)
  apply Places.ext
  case seat =>
    funext q s
    change ((e.modifyPair p _).pair q).endpoint s = _
    by_cases hq : q = p
    · subst hq
      simp only [hrevised.here, endpoint_replaced, true_and]
      rfl
    · simp only [hrevised.elsewhere q hq, hq, false_and, if_false]
      rfl
  case cancelled =>
    funext q
    exact pair_modifyPair_congr (·.glare.isCancelled) e p q (by cases side <;> rfl)
  all_goals rfl

/-- The fixup corrects the side that the clone takes over, if there is one: it finds the survivor
there. -/
theorem places_fixup {e' : Exchange} (h : e.places.Matched)
    (he : e'.places = { e.places.moved survivor clone with seat := e.places.seat }) :
    (if e'.isDriven clone then (e'.fixup survivor clone).2 else e').places =
      e.places.moved survivor clone := by
  have hplace : (e'.channel clone).place = (e.places.moved survivor clone).place clone :=
    congrFun (congrArg Places.place he) clone
  rw [Places.place_moved_self] at hplace
  have hslot : (e'.channel clone).slot = (e.channel survivor).slot := congrArg Place.slot hplace
  have htechnology : (e'.channel clone).technology = (e.channel survivor).technology :=
    congrArg Place.technology hplace
  have hseats : e'.places.seat = e.places.seat := by rw [he]
  cases hs : (e.channel survivor).slot with
  | pair p =>
      obtain ⟨side, hside⟩ := (h.agree survivor p).1 hs
      have hregistered : e'.proxyRegistered = true :=
        (congrArg Places.registered he).trans h.registered
      have hproxy : (e.channel survivor).technology = .proxy := h.driven survivor p hs
      have hdriven : e'.isDriven clone = true := by
        simp [isDriven, htechnology, hproxy, hregistered]
      have hrecord : e'.recordOf clone = some p := by simp only [recordOf, hslot, hs]
      have hside' : (e'.pair p).endpoint side = some survivor :=
        (congrFun (congrFun hseats p) side).trans hside
      have hapart := h.apart p survivor
      rw [← hseats] at hapart
      rw [if_pos hdriven, fixup_of_recordOf hrecord hside' hapart, places_modifyPair_replaced
        (mem_pairIds_of_endpoint (by rw [hside']; exact Option.some_ne_none _)), he]
      exact Places.ext rfl (h.seat_moved_of_seat hside).symm rfl rfl rfl
  | _ =>
      have hfree : ∀ p, (e.places.place survivor).slot ≠ .pair p := fun p hp => by
        change (e.channel survivor).slot = .pair p at hp
        rw [hs] at hp
        cases hp
      have hrecord : e'.recordOf clone = none := by simp only [recordOf, hslot, hs]
      have hfixup : (e'.fixup survivor clone).2 = e' := by simp only [fixup, hrecord]
      rw [hfixup, ite_self, he]
      exact Places.ext rfl (h.seat_moved_of_slot hfree).symm rfl rfl rfl

theorem places_takeOver {e' : Exchange} (h : e.places.Matched) (hl : e.lock? clone = some e')
    (hs : survivor.Among e.channels.size) (hc : clone.Among e.channels.size) :
    (e.takeOver survivor clone).1.places =
      if survivor = clone then e.places.shed clone else e.places.moved survivor clone := by
  have hlock := places_lock hl
  have hsize : e'.channels.size = e.channels.size := congrArg Places.channels hlock
  rw [← hsize] at hs hc
  rw [← hlock] at h ⊢
  rw [takeOver]
  rw [hl]
  dsimp only
  rw [places_softHangup]
  by_cases hne : survivor = clone
  · subst hne
    rw [if_pos rfl]
    have hself := places_swapIdentities_self hc
    have hslot : ((e'.swapIdentities survivor survivor).places.place survivor).slot = .empty := by
      rw [hself]
      simp [Places.shed]
    change ((e'.swapIdentities survivor survivor).channel survivor).slot = .empty at hslot
    have hrecord : (e'.swapIdentities survivor survivor).recordOf survivor = none := by
      simp only [recordOf, hslot]
    have hfixup : ((e'.swapIdentities survivor survivor).fixup survivor survivor).2 =
        e'.swapIdentities survivor survivor := by simp only [fixup, hrecord]
    rw [hfixup, ite_self, hself]
  · rw [if_neg hne]
    exact places_fixup h (places_swapIdentities hs hc hne)

theorem takeOver_orderly (h : e.places.Matched) (hs : survivor.Among e.channels.size)
    (hc : clone.Among e.channels.size)
    (hfree : (e.lock? clone).isSome = true → ∀ p, (e.channel clone).slot ≠ .pair p) :
    Orderly e.places (e.takeOver survivor clone) := by
  cases hl : e.lock? clone with
  | none =>
      rw [takeOver]
      rw [hl]
      exact orderly_of_fits h (Nat.le_refl _) (List.forall_mem_singleton.2 ⟨hs, hc⟩)
  | some e' =>
      have hfree' := hfree (by rw [hl]; rfl)
      have hplaces := places_takeOver h hl hs hc
      have hmatched : (e.takeOver survivor clone).1.places.Matched ∧
          (e.takeOver survivor clone).1.places.channels = e.places.channels := by
        rw [hplaces]
        split
        · exact ⟨h.shed hfree', rfl⟩
        · next hne => exact ⟨h.moved hne hfree', rfl⟩
      refine ⟨hmatched.1, hmatched.2.ge, ?_⟩
      have htasks : (e.takeOver survivor clone).2 = [.hangup clone, .unlock clone] := by
        simp only [takeOver, hl]
      rw [htasks]
      exact .fits (List.forall_mem_cons.2 ⟨trivial, fits_unlock clone⟩)

/-- A clone with a side of its own leaves it behind, and no slot says so. -/
theorem takeOver_disagrees (h : e.places.Matched) (hs : survivor.Among e.channels.size)
    (hc : clone.Among e.channels.size) (hl : (e.lock? clone).isSome = true) {p : PairId}
    (hslot : (e.channel clone).slot = .pair p) :
    ¬ ∀ c q, ((e.takeOver survivor clone).1.places.place c).slot = .pair q ↔
      ∃ side, (e.takeOver survivor clone).1.places.seat q side = some c := by
  obtain ⟨e', hl⟩ := Option.isSome_iff_exists.1 hl
  rw [places_takeOver h hl hs hc]
  split
  · exact Places.not_agree_shed h hslot
  · next hne => exact Places.not_agree_moved hne hslot

end Switchboard.Exchange
