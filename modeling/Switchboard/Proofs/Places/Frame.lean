import Switchboard.Exchange.Service
import Switchboard.Proofs.Glare
import Switchboard.Proofs.Places

namespace Switchboard

namespace Exchange

def places (e : Exchange) : Places where
  place c := (e.channel c).place
  seat p side := (e.pair p).endpoint side
  cancelled p := (e.pair p).glare.isCancelled
  channels := e.channels.size
  registered := e.proxyRegistered

theorem channel_modifyChannel_congr {β : Type} (g : Channel → β) (e : Exchange) (c d : ChannelId)
    {f : Channel → Channel} (h : g (f (e.channel c)) = g (e.channel c)) :
    g ((e.modifyChannel c f).channel d) = g (e.channel d) := by
  simp only [channel, modifyChannel, Table.get, Table.get?_modify] at h ⊢
  split
  · next hcd =>
      rw [hcd] at h
      cases hx : e.channels.get? d.number with
      | none => rfl
      | some x =>
          rw [hx] at h
          exact h
  · rfl

theorem pair_modifyPair_congr {β : Type} (g : Pair → β) (e : Exchange) (p q : PairId)
    {f : Pair → Pair} (h : g (f (e.pair p)) = g (e.pair p)) :
    g ((e.modifyPair p f).pair q) = g (e.pair q) := by
  simp only [pair, modifyPair, Table.get, Table.get?_modify] at h ⊢
  split
  · next hpq =>
      rw [hpq] at h
      cases hx : e.pairs.get? q.number with
      | none => rfl
      | some x =>
          rw [hx] at h
          exact h
  · rfl

variable (e : Exchange)

theorem places_modifyChannel (c : ChannelId) {f : Channel → Channel}
    (h : (f (e.channel c)).place = (e.channel c).place) : (e.modifyChannel c f).places = e.places :=
  Places.ext (funext fun d => channel_modifyChannel_congr Channel.place e c d h) rfl rfl
    (Table.size_modify _ _ _) rfl

theorem places_modifyPair (p : PairId) {f : Pair → Pair}
    (hseat : (f (e.pair p)).endpoint = (e.pair p).endpoint)
    (hcancelled : (f (e.pair p)).glare.isCancelled = (e.pair p).glare.isCancelled) :
    (e.modifyPair p f).places = e.places :=
  Places.ext rfl (funext fun q => pair_modifyPair_congr Pair.endpoint e p q hseat)
    (funext fun q => pair_modifyPair_congr (·.glare.isCancelled) e p q hcancelled) rfl rfl

theorem places_lock {e e' : Exchange} {c : ChannelId} (h : e.lock? c = some e') :
    e'.places = e.places := by
  obtain ⟨_, _, rfl⟩ := Option.map_eq_some_iff.1 h
  exact places_modifyChannel e c rfl

@[simp] theorem places_attemptLock (c : ChannelId) : (e.attemptLock c).2.places = e.places := by
  rw [attemptLock]
  cases h : e.lock? c with
  | none => rfl
  | some e' => exact places_lock h

@[simp] theorem places_tryLock (c : ChannelId) : (e.tryLock c).2.places = e.places := by
  rw [tryLock]
  split
  · rfl
  · exact places_attemptLock _ c

@[simp] theorem places_unlock (c : ChannelId) : (e.unlock c).places = e.places :=
  places_modifyChannel e c rfl

@[simp] theorem places_avoidDeadlock (c : ChannelId) : (e.avoidDeadlock c).places = e.places :=
  places_modifyChannel e c rfl

@[simp] theorem places_setState (c : ChannelId) (s : ChannelState) :
    (e.setState c s).places = e.places :=
  places_modifyChannel e c rfl

@[simp] theorem places_softHangup (c : ChannelId) (cause : SoftHangupCause) :
    (e.softHangup c cause).places = e.places :=
  places_modifyChannel e c rfl

@[simp] theorem places_queueFrame (c : ChannelId) (f : Frame) :
    (e.queueFrame c f).places = e.places :=
  places_modifyChannel e c rfl

@[simp] theorem places_setVar (c : ChannelId) (name value : String) :
    (e.setVar c name value).places = e.places :=
  places_modifyChannel e c rfl

@[simp] theorem places_setAnsweredElsewhere (c : ChannelId) :
    (e.setAnsweredElsewhere c).places = e.places :=
  places_modifyChannel e c rfl

@[simp] theorem places_startMusic (c : ChannelId) (musicclass : Option String) :
    (e.startMusic c musicclass).places = e.places :=
  places_modifyChannel e c rfl

@[simp] theorem places_stopMusic (c : ChannelId) : (e.stopMusic c).places = e.places :=
  places_modifyChannel e c rfl

@[simp] theorem places_inheritDatastores (source target : ChannelId) :
    (e.inheritDatastores source target).places = e.places :=
  places_modifyChannel e target rfl

@[simp] theorem places_moveGroups (source target : ChannelId) :
    (e.moveGroups source target).places = e.places := by
  rw [moveGroups]
  rw [places_modifyChannel, places_modifyChannel] <;> rfl

@[simp] theorem places_swapMonitors (a b : ChannelId) : (e.swapMonitors a b).places = e.places := by
  rw [swapMonitors]
  rw [places_modifyChannel, places_modifyChannel, places_modifyChannel] <;> rfl

@[simp] theorem places_swapAudiohooks (a b : ChannelId) :
    (e.swapAudiohooks a b).places = e.places := by
  rw [swapAudiohooks]
  rw [places_modifyChannel, places_modifyChannel, places_modifyChannel] <;> rfl

@[simp] theorem places_seek (p : PairId) (side : Side) : (e.seek p side).2.places = e.places := by
  rw [seek]
  cases (e.pair p).endpoint side with
  | none => rfl
  | some peer =>
      have h := places_tryLock e peer
      rcases hl : e.tryLock peer with ⟨_ | _, e'⟩ <;> simp only [hl] at h ⊢ <;> exact h

@[simp] theorem places_place (frame : Frame) (source : Option ChannelId) (peer : ChannelId) :
    (e.place frame source peer).places = e.places := by
  rw [place]
  cases source.bind fun s => (e.channel s).getVar busyPeer <;> dsimp only <;> split <;> simp

@[simp] theorem places_releasePeer (peer : Option ChannelId) :
    (e.releasePeer peer).places = e.places := by
  cases peer with
  | none => rfl
  | some c => exact places_unlock e c

@[simp] theorem places_startDialplan (c : ChannelId) : (e.startDialplan c).2.places = e.places := by
  rw [startDialplan]
  split
  · rfl
  · exact places_modifyChannel e c rfl

theorem channel_modifyChannel_of_ne {c d : ChannelId} (f : Channel → Channel) (h : d ≠ c) :
    (e.modifyChannel c f).channel d = e.channel d := by
  have hne : c.number ≠ d.number := fun hn => h (by cases c; cases d; simp_all)
  simp [channel, modifyChannel, Table.get, Table.get?_modify, hne]

theorem channel_modifyChannel_or (c d : ChannelId) (f : Channel → Channel) :
    (e.modifyChannel c f).channel d = e.channel d ∨
      d = c ∧ (e.modifyChannel c f).channel d = f (e.channel d) := by
  by_cases hd : d = c
  · subst hd
    simp only [channel, modifyChannel, Table.get, Table.get?_modify, if_true]
    cases e.channels.get? d.number with
    | none => exact .inl rfl
    | some x => exact .inr ⟨trivial, rfl⟩
  · exact .inl (channel_modifyChannel_of_ne e f hd)

theorem channel_modifyChannel {c : ChannelId} (f : Channel → Channel)
    (h : c.Among e.channels.size) :
    (e.modifyChannel c f).channel c = f (e.channel c) := by
  obtain ⟨x, hx⟩ := Option.isSome_iff_exists.1 ((Table.get?_isSome_iff e.channels _).2 h)
  simp [channel, modifyChannel, Table.get, Table.get?_modify, hx]

theorem pair_modifyPair_of_ne {p q : PairId} (f : Pair → Pair) (h : q ≠ p) :
    (e.modifyPair p f).pair q = e.pair q := by
  have hne : p.number ≠ q.number := fun hn => h (by cases p; cases q; simp_all)
  simp [pair, modifyPair, Table.get, Table.get?_modify, hne]

theorem modifyChannel_congr {c : ChannelId} {f g : Channel → Channel}
    (h : f (e.channel c) = g (e.channel c)) : e.modifyChannel c f = e.modifyChannel c g := by
  obtain ⟨_ | i⟩ := c
  · rfl
  · simp only [channel, Table.get, Table.get?] at h
    simp only [modifyChannel, Table.modify, List.modify_eq_set, h]

theorem modifyChannel_comp (c : ChannelId) (f g : Channel → Channel) :
    (e.modifyChannel c f).modifyChannel c g = e.modifyChannel c fun x => g (f x) := by
  obtain ⟨_ | i⟩ := c
  · rfl
  · simp only [modifyChannel, Table.modify, List.modify_modify_eq]
    rfl

theorem modifyChannel_eq_self {c : ChannelId} {f : Channel → Channel}
    (h : f (e.channel c) = e.channel c) :
    e.modifyChannel c f = e := by
  rw [modifyChannel_congr e (g := id) h]
  obtain ⟨_ | i⟩ := c
  · rfl
  · simp only [modifyChannel, Table.modify, List.modify_id]

theorem avoidDeadlock_eq (c : ChannelId) : e.avoidDeadlock c = e := by
  apply modifyChannel_eq_self
  rw [RecursiveLock.cycle_eq]

theorem retry_eq (a : Acquisition) : e.retry a = e.acquire a := by
  rw [retry]
  cases a.source with
  | none => rfl
  | some c => exact congrArg (·.acquire a) (avoidDeadlock_eq e c)

theorem places_put {c : ChannelId} {f : Channel → Channel} {g : Place → Place}
    (hc : c.Among e.channels.size) (h : ∀ x, (f x).place = g x.place) :
    (e.modifyChannel c f).places = e.places.put c g := by
  apply Places.ext
  case place =>
    funext d
    change ((e.modifyChannel c f).channel d).place = _
    by_cases hd : d = c
    · subst hd
      rw [channel_modifyChannel e f hc, h]
      exact (if_pos rfl).symm
    · rw [channel_modifyChannel_of_ne e f hd]
      exact (if_neg hd).symm
  case channels => exact Table.size_modify _ _ _
  all_goals rfl

theorem channel_of_not_among {c : ChannelId} (h : ¬ c.Among e.channels.size) :
    e.channel c = default := by
  have hnone : ¬ (e.channels.get? c.number).isSome := fun hs => h ((Table.get?_isSome_iff _ _).1 hs)
  simp only [Bool.not_eq_true, Option.isSome_eq_false_iff, Option.isNone_iff_eq_none] at hnone
  simp only [channel, Table.get, hnone, Option.getD_none]

theorem among_of_slot {c : ChannelId} {p : PairId} (h : (e.channel c).slot = .pair p) :
    c.Among e.channels.size := by
  by_contra hc
  rw [channel_of_not_among e hc] at h
  cases h

theorem among_of_pending {c b : ChannelId} (h : (e.channel c).pendingMasquerade = some b) :
    c.Among e.channels.size := by
  by_contra hc
  rw [channel_of_not_among e hc] at h
  cases h

theorem matched_modifyChannel {e : Exchange} {c : ChannelId} {f : Channel → Channel}
    (h : e.places.Matched)
    (hslot : (f (e.channel c)).slot = (e.channel c).slot)
    (htechnology : (f (e.channel c)).technology = (e.channel c).technology)
    (hbridged : ∀ b, (f (e.channel c)).bridge = some b → b.Among e.channels.size)
    (hpending : ∀ b, (f (e.channel c)).pendingMasquerade = some b → b.Among e.channels.size) :
    (e.modifyChannel c f).places.Matched ∧
      (e.modifyChannel c f).places.channels = e.places.channels := by
  have hsize : (e.modifyChannel c f).places.channels = e.places.channels := Table.size_modify _ _ _
  refine ⟨h.kept (fun d => ?_) (fun d => ?_) rfl (fun _ hq => .inl hq) (fun d b hb => ?_)
    (fun d b hb => ?_) rfl, hsize⟩
  · exact channel_modifyChannel_congr Channel.slot e c d hslot
  · exact channel_modifyChannel_congr Channel.technology e c d htechnology
  · rw [hsize]
    change ((e.modifyChannel c f).channel d).bridge = some b at hb
    rcases channel_modifyChannel_or e c d f with hd | ⟨rfl, hd⟩ <;> rw [hd] at hb
    · exact h.bridged d b hb
    · exact hbridged b hb
  · rw [hsize]
    change ((e.modifyChannel c f).channel d).pendingMasquerade = some b at hb
    rcases channel_modifyChannel_or e c d f with hd | ⟨rfl, hd⟩ <;> rw [hd] at hb
    · exact h.pending d b hb
    · exact hpending b hb

theorem endpoint_clear (x : Pair) (side s : Side) :
    (x.clear side).endpoint s = if s = side then none else x.endpoint s := by
  cases side <;> cases s <;> rfl

theorem places_vacate {e e' : Exchange} {p : PairId} {side : Side} {c : ChannelId}
    (hp : p ∈ e.pairIds)
    (hc : c.Among e.channels.size) (he : e'.places = (e.clearSide p side).places) :
    (e'.setSlot c .empty).places = e.places.vacated p side c := by
  have hclear := revised_clearSide hp side
  have hseat : e'.places.seat = (e.clearSide p side).places.seat := congrArg Places.seat he
  have hplace : ∀ d, (e'.channel d).place = (e.channel d).place :=
    fun d => congrFun (congrArg Places.place he) d
  have hchannels : e'.channels.size = e.channels.size := congrArg Places.channels he
  apply Places.ext
  case place =>
    funext d
    change ((e'.setSlot c .empty).channel d).place = _
    by_cases hd : d = c
    · subst hd
      rw [setSlot, channel_modifyChannel e' _ (hchannels ▸ hc)]
      simp only [Places.vacated, if_true]
      change { (e'.channel d).place with slot := .empty } = _
      rw [hplace]
      rfl
    · rw [setSlot, channel_modifyChannel_of_ne _ _ hd, hplace]
      simp only [Places.vacated, hd, if_false]
      rfl
  case seat =>
    change e'.places.seat = _
    rw [hseat]
    funext q s
    change ((e.clearSide p side).pair q).endpoint s = _
    by_cases hq : q = p
    · subst hq
      simp only [hclear.here, endpoint_clear, Places.vacated, true_and]
      rfl
    · simp only [hclear.elsewhere q hq, Places.vacated, hq, false_and, if_false]
      rfl
  case cancelled =>
    change e'.places.cancelled = _
    rw [congrArg Places.cancelled he]
    funext q
    exact pair_modifyPair_congr (·.glare.isCancelled) e p q (by rw [Pair.glare_clear])
  case channels => exact (Table.size_modify _ _ _).trans hchannels
  case registered =>
    change e'.places.registered = _
    rw [he]
    rfl

theorem endpoint_of_isVacant {x : Pair} (h : x.isVacant = true) (side : Side) :
    x.endpoint side = none := by
  obtain ⟨howner, hchan⟩ := Pair.isVacant_iff.1 h
  cases side
  · exact howner
  · exact hchan

theorem places_destroy {p : PairId} (h : (e.pair p).isVacant = true) :
    (e.destroy p).places = e.places := by
  have hnone := endpoint_of_isVacant h
  rw [destroy]
  split
  · rfl
  · refine places_modifyPair e p (funext fun side => ?_) rfl
    rw [hnone]
    cases side <;> rfl

theorem matched_retire {p : PairId} (hm : e.places.Matched) (h : (e.pair p).isVacant = true) :
    (e.retire p).places.Matched ∧ (e.retire p).places.channels = e.places.channels := by
  have hnone := endpoint_of_isVacant h
  have hseat : (e.cancelGlare p).places.seat = e.places.seat :=
    funext fun q => pair_modifyPair_congr Pair.endpoint { e with
      registry := e.registry.unlink p } p q rfl
  have hcancel : (e.cancelGlare p).places.Matched := by
    refine hm.kept (fun _ => rfl) (fun _ => rfl) hseat (fun q hq => ?_) hm.bridged hm.pending rfl
    by_cases hqp : q = p
    · subst hqp
      exact .inr hnone
    · refine .inl ?_
      have hother := pair_modifyPair_of_ne { e with registry := e.registry.unlink p }
        ({ · with glare := (e.pair p).glare.cancel.2 }) hqp
      exact (congrArg (·.glare.isCancelled) hother).symm.trans hq
  have hvacant : ((e.cancelGlare p).pair p).isVacant = true := by
    have howner : ((e.cancelGlare p).pair p).owner = none :=
      (congrFun (congrFun hseat p) Side.owner).trans (hnone .owner)
    have hchan : ((e.cancelGlare p).pair p).chan = none :=
      (congrFun (congrFun hseat p) Side.chan).trans (hnone .chan)
    exact Pair.isVacant_iff.2 ⟨howner, hchan⟩
  rw [retire_eq]
  split
  · exact ⟨hcancel, rfl⟩
  · rw [places_destroy _ hvacant]
    exact ⟨hcancel, rfl⟩

theorem places_leaveGlare {p : PairId} (hm : e.places.Matched) :
    (e.leaveGlare p).places = e.places := by
  have hleave : (e.modifyPair p ({ · with glare := (e.pair p).glare.leave.2 })).places = e.places :=
    places_modifyPair e p rfl (Glare.isCancelled_leave _)
  rw [leaveGlare]
  dsimp only
  split
  · next hexit =>
      rw [places_destroy, hleave]
      have hcancelled : e.places.cancelled p = true := by
        change (e.pair p).glare.isCancelled = true
        rw [Glare.leave_destroy_iff.1 hexit]
        rfl
      have hnone := hm.empty p hcancelled
      rw [← hleave] at hnone
      exact Pair.isVacant_iff.2 ⟨hnone .owner, hnone .chan⟩
  · exact hleave

end Exchange
end Switchboard
