import Switchboard.Proofs.Ledger.Service
import Switchboard.Proofs.Places.TakeOver

namespace Switchboard.Exchange

open Turn

variable {e : Exchange}

theorem signal_orderly (h : e.places.Matched) (c : ChannelId) (s : Signal) :
    Orderly e.places (e.signal c s) := by
  cases s with
  | call dialled milliseconds =>
      have hlaunch := places_launch (e := e) c
      rw [signal]
      rcases hl : e.launch c with ⟨_ | _, e'⟩ <;> rw [hl] at hlaunch
      · exact orderly_refused h hlaunch _
      · exact orderly_settled h hlaunch _
  | hangup => exact teardown_orderly h c
  | answer => exact answer_orderly h c
  | write frame => exact writeFrame_orderly h c frame
  | indicate kind data => exact indicate_orderly h c kind data
  | beginDigit | endDigit | sendText | sendHtml => exact relayFrom_orderly h c _

theorem dispatch_orderly (h : e.places.Matched) (c : ChannelId) (s : Signal) :
    Orderly e.places (e.dispatch c s) := by
  rw [dispatch]
  split
  · cases hl : e.lock? c with
    | none =>
        exact orderly_of_eq h rfl (List.forall_mem_singleton.2 trivial)
    | some e' =>
        dsimp only
        rw [← places_lock hl] at h ⊢
        exact (signal_orderly h c s).append (fits_unlock c)
  · exact orderly_refused h rfl _

theorem hangup_orderly (h : e.places.Matched) (c : ChannelId) : Orderly e.places (e.hangup c) := by
  rw [hangup]
  split
  · exact orderly_settled h rfl _
  · apply orderly_of_eq h (places_modifyChannel e c rfl)
    refine List.forall_mem_cons.2 ⟨?_, List.forall_mem_singleton.2 trivial⟩
    split <;> trivial

theorem send_orderly (h : e.places.Matched) (c : ChannelId) (s : Signal) :
    Orderly e.places (e.send c s) := by
  have hdispatch : ∀ s, Orderly e.places (e, [.dispatch c s]) := fun _ =>
    orderly_of_eq h rfl (List.forall_mem_singleton.2 trivial)
  cases s with
  | hangup =>
      exact orderly_of_eq h rfl (List.forall_mem_singleton.2 trivial)
  | answer =>
      exact orderly_of_eq h rfl
        (List.forall_mem_cons.2 ⟨trivial, List.forall_mem_singleton.2 trivial⟩)
  | write frame =>
      rw [send]
      split
      · exact orderly_settled h rfl _
      · split
        · exact hdispatch _
        · exact orderly_settled h (places_modifyChannel e c rfl) _
  | _ => exact hdispatch _

theorem resume_orderly (h : e.places.Matched) (t : Task)
    (ht : t.Fits e.places ∨ ∃ a : Acquisition, t = .retry a ∧ a.InPlace e.places)
    (hfree : ∀ survivor clone, t = .takeOver survivor clone → (e.lock? clone).isSome = true →
      ∀ p, (e.channel clone).slot ≠ .pair p) : Orderly e.places (e.resume t) := by
  have hnil : Orderly e.places (e, []) := orderly_of_eq h rfl (List.forall_mem_nil _)
  rcases ht with ht | ⟨a, rfl, ha⟩
  · cases t with
    | dispatch c s => exact dispatch_orderly h c s
    | hangup c => exact hangup_orderly h c
    | delist c => exact orderly_of_eq h rfl (List.forall_mem_nil _)
    | unlock c => exact orderly_of_eq h (places_unlock e c) (List.forall_mem_nil _)
    | retry a => exact ht.elim
    | write p c frame third => exact writeKnowing_orderly h p c frame ht
    | complete survivor => exact complete_orderly h survivor
    | takeOver survivor clone => exact takeOver_orderly h ht.1 ht.2 (hfree survivor clone rfl)
    | _ => exact hnil
  · exact retry_orderly h ha

theorem not_among_next : ¬ (⟨e.channels.next⟩ : ChannelId).Among e.channels.size := by
  simp [ChannelId.Among, Table.next]

theorem places_addChannel (x : Channel) (hslot : x.slot = .empty) (hbridge : x.bridge = none)
    (hpending : x.pendingMasquerade = none) :
    (e.addChannel x).2.places = e.places.grown ⟨e.channels.next⟩ x.technology := by
  apply Places.ext
  case place =>
    funext d
    change ((e.addChannel x).2.channel d).place = _
    by_cases hd : d = ⟨e.channels.next⟩
    · subst hd
      have hx : (e.addChannel x).2.channel ⟨e.channels.next⟩ = x := by
        simp [channel, addChannel, Table.get, Table.get?_push]
      rw [hx, Channel.place, hslot, hbridge, hpending]
      exact (if_pos rfl).symm
    · have hne : d.number ≠ e.channels.next := fun hn => hd (congrArg ChannelId.mk hn)
      have hx : (e.addChannel x).2.channel d = e.channel d := by
        simp [channel, addChannel, Table.get, Table.get?_push, hne]
      rw [hx]
      exact (if_neg hd).symm
  case channels => exact Table.size_push _ _
  all_goals rfl

theorem grown_matched (h : e.places.Matched) (t : Technology) :
    (e.places.grown ⟨e.channels.next⟩ t).Matched := by
  refine h.grown (fun p hp => ?_) t
  have hnext : e.channel ⟨e.channels.next⟩ = default := channel_of_not_among e not_among_next
  change (e.channel ⟨e.channels.next⟩).slot = .pair p at hp
  rw [hnext] at hp
  cases hp

theorem places_allocateWithin (r : Allocation) :
    (∀ why e', e.allocateWithin r = (.error why, e') → e'.places = e.places) ∧
    ∀ c e', e.allocateWithin r = (.ok c, e') →
      c = ⟨e.channels.next⟩ ∧ e'.places = e.places.grown c r.technology := by
  rw [allocateWithin]
  split
  · refine ⟨?_, ?_⟩
    · rintro _ _ ⟨⟩
      rfl
    · rintro _ _ ⟨⟩
  · refine ⟨?_, ?_⟩
    · rintro _ _ ⟨⟩
    · rintro _ _ ⟨⟩
      exact ⟨rfl, places_addChannel (e := { e with allocationLimit := _ }) _ rfl rfl rfl⟩

theorem places_allocate (r : Allocation) :
    (∀ why e', e.allocate r = (.error why, e') → e'.places = e.places) ∧
    ∀ c e', e.allocate r = (.ok c, e') →
      c = ⟨e.channels.next⟩ ∧ e'.places = e.places.grown c r.technology := by
  rw [allocate]
  split
  · exact places_allocateWithin r
  · next outcome rest _ =>
      dsimp only
      cases outcome with
      | some refusal =>
          refine ⟨?_, ?_⟩
          · rintro _ _ ⟨⟩
            rfl
          · rintro _ _ ⟨⟩
      | none =>
          exact places_allocateWithin
            (e := { e with contention := { e.contention with allocations := rest } }) r

theorem size_furnish (c : ChannelId) (p : PairId) (d : Destination) (codec : FormatMask) :
    (e.furnish c p d codec).channels.size = e.channels.size :=
  Table.size_modify _ _ _

theorem allocate_matched (h : e.places.Matched) (r : Allocation) :
    (e.allocate r).2.places.Matched ∧ e.places.channels ≤ (e.allocate r).2.places.channels := by
  obtain ⟨hrefused, hmade⟩ := places_allocate (e := e) r
  rcases ha : e.allocate r with ⟨why | c, e'⟩
  · dsimp only
    rw [hrefused why e' ha]
    exact ⟨h, Nat.le_refl _⟩
  · obtain ⟨rfl, hplaces⟩ := hmade c e' ha
    dsimp only
    rw [hplaces]
    exact ⟨grown_matched h r.technology, Nat.le_succ _⟩

theorem places_furnish {owner chan : ChannelId} (howner : owner.Among e.channels.size)
    (hchan : chan.Among e.channels.size) (p : PairId) (d : Destination) (codec : FormatMask)
    (j : Option Jitterbuffer) :
    (((e.furnish owner p d codec).furnish chan p d codec).modifyChannel owner
      ({ · with jitterbuffer := j })).places = { e.places with
        place := fun c =>
          if c = owner ∨ c = chan then { e.places.place c with slot := .pair p }
            else e.places.place c } := by
  rw [places_modifyChannel _ owner rfl, furnish,
    places_put (g := ({ · with slot := .pair p })) _ ((size_furnish owner p d codec).symm ▸ hchan)
      fun _ => rfl, furnish, places_put (g := ({ · with slot := .pair p })) e howner fun _ => rfl]
  apply Places.ext
  case place =>
    funext c
    by_cases hc : c = chan
    · subst hc
      by_cases ho : c = owner <;> simp [Places.put, ho]
    · by_cases ho : c = owner <;> simp [Places.put, ho, hc]
  all_goals rfl

theorem places_install (d : Destination) (requested : FormatMask) {owner chan : ChannelId}
    (howner : owner.Among e.channels.size) (hchan : chan.Among e.channels.size) :
    (e.install d requested owner chan).2.places = e.places.seated ⟨e.pairs.next⟩ owner chan := by
  have hfurnish := places_furnish howner hchan ⟨e.pairs.next⟩ d (requested.best.getD .empty)
    (some { e.config.jitterbuffer with enabled := d.options.jitterbuffer })
  have hplace := congrArg Places.place hfurnish
  have hchannels := congrArg Places.channels hfurnish
  have hrecord : ∀ q, (e.install d requested owner chan).2.pair q =
      (e.opened (.opened d requested { e.config.jitterbuffer with
      enabled := d.options.jitterbuffer }
        owner chan)).pair q := fun _ => rfl
  apply Places.ext
  case place => exact hplace
  case seat =>
    funext q side
    change ((e.install d requested owner chan).2.pair q).endpoint side = _
    rw [hrecord]
    by_cases hq : q = ⟨e.pairs.next⟩
    · rw [hq, pair_opened_next]
      cases side <;> simp [Places.seated, Pair.opened, Pair.endpoint]
    · rw [pair_opened_of_ne _ hq]
      simp [Places.seated, hq, places]
  case cancelled =>
    funext q
    change ((e.install d requested owner chan).2.pair q).glare.isCancelled = _
    rw [hrecord]
    by_cases hq : q = ⟨e.pairs.next⟩
    · rw [hq, pair_opened_next]
      simp [Places.seated, Pair.opened, Glare.isCancelled]
    · rw [pair_opened_of_ne _ hq]
      simp [Places.seated, hq, places]
  case channels => exact hchannels
  case registered => rfl

theorem places_release {c : ChannelId} (h : (e.channel c).slot = .empty) :
    (e.release c).places = e.places := by
  refine places_modifyChannel (e.delist c) c ?_
  change { (e.channel c).place with slot := .empty } = (e.channel c).place
  rw [← h]
  rfl

theorem install_matched (h : e.places.Matched) (d : Destination) (format : FormatMask)
    {owner chan : ChannelId} (hne : owner ≠ chan) (howner : owner.Among e.channels.size)
    (hchan : chan.Among e.channels.size)
    (hfresh : ∀ c, c = owner ∨ c = chan → e.places.place c = ⟨.empty, .proxy, none, none⟩) :
    (e.install d format owner chan).2.places.Matched ∧
      (e.install d format owner chan).2.places.channels = e.places.channels := by
  have hnew : ∀ side, e.places.seat ⟨e.pairs.next⟩ side = none := by
    intro side
    change (e.pair ⟨e.pairs.next⟩).endpoint side = none
    rw [pair_of_not_mem (next_not_mem_pairIds e)]
    cases side <;> rfl
  rw [places_install d format howner hchan]
  refine ⟨h.seated hnew hne ?_ ?_ ?_ ?_, rfl⟩
  · simp [hfresh owner (.inl rfl)]
  · simp [hfresh chan (.inr rfl)]
  · simp [hfresh owner (.inl rfl)]
  · simp [hfresh chan (.inr rfl)]

theorem places_allocate_twice {e₁ e₂ : Exchange} {r r' : Allocation} {owner chan : ChannelId}
    (h₁ : e.allocate r = (.ok owner, e₁)) (h₂ : e₁.allocate r' = (.ok chan, e₂)) :
    owner ≠ chan ∧ owner.Among e₂.channels.size ∧ chan.Among e₂.channels.size ∧
      e₂.places.place owner = ⟨.empty, r.technology, none, none⟩ ∧
      e₂.places.place chan = ⟨.empty, r'.technology, none, none⟩ := by
  obtain ⟨howner, hfirst⟩ := (places_allocate r).2 owner e₁ h₁
  obtain ⟨hchan, hsecond⟩ := (places_allocate r').2 chan e₂ h₂
  have hsize : e₁.channels.size = e.channels.size + 1 := congrArg Places.channels hfirst
  have hsize' : e₂.channels.size = e₁.channels.size + 1 := congrArg Places.channels hsecond
  have hnumber : owner.number = e.channels.size + 1 := by rw [howner, Table.next]
  have hnumber' : chan.number = e.channels.size + 2 := by rw [hchan, Table.next, hsize]
  have hne : owner ≠ chan := by
    intro hoc
    rw [hoc] at hnumber
    omega
  refine ⟨hne, ⟨by omega, by omega⟩, ⟨by omega, by omega⟩, ?_, ?_⟩
  · simp [hsecond, hfirst, Places.grown, hne]
  · simp [hsecond, Places.grown]

theorem createPair_matched (h : e.places.Matched) (text : String) (format : FormatMask) :
    (e.createPair text format).2.places.Matched ∧
      e.places.channels ≤ (e.createPair text format).2.places.channels := by
  rw [createPair]
  cases Destination.parse text e.config.defaultContext with
  | error why => exact ⟨h, Nat.le_refl _⟩
  | ok d =>
      dsimp only
      generalize hx : (e.extensionExists d.context d.exten none).2 = x
      have hplaces : x.places = e.places := by rw [← hx]; rfl
      rw [← hplaces] at h ⊢
      have hfirst := allocate_matched h (endpointRequest d (x.baseName d ++ ";1"))
      rcases h₁ : x.allocate (endpointRequest d (x.baseName d ++ ";1")) with ⟨why | owner, e₁⟩ <;>
        rw [h₁] at hfirst
      · exact hfirst
      · have hsecond := allocate_matched hfirst.1 (endpointRequest d (x.baseName d ++ ";2"))
        dsimp only
        rcases h₂ : e₁.allocate (endpointRequest d (x.baseName d ++ ";2")) with ⟨why | chan, e₂⟩ <;>
          rw [h₂] at hsecond
        · -- The first endpoint is given back as it was made, with nothing in its slot.
          have hempty : (e₂.channel owner).slot = .empty := by
            change (e₂.places.place owner).slot = .empty
            rw [(places_allocate _).1 why e₂ h₂, ((places_allocate _).2 owner e₁ h₁).2]
            simp [Places.grown]
          dsimp only
          rw [places_release hempty]
          exact ⟨hsecond.1, Nat.le_trans hfirst.2 hsecond.2⟩
        · obtain ⟨hne, howner, hchan, hempty, hempty'⟩ := places_allocate_twice h₁ h₂
          have hinstall := install_matched hsecond.1 d format hne howner hchan (by
            rintro c (rfl | rfl)
            · exact hempty
            · exact hempty')
          exact ⟨hinstall.1, Nat.le_trans (Nat.le_trans hfirst.2 hsecond.2) hinstall.2.ge⟩

theorem request_matched (h : e.places.Matched) (route : Route) (technology text : String)
    (format : FormatMask) : (e.request route technology text format).2.places.Matched ∧
      e.places.channels ≤ (e.request route technology text format).2.places.channels := by
  rw [request]
  split
  · exact createPair_matched h text format
  · exact ⟨h, Nat.le_refl _⟩

theorem among_of_missing {op : Operation} {c : ChannelId} (h : e.missing op = none)
    (hc : .channel c ∈ op.references) : c.Among e.channels.size := by
  have hnone : op.references.find? (!e.knows ·) = none := Option.map_eq_none_iff.1 h
  have hknows : e.knows (.channel c) = true := by
    simpa using List.find?_eq_none.1 hnone (.channel c) hc
  exact (Table.get?_isSome_iff _ _).1 hknows

theorem places_unload : e.unload.2.places = e.places := by
  rw [unload]
  generalize e.registry.pairs.filterMap _ = owners
  induction owners generalizing e with
  | nil => rfl
  | cons c owners ih =>
      exact (ih (e := e.softHangup c .appUnload)).trans (places_softHangup e c .appUnload)

theorem places_applyLocking (c : ChannelId) (what : Locking) :
    (e.applyLocking c what).1.places = e.places := by
  cases what with
  | lock =>
      rw [applyLocking]
      cases h : e.lock? c with
      | none => rfl
      | some e' => exact places_lock h
  | tryLock => exact places_attemptLock e c
  | unlock => exact places_unlock e c
  | avoidDeadlock =>
      rw [applyLocking]
      split
      · exact places_avoidDeadlock e c
      · rfl
  | hold =>
      rw [applyLocking]
      split
      · exact places_modifyChannel e c rfl
      · rfl
  | releaseHold => exact places_modifyChannel e c rfl
  | _ => rfl

theorem transfer_matched (h : e.places.Matched) {a b : ChannelId} (ha : a.Among e.channels.size)
    (hb : b.Among e.channels.size) (what : Transfer) :
    (e.transfer a b what).places.Matched ∧
      (e.transfer a b what).places.channels = e.places.channels := by
  cases what with
  | bridge =>
      have hfirst := matched_modifyChannel (c := a) (f := ({ · with bridge := some b })) h rfl rfl
        (by rintro _ ⟨⟩; exact hb) (h.pending a)
      have hsize := hfirst.2
      have hsecond := matched_modifyChannel (c := b)
        (f := ({ · with bridge := some a })) hfirst.1 rfl rfl
        (by rintro _ ⟨⟩; rwa [size_modifyChannel]) (hfirst.1.pending b)
      exact ⟨hsecond.1, hsecond.2.trans hsize⟩
  | datastores =>
      exact ⟨(places_inheritDatastores e a b).symm ▸ h, by rw [transfer, places_inheritDatastores]⟩
  | groups => exact ⟨(places_moveGroups e a b).symm ▸ h, by rw [transfer, places_moveGroups]⟩
  | monitors => exact ⟨(places_swapMonitors e a b).symm ▸ h, by rw [transfer, places_swapMonitors]⟩
  | audiohooks =>
      exact ⟨(places_swapAudiohooks e a b).symm ▸ h, by rw [transfer, places_swapAudiohooks]⟩

theorem place_apply (change : Edit) (x : Channel) (h : ∀ s, change ≠ .slot s) :
    (change.apply x).place = x.place := by
  cases change with
  | slot s => exact absurd rfl (h s)
  | _ => rfl

theorem orderly_settled_of_matched {v : Places} (h : e.places.Matched)
    (hle : v.channels ≤ e.places.channels)
    (a : Answer) : Orderly v (e.settled a) :=
  orderly_of_fits h hle (fits_settle a)

theorem orderly_answered {v : Places} {t : Turn} {a : Answer} (h : v.Matched) (he : t.1.places = v)
    (ht : t.2 = [.settle a]) : Orderly v t := by
  obtain ⟨e, ts⟩ := t
  dsimp only at ht
  rw [ht]
  exact orderly_settled h he a

theorem perform_orderly (h : e.places.Matched) (op : Operation) (hop : op.keepsSlots = true)
    (hknown : e.missing op = none) : Orderly e.places (e.perform op) := by
  cases op with
  | request route technology text format =>
      have hrequest := request_matched h route technology text format
      rw [perform]
      rcases hr : e.request route technology text format with ⟨why | p, e'⟩ <;> rw [hr] at hrequest
      · exact orderly_settled_of_matched hrequest.1 hrequest.2 _
      · exact orderly_settled_of_matched hrequest.1 hrequest.2 _
  | deviceState route technology device =>
      rw [perform]
      dsimp only
      split
      · refine orderly_settled h ?_ _
        rw [deviceState]
        split <;> rfl
      · exact orderly_settled h rfl _
  | signal route c s =>
      cases route with
      | dispatched => exact send_orderly h c s
      | direct => exact signal_orderly h c s
  | hangupQuietly c =>
      exact orderly_of_eq h rfl (List.forall_mem_cons.2 ⟨trivial, fits_settle .done⟩)
  | fixup | release | unregister | onBackOff | onResolution => cases hop
  | relay p side frame source locked => exact relay_orderly h p side frame source locked
  | unload => exact orderly_settled h places_unload _
  | register => exact orderly_answered h (Places.ext rfl rfl rfl rfl h.registered.symm) rfl
  | addExtension context exten =>
      refine orderly_settled h ?_ _
      rw [addExtension]
      split <;> rfl
  | newChannel name =>
      have hplaces := places_addChannel (e := e) { name, technology := .test } rfl rfl rfl
      refine orderly_settled_of_matched
        (e := (e.addChannel { name, technology := .test }).2) ?_ ?_ _
      · rw [hplaces]
        exact grown_matched h .test
      · rw [hplaces]
        exact Nat.le_succ _
  | allocate r =>
      have hallocate := allocate_matched h r
      rw [perform]
      rcases ha : e.allocate r with ⟨_ | _, e'⟩ <;> rw [ha] at hallocate <;>
        exact orderly_settled_of_matched hallocate.1 hallocate.2 _
  | edit c change =>
      refine orderly_settled h (places_modifyChannel e c (place_apply change _ ?_)) _
      rintro s rfl
      cases hop
  | transfer what a b =>
      have ha := among_of_missing (c := a) hknown (by simp [Operation.references])
      have hb := among_of_missing (c := b) hknown (by simp [Operation.references])
      have htransfer := transfer_matched h ha hb what
      exact orderly_settled_of_matched htransfer.1 htransfer.2.ge _
  | masquerade survivor clone =>
      have hclone := among_of_missing (c := clone) hknown (by simp [Operation.references])
      have hmasquerade := masquerade_matched h survivor hclone
      rw [perform]
      rcases hm : e.masquerade survivor clone with ⟨_ | _, e'⟩ <;> rw [hm] at hmasquerade <;>
        exact orderly_settled_of_matched hmasquerade.1 hmasquerade.2.ge _
  | completeMasquerade c =>
      rw [perform]
      cases hl : e.lock? c with
      | none =>
          exact orderly_of_eq h rfl (List.forall_mem_singleton.2 rfl)
      | some e' =>
          dsimp only
          rw [← places_lock hl] at h ⊢
          apply (completeMasquerade_orderly h c).append
          exact List.forall_mem_cons.2 ⟨trivial, fits_settle .done⟩
  | drain c => exact orderly_settled h (places_modifyChannel e c rfl) _
  | startDialplan c =>
      have hstart := places_startDialplan e c
      rw [perform]
      rcases hs : e.startDialplan c with ⟨_ | _, e'⟩ <;> rw [hs] at hstart <;>
        exact orderly_settled h hstart _
  | locking c what => exact orderly_settled h (places_applyLocking c what) _
  | _ => exact orderly_answered h rfl rfl

end Switchboard.Exchange
