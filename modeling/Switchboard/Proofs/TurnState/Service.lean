import Switchboard.Proofs.TurnState.Masquerade
import Switchboard.Proofs.Ledger.Service
import Switchboard.Proofs.Places.Service

namespace Switchboard.Exchange

open TurnState

variable {may : Effect → Prop} {e : Exchange} {w : List Acquisition} {d : List ChannelId}

/-- What a driver is entitled to when it is told something about a channel: to relay within the
channel's pair, to let the channel leave it if it is hung up, and to a call that goes through. -/
inductive Signals (e : Exchange) (c : ChannelId) (s : Signal) : Effect → Prop
  | relays {a : Acquisition} (hp : e.recordOf c = some a.pair) (hrelay : a.purpose.isRelay = true) :
      Signals e c s (.carries a)
  | departs {a : Acquisition} (hs : s = .hangup) (hp : e.recordOf c = some a.pair)
      (hleaver : a.purpose.leaver = some c) (hside : a.purpose.leaving = some a.side.peer) :
      Signals e c s (.carries a)
  | calls {p dialled milliseconds} (hs : s = .call dialled milliseconds)
      (hp : e.membership c = some (p, .owner)) (hok : (e.launch c).1 = .ok ()) :
      Signals e c s (.calls p)

/-- What a task is entitled to. -/
inductive Entitles (e : Exchange) : Task → Effect → Prop
  | again (a : Acquisition) : Entitles e (.retry a) (.carries a)
  /-- A departure that has come to its end is told to the other side. -/
  | tells {a b : Acquisition} (hb : b.purpose.isRelay = false) (hp : a.pair = b.pair)
      (ha : a.purpose.isRelay = true) : Entitles e (.retry b) (.carries a)
  | writes {a : Acquisition} {c frame third} (ha : a.purpose.isRelay = true) :
      Entitles e (.write a.pair c frame third) (.carries a)
  | dispatched {c s e' effect} (hdriven : e.isDriven c = true) (hl : e.lock? c = some e')
      (h : e'.Signals c s effect) : Entitles e (.dispatch c s) effect
  | direct {c s effect} (h : e.Signals c s effect) :
      Entitles e (.operate (.signal .direct c s)) effect
  | relays {a : Acquisition} {side frame source locked} (ha : a.purpose.isRelay = true) :
      Entitles e (.operate (.relay a.pair side frame source locked)) (.carries a)
  | marks (c : ChannelId) : Entitles e (.hangup c) (.marks c)
  | swaps (survivor clone : ChannelId) :
      Entitles e (.takeOver survivor clone) (.swaps survivor clone)
  | reseats (survivor clone : ChannelId) :
      Entitles e (.takeOver survivor clone) (.reseats survivor clone)
  | fixes (old new : ChannelId) : Entitles e (.operate (.fixup old new)) (.reseats old new)
  | serves (c : ChannelId) : Entitles e (.operate (.startDialplan c)) (.serves c)
  | queues (c : ChannelId) (frame : Frame) :
      Entitles e (.operate (.edit c (.queue frame))) (.feeds c)
  | drains (c : ChannelId) : Entitles e (.operate (.drain c)) (.feeds c)
  | refits (c : ChannelId) (s : Slot) : Entitles e (.operate (.edit c (.slot s))) (.refits c)
  | releases (c : ChannelId) : Entitles e (.operate (.release c)) (.refits c)
  | registers : Entitles e (.operate .register) (.registers true)
  | unregisters (technology : String) :
      Entitles e (.operate (.unregister technology)) (.registers false)

theorem signal_leads {c : ChannelId} {s : Signal}
    (hmay : ∀ effect, e.Signals c s effect → may effect) :
    Leads may ⟨e, w, d⟩ ((e.signal c s).state w d) := by
  have hrelays : ∀ p, e.recordOf c = some p → RelaysOn may p := by
    rintro p hp a rfl hrelay
    exact hmay _ (.relays hp hrelay)
  cases s with
  | call dialled milliseconds =>
      have hlaunch := launch_leads (w := w) (d := d) fun p hp hok => hmay _ (.calls rfl hp hok)
      rw [signal]
      rcases hl : e.launch c with ⟨_ | _, e'⟩ <;> rw [hl] at hlaunch <;> exact hlaunch
  | hangup =>
      exact teardown_leads (fun a hp hleaver hside => hmay _
        (.departs rfl hp hleaver hside)) hrelays
  | answer => exact answer_leads hrelays
  | write frame => exact writeFrame_leads hrelays frame
  | indicate kind data => exact indicate_leads hrelays kind data
  | beginDigit | endDigit | sendText | sendHtml => exact relayFrom_leads hrelays _

theorem dispatch_of_locked {c : ChannelId} {s : Signal} (hdriven : e.isDriven c = true)
    (hl : e.lock? c = none) : e.dispatch c s = (e, [.dispatch c s]) := by
  rw [dispatch]
  rw [if_pos hdriven, hl]

theorem dispatch_of_lock {e' : Exchange} {c : ChannelId} {s : Signal}
    (hdriven : e.isDriven c = true)
    (hl : e.lock? c = some e') :
    e.dispatch c s = ((e'.signal c s).1, (e'.signal c s).2 ++ [Task.unlock c]) := by
  rw [dispatch]
  rw [if_pos hdriven, hl]

theorem dispatch_leads (c : ChannelId) (s : Signal) :
    Leads (e.Entitles (.dispatch c s)) ⟨e, w, d⟩ ((e.dispatch c s).state w d) := by
  by_cases hdriven : e.isDriven c = true
  · cases hl : e.lock? c with
    | none =>
        rw [dispatch_of_locked hdriven hl]
        exact .refl
    | some e' =>
        rw [dispatch_of_lock hdriven hl, Turn.state_append _ _ _ _ _ rfl rfl]
        exact (signal_leads fun effect h => .dispatched hdriven hl h).after (view_lock hl)
  · rw [dispatch]
    rw [if_neg hdriven]
    exact .refl

theorem hangup_leads (c : ChannelId) :
    Leads (e.Entitles (.hangup c)) ⟨e, w, d⟩ ((e.hangup c).state w d) := by
  rw [hangup]
  split
  · exact .refl
  · apply Leads.turn (.single (.mark e w d c (.marks c)))
    · split <;> rfl
    · split <;> rfl

theorem send_leads (c : ChannelId) (s : Signal) : Leads may ⟨e, w, d⟩ ((e.send c s).state w d) := by
  cases s with
  | hangup => exact .single (.scheduleHangup e w d c)
  | write frame =>
      rw [send]
      split
      · exact .refl
      · split
        · exact .refl
        · exact leads_quiet (view_modifyChannel e c rfl)
  | _ => exact .refl

theorem resume_leads (t : Task) :
    Leads (e.Entitles t) ⟨e, backedOff [t] ++ w, d⟩ ((e.resume t).state w d) := by
  cases t with
  | retry a =>
      refine retry_leads (.again a) fun ha => ?_
      rintro b hb hrelay
      exact .tells ha hb hrelay
  | dispatch c s => exact dispatch_leads c s
  | hangup c => exact hangup_leads c
  | delist c => exact leads_nil rfl rfl rfl
  | unlock c => exact leads_nil (view_unlock e c) rfl rfl
  | write p c frame third =>
      refine writeKnowing_leads ?_ c frame third
      rintro a rfl hrelay
      exact .writes hrelay
  | complete survivor => exact complete_leads survivor
  | takeOver survivor clone =>
      exact takeOver_leads (.swaps survivor clone) (.reseats survivor clone)
  | _ => exact .refl

theorem channel_addChannel (e : Exchange) (x : Channel) (c : ChannelId) :
    (e.addChannel x).2.channel c = if c = ⟨e.channels.next⟩ then x else e.channel c := by
  by_cases hc : c = ⟨e.channels.next⟩
  · subst hc
    simp [channel, addChannel, Table.get, Table.get?_push]
  · have hne : c.number ≠ e.channels.next := fun hn => hc (congrArg ChannelId.mk hn)
    simp [channel, addChannel, Table.get, Table.get?_push, hc, hne]

theorem Grown.trans {e₁ e₂ e₃ : Exchange} (h : e₁.Grown e₂) (h' : e₂.Grown e₃) : e₁.Grown e₃ where
  pairs := h'.pairs.trans h.pairs
  channels := Nat.le_trans h.channels h'.channels
  registered := h'.registered.trans h.registered
  channelView c := by
    rcases h'.channelView c with hc | ⟨hnew, hc⟩
    · rw [hc]
      exact h.channelView c
    · exact .inr ⟨fun hold => hnew (hold.mono h.channels), hc⟩

theorem grown_of_view {e e' : Exchange} (h : e'.view = e.view) : e.Grown e' where
  pairs := congrArg ExchangeView.pairs h
  channels := (size_eq_of_view h).ge
  registered := congrArg ExchangeView.registered h
  channelView c := .inl (channelView_eq_of_view h c)

theorem grown_addChannel (e : Exchange) (x : Channel) (t : Technology)
    (hx : x.channelView = .unused .empty t) :
    e.Grown (e.addChannel x).2 where
  pairs := rfl
  channels := (Table.size_push e.channels x).symm ▸ Nat.le_succ _
  registered := rfl
  channelView c := by
    rw [channel_addChannel]
    split
    · next hc => exact .inr ⟨hc ▸ not_among_next, t, hx⟩
    · exact .inl rfl

theorem allocate_view (e : Exchange) (r : Allocation) :
    (∀ why e', e.allocate r = (.error why, e') → e'.view = e.view) ∧
    ∀ c e', e.allocate r = (.ok c, e') → c = ⟨e.channels.next⟩ ∧
      ∃ x : Channel, x.channelView = .unused .empty r.technology ∧
      e'.view = (e.addChannel x).2.view := by
  have hwithin : ∀ x : Exchange, x.channels = e.channels → x.view = e.view →
      (∀ why e', x.allocateWithin r = (.error why, e') → e'.view = e.view) ∧
      ∀ c e', x.allocateWithin r = (.ok c, e') → c = ⟨e.channels.next⟩ ∧
        ∃ y : Channel, y.channelView = .unused .empty r.technology ∧
        e'.view = (e.addChannel y).2.view := by
    intro x hchannels hview
    have hpairs : x.pairs = e.pairs := congrArg ExchangeView.pairs hview
    have hregistered : x.proxyRegistered = e.proxyRegistered :=
      congrArg ExchangeView.registered hview
    have hchannel : ∀ c, x.channel c = e.channel c := fun c => by simp only [channel, hchannels]
    have hadd : ∀ y, (x.addChannel y).2.view = (e.addChannel y).2.view := by
      intro y
      apply ExchangeView.ext
      case channelView =>
        funext c
        change ((x.addChannel y).2.channel c).channelView =
          ((e.addChannel y).2.channel c).channelView
        rw [channel_addChannel, channel_addChannel, hchannels, hchannel]
      case pairs => exact hpairs
      case channels => exact congrArg (fun t => (Table.push t y).size) hchannels
      case registered => exact hregistered
    rw [allocateWithin]
    split
    · refine ⟨?_, ?_⟩
      · rintro _ _ ⟨⟩
        exact hview
      · rintro _ _ ⟨⟩
    · refine ⟨?_, ?_⟩
      · rintro _ _ ⟨⟩
      · rintro _ _ ⟨⟩
        exact ⟨congrArg (fun t => ChannelId.mk (Table.next t)) hchannels, _, rfl, hadd _⟩
  rw [allocate]
  split
  · exact hwithin e rfl rfl
  · next outcome rest _ =>
      dsimp only
      cases outcome with
      | some refusal =>
          refine ⟨?_, ?_⟩
          · rintro _ _ ⟨⟩
            rfl
          · rintro _ _ ⟨⟩
      | none =>
          exact hwithin { e with contention := { e.contention with allocations := rest } } rfl rfl

theorem allocate_grown (e : Exchange) (r : Allocation) : e.Grown (e.allocate r).2 := by
  obtain ⟨hrefused, hmade⟩ := allocate_view e r
  rcases ha : e.allocate r with ⟨why | c, e'⟩
  · exact grown_of_view (hrefused why e' ha)
  · obtain ⟨-, x, hx, hview⟩ := hmade c e' ha
    exact (grown_addChannel e x _ hx).trans (grown_of_view hview)

theorem channelView_furnish {c : ChannelId} (hc : c.Among e.channels.size) (p : PairId)
    (dest : Destination)
    (codec : FormatMask) :
    ((e.furnish c p dest codec).channel c).channelView =
      { (e.channel c).channelView with slot := .pair p } := by
  rw [furnish]
  rw [channel_modifyChannel e _ hc]
  rfl

theorem channelView_furnish_of_ne {c c' : ChannelId} (hc : c' ≠ c) (p : PairId) (dest : Destination)
    (codec : FormatMask) :
    ((e.furnish c p dest codec).channel c').channelView = (e.channel c').channelView :=
  congrArg Channel.channelView (channel_modifyChannel_of_ne e _ hc)

theorem install_opened {e e' : Exchange} (hpairs : e'.pairs = e.pairs)
    (hchannels : e.channels.size ≤ e'.channels.size)
    (hregistered : e'.proxyRegistered = e.proxyRegistered)
    {owner chan : ChannelId} (hne : owner ≠ chan)
    (hmade : ∀ c, c = owner ∨ c = chan → ¬ c.Among e.channels.size ∧ c.Among e'.channels.size ∧
      (e'.channel c).channelView = .unused .empty .proxy)
    (hchannelView : ∀ c, c ≠ owner → c ≠ chan →
    (e'.channel c).channelView = (e.channel c).channelView)
    (dest : Destination) (format : FormatMask) :
    e.Opened (e'.install dest format owner chan).2 ⟨e.pairs.next⟩ owner chan := by
  obtain ⟨-, howner, hfresh⟩ := hmade owner (.inl rfl)
  obtain ⟨-, hchan, hfresh'⟩ := hmade chan (.inr rfl)
  have hnext : (⟨e'.pairs.next⟩ : PairId) = ⟨e.pairs.next⟩ := by rw [hpairs]
  have hpair : ∀ q, e'.pair q = e.pair q := fun q => by simp only [pair, hpairs]
  have hrecord : ∀ q, (e'.install dest format owner chan).2.pair q =
      (e'.opened (.opened dest format
        { e'.config.jitterbuffer with enabled := dest.options.jitterbuffer } owner chan)).pair q :=
    fun _ => rfl
  -- Only the slots of the two channels are seen to change.
  let x := e'.furnish owner ⟨e'.pairs.next⟩ dest (format.best.getD .empty)
  have hx : x.channels.size = e'.channels.size := size_furnish _ _ _ _
  have hslots : ∀ c, ((e'.install dest format owner chan).2.channel c).channelView =
      ((x.furnish chan ⟨e'.pairs.next⟩ dest (format.best.getD .empty)).channel c).channelView := by
    intro c
    exact channel_modifyChannel_congr Channel.channelView _ owner c rfl
  have hsize : (e'.install dest format owner chan).2.channels.size = e'.channels.size := by
    change (((x.furnish chan _ _ _).modifyChannel owner _).channels.size) = _
    rw [size_modifyChannel, size_furnish, hx]
  constructor
  case new => exact next_not_mem_pairIds e
  case record =>
    refine ⟨dest, format, { e'.config.jitterbuffer with enabled := dest.options.jitterbuffer },
      (hrecord _).trans ?_⟩
    rw [← hnext, pair_opened_next]
  case elsewhere =>
    intro q hq
    rw [hrecord, pair_opened_of_ne _ (hnext.symm ▸ hq), hpair]
  case pairs =>
    change e.pairs.size ≤ (e'.pairs.push _).size
    rw [hpairs, Table.size_push]
    exact Nat.le_succ _
  case channels => exact hsize.symm ▸ hchannels
  case registered => exact hregistered
  case apart => exact hne
  case made =>
    intro c hc
    refine ⟨(hmade c hc).1, hsize.symm ▸ (hmade c hc).2.1, ?_⟩
    rw [hslots]
    rcases hc with rfl | rfl
    · rw [channelView_furnish_of_ne hne, channelView_furnish howner, hfresh, hnext]
      rfl
    · rw [channelView_furnish (hx.symm ▸ hchan), channelView_furnish_of_ne hne.symm, hfresh', hnext]
      rfl
  case channelView =>
    intro c ho hc
    rw [hslots, channelView_furnish_of_ne hc, channelView_furnish_of_ne ho]
    exact hchannelView c ho hc

theorem createPair_leads (text : String) (format : FormatMask) :
    Leads may ⟨e, w, d⟩ ⟨(e.createPair text format).2, w, d⟩ := by
  rw [createPair]
  cases Destination.parse text e.config.defaultContext with
  | error why => exact .refl
  | ok dest =>
      dsimp only
      generalize hx : (e.extensionExists dest.context dest.exten none).2 = x
      have hview : x.view = e.view := by rw [← hx]; rfl
      obtain ⟨hrefused, hmade⟩ := allocate_view x (endpointRequest dest (x.baseName dest ++ ";1"))
      have hgrown := allocate_grown x (endpointRequest dest (x.baseName dest ++ ";1"))
      rcases h₁ : x.allocate (endpointRequest dest (x.baseName dest ++ ";1")) with
        ⟨why | owner, e₁⟩ <;>
        rw [h₁] at hgrown
      · exact leads_quiet ((hrefused why e₁ h₁).trans hview)
      · obtain ⟨rfl, y, hy, howner⟩ := hmade owner e₁ h₁
        obtain ⟨hrefused', hmade'⟩ :=
          allocate_view e₁ (endpointRequest dest (x.baseName dest ++ ";2"))
        have hgrown' := allocate_grown e₁ (endpointRequest dest (x.baseName dest ++ ";2"))
        have hnew : (e₁.channel ⟨x.channels.next⟩).channelView = .unused .empty .proxy := by
          rw [channelView_eq_of_view howner, channel_addChannel, if_pos rfl, hy]
          rfl
        dsimp only
        rcases h₂ : e₁.allocate (endpointRequest dest (x.baseName dest ++ ";2")) with
          ⟨why | chan, e₂⟩ <;>
          rw [h₂] at hgrown'
        · -- The first endpoint is given back as it was made, with nothing in its slot.
          have hquiet := hrefused' why e₂ h₂
          have hslot : (e₂.channel ⟨x.channels.next⟩).slot = .empty := by
            change (e₂.channel ⟨x.channels.next⟩).channelView.slot = .empty
            rw [channelView_eq_of_view hquiet, hnew]
            rfl
          have hrelease : (e₂.release ⟨x.channels.next⟩).view = e₂.view := by
            refine view_modifyChannel (e₂.delist _) ⟨x.channels.next⟩ ?_
            change { (e₂.channel ⟨x.channels.next⟩).channelView with slot := .empty } = _
            rw [← hslot]
            rfl
          refine Leads.after (.trans (.single (.grow hgrown)) ?_) hview
          exact leads_quiet (hrelease.trans hquiet)
        · obtain ⟨rfl, z, hz, hchan⟩ := hmade' chan e₂ h₂
          have hsize₁ : e₁.channels.size = x.channels.size + 1 := by
            rw [size_eq_of_view howner]
            exact Table.size_push _ _
          have hsize₂ : e₂.channels.size = e₁.channels.size + 1 := by
            rw [size_eq_of_view hchan]
            exact Table.size_push _ _
          have hne : (⟨x.channels.next⟩ : ChannelId) ≠ ⟨e₁.channels.next⟩ := by
            simp [Table.next, hsize₁]
          refine Leads.after (.single (.opened (install_opened (hgrown.trans hgrown').pairs
            (hgrown.trans hgrown').channels
            (hgrown.trans hgrown').registered hne ?_ ?_ dest format))) hview
          · rintro c (rfl | rfl)
            · refine ⟨not_among_next, ⟨Nat.succ_pos _, ?_⟩, ?_⟩
              · simp only [Table.next]
                omega
              · rw [channelView_eq_of_view hchan, channel_addChannel, if_neg hne, hnew]
            · refine ⟨fun h => not_among_next (h.mono hgrown.channels), ⟨Nat.succ_pos _, ?_⟩, ?_⟩
              · simp only [Table.next]
                omega
              · rw [channelView_eq_of_view hchan, channel_addChannel, if_pos rfl, hz]
                rfl
          · intro c ho hc
            rw [channelView_eq_of_view hchan, channel_addChannel, if_neg hc,
              channelView_eq_of_view howner,
              channel_addChannel, if_neg ho]

theorem request_leads (route : Route) (technology text : String) (format : FormatMask) :
    Leads may ⟨e, w, d⟩ ⟨(e.request route technology text format).2, w, d⟩ := by
  rw [request]
  split
  · exact createPair_leads text format
  · exact .refl

theorem edit_leads (c : ChannelId) (change : Edit) :
    Leads (e.Entitles (.operate (.edit c change))) ⟨e, w, d⟩ ⟨e.modifyChannel c change.apply,
      w, d⟩ := by
  cases change with
  | slot s => exact .single (.refit e w d c s (.refits c s))
  | queue frame => exact .single (.feed e w d c (· ++ [frame]) (.queues c frame))
  | _ => exact leads_quiet (view_modifyChannel e c rfl)

theorem perform_leads (op : Operation) :
    Leads (e.Entitles (.operate op)) ⟨e, w, d⟩ ((e.perform op).state w d) := by
  cases op with
  | request route technology text format =>
      have hrequest :
        Leads (e.Entitles (.operate (.request route technology text format))) ⟨e, w, d⟩
          ⟨(e.request route technology text format).2, w, d⟩ :=
            request_leads route technology text format
      rw [perform]
      rcases hr : e.request route technology text format with ⟨_ | _, e'⟩ <;>
        rw [hr] at hrequest <;>
        exact hrequest
  | deviceState route technology device =>
      rw [perform]
      dsimp only
      split
      · exact leads_quiet (view_deviceState e device)
      · exact .refl
  | signal route c s =>
      cases route with
      | dispatched => exact send_leads c s
      | direct => exact signal_leads fun effect h => .direct h
  | hangupQuietly c => exact .single (.scheduleHangup e w d c)
  | fixup old new =>
      have hfixup := fixup_leads (e := e) (w := w) (d := d) (Entitles.fixes (e := e) old new)
      rw [perform]
      rcases hf : e.fixup old new with ⟨_ | _, e'⟩ <;> rw [hf] at hfixup <;> exact hfixup
  | relay p side frame source locked =>
      refine relay_leads ?_ side frame source locked
      rintro a rfl hrelay
      exact .relays hrelay
  | unload => exact leads_quiet (view_unload e)
  | unregister technology =>
      rw [perform]
      split
      · exact .single (.register e w d false (.unregisters technology))
      · exact .refl
  | register => exact .single (.register e w d true .registers)
  | addExtension context exten => exact leads_quiet (view_addExtension e context exten)
  | newChannel name =>
      exact .single (.grow (grown_addChannel e { name, technology := .test } .test rfl))
  | allocate r =>
      have hallocate := allocate_grown e r
      rw [perform]
      rcases ha : e.allocate r with ⟨_ | _, e'⟩ <;> rw [ha] at hallocate <;>
        exact .single (.grow hallocate)
  | release c =>
      refine Leads.trans (.single (.refit e w d c .empty (.releases c))) (leads_quiet ?_)
      rfl
  | edit c change => exact edit_leads c change
  | transfer what a b => exact leads_quiet (view_transfer e a b what)
  | masquerade survivor clone =>
      have hmasquerade := view_masquerade e survivor clone
      rw [perform]
      rcases hm : e.masquerade survivor clone with ⟨_ | _, e'⟩ <;> rw [hm] at hmasquerade <;>
        exact leads_quiet hmasquerade
  | completeMasquerade c =>
      rw [perform]
      cases hl : e.lock? c with
      | none => exact .refl
      | some e' =>
          dsimp only
          rw [Turn.state_append _ _ _ _ _ rfl rfl]
          exact (completeMasquerade_leads c).after (view_lock hl)
  | drain c => exact .single (.feed e w d c (fun _ => []) (.drains c))
  | startDialplan c =>
      rw [perform]
      rw [startDialplan_eq]
      cases e.dialplanRefused with
      | true => exact .refl
      | false => exact .single (.serve e w d c (.serves c))
  | locking c what => exact leads_quiet (view_applyLocking e c what)
  | _ => exact leads_quiet rfl

end Switchboard.Exchange
