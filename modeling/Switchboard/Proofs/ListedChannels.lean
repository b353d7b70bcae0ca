import Switchboard.Proofs.TurnState.Moves
import Switchboard.Proofs.TurnState.ChanServed

namespace Switchboard

namespace Exchange

variable (e : Exchange)

@[simp] theorem listed_modifyChannel (c : ChannelId) (f : Channel → Channel) :
    (e.modifyChannel c f).listed = e.listed := rfl

@[simp] theorem listed_modifyPair (p : PairId) (f : Pair → Pair) :
    (e.modifyPair p f).listed = e.listed := rfl

theorem listed_lock {e e' : Exchange} {c : ChannelId} (h : e.lock? c = some e') :
    e'.listed = e.listed := by
  obtain ⟨_, _, rfl⟩ := Option.map_eq_some_iff.1 h
  rfl

@[simp] theorem listed_attemptLock (c : ChannelId) : (e.attemptLock c).2.listed = e.listed := by
  rw [attemptLock]
  cases h : e.lock? c with
  | none => rfl
  | some e' => exact listed_lock h

@[simp] theorem listed_tryLock (c : ChannelId) : (e.tryLock c).2.listed = e.listed := by
  rw [tryLock]
  split
  · rfl
  · exact listed_attemptLock _ c

@[simp] theorem listed_unlock (c : ChannelId) : (e.unlock c).listed = e.listed := rfl

@[simp] theorem listed_seek (p : PairId) (side : Side) : (e.seek p side).2.listed = e.listed := by
  rw [seek]
  cases (e.pair p).endpoint side with
  | none => rfl
  | some peer =>
      have h := listed_tryLock e peer
      rcases hl : e.tryLock peer with ⟨_ | _, e'⟩ <;> simp only [hl] at h ⊢ <;> exact h

@[simp] theorem listed_releasePeer (peer : Option ChannelId) :
    (e.releasePeer peer).listed = e.listed := by
  cases peer <;> rfl

@[simp] theorem listed_destroy (p : PairId) : (e.destroy p).listed = e.listed := by
  rw [destroy]
  split <;> rfl

@[simp] theorem listed_leaveGlare (p : PairId) : (e.leaveGlare p).listed = e.listed := by
  rw [leaveGlare]
  dsimp only
  split
  · exact listed_destroy _ p
  · rfl

@[simp] theorem listed_place (frame : Frame) (source : Option ChannelId) (peer : ChannelId) :
    (e.place frame source peer).listed = e.listed := by
  rw [place]
  cases source.bind fun s => (e.channel s).getVar busyPeer <;> dsimp only <;> split <;> rfl

@[simp] theorem listed_deliver (p : PairId) (frame : Frame) (source peer : Option ChannelId) :
    (e.deliver p frame source peer).1.listed = e.listed := by
  unfold deliver
  split
  · simp [settled]
  · cases peer with
    | none => rfl
    | some c =>
        dsimp only
        split <;> simp [settled]

theorem listed_acquire (a : Acquisition)
    (h : ∀ (e' : Exchange) (peer : Option ChannelId), (e'.proceed a peer).1.listed = e'.listed) :
    (e.acquire a).1.listed = e.listed := by
  have hseek := listed_seek e a.pair a.side
  rw [acquire]
  rcases hs : e.seek a.pair a.side with ⟨_ | peer | _, e'⟩ <;> rw [hs] at hseek
  · exact (h e' none).trans hseek
  · exact (h e' (some peer)).trans hseek
  · exact hseek

@[simp] theorem listed_relay (p : PairId) (side : Side) (frame : Frame) (source : Option ChannelId)
    (locked : Bool) :
    (e.relay p side frame source locked).1.listed = e.listed := by
  rw [relay_eq]
  split
  · rfl
  · split
    · rfl
    · exact listed_acquire _ _ fun e' peer => listed_deliver e' p frame source peer

@[simp] theorem listed_retire (p : PairId) : (e.retire p).listed = e.listed := by
  rw [retire_eq]
  split
  · rfl
  · exact listed_destroy _ p

@[simp] theorem listed_clearSide (p : PairId) (side : Side) :
    (e.clearSide p side).listed = e.listed := rfl

@[simp] theorem listed_depart (p : PairId) (side : Side) (leaver : ChannelId) :
    (e.depart p side leaver).1.listed = e.listed := by
  rw [depart]
  split
  · simp [setSlot]
  · split <;> simp [setSlot]

@[simp] theorem listed_proceed (a : Acquisition) (peer : Option ChannelId) :
    (e.proceed a peer).1.listed = e.listed := by
  rw [proceed]
  cases a.purpose with
  | relay frame source => exact listed_deliver e a.pair frame source peer
  | dialStatus leaver status => cases peer <;> simp [chanLeaves, setVar]
  | ownerLeaving leaver => cases peer <;> simp [ownerLeaves, queueFrame]

@[simp] theorem listed_retry (a : Acquisition) : (e.retry a).1.listed = e.listed := by
  rw [retry]
  cases a.source <;> exact listed_acquire _ a fun e' peer => listed_proceed e' a peer

@[simp] theorem listed_teardown (leaver : ChannelId) : (e.teardown leaver).1.listed = e.listed := by
  have hacquire : ∀ (x : Exchange) (a : Acquisition), (x.acquire a).1.listed = x.listed :=
    fun x a => listed_acquire x a fun e' peer => listed_proceed e' a peer
  rw [teardown]
  rcases e.membership leaver with _ | ⟨p, side⟩
  · rfl
  · cases side with
    | owner =>
        refine (hacquire _ _).trans ?_
        rw [passAnsweredElsewhere]
        split
        · cases (e.pair p).chan <;> rfl
        · rfl
    | chan =>
        dsimp only
        cases (e.channel leaver).getVar dialStatus with
        | none => exact listed_depart _ p .chan leaver
        | some status => exact hacquire e _

@[simp] theorem listed_startDialplan (c : ChannelId) : (e.startDialplan c).2.listed = e.listed := by
  rw [startDialplan]
  split <;> rfl

@[simp] theorem listed_launch (c : ChannelId) : (e.launch c).2.listed = e.listed := by
  rw [launch]
  split
  · next p _ =>
      dsimp only
      split
      · rfl
      · next chan _ =>
          split
          · rfl
          · split
            · rfl
            · have hstart := listed_startDialplan
                ((e.handOver c chan).extensionExists (e.pair p).destination.context
                (e.pair p).destination.exten (e.channel c).caller.num).2 chan
              split <;> next hs => 
                rw [hs] at hstart
                exact hstart
  · rfl

@[simp] theorem listed_relayFrom (c : ChannelId) (frame : Frame) :
    (e.relayFrom c frame).1.listed = e.listed := by
  rw [relayFrom]
  cases e.membership c with
  | none => rfl
  | some place => exact listed_relay e place.1 place.2 frame (some c) true

theorem listed_transfer (a b : ChannelId) (what : Transfer) :
    (e.transfer a b what).listed = e.listed := by
  cases what <;> rfl

@[simp] theorem listed_masquerade (survivor clone : ChannelId) :
    (e.masquerade survivor clone).2.listed = e.listed := by
  rw [masquerade]
  split <;> rfl

@[simp] theorem listed_gatherAttachments (owner chan third : ChannelId) :
    (e.gatherAttachments owner chan third).listed = e.listed := by
  rw [gatherAttachments]
  rw [moveGroups]
  split <;> split <;> rfl

@[simp] theorem listed_requestMasquerade (p : PairId) (owner chan third : ChannelId) :
    (e.requestMasquerade p owner chan third).2.listed = e.listed := by
  have hmasquerade := listed_masquerade (e.gatherAttachments owner chan third) owner third
  rw [listed_gatherAttachments] at hmasquerade
  rw [requestMasquerade]
  split <;> next hm =>
    rw [hm] at hmasquerade
    exact hmasquerade

theorem listed_tryOptimize (p : PairId) (side : Side) (third : Option ChannelId) :
    (e.tryOptimize p side third).2.listed = e.listed := by
  rw [tryOptimize]
  cases e.candidates p side third with
  | none => rfl
  | some candidates =>
      obtain ⟨owner, chan, third⟩ := candidates
      have hthird := listed_tryLock e third
      dsimp only
      rcases h₁ : e.tryLock third with ⟨_ | _, e₁⟩ <;> rw [h₁] at hthird
      · exact hthird
      · dsimp only
        split
        · exact hthird
        · have howner := listed_tryLock e₁ owner
          rcases h₂ : e₁.tryLock owner with ⟨_ | _, e₂⟩ <;> rw [h₂] at howner
          · exact howner.trans hthird
          · dsimp only
            split
            · exact howner.trans hthird
            · exact (listed_requestMasquerade e₂ p owner chan third).trans (howner.trans hthird)

@[simp] theorem listed_writeKnowing (p : PairId) (c : ChannelId) (frame : Frame)
    (third : Option ChannelId) :
    (e.writeKnowing p c frame third).1.listed = e.listed := by
  rw [writeKnowing]
  cases (e.pair p).sideOf c with
  | none => rfl
  | some side =>
      dsimp only
      split
      · exact (listed_relay _ p side frame (some c) true).trans (listed_tryOptimize e p side third)
      · exact listed_relay e p side frame (some c) true

@[simp] theorem listed_fixup (old new : ChannelId) : (e.fixup old new).2.listed = e.listed := by
  rw [fixup]
  split
  · rfl
  · split
    · rfl
    · split <;> rfl

@[simp] theorem listed_takeOver (survivor clone : ChannelId) :
    (e.takeOver survivor clone).1.listed = e.listed := by
  rw [takeOver]
  cases h : e.lock? clone with
  | none => rfl
  | some e' =>
      have hswap : (e'.swapIdentities survivor clone).listed = e'.listed := rfl
      dsimp only
      split
      · exact (listed_fixup _ survivor clone).trans (hswap.trans (listed_lock h))
      · exact hswap.trans (listed_lock h)

@[simp] theorem listed_completeMasquerade (survivor : ChannelId) :
    (e.completeMasquerade survivor).1.listed = e.listed := by
  rw [completeMasquerade]
  split <;> rfl

@[simp] theorem listed_complete (survivor : ChannelId) :
    (e.complete survivor).1.listed = e.listed := by
  have htry := listed_tryLock e survivor
  rw [complete]
  rcases h : e.tryLock survivor with ⟨_ | _, e'⟩ <;> rw [h] at htry
  · exact htry
  · exact (listed_completeMasquerade e' survivor).trans htry

@[simp] theorem listed_signal (c : ChannelId) (s : Signal) :
    (e.signal c s).1.listed = e.listed := by
  cases s with
  | call dialled milliseconds =>
      have hlaunch := listed_launch e c
      rw [signal]
      rcases h : e.launch c with ⟨_ | _, e'⟩ <;> rw [h] at hlaunch <;> exact hlaunch
  | hangup => exact listed_teardown e c
  | answer =>
      rw [signal, answer]
      split
      · rfl
      · rfl
      · exact listed_relayFrom e c _
  | write frame =>
      rw [signal, writeFrame]
      split
      · rfl
      · split
        · split
          · rfl
          · exact listed_writeKnowing e _ c frame none
        · exact listed_writeKnowing e _ c frame none
  | indicate kind data =>
      change (e.indicate c kind data).1.listed = e.listed
      unfold indicate
      split
      · rfl
      · split
        · exact listed_relayFrom e c _
        · split
          · rfl
          · rfl
          · exact listed_relayFrom e c _
  | beginDigit | endDigit | sendText | sendHtml => exact listed_relayFrom e c _

theorem listed_dispatch (c : ChannelId) (s : Signal) : (e.dispatch c s).1.listed = e.listed := by
  rw [dispatch]
  split
  · cases h : e.lock? c with
    | none => rfl
    | some e' => exact (listed_signal e' c s).trans (listed_lock h)
  · rfl

theorem listed_resume {t : Task} (h : ∀ c, t ≠ .delist c) : (e.resume t).1.listed = e.listed := by
  cases t with
  | dispatch c s => exact listed_dispatch e c s
  | hangup c =>
      rw [resume, hangup]
      split <;> rfl
  | delist c => exact absurd rfl (h c)
  | retry a => exact listed_retry e a
  | write p c frame third => exact listed_writeKnowing e p c frame third
  | complete survivor => exact listed_complete e survivor
  | takeOver survivor clone => exact listed_takeOver e survivor clone
  | _ => rfl

theorem listed_send (c : ChannelId) (s : Signal) : (e.send c s).1.listed = e.listed := by
  cases s with
  | write frame =>
      rw [send]
      split
      · rfl
      · split <;> rfl
  | _ => rfl

theorem listed_unload : e.unload.2.listed = e.listed := by
  rw [unload]
  generalize e.registry.pairs.filterMap _ = owners
  induction owners generalizing e with
  | nil => rfl
  | cons c owners ih => exact ih (e.softHangup c .appUnload)

theorem listed_applyLocking (c : ChannelId) (what : Locking) :
    (e.applyLocking c what).1.listed = e.listed := by
  cases what with
  | lock =>
      rw [applyLocking]
      cases h : e.lock? c with
      | none => rfl
      | some e' => exact listed_lock h
  | tryLock => exact listed_attemptLock e c
  | avoidDeadlock | hold =>
      rw [applyLocking]
      split <;> rfl
  | _ => rfl

variable {e}

/-- Who is on the list was on it before, or was made meanwhile. -/
structure ListGrows (e e' : Exchange) : Prop where
  size : e.channels.size ≤ e'.channels.size
  listed : ∀ c ∈ e'.listed, c ∈ e.listed ∨ ¬ c.Among e.channels.size ∧ c.Among e'.channels.size

theorem ListGrows.trans {e₁ e₂ e₃ : Exchange} (h : e₁.ListGrows e₂) (h' : e₂.ListGrows e₃) :
    e₁.ListGrows e₃ where
  size := Nat.le_trans h.size h'.size
  listed c hc := by
    rcases h'.listed c hc with hold | ⟨hnew, hmade⟩
    · exact (h.listed c hold).imp_right fun hc => ⟨hc.1, hc.2.mono h'.size⟩
    · exact .inr ⟨fun hold => hnew (hold.mono h.size), hmade⟩

theorem listGrows_of_listed {e' : Exchange} (hsize : e.channels.size ≤ e'.channels.size)
    (h : ∀ c ∈ e'.listed, c ∈ e.listed) : e.ListGrows e' := ⟨hsize, fun c hc => .inl (h c hc)⟩

theorem listGrows_addChannel (e : Exchange) (x : Channel) : e.ListGrows (e.addChannel x).2 where
  size := (Table.size_push e.channels x).symm ▸ Nat.le_succ _
  listed c hc := by
    rcases List.mem_append.1 hc with hold | hnew
    · exact .inl hold
    · obtain rfl := List.mem_singleton.1 hnew
      exact .inr ⟨not_among_next, Nat.succ_pos _, (Table.size_push e.channels x).ge⟩

theorem listGrows_release (e : Exchange) (c : ChannelId) : e.ListGrows (e.release c) :=
  listGrows_of_listed (size_modifyChannel (e := e.delist c) c _).ge fun _ hb =>
    (List.mem_filter.1 hb).1

theorem listGrows_allocateWithin (e : Exchange) (r : Allocation) : e.ListGrows (e.allocateWithin r).2 := by
  rw [allocateWithin]
  split
  · exact listGrows_of_listed (Nat.le_refl _) fun _ => id
  · have hadd := listGrows_addChannel { e with allocationLimit := e.allocationLimit.map (· - 1) }
      { name := r.name, technology := r.technology, state := r.state, location := ⟨r.context, r.exten, 0⟩,
        profile := { accountcode := r.accountcode } }
    exact ⟨hadd.size, hadd.listed⟩

theorem listGrows_allocate (e : Exchange) (r : Allocation) : e.ListGrows (e.allocate r).2 := by
  rw [allocate]
  split
  · exact listGrows_allocateWithin e r
  · next outcome rest _ =>
      cases outcome with
      | some refusal => exact listGrows_of_listed (Nat.le_refl _) fun _ => id
      | none =>
          have hwithin :=
            listGrows_allocateWithin { e with
            contention := { e.contention with allocations := rest } } r
          exact ⟨hwithin.size, hwithin.listed⟩

theorem listGrows_createPair (e : Exchange) (text : String) (format : FormatMask) :
    e.ListGrows (e.createPair text format).2 := by
  rw [createPair]
  cases Destination.parse text e.config.defaultContext with
  | error why => exact listGrows_of_listed (Nat.le_refl _) fun _ => id
  | ok dest =>
      dsimp only
      generalize hx : (e.extensionExists dest.context dest.exten none).2 = x
      have hasked : e.ListGrows x := by
        rw [← hx]
        exact listGrows_of_listed (Nat.le_refl _) fun _ => id
      have hfirst := listGrows_allocate x (endpointRequest dest (x.baseName dest ++ ";1"))
      rcases h₁ : x.allocate (endpointRequest dest (x.baseName dest ++ ";1")) with
        ⟨why | owner, e₁⟩ <;>
        rw [h₁] at hfirst
      · exact hasked.trans hfirst
      · have hsecond := listGrows_allocate e₁ (endpointRequest dest (x.baseName dest ++ ";2"))
        dsimp only
        rcases h₂ : e₁.allocate (endpointRequest dest (x.baseName dest ++ ";2")) with
          ⟨why | chan, e₂⟩ <;>
          rw [h₂] at hsecond
        · exact ((hasked.trans hfirst).trans hsecond).trans (listGrows_release e₂ owner)
        · have hinstall : e₂.ListGrows (e₂.install dest format owner chan).2 := by
            refine listGrows_of_listed (Nat.le_of_eq ?_) fun _ => id
            simp only [install, size_modifyChannel, size_furnish]
          exact ((hasked.trans hfirst).trans hsecond).trans hinstall

theorem listGrows_request (e : Exchange) (route : Route) (technology text : String)
    (format : FormatMask) :
    e.ListGrows (e.request route technology text format).2 := by
  rw [request]
  split
  · exact listGrows_createPair e text format
  · exact listGrows_of_listed (Nat.le_refl _) fun _ => id

theorem listGrows_perform (e : Exchange) (op : Operation) : e.ListGrows (e.perform op).1 := by
  have hleads : TurnState.Leads (e.Entitles (.operate op)) ⟨e, [], []⟩
    ((e.perform op).state [] []) := perform_leads op
  have hkept : (e.perform op).1.listed = e.listed → e.ListGrows (e.perform op).1 := fun h =>
    listGrows_of_listed hleads.channels fun _ hc => h ▸ hc
  cases op with
  | request route technology text format =>
      have hrequest := listGrows_request e route technology text format
      rw [perform]
      rcases hr : e.request route technology text format with ⟨why | p, e'⟩ <;>
        rw [hr] at hrequest <;> exact hrequest
  | newChannel name => exact listGrows_addChannel e { name, technology := .test }
  | allocate r =>
      have hallocate := listGrows_allocate e r
      rw [perform]
      rcases ha : e.allocate r with ⟨why | c, e'⟩ <;> rw [ha] at hallocate <;> exact hallocate
  | release c => exact listGrows_release e c
  | signal route c s =>
      apply hkept
      cases route with
      | dispatched => exact listed_send e c s
      | direct => exact listed_signal e c s
  | fixup old new =>
      apply hkept
      have hfixup := listed_fixup e old new
      rw [perform]
      rcases hf : e.fixup old new with ⟨_ | _, e'⟩ <;> rw [hf] at hfixup <;> exact hfixup
  | relay p side frame source locked => exact hkept (listed_relay e p side frame source locked)
  | unload => exact hkept (listed_unload e)
  | deviceState route technology device =>
      apply hkept
      rw [perform]
      dsimp only
      split
      · rw [deviceState]
        split <;> rfl
      · rfl
  | unregister technology =>
      apply hkept
      rw [perform]
      split <;> rfl
  | addExtension context exten =>
      apply hkept
      rw [perform, addExtension]
      split <;> rfl
  | transfer what a b => exact hkept (listed_transfer e a b what)
  | masquerade survivor clone =>
      apply hkept
      have hmasquerade := listed_masquerade e survivor clone
      rw [perform]
      rcases hm : e.masquerade survivor clone with ⟨_ | _, e'⟩ <;> rw [hm] at hmasquerade <;>
        exact hmasquerade
  | completeMasquerade c =>
      apply hkept
      rw [perform]
      cases hl : e.lock? c with
      | none => rfl
      | some e' => exact (listed_completeMasquerade e' c).trans (listed_lock hl)
  | startDialplan c =>
      apply hkept
      have hstart := listed_startDialplan e c
      rw [perform]
      rcases hd : e.startDialplan c with ⟨_ | _, e'⟩ <;> rw [hd] at hstart <;> exact hstart
  | locking c what => exact hkept (listed_applyLocking e c what)
  | _ => exact hkept rfl

end Exchange

namespace TurnState

open Exchange

variable {may : Effect → Prop} {x y : TurnState} {c : ChannelId}

theorem Step.hungup (hs : Step may x y) (h : (y.exchange.channel c).hungup = true) :
    (x.exchange.channel c).hungup = true ∨ may (.marks c) := by
  have hmodify : ∀ (e : Exchange) (b : ChannelId) (f : Channel → Channel),
      ((e.modifyChannel b f).channel c).hungup = true → (∀ z, (f z).hungup = z.hungup) →
      (e.channel c).hungup = true :=
    fun e b f h hf => (channel_modifyChannel_congr Channel.hungup e b c (hf _)).symm.trans h
  have hunused : ∀ {slot technology}, (y.exchange.channel c).channelView = .unused slot technology →
    False := by
    intro slot technology hchannelView
    have hnot : (y.exchange.channel c).hungup = false := congrArg ChannelView.hungup hchannelView
    rw [hnot] at h
    cases h
  cases hs with
  | quiet hview =>
      exact .inl ((congrArg ChannelView.hungup (channelView_eq_of_view hview c)).symm.trans h)
  | leave e w d a => exact .inl (channel_eq_of_channels (channels_leaveGlare e a.pair) c ▸ h)
  | @depart e w d a side leaver =>
      have hdetached :=
        hmodify (e.detach a.pair side) leaver ({ · with slot := .empty }) h fun _ => rfl
      exact .inl (channel_eq_of_channels (channels_detach e a.pair side) c ▸ hdetached)
  | call e w d p chan => exact .inl (hmodify e chan _ h fun _ => rfl)
  | queue e w d a b | feed e w d b | serve e w d b | refit e w d b =>
      exact .inl (hmodify e b _ h fun _ => rfl)
  | mark e w d b hmarks =>
      rcases channel_modifyChannel_or e b c ({ · with hungup := true }) with hsame | ⟨rfl, -⟩
      · exact .inl (hsame ▸ h)
      · exact .inr hmarks
  | swap e w d survivor clone =>
      exact .inl
        ((channel_swapIdentities_congr e ChannelView.hungup
        (fun _ _ _ => rfl) survivor clone c).symm.trans h)
  | grow hgrown =>
      rcases hgrown.channelView c with hsame | ⟨-, technology, hnew⟩
      · exact .inl ((congrArg ChannelView.hungup hsame).symm.trans h)
      · exact (hunused hnew).elim
  | @opened e e' w d p owner chan hopened =>
      by_cases hc : c = owner ∨ c = chan
      · exact (hunused (hopened.made c hc).2.2).elim
      · rw [not_or] at hc
        exact .inl ((congrArg ChannelView.hungup (hopened.channelView c hc.1 hc.2)).symm.trans h)
  | enter | start | optimize | scheduleHangup | reseat | register => exact .inl h

theorem Leads.hungup (hs : Leads may x y) (h : (y.exchange.channel c).hungup = true) :
    (x.exchange.channel c).hungup = true ∨ may (.marks c) := by
  induction hs with
  | refl => exact .inl h
  | tail _ hstep ih => exact (hstep.hungup h).elim ih .inr

end TurnState

namespace Session

variable {s t : Session} {c : ChannelId} {rest : List Task}

theorem marks_of_entitles (h : s.Entitles (.marks c)) : ∃ rest, s.agenda = .hangup c :: rest := by
  obtain ⟨u, rest, hagenda, hentitles⟩ := h
  cases hentitles with
  | marks => exact ⟨rest, hagenda⟩
  | dispatched _ _ hsignals | direct hsignals => cases hsignals

/-- Who is listed was made, and if it was hung up it is about to be taken off the list. -/
def ListedInvariant (s : Session) : Prop :=
  ∀ c ∈ s.exchange.listed, c.Among s.exchange.channels.size ∧
    ((s.exchange.channel c).hungup = true → .delist c ∈ s.agenda)

theorem listedInvariant_start {config : Config} {ops : List Operation}
    (h : start config ops = .ok s) : s.ListedInvariant := by
  rw [eq_of_start h]
  exact fun c hc => absurd hc List.not_mem_nil

theorem step_listGrows {t : Task} (hagenda : s.agenda = t :: rest) (ht : ∀ c, t ≠ .delist c) :
    s.exchange.ListGrows s.step.exchange := by
  obtain ⟨_, -, hleads⟩ := step_leads hagenda
  have hkept : s.step.exchange.listed = s.exchange.listed →
    s.exchange.ListGrows s.step.exchange := fun h =>
    Exchange.listGrows_of_listed hleads.channels fun _ hc => h ▸ hc
  have hstep : s.step = ({ s with agenda := rest } : Session).perform t := step_perform hagenda
  cases t with
  | operate op =>
      rw [hstep, perform]
      unfold operate
      dsimp only
      cases s.exchange.missing op with
      | some answer => exact Exchange.listGrows_of_listed (Nat.le_refl _) fun _ => id
      | none =>
          dsimp only
          split
          · exact Exchange.listGrows_of_listed (Nat.le_refl _) fun _ => id
          · exact Exchange.listGrows_of_listed (Nat.le_refl _) fun _ => id
          · exact Exchange.listGrows_perform s.exchange _
  | delist c => exact absurd rfl (ht c)
  | pause point =>
      apply hkept
      rw [hstep]
      cases point <;> rw [perform, pause] <;> split <;> rfl
  | closeScript =>
      apply hkept
      rw [hstep, perform, closeScript]
      split <;> rfl
  | raise c =>
      apply hkept
      rw [hstep, perform]
      split <;> rfl
  | settle | report =>
      apply hkept
      rw [hstep]
      rfl
  | dispatch | hangup | unlock | retry | write | complete | takeOver =>
      apply hkept
      rw [hstep]
      exact Exchange.listed_resume s.exchange ht

theorem delists_of_hangup (hagenda : s.agenda = .hangup c :: rest)
    (hc : (s.exchange.channel c).hungup = false) :
    .delist c ∈ s.step.agenda := by
  have hstep : s.step = ({ s with agenda := rest } : Session).turn (s.exchange.hangup c) :=
    step_perform hagenda
  rw [hstep, Exchange.hangup, hc]
  exact .tail _ (.head _)

theorem ListedInvariant.step_delist (h : s.ListedInvariant) {b : ChannelId}
    (hagenda : s.agenda = .delist b :: rest) :
    s.step.ListedInvariant := by
  have hstep : s.step = { s with exchange := s.exchange.delist b, agenda := rest } :=
    step_perform hagenda
  rw [hstep]
  intro c hc
  obtain ⟨hold, hne⟩ := List.mem_filter.1 hc
  refine ⟨(h c hold).1, fun hhungup => ?_⟩
  have hmem := (h c hold).2 hhungup
  rw [hagenda] at hmem
  refine (List.mem_cons.1 hmem).resolve_left ?_
  rintro ⟨⟩
  simp at hne

theorem ListedInvariant.step_listGrows (h : s.ListedInvariant) {t : Task}
    (hagenda : s.agenda = t :: rest) (ht : ∀ c, t ≠ .delist c) :
    s.step.ListedInvariant := by
  obtain ⟨ts, hts, hleads⟩ := step_leads hagenda
  have hgrows := Session.step_listGrows hagenda ht
  intro c hc
  -- One that was hung up before is listed only as long as it is about to be taken off.
  have hbefore : (s.exchange.channel c).hungup = true → .delist c ∈ s.step.agenda := by
    intro hhungup
    have hlisted : c ∈ s.exchange.listed := by
      refine (hgrows.listed c hc).resolve_right fun hnew => ?_
      rw [Exchange.channel_of_not_among _ hnew.1] at hhungup
      cases hhungup
    have hmem := (h c hlisted).2 hhungup
    rw [hagenda] at hmem
    rw [hts]
    exact List.mem_append_right ts ((List.mem_cons.1 hmem).resolve_left (ht c).symm)
  refine ⟨?_, fun hhungup => ?_⟩
  · rcases hgrows.listed c hc with hold | hnew
    · exact (h c hold).1.mono hgrows.size
    · exact hnew.2
  · rcases hleads.hungup hhungup with hold | hmarks
    · exact hbefore hold
    · obtain ⟨later, hhangup⟩ := marks_of_entitles hmarks
      cases hold : (s.exchange.channel c).hungup with
      | true => exact hbefore hold
      | false => exact delists_of_hangup hhangup hold

theorem ListedInvariant.step (h : s.ListedInvariant) : s.step.ListedInvariant := by
  cases hagenda : s.agenda with
  | nil =>
      rw [step_idle hagenda]
      exact h
  | cons t rest =>
      by_cases hdelist : ∃ b, t = .delist b
      · obtain ⟨b, rfl⟩ := hdelist
        exact h.step_delist hagenda
      · exact h.step_listGrows hagenda fun b hb => hdelist ⟨b, hb⟩

theorem Moves.listedInvariant (hm : Moves s t) (h : s.ListedInvariant) : t.ListedInvariant := by
  cases hm with
  | step => exact h.step
  | others a rest ops hagenda =>
      intro c hc
      refine ⟨(h c hc).1, fun hhungup => ?_⟩
      rw [agenda_interrupt]
      exact List.mem_append_right _ ((h c hc).2 hhungup)

end Session
end Switchboard
