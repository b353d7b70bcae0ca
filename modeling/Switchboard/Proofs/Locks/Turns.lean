import Switchboard.Proofs.TurnState.Service
import Switchboard.Proofs.Locks

namespace Switchboard

def Task.relocks : Task → Bool
  | .operate (.locking _ _) => true
  | _ => false

theorem Acquisition.relocks_wait (a : Acquisition) : a.wait.any Task.relocks = false := by
  rw [wait]
  split <;> rfl

/-- Once what the turn owes has been given back, the locks are those in `v`. -/
structure Turn.Returns (v : Locks) (t : Turn) : Prop where
  sound : t.1.locks.Sound
  back : t.1.locks.after t.2 = v
  own : t.2.any Task.relocks = false

namespace Exchange

open Turn

variable {e e' : Exchange} {v : Locks} {ts us : List Task} {c : ChannelId}

theorem returns_of_eq (hv : v.Sound) (h : e.locks = v) (howed : owed ts = [])
    (hown : ts.any Task.relocks = false) : Returns v (e, ts) where
  sound := h ▸ hv
  back := (Locks.after_of_none _ howed).trans h
  own := hown

theorem returns_settled (hv : v.Sound) (h : e.locks = v) (a : Answer) : Returns v (e.settled a) :=
  returns_of_eq hv h rfl rfl

theorem returns_refused (hv : v.Sound) (h : e.locks = v) (why : ChannelError) :
    Returns v (e.refused why) :=
  returns_of_eq hv h rfl rfl

theorem returns_append (h : Returns v (e, ts)) (howed : owed us = [])
    (hown : us.any Task.relocks = false) :
    Returns v (e, ts ++ us) where
  sound := h.sound
  back := by
    dsimp only
    rw [Locks.after_append, Locks.after_of_none _ howed]
    exact h.back
  own := by
    dsimp only
    rw [List.any_append, hown, Bool.or_false]
    exact h.own

theorem returns_unlock (hc : Takes v e c) (h : Returns e.locks (e', ts)) :
    Returns v (e', ts ++ [Task.unlock c]) where
  sound := h.sound
  back := by
    dsimp only
    rw [Locks.after_append, h.back]
    exact hc.back
  own := by
    dsimp only
    rw [List.any_append]
    exact Bool.or_eq_false_iff.2 ⟨h.own, rfl⟩

theorem sound_releasing (hv : v.Sound) (peer : Option ChannelId) : (v.releasing peer).Sound := by
  cases peer with
  | none => exact hv
  | some c => exact hv.released c

theorem seek_takes (hv : e.locks.Sound) (p : PairId) (side : Side) :
    (∀ c e', e.seek p side = (.taken c, e') → Takes e.locks e' c) ∧
      ∀ s e', e.seek p side = (s, e') → (∀ c, s ≠ .taken c) → e'.locks = e.locks := by
  rw [seek]
  cases (e.pair p).endpoint side with
  | none =>
      refine ⟨fun c e' h => ?_, fun s e' h _ => ?_⟩
      · cases h
      · cases h
        rfl
  | some peer =>
      obtain ⟨htaken, hbusy⟩ := tryLock_takes hv peer
      dsimp only
      rcases hl : e.tryLock peer with ⟨_ | _, x⟩
      · refine ⟨fun c e' h => ?_, fun s e' h _ => ?_⟩
        · cases h
        · cases h
          exact hbusy x hl
      · refine ⟨fun c e' h => ?_, fun s e' h hs => ?_⟩
        · cases h
          exact htaken x hl
        · cases h
          exact absurd rfl (hs peer)

theorem deliver_returns (hv : e.locks.Sound) (p : PairId) (frame : Frame)
    (source peer : Option ChannelId) :
    Returns (e.locks.releasing peer) (e.deliver p frame source peer) := by
  have hreleased := sound_releasing hv peer
  unfold deliver
  split
  · refine returns_settled hreleased ?_ _
    rw [locks_releasePeer, locks_leaveGlare]
  · refine returns_settled hreleased ?_ _
    rw [locks_modifyPair, locks_releasePeer]
    cases peer with
    | none => rfl
    | some c =>
        dsimp only
        split
        · rfl
        · rw [locks_place]

theorem acquire_returns_of_proceed (hv : e.locks.Sound) (a : Acquisition)
    (h : ∀ (e' : Exchange) peer, e'.locks.Sound → e'.locks.releasing peer = e.locks →
      Returns e.locks (e'.proceed a peer)) : Returns e.locks (e.acquire a) := by
  obtain ⟨htaken, hother⟩ := seek_takes hv a.pair a.side
  rw [acquire]
  rcases hs : e.seek a.pair a.side with ⟨_ | peer | _, e'⟩
  · have hsame := hother _ _ hs (by simp)
    exact h e' none (hsame ▸ hv) hsame
  · obtain ⟨hsound, hback⟩ := htaken peer e' hs
    exact h e' (some peer) hsound hback
  · exact returns_of_eq hv (hother _ _ hs (by simp)) (owed_wait a) a.relocks_wait

theorem relay_returns (hv : e.locks.Sound) (p : PairId) (side : Side) (frame : Frame)
    (source : Option ChannelId) (locked : Bool) :
    Returns e.locks (e.relay p side frame source locked) := by
  rw [relay_eq]
  cases (e.pair p).endpoint side.peer with
  | none => exact returns_settled hv rfl _
  | some other =>
      dsimp only
      split
      · exact returns_settled hv rfl _
      · rw [← locks_modifyPair e p Pair.entered] at hv ⊢
        refine acquire_returns_of_proceed hv _ fun e' peer hsound hback => ?_
        rw [← hback]
        exact deliver_returns hsound p frame source peer

theorem depart_returns (hv : v.Sound) (h : e.locks = v) (p : PairId) (side : Side)
    (leaver : ChannelId) :
    Returns v (e.depart p side leaver) := by
  rw [depart]
  have hslot := (locks_setSlot e leaver .empty).trans h
  generalize e.setSlot leaver .empty = x at hslot ⊢
  split
  · exact returns_of_eq hv ((locks_retire x p).trans hslot) rfl rfl
  · cases unserved (x.pair p) with
    | some chan => exact returns_of_eq hv hslot rfl rfl
    | none =>
        rw [← hslot] at hv ⊢
        exact relay_returns hv p side _ none false

theorem proceed_returns (hv : e.locks.Sound) (a : Acquisition) (peer : Option ChannelId) :
    Returns (e.locks.releasing peer) (e.proceed a peer) := by
  have hreleased := sound_releasing hv peer
  obtain ⟨p, side, source, purpose⟩ := a
  cases purpose with
  | relay frame source => exact deliver_returns hv p frame source peer
  | dialStatus leaver status =>
      cases peer with
      | none => exact depart_returns (e := e.clearSide p .chan) hv rfl p .chan leaver
      | some owner =>
          refine depart_returns
            (e := ((e.setVar owner channelStatus status).unlock owner).clearSide p .chan)
            hreleased ?_ p .chan leaver
          rw [locks_clearSide, locks_unlock, locks_setVar]
          rfl
  | ownerLeaving leaver =>
      cases peer with
      | none => exact depart_returns (e := e.clearSide p .owner) hv rfl p .owner leaver
      | some chan =>
          refine depart_returns
            (e := ((e.clearSide p .owner).queueFrame chan (.bare .hangup)).unlock chan)
            hreleased ?_ p .owner leaver
          rw [locks_unlock, locks_queueFrame, locks_clearSide]
          rfl

theorem acquire_returns (hv : e.locks.Sound) (a : Acquisition) : Returns e.locks (e.acquire a) := by
  refine acquire_returns_of_proceed hv a fun e' peer hsound hback => ?_
  rw [← hback]
  exact proceed_returns hsound a peer

theorem retry_returns (hv : e.locks.Sound) (a : Acquisition) : Returns e.locks (e.retry a) := by
  rw [retry]
  cases a.source with
  | none => exact acquire_returns hv a
  | some source =>
      rw [← locks_avoidDeadlock e source] at hv ⊢
      exact acquire_returns hv a

theorem teardown_returns (hv : e.locks.Sound) (leaver : ChannelId) :
    Returns e.locks (e.teardown leaver) := by
  rw [teardown]
  rcases e.membership leaver with _ | ⟨p, _ | _⟩
  · exact returns_refused hv rfl _
  · refine returns_append ?_ rfl rfl
    rw [← locks_passAnsweredElsewhere e p leaver] at hv ⊢
    exact acquire_returns hv _
  · refine returns_append ?_ rfl rfl
    cases (e.channel leaver).getVar dialStatus with
    | none => exact depart_returns (e := e.clearSide p .chan) hv rfl p .chan leaver
    | some status => exact acquire_returns hv _

theorem relayFrom_returns (hv : e.locks.Sound) (c : ChannelId) (frame : Frame) :
    Returns e.locks (e.relayFrom c frame) := by
  rw [relayFrom]
  rcases e.membership c with _ | ⟨p, side⟩
  · exact returns_refused hv rfl _
  · exact returns_append (relay_returns hv p side frame (some c) true) rfl rfl

theorem answer_returns (hv : e.locks.Sound) (c : ChannelId) : Returns e.locks (e.answer c) := by
  rw [answer]
  rcases e.membership c with _ | ⟨p, _ | _⟩
  · exact returns_refused hv rfl _
  · exact returns_settled hv rfl _
  · exact relayFrom_returns hv c _

theorem indicate_returns (hv : e.locks.Sound) (c : ChannelId) (kind : ControlKind) (data : Bytes) :
    Returns e.locks (e.indicate c kind data) := by
  unfold indicate
  cases e.recordOf c with
  | none => exact returns_refused hv rfl _
  | some p =>
      dsimp only
      split
      · exact relayFrom_returns hv c _
      · split
        · exact returns_settled hv (locks_modifyChannel e c rfl) _
        · exact returns_settled hv (locks_modifyChannel e c rfl) _
        · exact relayFrom_returns hv c _

theorem locks_launch (c : ChannelId) : (e.launch c).2.locks = e.locks := by
  have hhand : ∀ owner chan, (e.handOver owner chan).locks = e.locks := fun owner chan =>
    (locks_transfer _ owner chan .datastores).trans (locks_modifyChannel e chan rfl)
  rw [launch]
  rcases e.membership c with _ | ⟨p, _ | _⟩
  · rfl
  · dsimp only
    cases (e.pair p).chan with
    | none => rfl
    | some chan =>
        dsimp only
        split
        · rfl
        · split
          · exact hhand c chan
          · generalize hx : ((e.handOver c chan).extensionExists _ _ _).2 = x
            have hlocks : x.locks = e.locks := hx ▸ hhand c chan
            rw [startDialplan_eq]
            cases x.dialplanRefused with
            | true => exact hlocks
            | false => exact (locks_modifyChannel x chan rfl).trans hlocks
  · rfl

theorem locks_requestMasquerade (p : PairId) (owner chan third : ChannelId) :
    (e.requestMasquerade p owner chan third).2.locks = e.locks := by
  have hhooks := fun x : Exchange => locks_transfer x chan owner .audiohooks
  have hgroups := fun x : Exchange => locks_transfer x chan owner .groups
  have hmonitors := fun x : Exchange => locks_transfer x owner third .monitors
  simp only [transfer] at hhooks hgroups hmonitors
  have hgather : (e.gatherAttachments owner chan third).locks = e.locks := by
    rw [gatherAttachments]
    rw [hgroups]
    split <;> split <;> simp only [hhooks, hmonitors]
  have hmasquerade : ((e.gatherAttachments owner chan third).masquerade owner third).2.locks =
    e.locks := by
    rw [masquerade]
    split
    · exact hgather
    · exact (locks_modifyChannel _ owner rfl).trans hgather
  rw [requestMasquerade]
  rcases hm : (e.gatherAttachments owner chan third).masquerade owner third with ⟨_ | _, x⟩ <;>
    rw [hm] at hmasquerade <;> exact hmasquerade

theorem tryOptimize_returns (hv : e.locks.Sound) (p : PairId) (side : Side)
    (third : Option ChannelId) :
    (e.tryOptimize p side third).2.locks = e.locks := by
  rw [tryOptimize]
  rcases e.candidates p side third with _ | ⟨owner, chan, third⟩
  · rfl
  · obtain ⟨hthird, hmissed⟩ := tryLock_takes hv third
    dsimp only
    rcases h₁ : e.tryLock third with ⟨_ | _, e₁⟩
    · exact hmissed e₁ h₁
    · obtain ⟨hsound, hback⟩ := hthird e₁ h₁
      dsimp only
      split
      · exact (locks_unlock e₁ third).trans hback
      · obtain ⟨howner, hmissed'⟩ := tryLock_takes hsound owner
        rcases h₂ : e₁.tryLock owner with ⟨_ | _, e₂⟩
        · dsimp only
          rw [locks_unlock, hmissed' e₂ h₂, hback]
        · have hrelease : ∀ x : Exchange, x.locks = e₂.locks →
            ((x.unlock owner).unlock third).locks = e.locks := by
            intro x hx
            rw [locks_unlock, locks_unlock, hx, (howner e₂ h₂).back, hback]
          dsimp only
          split
          · exact hrelease e₂ rfl
          · exact hrelease _ (locks_requestMasquerade p owner chan third)

theorem locks_fixup (old new : ChannelId) : (e.fixup old new).2.locks = e.locks := by
  rw [fixup]
  cases e.recordOf new with
  | none => rfl
  | some p =>
      dsimp only
      split
      · rfl
      · split <;> rfl

theorem locks_swapIdentities (survivor clone : ChannelId) :
    (e.swapIdentities survivor clone).locks = e.locks := by
  have hmonitors := fun x : Exchange => locks_transfer x survivor clone .monitors
  simp only [transfer] at hmonitors
  rw [swapIdentities]
  rw [locks_modifyChannel, hmonitors, locks_modifyChannel, locks_modifyChannel] <;> rfl

theorem takeOver_returns (hv : e.locks.Sound) (survivor clone : ChannelId) :
    Returns e.locks (e.takeOver survivor clone) := by
  rw [takeOver]
  cases hl : e.lock? clone with
  | none => exact returns_of_eq hv rfl rfl rfl
  | some x =>
      have htakes := takes_of_lock hv hl
      have hswap : ∀ y : Exchange, y.locks = x.locks →
          Returns x.locks (y.softHangup clone .device, [.hangup clone]) := fun y hy =>
        returns_of_eq htakes.sound ((locks_softHangup y clone .device).trans hy) rfl rfl
      dsimp only
      split
      · exact returns_unlock htakes (hswap _ ((locks_fixup _ _).trans (locks_swapIdentities _ _)))
      · exact returns_unlock htakes (hswap _ (locks_swapIdentities _ _))

theorem completeMasquerade_returns (hv : e.locks.Sound) (survivor : ChannelId) :
    Returns e.locks (e.completeMasquerade survivor) := by
  rw [completeMasquerade]
  cases (e.channel survivor).pendingMasquerade with
  | none => exact returns_of_eq hv rfl rfl rfl
  | some clone => exact returns_of_eq hv (locks_modifyChannel e survivor rfl) rfl rfl

theorem complete_returns (hv : e.locks.Sound) (survivor : ChannelId) :
    Returns e.locks (e.complete survivor) := by
  obtain ⟨htaken, hmissed⟩ := tryLock_takes hv survivor
  rw [complete]
  rcases hl : e.tryLock survivor with ⟨_ | _, x⟩
  · exact returns_of_eq hv (hmissed x hl) rfl rfl
  · have htakes := htaken x hl
    exact returns_unlock htakes (completeMasquerade_returns htakes.sound survivor)

theorem writeKnowing_returns (hv : e.locks.Sound) (p : PairId) (c : ChannelId) (frame : Frame)
    (third : Option ChannelId) : Returns e.locks (e.writeKnowing p c frame third) := by
  rw [writeKnowing]
  cases (e.pair p).sideOf c with
  | none => exact returns_refused hv rfl _
  | some side =>
      dsimp only
      generalize hx : (if frame.isMedia then e.tryOptimize p side third else (none, e)) = x
      have hlocks : x.2.locks = e.locks := by
        rw [← hx]
        split
        · exact tryOptimize_returns hv p side third
        · rfl
      have hrelay := relay_returns (hlocks ▸ hv) p side frame (some c) true
      rw [hlocks] at hrelay
      refine returns_append (returns_append hrelay ?_ ?_) rfl rfl
      · cases x.1 <;> rfl
      · cases x.1 <;> rfl

theorem writeFrame_returns (hv : e.locks.Sound) (c : ChannelId) (frame : Frame) :
    Returns e.locks (e.writeFrame c frame) := by
  rw [writeFrame]
  cases e.recordOf c with
  | none => exact returns_refused hv rfl _
  | some p =>
      dsimp only
      split
      · cases (e.channel c).bridge with
        | none => exact writeKnowing_returns hv p c frame none
        | some bridge => exact returns_of_eq hv rfl rfl rfl
      · exact writeKnowing_returns hv p c frame none

theorem signal_returns (hv : e.locks.Sound) (c : ChannelId) (s : Signal) :
    Returns e.locks (e.signal c s) := by
  cases s with
  | call dialled milliseconds =>
      have hlaunch := locks_launch (e := e) c
      rw [signal]
      rcases hl : e.launch c with ⟨_ | _, x⟩ <;> rw [hl] at hlaunch
      · exact returns_refused hv hlaunch _
      · exact returns_settled hv hlaunch _
  | hangup => exact teardown_returns hv c
  | answer => exact answer_returns hv c
  | write frame => exact writeFrame_returns hv c frame
  | indicate kind data => exact indicate_returns hv c kind data
  | beginDigit | endDigit | sendText | sendHtml => exact relayFrom_returns hv c _

theorem dispatch_returns (hv : e.locks.Sound) (c : ChannelId) (s : Signal) :
    Returns e.locks (e.dispatch c s) := by
  by_cases hdriven : e.isDriven c = true
  · cases hl : e.lock? c with
    | none =>
        rw [dispatch_of_locked hdriven hl]
        exact returns_of_eq hv rfl rfl rfl
    | some x =>
        have htakes := takes_of_lock hv hl
        rw [dispatch_of_lock hdriven hl]
        exact returns_unlock htakes (signal_returns htakes.sound c s)
  · rw [dispatch]
    rw [if_neg hdriven]
    exact returns_refused hv rfl _

theorem hangup_returns (hv : e.locks.Sound) (c : ChannelId) : Returns e.locks (e.hangup c) := by
  rw [hangup]
  split
  · exact returns_settled hv rfl _
  · refine returns_of_eq hv (locks_modifyChannel e c rfl) ?_ ?_ <;> split <;> rfl

theorem send_returns (hv : e.locks.Sound) (c : ChannelId) (s : Signal) :
    Returns e.locks (e.send c s) := by
  cases s with
  | write frame =>
      rw [send]
      split
      · exact returns_settled hv rfl _
      · split
        · exact returns_of_eq hv rfl rfl rfl
        · exact returns_settled hv (locks_modifyChannel e c rfl) _
  | _ => exact returns_of_eq hv rfl rfl rfl

/-- Whatever a task does, but give a lock back, leaves the locks as they were when it is over. -/
theorem resume_returns (hv : e.locks.Sound) {t : Task} (ht : t.released = none) :
    Returns e.locks (e.resume t) := by
  cases t with
  | dispatch c s => exact dispatch_returns hv c s
  | hangup c => exact hangup_returns hv c
  | unlock c => cases ht
  | retry a => exact retry_returns hv a
  | write p c frame third => exact writeKnowing_returns hv p c frame third
  | complete survivor => exact complete_returns hv survivor
  | takeOver survivor clone => exact takeOver_returns hv survivor clone
  | _ => exact returns_of_eq hv rfl rfl rfl

end Exchange
end Switchboard
