import Switchboard.Proofs.Ledger.Teardown
import Switchboard.Proofs.Places.Frame

namespace Switchboard

/-- The fields of a channel that the effects of a turn are stated about. -/
structure ChannelView where
  slot : Slot
  technology : Technology
  frames : List Frame
  hungup : Bool
  dialplanStarted : Bool

def Channel.channelView (x : Channel) : ChannelView :=
  ⟨x.slot, x.technology, x.frames, x.hungup, x.dialplanStarted⟩

def ChannelView.unused (slot : Slot) (technology : Technology) : ChannelView :=
  ⟨slot, technology, [], false, false⟩

@[ext]
structure ExchangeView where
  channelView : ChannelId → ChannelView
  pairs : Table Pair
  channels : Nat
  registered : Bool

namespace Exchange

def view (e : Exchange) : ExchangeView where
  channelView c := (e.channel c).channelView
  pairs := e.pairs
  channels := e.channels.size
  registered := e.proxyRegistered

theorem channelView_eq_of_view {e e' : Exchange} (h : e'.view = e.view) (c : ChannelId) :
    (e'.channel c).channelView = (e.channel c).channelView :=
  congrFun (congrArg ExchangeView.channelView h) c

theorem pair_eq_of_view {e e' : Exchange} (h : e'.view = e.view) (p : PairId) :
    e'.pair p = e.pair p := by
  have hpairs : e'.pairs = e.pairs := congrArg ExchangeView.pairs h
  simp only [pair, hpairs]

theorem channel_eq_of_channels {e e' : Exchange} (h : e'.channels = e.channels) (c : ChannelId) :
    e'.channel c = e.channel c := by
  simp only [channel, h]

theorem size_eq_of_view {e e' : Exchange} (h : e'.view = e.view) :
    e'.channels.size = e.channels.size :=
  congrArg ExchangeView.channels h

theorem slot_of_recordOf {e : Exchange} {c : ChannelId} {p : PairId} (h : e.recordOf c = some p) :
    (e.channel c).slot = .pair p := by
  rw [recordOf] at h
  split at h
  · next hq => rw [hq, Option.some.inj h]
  · cases h

theorem recordOf_eq_of_view {e e' : Exchange} (h : e'.view = e.view) (c : ChannelId) :
    e'.recordOf c = e.recordOf c := by
  have hslot : (e'.channel c).slot = (e.channel c).slot :=
    congrArg ChannelView.slot (channelView_eq_of_view h c)
  simp only [recordOf, hslot]

theorem membership_eq_of_view {e e' : Exchange} (h : e'.view = e.view) (c : ChannelId) :
    e'.membership c = e.membership c := by
  have hpair : e'.pair = e.pair := funext (pair_eq_of_view h)
  simp only [membership, recordOf_eq_of_view h c, hpair]

variable (e : Exchange)

theorem view_modifyChannel (c : ChannelId) {f : Channel → Channel}
    (h : (f (e.channel c)).channelView = (e.channel c).channelView) :
    (e.modifyChannel c f).view = e.view :=
  ExchangeView.ext (funext fun d => channel_modifyChannel_congr Channel.channelView e c d h) rfl
    (Table.size_modify _ _ _) rfl

theorem view_lock {e e' : Exchange} {c : ChannelId} (h : e.lock? c = some e') :
    e'.view = e.view := by
  obtain ⟨_, _, rfl⟩ := Option.map_eq_some_iff.1 h
  exact view_modifyChannel e c rfl

@[simp] theorem view_attemptLock (c : ChannelId) : (e.attemptLock c).2.view = e.view := by
  rw [attemptLock]
  cases h : e.lock? c with
  | none => rfl
  | some e' => exact view_lock h

@[simp] theorem view_tryLock (c : ChannelId) : (e.tryLock c).2.view = e.view := by
  rw [tryLock]
  split
  · rfl
  · exact view_attemptLock _ c

@[simp] theorem view_unlock (c : ChannelId) : (e.unlock c).view = e.view :=
  view_modifyChannel e c rfl

@[simp] theorem view_avoidDeadlock (c : ChannelId) : (e.avoidDeadlock c).view = e.view :=
  view_modifyChannel e c rfl

@[simp] theorem view_setState (c : ChannelId) (s : ChannelState) : (e.setState c s).view = e.view :=
  view_modifyChannel e c rfl

@[simp] theorem view_softHangup (c : ChannelId) (cause : SoftHangupCause) :
    (e.softHangup c cause).view = e.view :=
  view_modifyChannel e c rfl

@[simp] theorem view_setVar (c : ChannelId) (name value : String) :
    (e.setVar c name value).view = e.view :=
  view_modifyChannel e c rfl

@[simp] theorem view_setAnsweredElsewhere (c : ChannelId) :
    (e.setAnsweredElsewhere c).view = e.view :=
  view_modifyChannel e c rfl

@[simp] theorem view_startMusic (c : ChannelId) (musicclass : Option String) :
    (e.startMusic c musicclass).view = e.view :=
  view_modifyChannel e c rfl

@[simp] theorem view_stopMusic (c : ChannelId) : (e.stopMusic c).view = e.view :=
  view_modifyChannel e c rfl

@[simp] theorem view_releasePeer (peer : Option ChannelId) :
    (e.releasePeer peer).view = e.view := by
  cases peer with
  | none => rfl
  | some c => exact view_unlock e c

@[simp] theorem view_seek (p : PairId) (side : Side) : (e.seek p side).2.view = e.view := by
  rw [seek]
  cases (e.pair p).endpoint side with
  | none => rfl
  | some peer =>
      have h := view_tryLock e peer
      rcases hl : e.tryLock peer with ⟨_ | _, e'⟩ <;> simp only [hl] at h ⊢ <;> exact h

theorem view_passAnsweredElsewhere (p : PairId) (leaver : ChannelId) :
    (e.passAnsweredElsewhere p leaver).view = e.view := by
  rw [passAnsweredElsewhere]
  split
  · cases (e.pair p).chan with
    | none => rfl
    | some chan => exact view_setAnsweredElsewhere e chan
  · rfl

theorem view_transfer (a b : ChannelId) (what : Transfer) :
    (e.transfer a b what).view = e.view := by
  cases what <;> unfold transfer
  · rw [setBridge]
    rw [view_modifyChannel, view_modifyChannel] <;> rfl
  · exact view_modifyChannel e b rfl
  · rw [moveGroups]
    rw [view_modifyChannel, view_modifyChannel] <;> rfl
  · rw [swapMonitors]
    rw [view_modifyChannel, view_modifyChannel, view_modifyChannel] <;> rfl
  · rw [swapAudiohooks]
    rw [view_modifyChannel, view_modifyChannel, view_modifyChannel] <;> rfl

theorem view_swapMonitors (a b : ChannelId) : (e.swapMonitors a b).view = e.view :=
  view_transfer e a b .monitors

theorem view_handOver (owner chan : ChannelId) : (e.handOver owner chan).view = e.view := by
  rw [handOver]
  exact (view_transfer _ owner chan .datastores).trans (view_modifyChannel e chan rfl)

theorem view_gatherAttachments (owner chan third : ChannelId) :
    (e.gatherAttachments owner chan third).view = e.view := by
  have hhooks := fun x : Exchange => view_transfer x chan owner .audiohooks
  have hgroups := fun x : Exchange => view_transfer x chan owner .groups
  simp only [transfer] at hhooks hgroups
  rw [gatherAttachments]
  rw [hgroups]
  split <;> split <;> simp only [hhooks, view_swapMonitors]

theorem view_masquerade (survivor clone : ChannelId) :
    (e.masquerade survivor clone).2.view = e.view := by
  rw [masquerade]
  split
  · rfl
  · exact view_modifyChannel e survivor rfl

theorem view_completeMasquerade (survivor : ChannelId) :
    (e.completeMasquerade survivor).1.view = e.view := by
  rw [completeMasquerade]
  cases (e.channel survivor).pendingMasquerade with
  | none => rfl
  | some clone => exact view_modifyChannel e survivor rfl

theorem view_unload : e.unload.2.view = e.view := by
  rw [unload]
  generalize e.registry.pairs.filterMap _ = owners
  induction owners generalizing e with
  | nil => rfl
  | cons c owners ih =>
      exact (ih (e.softHangup c .appUnload)).trans (view_softHangup e c .appUnload)

theorem view_applyLocking (c : ChannelId) (what : Locking) :
    (e.applyLocking c what).1.view = e.view := by
  cases what with
  | lock =>
      rw [applyLocking]
      cases h : e.lock? c with
      | none => rfl
      | some e' => exact view_lock h
  | tryLock => exact view_attemptLock e c
  | unlock => exact view_unlock e c
  | avoidDeadlock =>
      rw [applyLocking]
      split
      · exact view_avoidDeadlock e c
      · rfl
  | hold =>
      rw [applyLocking]
      split
      · exact view_modifyChannel e c rfl
      · rfl
  | releaseHold => exact view_modifyChannel e c rfl
  | _ => rfl

theorem view_addExtension (context exten : String) :
    (e.addExtension context exten).view = e.view := by
  rw [addExtension]
  split <;> rfl

theorem view_deviceState (device : String) : (e.deviceState device).2.view = e.view := by
  rw [deviceState]
  split <;> rfl

/-- Before it is queued, placing a frame changes nothing that the view shows. -/
theorem view_place (frame : Frame) (source : Option ChannelId) (peer : ChannelId) :
    ∃ e' : Exchange, e'.view = e.view ∧ e.place frame source peer = e'.queueFrame peer frame := by
  rw [place]
  refine ⟨_, ?_, rfl⟩
  cases source.bind fun s => (e.channel s).getVar busyPeer <;> dsimp only <;> split <;> simp

end Exchange
end Switchboard
