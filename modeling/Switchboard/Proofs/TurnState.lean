import Mathlib.Logic.Relation
import Switchboard.Proofs.ExchangeView

namespace Switchboard

def Purpose.leaver : Purpose → Option ChannelId
  | .relay _ _ => none
  | .dialStatus leaver _ | .ownerLeaving leaver => some leaver

def Purpose.message : Purpose → Option Frame
  | .relay frame _ => some frame
  | .dialStatus _ _ => none
  | .ownerLeaving _ => some (.bare .hangup)

def Task.acquisition : Task → Option Acquisition
  | .retry a => some a
  | _ => none

def Task.hangupTarget : Task → Option ChannelId
  | .hangup c => some c
  | _ => none

/-- The acquisitions that have backed off, the latest first. -/
def backedOff (tasks : List Task) : List Acquisition := tasks.filterMap Task.acquisition

def hangupTasks (tasks : List Task) : List ChannelId := tasks.filterMap Task.hangupTarget

theorem mem_backedOff {a : Acquisition} {ts : List Task} : a ∈ backedOff ts ↔ .retry a ∈ ts := by
  rw [backedOff, List.mem_filterMap]
  constructor
  · rintro ⟨t, ht, ha⟩
    cases t <;> cases ha
    exact ht
  · exact fun h => ⟨.retry a, h, rfl⟩

@[simp] theorem backedOff_append (ts us : List Task) :
    backedOff (ts ++ us) = backedOff ts ++ backedOff us :=
  List.filterMap_append

@[simp] theorem hangupTasks_append (ts us : List Task) :
    hangupTasks (ts ++ us) = hangupTasks ts ++ hangupTasks us :=
  List.filterMap_append

@[simp] theorem backedOff_wait (a : Acquisition) : backedOff a.wait = [a] := by
  rw [Acquisition.wait]
  split <;> rfl

@[simp] theorem hangupTasks_wait (a : Acquisition) : hangupTasks a.wait = [] := by
  rw [Acquisition.wait]
  split <;> rfl

/-- What a task may be entitled to. -/
inductive Effect
  | carries (a : Acquisition)
  | calls (p : PairId)
  | serves (c : ChannelId)
  | marks (c : ChannelId)
  | swaps (survivor clone : ChannelId)
  | reseats (old new : ChannelId)
  | feeds (c : ChannelId)
  | refits (c : ChannelId)
  | registers (b : Bool)

namespace Exchange

/-- A side is left: it is cleared, and the record ends with the last of them; the leaver keeps
nothing of the pair. -/
def vacate (e : Exchange) (p : PairId) (side : Side) (leaver : ChannelId) : Exchange :=
  (e.detach p side).setSlot leaver .empty

def leftUnserved (e : Exchange) (p : PairId) (side : Side) : List ChannelId :=
  if ((e.clearSide p side).pair p).isVacant then []
  else (unserved ((e.clearSide p side).pair p)).toList

def serve (e : Exchange) (c : ChannelId) : Exchange :=
  e.modifyChannel c ({ · with dialplanStarted := true })

structure Grown (e e' : Exchange) : Prop where
  pairs : e'.pairs = e.pairs
  channels : e.channels.size ≤ e'.channels.size
  registered : e'.proxyRegistered = e.proxyRegistered
  channelView : ∀ c, (e'.channel c).channelView = (e.channel c).channelView ∨
    ¬ c.Among e.channels.size ∧ ∃ t, (e'.channel c).channelView = .unused .empty t

theorem Grown.pair {e e' : Exchange} (h : e.Grown e') (p : PairId) : e'.pair p = e.pair p := by
  simp only [Exchange.pair, h.pairs]

structure Opened (e e' : Exchange) (p : PairId) (owner chan : ChannelId) : Prop where
  new : p ∉ e.pairIds
  record : ∃ d format j, (e'.pair p) = .opened d format j owner chan
  elsewhere : ∀ q ≠ p, e'.pair q = e.pair q
  pairs : e.pairs.size ≤ e'.pairs.size
  channels : e.channels.size ≤ e'.channels.size
  registered : e'.proxyRegistered = e.proxyRegistered
  apart : owner ≠ chan
  made : ∀ c, c = owner ∨ c = chan → ¬ c.Among e.channels.size ∧ c.Among e'.channels.size ∧
    (e'.channel c).channelView = .unused (.pair p) .proxy
  channelView : ∀ c, c ≠ owner → c ≠ chan → (e'.channel c).channelView = (e.channel c).channelView

end Exchange

/-- An exchange with the acquisitions that are not over, the latest first, and the channels that are
about to be hung up. -/
structure TurnState where
  exchange : Exchange
  waiting : List Acquisition
  toHangUp : List ChannelId := []

open Exchange in
/-- One effect of a turn; `may` says which effects it is entitled to. -/
inductive TurnState.Step (may : Effect → Prop) : TurnState → TurnState → Prop
  | quiet {e e' w d} (h : e'.view = e.view) : Step may ⟨e, w, d⟩ ⟨e', w, d⟩
  | enter (e w d) (a : Acquisition) (hmay : may (.carries a)) (hrelay : a.purpose.isRelay = true)
      (hend : (e.pair a.pair).endpoint a.side ≠ none)
      (hphase : (e.pair a.pair).phase.isMasqueraded = false) :
      Step may ⟨e, w, d⟩ ⟨e.modifyPair a.pair Pair.entered, a :: w, d⟩
  | start (e w d) (a : Acquisition) {side leaver} (hmay : may (.carries a))
      (hside : a.purpose.leaving = some side) (hleaver : a.purpose.leaver = some leaver)
      (hmember : e.membership leaver = some (a.pair, side)) : Step may ⟨e, w, d⟩ ⟨e, a :: w, d⟩
  | queue (e w d) (a : Acquisition) (c f) (hmay : may (.carries a))
      (hend : (e.pair a.pair).endpoint a.side = some c) (hmessage : a.purpose.message = some f)
      (hphase : a.purpose.isRelay = true → (e.pair a.pair).phase.isMasqueraded = false) :
      Step may ⟨e, a :: w, d⟩ ⟨e.queueFrame c f, a :: w, d⟩
  | leave (e w d) (a : Acquisition) (hrelay : a.purpose.isRelay = true) :
      Step may ⟨e, a :: w, d⟩ ⟨e.leaveGlare a.pair, w, d⟩
  | depart (e w d) (a : Acquisition) {side leaver} (hside : a.purpose.leaving = some side)
      (hleaver : a.purpose.leaver = some leaver) :
      Step may ⟨e, a :: w, d⟩ ⟨e.vacate a.pair side leaver, w, e.leftUnserved a.pair side ++ d⟩
  | call (e w d p chan) (hmay : may (.calls p)) (hchan : (e.pair p).chan = some chan) :
      Step may ⟨e, w, d⟩ ⟨(e.serve chan).modifyPair p ({ · with phase := .dialplanLaunched }), w, d⟩
  | serve (e w d c) (hmay : may (.serves c)) : Step may ⟨e, w, d⟩ ⟨e.serve c, w, d⟩
  | optimize (e w d p) : Step may ⟨e, w, d⟩ ⟨e.modifyPair p ({ · with phase := .optimized }), w, d⟩
  | mark (e w d c) (hmay : may (.marks c)) :
      Step may ⟨e, w, d⟩ ⟨e.modifyChannel c ({ · with hungup := true }), w, d⟩
  | scheduleHangup (e w d c) : Step may ⟨e, w, d⟩ ⟨e, w, c :: d⟩
  | swap (e w d survivor clone) (hmay : may (.swaps survivor clone)) :
      Step may ⟨e, w, d⟩ ⟨e.swapIdentities survivor clone, w, d⟩
  | reseat (e w d p side old new) (hmay : may (.reseats old new)) (hslot : e.recordOf new = some p)
      (hend : (e.pair p).endpoint side = some old) :
      Step may ⟨e, w, d⟩ ⟨e.modifyPair p (·.replaced side new), w, d⟩
  | feed (e w d c) (g : List Frame → List Frame) (hmay : may (.feeds c)) :
      Step may ⟨e, w, d⟩ ⟨e.modifyChannel c fun x => { x with frames := g x.frames }, w, d⟩
  | refit (e w d c s) (hmay : may (.refits c)) : Step may ⟨e, w, d⟩ ⟨e.setSlot c s, w, d⟩
  | grow {e e' w d} (h : e.Grown e') : Step may ⟨e, w, d⟩ ⟨e', w, d⟩
  | opened {e e' w d p owner chan} (h : e.Opened e' p owner chan) : Step may ⟨e, w, d⟩ ⟨e', w, d⟩
  | register (e w d b) (hmay : may (.registers b)) :
      Step may ⟨e, w, d⟩ ⟨{ e with proxyRegistered := b }, w, d⟩

def TurnState.Leads (may : Effect → Prop) : TurnState → TurnState → Prop :=
  Relation.ReflTransGen (Step may)

def Turn.state (t : Turn) (w : List Acquisition) (d : List ChannelId) : TurnState :=
  ⟨t.1, backedOff t.2 ++ w, hangupTasks t.2 ++ d⟩

namespace Turn

theorem state_append (e : Exchange) (ts us : List Task) (w : List Acquisition) (d : List ChannelId)
    (hw : backedOff us = []) (hd : hangupTasks us = []) :
    Turn.state (e, ts ++ us) w d = Turn.state (e, ts) w d := by
  simp [Turn.state, hw, hd]

theorem state_of_nil (e : Exchange) (ts : List Task) (w : List Acquisition) (d : List ChannelId)
    (hw : backedOff ts = []) (hd : hangupTasks ts = []) : Turn.state (e, ts) w d = ⟨e, w, d⟩ := by
  simp [Turn.state, hw, hd]

@[simp] theorem state_settled (e : Exchange) (a : Answer) (w : List Acquisition)
    (d : List ChannelId) :
    (e.settled a).state w d = ⟨e, w, d⟩ := rfl

end Turn

namespace TurnState

variable {may : Effect → Prop} {x y z : TurnState} {e e' : Exchange} {w : List Acquisition}
    {d : List ChannelId}

theorem Leads.trans (h : Leads may x y) (h' : Leads may y z) : Leads may x z :=
  Relation.ReflTransGen.trans h h'

theorem leads_quiet (h : e'.view = e.view) : Leads may ⟨e, w, d⟩ ⟨e', w, d⟩ := .single (.quiet h)

theorem leads_nil {ts : List Task} (h : e'.view = e.view) (hw : backedOff ts = [])
    (hd : hangupTasks ts = []) :
    Leads may ⟨e, w, d⟩ (Turn.state (e', ts) w d) := by
  rw [Turn.state_of_nil _ _ _ _ hw hd]
  exact leads_quiet h

theorem Leads.turn {ts : List Task} (h : Leads may x ⟨e, w, d⟩) (hw : backedOff ts = [])
    (hd : hangupTasks ts = []) : Leads may x (Turn.state (e, ts) w d) := by
  rwa [Turn.state_of_nil _ _ _ _ hw hd]

theorem Leads.after (h : Leads may ⟨e', w, d⟩ y) (he : e'.view = e.view) : Leads may ⟨e, w, d⟩ y :=
  (leads_quiet he).trans h

theorem Leads.mono {may' : Effect → Prop} (h : Leads may x y)
    (hmay : ∀ effect, may effect → may' effect) :
    Leads may' x y := by
  refine Relation.ReflTransGen.mono (fun x y hxy => ?_) x y h
  cases hxy with
  | quiet h => exact .quiet h
  | enter e w d a h hrelay hend hphase => exact .enter e w d a (hmay _ h) hrelay hend hphase
  | start e w d a h hside hleaver hmember => exact .start e w d a (hmay _ h) hside hleaver hmember
  | queue e w d a c f h hend hmessage hphase =>
      exact .queue e w d a c f (hmay _ h) hend hmessage hphase
  | leave e w d a hrelay => exact .leave e w d a hrelay
  | depart e w d a hside hleaver => exact .depart e w d a hside hleaver
  | call e w d p chan h hchan => exact .call e w d p chan (hmay _ h) hchan
  | serve e w d c h => exact .serve e w d c (hmay _ h)
  | optimize e w d p => exact .optimize e w d p
  | mark e w d c h => exact .mark e w d c (hmay _ h)
  | scheduleHangup e w d c => exact .scheduleHangup e w d c
  | swap e w d survivor clone h => exact .swap e w d survivor clone (hmay _ h)
  | reseat e w d p side old new h hslot hend =>
      exact .reseat e w d p side old new (hmay _ h) hslot hend
  | feed e w d c g h => exact .feed e w d c g (hmay _ h)
  | refit e w d c s h => exact .refit e w d c s (hmay _ h)
  | grow h => exact .grow h
  | opened h => exact .opened h
  | register e w d b h => exact .register e w d b (hmay _ h)

end TurnState
end Switchboard
