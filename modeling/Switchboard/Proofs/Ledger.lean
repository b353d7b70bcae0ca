import Mathlib.Data.Multiset.Filter
import Mathlib.Logic.Relation
import Switchboard.Proofs.Records

namespace Switchboard

def Purpose.isRelay : Purpose → Bool
  | .relay _ _ => true
  | _ => false

def Purpose.leaving : Purpose → Option Side
  | .relay _ _ => none
  | .dialStatus _ _ => some .chan
  | .ownerLeaving _ => some .owner

def Task.pendingRetry : Task → Option (PairId × Bool)
  | .retry a => some (a.pair, a.purpose.isRelay)
  | _ => none

/-- The pairs on which relays and departures have backed off, with a mark at the relays. -/
def pendingRetries (tasks : List Task) : Multiset (PairId × Bool) :=
  tasks.filterMap Task.pendingRetry

@[simp] theorem pendingRetries_nil : pendingRetries [] = 0 := rfl

@[simp] theorem pendingRetries_append (ts us : List Task) :
    pendingRetries (ts ++ us) = pendingRetries ts + pendingRetries us := by
  simp [pendingRetries]

@[simp] theorem pendingRetries_retry (a : Acquisition) (ts : List Task) :
    pendingRetries (.retry a :: ts) = (a.pair, a.purpose.isRelay) ::ₘ pendingRetries ts := rfl

theorem pendingRetries_quiet {t : Task} {m : Multiset (PairId × Bool)} (h : t.pendingRetry = none) :
    pendingRetries [t] + m = m := by
  rw [pendingRetries, List.filterMap_cons_none h, List.filterMap_nil, Multiset.coe_nil,
    Multiset.zero_add]

@[simp] theorem pendingRetries_wait (a : Acquisition) :
    pendingRetries a.wait = {(a.pair, a.purpose.isRelay)} := by
  rw [Acquisition.wait]
  split <;> rfl

structure Ledger where
  exchange : Exchange
  pendingRetries : Multiset (PairId × Bool)

/-- What a turn may do to the records at once. A side is cleared while its endpoint is there, or
when a departure comes back from backing off; `found` says what records it may come back to. -/
inductive Ledger.Step (found : Pair → Prop) : Ledger → Ledger → Prop
  | enter (e m p side) (h : (e.pair p).endpoint side ≠ none) :
      Step found ⟨e, m⟩ ⟨e.modifyPair p Pair.entered, (p, true) ::ₘ m⟩
  | leave (e m p) : Step found ⟨e, (p, true) ::ₘ m⟩ ⟨e.leaveGlare p, m⟩
  | await (e m p side) (h : (e.pair p).endpoint side ≠ none) :
      Step found ⟨e, m⟩ ⟨e, (p, false) ::ₘ m⟩
  | detach (e m p side) (h : (e.pair p).endpoint side ≠ none ∨ found (e.pair p)) :
      Step found ⟨e, (p, false) ::ₘ m⟩ ⟨e.detach p side, m⟩
  | replace (e m p side c) (h : (e.pair p).endpoint side ≠ none) :
      Step found ⟨e, m⟩ ⟨e.modifyPair p (·.replaced side c), m⟩
  | rephase (e m p) (phase : Phase) (h : p ∈ e.pairIds) :
      Step found ⟨e, m⟩ ⟨e.modifyPair p ({ · with phase := phase }), m⟩

def Ledger.Steps (found : Pair → Prop) : Ledger → Ledger → Prop :=
  Relation.ReflTransGen (Step found)

namespace Exchange

def records (e : Exchange) : Exchange :=
  { config := e.config, pairs := e.pairs, registry := e.registry, moduleUse := e.moduleUse }

@[simp] theorem pair_records (e : Exchange) (p : PairId) : e.records.pair p = e.pair p := rfl

theorem pair_eq_of_records {e e' : Exchange} (h : e'.records = e.records) (p : PairId) :
    e'.pair p = e.pair p := by
  rw [← pair_records, h, pair_records]

theorem pairIds_eq_of_records {e e' : Exchange} (h : e'.records = e.records) :
    e'.pairIds = e.pairIds := by
  change e'.records.pairIds = e.records.pairIds
  rw [h]

@[simp] theorem records_modifyChannel (e : Exchange) (c : ChannelId) (f : Channel → Channel) :
    (e.modifyChannel c f).records = e.records := rfl

@[simp] theorem records_modifyPair (e : Exchange) (p : PairId) (f : Pair → Pair) :
    (e.modifyPair p f).records = e.records.modifyPair p f := rfl

@[simp] theorem records_clearSide (e : Exchange) (p : PairId) (side : Side) :
    (e.clearSide p side).records = e.records.clearSide p side := rfl

@[simp] theorem records_destroy (e : Exchange) (p : PairId) :
    (e.destroy p).records = e.records.destroy p := by
  unfold destroy
  by_cases h : (e.pair p).destroyed = true
  · simp only [pair_records, h, if_true]
  · simp only [pair_records, h, Bool.false_eq_true, if_false]
    rfl

@[simp] theorem records_leaveGlare (e : Exchange) (p : PairId) :
    (e.leaveGlare p).records = e.records.leaveGlare p := by
  unfold leaveGlare
  by_cases h : (e.pair p).glare.leave.1 = .destroy
  · simp only [pair_records, h, if_true, records_destroy, records_modifyPair]
  · simp only [pair_records, h, if_false, records_modifyPair]

@[simp] theorem records_retire (e : Exchange) (p : PairId) :
    (e.retire p).records = e.records.retire p := by
  rw [retire_eq, retire_eq, pair_records]
  split
  · rfl
  · exact records_destroy _ p

@[simp] theorem records_attemptLock (e : Exchange) (c : ChannelId) :
    (e.attemptLock c).2.records = e.records := by
  unfold attemptLock lock?
  cases (e.channel c).lock.lock? .main <;> rfl

@[simp] theorem records_tryLock (e : Exchange) (c : ChannelId) :
    (e.tryLock c).2.records = e.records := by
  rw [tryLock]
  split
  · rfl
  · exact records_attemptLock _ c

@[simp] theorem records_seek (e : Exchange) (p : PairId) (side : Side) :
    (e.seek p side).2.records = e.records := by
  rw [seek]
  cases (e.pair p).endpoint side with
  | none => rfl
  | some peer =>
      have h := records_tryLock e peer
      rcases hl : e.tryLock peer with ⟨_ | _, e'⟩ <;> simp only [hl] at h ⊢ <;> exact h

@[simp] theorem records_place (e : Exchange) (frame : Frame) (source : Option ChannelId)
    (peer : ChannelId) : (e.place frame source peer).records = e.records := by
  rw [place]
  cases source.bind fun s => (e.channel s).getVar busyPeer <;> dsimp only <;> split <;> rfl

@[simp] theorem records_releasePeer (e : Exchange) (peer : Option ChannelId) :
    (e.releasePeer peer).records = e.records := by
  cases peer <;> rfl

end Exchange

def Turn.ledger (t : Turn) (m : Multiset (PairId × Bool)) : Ledger :=
  ⟨t.1.records, pendingRetries t.2 + m⟩

theorem Turn.ledger_append (t : Turn) (us : List Task) (m : Multiset (PairId × Bool))
    (h : pendingRetries us = 0) : Turn.ledger (t.1, t.2 ++ us) m = t.ledger m := by
  simp [Turn.ledger, h]

theorem Turn.ledger_of_none (e : Exchange) (ts : List Task) (m : Multiset (PairId × Bool))
    (h : pendingRetries ts = 0) : Turn.ledger (e, ts) m = ⟨e.records, m⟩ := by
  simp [Turn.ledger, h]

@[simp] theorem Turn.ledger_settled (e : Exchange) (a : Answer) (m : Multiset (PairId × Bool)) :
    (e.settled a).ledger m = ⟨e.records, m⟩ := Turn.ledger_of_none e _ m rfl

@[simp] theorem Turn.ledger_refused (e : Exchange) (why : ChannelError)
    (m : Multiset (PairId × Bool)) :
    (e.refused why).ledger m = ⟨e.records, m⟩ := Turn.ledger_of_none e _ m rfl

namespace Exchange

variable {found : Pair → Prop} (e : Exchange) (m : Multiset (PairId × Bool))

theorem quiet_steps {e e' : Exchange} {ts : List Task} {m : Multiset (PairId × Bool)}
    (h : e'.records = e.records) (ht : pendingRetries ts = 0) :
    Ledger.Steps found ⟨e.records, m⟩ (Turn.ledger (e', ts) m) := by
  rw [Turn.ledger_of_none _ _ _ ht, h]
  exact .refl

/-- Steps in which no acquisition backs off or comes to its end. -/
def Alters (found : Pair → Prop) (e e' : Exchange) : Prop :=
  ∀ m, Ledger.Steps found ⟨e.records, m⟩ ⟨e'.records, m⟩

theorem alters_of_eq {e e' : Exchange} (h : e'.records = e.records) : Alters found e e' := by
  intro m
  rw [h]
  exact .refl

theorem Alters.trans {e₁ e₂ e₃ : Exchange} (h : Alters found e₁ e₂) (h' : Alters found e₂ e₃) :
    Alters found e₁ e₃ := fun m => Relation.ReflTransGen.trans (h m) (h' m)

theorem alters_rephase {e : Exchange} {p : PairId} (phase : Phase) (hp : p ∈ e.pairIds) :
    Alters found e (e.modifyPair p ({ · with phase := phase })) :=
  fun m => .single (.rephase e.records m p phase hp)

theorem Alters.steps {e e' : Exchange} {ts : List Task} (h : Alters found e e')
    (ht : pendingRetries ts = 0) (m : Multiset (PairId × Bool)) :
    Ledger.Steps found ⟨e.records, m⟩ (Turn.ledger (e', ts) m) := by
  rw [Turn.ledger_of_none _ _ _ ht]
  exact h m

theorem lock_records {e e' : Exchange} {c : ChannelId} (h : e.lock? c = some e') :
    e'.records = e.records := by
  obtain ⟨_, _, rfl⟩ := Option.map_eq_some_iff.1 h
  rfl

end Exchange
end Switchboard
