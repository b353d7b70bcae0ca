import Mathlib.Data.List.Nodup
import Mathlib.Data.List.Range
import Switchboard.Exchange.Teardown

namespace Switchboard

namespace Pair

def opened (d : Destination) (requested : FormatMask) (jitterbuffer : Jitterbuffer)
    (owner chan : ChannelId) : Pair :=
  { destination := d, requested, jitterbuffer, owner, chan, ownerUse := .held, chanUse := .held }

def finished (x : Pair) : Pair :=
  if x.destroyed then x
  else
    { x with owner := none, chan := none, ownerUse := .dropped, chanUse := .dropped, destroyed := true }

def entered (x : Pair) : Pair := { x with glare := x.glare.enter }

def left (x : Pair) : Pair :=
  let y := { x with glare := x.glare.leave.2 }
  if x.glare.leave.1 = .destroy then y.finished else y

def retired (x : Pair) : Pair :=
  let y := { x with glare := x.glare.cancel.2 }
  if x.glare.cancel.1 then y else y.finished

def detached (x : Pair) (side : Side) : Pair :=
  if (x.clear side).isVacant then (x.clear side).retired else x.clear side

def replaced (x : Pair) (side : Side) (c : ChannelId) : Pair :=
  match side with
  | .owner => { x with owner := some c }
  | .chan => { x with chan := some c }

theorem isVacant_iff {x : Pair} : x.isVacant = true ↔ x.owner = none ∧ x.chan = none := by
  simp [isVacant]

theorem not_isVacant_iff {x : Pair} : x.isVacant = false ↔ ∃ side, x.endpoint side ≠ none := by
  constructor
  · intro h
    cases ho : x.owner with
    | some c => exact ⟨.owner, by simp [endpoint, ho]⟩
    | none =>
        cases hc : x.chan with
        | some c => exact ⟨.chan, by simp [endpoint, hc]⟩
        | none => simp [isVacant, ho, hc] at h
  · rintro ⟨side, h⟩
    cases side <;> simp_all [isVacant, endpoint, ← Option.isSome_iff_ne_none]

theorem isVacant_clear {x : Pair} {side : Side} (h : x.isVacant = true) :
    (x.clear side).isVacant = true := by
  rw [isVacant_iff] at h ⊢
  cases side <;> simp [clear, h]

@[simp] theorem isVacant_finished (x : Pair) (h : x.isVacant = true) : x.finished.isVacant = true := by
  rw [finished]
  split <;> simp_all [isVacant]

@[simp] theorem destroyed_finished (x : Pair) : x.finished.destroyed = true := by
  rw [finished]
  split <;> simp_all

@[simp] theorem glare_finished (x : Pair) : x.finished.glare = x.glare := by
  rw [finished]
  split <;> rfl

end Pair

namespace Exchange

theorem mem_pairIds {e : Exchange} {p : PairId} :
    p ∈ e.pairIds ↔ 0 < p.number ∧ p.number ≤ e.pairs.size := by
  obtain ⟨n⟩ := p
  simp only [pairIds, Table.numbers, List.mem_map, List.mem_range, PairId.mk.injEq]
  constructor
  · rintro ⟨_, ⟨i, hi, rfl⟩, rfl⟩
    omega
  · rintro ⟨hpos, hle⟩
    exact ⟨n, ⟨n - 1, by omega, by omega⟩, rfl⟩

theorem nodup_pairIds (e : Exchange) : e.pairIds.Nodup := by
  refine List.Nodup.map ?_ (List.Nodup.map ?_ List.nodup_range)
  · intro a b h
    exact PairId.mk.inj h
  · intro a b h
    exact Nat.succ.inj h

@[simp] theorem length_pairIds (e : Exchange) : e.pairIds.length = e.pairs.size := by
  simp [pairIds, Table.numbers]

theorem pairIds_ordered (e : Exchange) : e.pairIds.Pairwise (·.number < ·.number) := by
  simp only [pairIds, Table.numbers, List.pairwise_map]
  exact List.pairwise_lt_range.imp Nat.succ_lt_succ

theorem pairIds_eq_of_size {e e' : Exchange} (h : e'.pairs.size = e.pairs.size) :
    e'.pairIds = e.pairIds := by
  simp only [pairIds, Table.numbers, h]

theorem pair_of_not_mem {e : Exchange} {p : PairId} (h : p ∉ e.pairIds) : e.pair p = default := by
  have hn : ¬ (e.pairs.get? p.number).isSome := by rwa [Table.get?_isSome_iff, ← mem_pairIds]
  simp only [Bool.not_eq_true, Option.isSome_eq_false_iff, Option.isNone_iff_eq_none] at hn
  simp only [pair, Table.get, hn, Option.getD_none]

theorem mem_pairIds_of_endpoint {e : Exchange} {p : PairId} {side : Side}
    (h : (e.pair p).endpoint side ≠ none) : p ∈ e.pairIds := by
  by_contra hp
  rw [pair_of_not_mem hp] at h
  cases side <;> exact h rfl

theorem mem_pairIds_of_attached {e : Exchange} {p : PairId} {side : Side} {c : ChannelId}
    (h : (e.pair p).endpoint side = some c) : p ∈ e.pairIds :=
  mem_pairIds_of_endpoint (by rw [h]; exact Option.some_ne_none c)

/-- The record of one pair is another now, and the rest are as they were. -/
structure Revised (e e' : Exchange) (p : PairId) (x : Pair) : Prop where
  size : e'.pairs.size = e.pairs.size
  here : e'.pair p = x
  elsewhere : ∀ q ≠ p, e'.pair q = e.pair q

theorem Revised.trans {e₁ e₂ e₃ : Exchange} {p : PairId} {x y : Pair}
    (h : Revised e₁ e₂ p x) (h' : Revised e₂ e₃ p y) : Revised e₁ e₃ p y where
  size := h'.size.trans h.size
  here := h'.here
  elsewhere q hq := (h'.elsewhere q hq).trans (h.elsewhere q hq)

theorem Revised.pairIds {e e' : Exchange} {p : PairId} {x : Pair} (h : Revised e e' p x) :
    e'.pairIds = e.pairIds :=
  pairIds_eq_of_size h.size

theorem revised_modifyPair {e : Exchange} {p : PairId} (hp : p ∈ e.pairIds) (f : Pair → Pair) :
    Revised e (e.modifyPair p f) p (f (e.pair p)) where
  size := Table.size_modify _ _ _
  here := by
    obtain ⟨x, hx⟩ := Option.isSome_iff_exists.1 ((Table.get?_isSome_iff _ _).2 (mem_pairIds.1 hp))
    simp [pair, modifyPair, Table.get, Table.get?_modify, hx]
  elsewhere q hq := by
    have : p.number ≠ q.number := fun h => hq (by cases p; cases q; simp_all)
    simp [pair, modifyPair, Table.get, Table.get?_modify, this]

theorem revised_destroy {e : Exchange} {p : PairId} (hp : p ∈ e.pairIds) :
    Revised e (e.destroy p) p (e.pair p).finished := by
  unfold destroy Pair.finished
  by_cases h : (e.pair p).destroyed = true
  · simp only [h, if_true]
    exact ⟨rfl, rfl, fun _ _ => rfl⟩
  · simp only [h]
    have hm := revised_modifyPair hp fun r =>
      { r with owner := none, chan := none, ownerUse := .dropped, chanUse := .dropped, destroyed := true }
    exact ⟨hm.size, hm.here, hm.elsewhere⟩

theorem revised_leaveGlare {e : Exchange} {p : PairId} (hp : p ∈ e.pairIds) :
    Revised e (e.leaveGlare p) p (e.pair p).left := by
  have hm := revised_modifyPair hp fun r => { r with glare := (e.pair p).glare.leave.2 }
  unfold leaveGlare Pair.left
  by_cases h : (e.pair p).glare.leave.1 = .destroy
  · simp only [h, if_true]
    have hd := revised_destroy (hm.pairIds ▸ hp)
    rw [hm.here] at hd
    exact hm.trans hd
  · simpa only [h, if_false] using hm

theorem leaveGlare_of_live {e : Exchange} {p : PairId} (h : (e.pair p).glare.isCancelled = false) :
    e.leaveGlare p = e.modifyPair p fun r => { r with glare := (e.pair p).glare.leave.2 } := by
  have hexit : (e.pair p).glare.leave.1 ≠ .destroy := by
    cases hg : (e.pair p).glare <;> simp_all [Glare.isCancelled, Glare.leave]
  simp only [leaveGlare, hexit, if_false]

def cancelGlare (e : Exchange) (p : PairId) : Exchange :=
  { e with registry := e.registry.unlink p }.modifyPair p
    ({ · with glare := (e.pair p).glare.cancel.2 })

theorem retire_eq (e : Exchange) (p : PairId) :
    e.retire p = if (e.pair p).glare.cancel.1 then e.cancelGlare p
      else (e.cancelGlare p).destroy p :=
  rfl

theorem revised_cancelGlare {e : Exchange} {p : PairId} (hp : p ∈ e.pairIds) :
    Revised e (e.cancelGlare p) p { e.pair p with glare := (e.pair p).glare.cancel.2 } := by
  have hm := revised_modifyPair (e := { e with registry := e.registry.unlink p }) hp
    fun r => { r with glare := (e.pair p).glare.cancel.2 }
  exact ⟨hm.size, hm.here, hm.elsewhere⟩

theorem revised_retire {e : Exchange} {p : PairId} (hp : p ∈ e.pairIds) :
    Revised e (e.retire p) p (e.pair p).retired := by
  have hc := revised_cancelGlare hp
  rw [retire_eq]
  rw [Pair.retired]
  split
  · exact hc
  · have hd := revised_destroy (hc.pairIds ▸ hp)
    rw [hc.here] at hd
    exact hc.trans hd

def opened (e : Exchange) (x : Pair) : Exchange :=
  { e with
    pairs := e.pairs.push x
    registry := e.registry.register ⟨e.pairs.next⟩
    moduleUse := ⟨e.moduleUse.inUse + 2⟩ }

theorem pairIds_opened (e : Exchange) (x : Pair) :
    (e.opened x).pairIds = e.pairIds ++ [⟨e.pairs.next⟩] := by
  simp [pairIds, opened, Table.numbers, List.range_succ, Table.next]

theorem next_not_mem_pairIds (e : Exchange) : (⟨e.pairs.next⟩ : PairId) ∉ e.pairIds := by
  rw [mem_pairIds]
  simp [Table.next]

theorem pair_opened_next (e : Exchange) (x : Pair) : (e.opened x).pair ⟨e.pairs.next⟩ = x := by
  simp [pair, opened, Table.get, Table.get?_push]

theorem pair_opened_of_ne {e : Exchange} {q : PairId} (x : Pair) (hq : q ≠ ⟨e.pairs.next⟩) :
    (e.opened x).pair q = e.pair q := by
  have hne : q.number ≠ e.pairs.next := fun h => hq (congrArg PairId.mk h)
  simp [pair, opened, Table.get, Table.get?_push, hne]

theorem pair_opened_of_mem {e : Exchange} {q : PairId} (x : Pair) (hq : q ∈ e.pairIds) :
    (e.opened x).pair q = e.pair q :=
  pair_opened_of_ne x fun h => next_not_mem_pairIds e (h ▸ hq)

/-- A side given up, and the record with it if the other one is gone too. -/
def detach (e : Exchange) (p : PairId) (side : Side) : Exchange :=
  if ((e.clearSide p side).pair p).isVacant then (e.clearSide p side).retire p
  else e.clearSide p side

theorem revised_clearSide {e : Exchange} {p : PairId} (hp : p ∈ e.pairIds) (side : Side) :
    Revised e (e.clearSide p side) p ((e.pair p).clear side) := by
  have hm := revised_modifyPair hp (·.clear side)
  exact ⟨hm.size, hm.here, hm.elsewhere⟩

theorem revised_detach {e : Exchange} {p : PairId} (hp : p ∈ e.pairIds) (side : Side) :
    Revised e (e.detach p side) p ((e.pair p).detached side) := by
  have hc := revised_clearSide hp side
  unfold detach Pair.detached
  rw [hc.here]
  split
  · have hr := revised_retire (hc.pairIds ▸ hp)
    rw [hc.here] at hr
    exact hc.trans hr
  · exact hc

theorem registry_destroy (e : Exchange) (p : PairId) :
    (e.destroy p).registry =
      if (e.pair p).destroyed then e.registry else e.registry.noteDestroyed := by
  by_cases h : (e.pair p).destroyed = true
  · simp only [destroy, h, if_true]
  · simp only [destroy, h, Bool.false_eq_true, if_false]
    rfl

theorem registry_leaveGlare {e : Exchange} {p : PairId} (hp : p ∈ e.pairIds) :
    (e.leaveGlare p).registry =
      if (e.pair p).left.destroyed = (e.pair p).destroyed then e.registry
      else e.registry.noteDestroyed := by
  have hm := revised_modifyPair hp fun r => { r with glare := (e.pair p).glare.leave.2 }
  unfold leaveGlare Pair.left
  by_cases h : (e.pair p).glare.leave.1 = .destroy
  · simp only [h, if_true, registry_destroy, hm.here, Pair.destroyed_finished]
    cases (e.pair p).destroyed <;> rfl
  · simp only [h, if_false, if_true]
    rfl

theorem registry_retire {e : Exchange} {p : PairId} (hp : p ∈ e.pairIds) :
    (e.retire p).registry =
      if (e.pair p).retired.destroyed = (e.pair p).destroyed then e.registry.unlink p
      else (e.registry.unlink p).noteDestroyed := by
  have hc := revised_cancelGlare hp
  rw [retire_eq]
  rw [Pair.retired]
  by_cases h : (e.pair p).glare.cancel.1 = true
  · simp only [h, if_true]
    rfl
  · rw [if_neg h, if_neg h, registry_destroy, hc.here, Pair.destroyed_finished]
    cases (e.pair p).destroyed <;> rfl

theorem sideOf_eq_some {x : Pair} {c : ChannelId} {side : Side} (h : x.sideOf c = some side) :
    x.endpoint side = some c := by
  rw [Pair.sideOf] at h
  split at h
  · next hc => cases h; exact hc
  · split at h
    · next ho => cases h; exact ho
    · cases h

theorem membership_eq_some {e : Exchange} {c : ChannelId} {p : PairId} {side : Side}
    (h : e.membership c = some (p, side)) :
    e.recordOf c = some p ∧ (e.pair p).endpoint side = some c := by
  simp only [membership, Option.bind_eq_some_iff, Option.map_eq_some_iff, Prod.mk.injEq] at h
  obtain ⟨q, hq, s, hs, rfl, rfl⟩ := h
  exact ⟨hq, sideOf_eq_some hs⟩

theorem membership_of_chan {e : Exchange} {c : ChannelId} {p : PairId}
    (hslot : (e.channel c).slot = .pair p)
    (hc : (e.pair p).chan = some c) : e.membership c = some (p, .chan) := by
  simp [membership, recordOf, hslot, Pair.sideOf, hc]

theorem membership_of_endpoint {e : Exchange} {c : ChannelId} {p : PairId} {side : Side}
    (hslot : (e.channel c).slot = .pair p) (hend : (e.pair p).endpoint side = some c)
    (hapart : ∀ d, (e.pair p).owner = some d → (e.pair p).chan ≠ some d) :
    e.membership c = some (p, side) := by
  have hside : (e.pair p).sideOf c = some side := by
    cases side with
    | owner => exact (if_neg (hapart c hend)).trans (if_pos hend)
    | chan => exact if_pos hend
  simp only [membership, recordOf, hslot, Option.bind_some, hside, Option.map_some]

theorem modifyPair_congr {e : Exchange} {p : PairId} {f g : Pair → Pair}
    (h : f (e.pair p) = g (e.pair p)) : e.modifyPair p f = e.modifyPair p g := by
  obtain ⟨_ | i⟩ := p
  · rfl
  · simp only [pair, Table.get, Table.get?] at h
    simp only [modifyPair, Table.modify, List.modify_eq_set, h]

/-- A relay is an acquisition of the peer, once it has entered the cell. -/
theorem relay_eq (e : Exchange) (p : PairId) (side : Side) (frame : Frame)
    (source : Option ChannelId) (locked : Bool) :
    e.relay p side frame source locked =
      match (e.pair p).endpoint side.peer with
      | none => e.settled .relayed
      | some other =>
        if (e.pair p).phase.isMasqueraded || e.feedsBoth source other then e.settled .relayed
        else (e.modifyPair p Pair.entered).acquire
          ⟨p, side.peer, if locked then source else none, .relay frame source⟩ := rfl

end Exchange
end Switchboard
