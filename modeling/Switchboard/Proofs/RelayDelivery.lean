import Switchboard.Proofs.RelayTurns
import Switchboard.Proofs.LockRestoration
import Switchboard.Proofs.HangupNews

namespace Switchboard

namespace Exchange

/-- The relay drops its frame at once: nobody is on the other side, the pair has been masqueraded,
or both the sender and its peer are fed by generators. -/
def Barred (e : Exchange) (p : PairId) (side : Side) (source : Option ChannelId) : Prop :=
  (e.pair p).endpoint side.peer = none ∨ (e.pair p).phase.isMasqueraded = true ∨
    ∃ other, (e.pair p).endpoint side.peer = some other ∧ ∃ s, source = some s ∧
      (e.channel s).generator = true ∧ (e.channel other).generator = true

def tried (e : Exchange) (p : PairId) (side : Side) : Exchange :=
  match (e.pair p).endpoint side with
  | some c => e.spent c
  | none => e

variable {e : Exchange} {p : PairId} {side : Side} {frame : Frame} {source lock : Option ChannelId}

theorem relay_barred (h : e.Barred p side source) (locked : Bool) :
    e.relay p side frame source locked = e.settled .relayed := by
  rw [relay_eq]
  cases hend : (e.pair p).endpoint side.peer with
  | none => rfl
  | some other =>
      dsimp only
      rcases h with hnone | hmasqueraded | ⟨other', hother, s, rfl, hs, ho⟩
      · rw [hend] at hnone
        cases hnone
      · rw [hmasqueraded, Bool.true_or, if_pos rfl]
      · obtain rfl := Option.some.inj (hend.symm.trans hother)
        simp [feedsBoth, hs, ho]

theorem relay_entered (h : ¬ e.Barred p side source) (locked : Bool) :
    e.relay p side frame source locked = (e.modifyPair p Pair.entered).acquire
      ⟨p, side.peer, if locked then source else none, .relay frame source⟩ := by
  rw [relay_eq]
  cases hend : (e.pair p).endpoint side.peer with
  | none => exact absurd (.inl hend) h
  | some other =>
      dsimp only
      rw [if_neg]
      rintro hdrop
      rw [Bool.or_eq_true] at hdrop
      rcases hdrop with hmasqueraded | hfed
      · exact h (.inr (.inl hmasqueraded))
      · cases source with
        | none => cases hfed
        | some s =>
            rw [feedsBoth, Option.any_some, Bool.and_eq_true] at hfed
            exact h (.inr (.inr ⟨other, hend, s, rfl, hfed⟩))

end Exchange

namespace Session

open Exchange

variable {p : PairId} {side : Side} {frame : Frame} {source lock : Option ChannelId} {locked : Bool}
  {rest below : List Task} {a : Acquisition}

theorem comes_before {s : Nat → Session} {n : Nat} (waits : Session → Prop)
    {quiet comes : Nat → Prop}
    (hstart : waits (s 0)) (hover : ¬ waits (s n))
    (hmove : ∀ k < n, waits (s k) → waits (s (k + 1)) ∧ quiet k ∨ comes k) :
    ∃ j < n, comes j ∧ ∀ k < j, quiet k := by
  by_contra hnone
  have hwaits : ∀ k ≤ n, waits (s k) ∧ ∀ i < k, quiet i := by
    intro k
    induction k with
    | zero => exact fun _ => ⟨hstart, fun i hi => absurd hi (Nat.not_lt_zero i)⟩
    | succ k ih =>
        intro hk
        obtain ⟨hwaiting, hquiet⟩ := ih (Nat.le_of_succ_le hk)
        rcases hmove k hk hwaiting with ⟨hstill, hcontained⟩ | hcomes
        · refine ⟨hstill, fun i hi => ?_⟩
          rcases Nat.lt_succ_iff_lt_or_eq.1 hi with hlt | rfl
          · exact hquiet i hlt
          · exact hcontained
        · exact absurd ⟨k, hk, hcomes, hquiet⟩ hnone
  exact hover (hwaits n (Nat.le_refl n)).1

/-- What the relay finds in its turns: in the first it enters the cell before anything else. -/
def found (s : Nat → Session) (p : PairId) : Nat → Exchange
  | 0 => (s 0).exchange.modifyPair p Pair.entered
  | k + 1 => (s (k + 1)).exchange

theorem step_retry {s : Session} (hagenda : s.agenda = .retry a :: below) :
    s.step = ({ s with agenda := below } : Session).turn (s.exchange.acquire a) := by
  rw [← retry_eq]
  exact step_perform hagenda

def ringing : List Operation :=
  [.request .dispatched "Local" "100@internal" ⟨4⟩, .edit ⟨1⟩ (.setVar "Busy-Peer" "yes"),
    .scriptLocks ⟨2⟩ [false], .onBackOff [.relay ⟨1⟩ .owner (.bare .ringing) none false],
    .relay ⟨1⟩ .owner (.bare .ringing) (some ⟨1⟩) true]

end Session
end Switchboard
