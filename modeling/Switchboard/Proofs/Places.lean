import Switchboard.Channel
import Switchboard.Pair

namespace Switchboard

/-- What says where a channel belongs, and which channels it is about to meet. -/
structure Place where
  slot : Slot
  technology : Technology
  bridge : Option ChannelId
  pending : Option ChannelId

def Channel.place (x : Channel) : Place := ⟨x.slot, x.technology, x.bridge, x.pendingMasquerade⟩

@[ext]
structure Places where
  place : ChannelId → Place
  seat : PairId → Side → Option ChannelId
  cancelled : PairId → Bool
  channels : Nat
  registered : Bool

def ChannelId.Among (c : ChannelId) (channels : Nat) : Prop := 0 < c.number ∧ c.number ≤ channels

theorem ChannelId.Among.mono {c : ChannelId} {m n : Nat} (h : c.Among m) (hle : m ≤ n) :
    c.Among n :=
  ⟨h.1, Nat.le_trans h.2 hle⟩

namespace Places

/-- Slots and sides match: a slot holds the pair on a side of which the channel is, behind the proxy
driver, and no channel is on both sides or on a side of a cancelled record. -/
structure Matched (v : Places) : Prop where
  agree : ∀ c p, (v.place c).slot = .pair p ↔ ∃ side, v.seat p side = some c
  driven : ∀ c p, (v.place c).slot = .pair p → (v.place c).technology = .proxy
  apart : ∀ p c, v.seat p .owner = some c → v.seat p .chan ≠ some c
  empty : ∀ p, v.cancelled p = true → ∀ side, v.seat p side = none
  bridged : ∀ c b, (v.place c).bridge = some b → b.Among v.channels
  pending : ∀ c b, (v.place c).pending = some b → b.Among v.channels
  registered : v.registered = true

variable {v v' : Places} {p : PairId} {side : Side} {c s : ChannelId}

theorem Matched.kept (h : v.Matched) (hslot : ∀ c, (v'.place c).slot = (v.place c).slot)
    (htechnology : ∀ c, (v'.place c).technology = (v.place c).technology) (hseat : v'.seat = v.seat)
    (hempty : ∀ p, v'.cancelled p = true → v.cancelled p = true ∨ ∀ side, v.seat p side = none)
    (hbridged : ∀ c b, (v'.place c).bridge = some b → b.Among v'.channels)
    (hpending : ∀ c b, (v'.place c).pending = some b → b.Among v'.channels)
    (hregistered : v'.registered = v.registered) : v'.Matched where
  agree c p := by
    rw [hslot, hseat]
    exact h.agree c p
  driven c p := by
    rw [hslot, htechnology]
    exact h.driven c p
  apart p c := by
    rw [hseat]
    exact h.apart p c
  empty p hp side := by
    rw [hseat]
    rcases hempty p hp with hc | hnone
    · exact h.empty p hc side
    · exact hnone side
  bridged := hbridged
  pending := hpending
  registered := hregistered.trans h.registered

def put (v : Places) (c : ChannelId) (g : Place → Place) : Places :=
  { v with place := fun d => if d = c then g (v.place d) else v.place d }

theorem Matched.unique (h : v.Matched) {q : PairId} {side' : Side} (hs : v.seat p side = some s)
    (hs' : v.seat q side' = some s) : q = p ∧ side' = side := by
  have hp := (h.agree s p).2 ⟨side, hs⟩
  have hq := (h.agree s q).2 ⟨side', hs'⟩
  obtain rfl : p = q := Slot.pair.inj (hp.symm.trans hq)
  refine ⟨rfl, ?_⟩
  cases side <;> cases side'
  · rfl
  · exact absurd hs' (h.apart p s hs)
  · exact absurd hs (h.apart p s hs')
  · rfl

def grown (v : Places) (c : ChannelId) (t : Technology) : Places :=
  { v with
    place := fun d => if d = c then ⟨.empty, t, none, none⟩ else v.place d
    channels := v.channels + 1 }

theorem Matched.grown (h : v.Matched) (hc : ∀ p, (v.place c).slot ≠ .pair p) (t : Technology) :
    (v.grown c t).Matched where
  agree d p := by
    by_cases hd : d = c
    · have hnot := hc p
      rw [Ne, h.agree] at hnot
      simp [Places.grown, hd, hnot]
    · simp [Places.grown, hd, h.agree]
  driven d p := by
    by_cases hd : d = c
    · simp [Places.grown, hd]
    · simpa [Places.grown, hd] using h.driven d p
  apart := h.apart
  empty := h.empty
  bridged d b hb := by
    by_cases hd : d = c
    · simp [Places.grown, hd] at hb
    · exact (h.bridged d b (by simpa [Places.grown, hd] using hb)).mono (Nat.le_succ _)
  pending d b hb := by
    by_cases hd : d = c
    · simp [Places.grown, hd] at hb
    · exact (h.pending d b (by simpa [Places.grown, hd] using hb)).mono (Nat.le_succ _)
  registered := h.registered

def seated (v : Places) (p : PairId) (owner chan : ChannelId) : Places :=
  { v with
    place := fun d => if d = owner ∨ d = chan then { v.place d with slot := .pair p } else v.place d
    seat := fun q side =>
      if q = p then
        match side with
        | .owner => some owner
        | .chan => some chan
      else v.seat q side
    cancelled := fun q => if q = p then false else v.cancelled q }

theorem Matched.seated {owner chan : ChannelId} (h : v.Matched) (hp : ∀ side, v.seat p side = none)
    (hne : owner ≠ chan) (howner : ∀ q, (v.place owner).slot ≠ .pair q)
    (hchan : ∀ q, (v.place chan).slot ≠ .pair q) (hdriven : (v.place owner).technology = .proxy)
    (hdriven' : (v.place chan).technology = .proxy) : (v.seated p owner chan).Matched where
  agree d q := by
    by_cases hd : d = owner ∨ d = chan
    · have hnot : ∀ r side, v.seat r side ≠ some d := by
        intro r side hs
        have hslot := (h.agree d r).2 ⟨side, hs⟩
        rcases hd with rfl | rfl
        · exact howner r hslot
        · exact hchan r hslot
      by_cases hq : q = p
      · subst hq
        simp only [Places.seated, hd, if_true, true_iff]
        rcases hd with rfl | rfl
        · exact ⟨.owner, rfl⟩
        · exact ⟨.chan, rfl⟩
      · simp [Places.seated, hd, hq, hnot, Ne.symm hq]
    · by_cases hq : q = p
      · subst hq
        have hslot : (v.place d).slot ≠ .pair q := by
          rw [Ne, h.agree]
          simp [hp]
        simp only [Places.seated, hd, if_false, if_true, hslot, false_iff, not_exists]
        rintro (_ | _) hs
        · exact hd (.inl (Option.some.inj hs).symm)
        · exact hd (.inr (Option.some.inj hs).symm)
      · simp [Places.seated, hd, hq, h.agree]
  driven d q := by
    by_cases hd : d = owner ∨ d = chan
    · rcases hd with rfl | rfl
      · simp [Places.seated, hdriven]
      · simp [Places.seated, hdriven']
    · simpa [Places.seated, hd] using h.driven d q
  apart q d := by
    by_cases hq : q = p
    · subst hq
      simp only [Places.seated, if_true]
      rintro ⟨⟩ hchan
      exact hne (Option.some.inj hchan).symm
    · simpa [Places.seated, hq] using h.apart q d
  empty q hq side := by
    by_cases hqp : q = p
    · simp [Places.seated, hqp] at hq
    · simp only [Places.seated, hqp, if_false] at hq ⊢
      exact h.empty q hq side
  bridged d b := by
    simp only [Places.seated]
    split <;> exact h.bridged d b
  pending d b := by
    simp only [Places.seated]
    split <;> exact h.pending d b
  registered := h.registered

def vacated (v : Places) (p : PairId) (side : Side) (c : ChannelId) : Places :=
  { v with
    place := fun d => if d = c then { v.place d with slot := .empty } else v.place d
    seat := fun q s => if q = p ∧ s = side then none else v.seat q s }

theorem Matched.vacated (h : v.Matched) (hc : v.seat p side = some c) :
    (v.vacated p side c).Matched where
  agree d q := by
    by_cases hd : d = c
    · subst hd
      simp only [Places.vacated, if_true, reduceCtorEq, false_iff, not_exists]
      intro s hs
      split at hs
      · cases hs
      · next hne => exact hne (h.unique hc hs)
    · simp only [Places.vacated, hd, if_false, h.agree]
      apply exists_congr
      intro s
      split
      · next hs =>
          obtain ⟨rfl, rfl⟩ := hs
          rw [hc]
          simpa using fun hcd => hd hcd.symm
      · rfl
  driven d q := by
    by_cases hd : d = c
    · simp [Places.vacated, hd]
    · simpa [Places.vacated, hd] using h.driven d q
  apart q d := by
    simp only [Places.vacated]
    split
    · intro hnone
      cases hnone
    · intro ho
      split
      · intro hnone
        cases hnone
      · exact h.apart q d ho
  empty q hq s := by
    simp only [Places.vacated]
    split
    · rfl
    · exact h.empty q hq s
  bridged d b := by
    simp only [Places.vacated]
    split <;> exact h.bridged d b
  pending d b := by
    simp only [Places.vacated]
    split <;> exact h.pending d b
  registered := h.registered

/-- One channel moves into the other's place, and the other into its. -/
def moved (v : Places) (s c : ChannelId) : Places :=
  { v with
    place := fun d =>
      if d = c then { v.place s with bridge := none, pending := (v.place c).pending }
      else if d = s then { v.place c with bridge := (v.place s).bridge, pending := (v.place s).pending }
      else v.place d
    seat := fun p side => if v.seat p side = some s then some c else v.seat p side }

theorem place_moved_of_ne {d : ChannelId} (hs : d ≠ s) (hc : d ≠ c) :
    (v.moved s c).place d = v.place d := by
  simp [moved, hs, hc]

theorem place_moved_self : (v.moved s c).place c =
    { v.place s with bridge := none, pending := (v.place c).pending } := by
  simp [moved]

theorem place_moved (hne : s ≠ c) : (v.moved s c).place s =
    { v.place c with bridge := (v.place s).bridge, pending := (v.place s).pending } := by
  simp [moved, hne]

theorem seat_moved {d : ChannelId} :
    (v.moved s c).seat p side = some d ↔
      d = c ∧ v.seat p side = some s ∨ d ≠ s ∧ v.seat p side = some d := by
  simp only [moved]
  split
  · next hs => simp [hs, eq_comm]
  · next hs =>
      constructor
      · intro hd
        exact .inr ⟨fun hds => hs (hds ▸ hd), hd⟩
      · rintro (⟨-, hs'⟩ | ⟨-, hd⟩)
        · exact absurd hs' hs
        · exact hd

theorem Matched.seat_moved_of_seat (h : v.Matched) (hs : v.seat p side = some s) :
    (v.moved s c).seat = fun q s' => if q = p ∧ s' = side then some c else v.seat q s' := by
  refine funext fun q => funext fun s' => ?_
  simp only [Places.moved]
  by_cases hq : v.seat q s' = some s
  · rw [if_pos hq, if_pos (h.unique hs hq)]
  · rw [if_neg hq, if_neg]
    rintro ⟨rfl, rfl⟩
    exact hq hs

theorem Matched.seat_moved_of_slot (h : v.Matched) (hs : ∀ p, (v.place s).slot ≠ .pair p) :
    (v.moved s c).seat = v.seat := by
  refine funext fun q => funext fun side => ?_
  simp only [Places.moved]
  rw [if_neg]
  exact fun hq => hs q ((h.agree s q).2 ⟨side, hq⟩)

theorem Matched.moved (h : v.Matched) (hne : s ≠ c) (hc : ∀ p, (v.place c).slot ≠ .pair p) :
    (v.moved s c).Matched := by
  have hnot : ∀ p side, v.seat p side ≠ some c := fun p side hs => hc p ((h.agree c p).2 ⟨side, hs⟩)
  constructor
  case agree =>
    intro d q
    simp only [seat_moved]
    by_cases hd : d = c
    · subst hd
      rw [place_moved_self]
      simp [h.agree s q, hnot q]
    · by_cases hs : d = s
      · subst hs
        simp [place_moved hne, hc, hd]
      · simp [place_moved_of_ne hs hd, h.agree d q, hd, hs]
  case driven =>
    intro d q
    by_cases hd : d = c
    · rw [hd, place_moved_self]
      exact h.driven s q
    · by_cases hs : d = s
      · rw [hs, place_moved hne]
        exact h.driven c q
      · rw [place_moved_of_ne hs hd]
        exact h.driven d q
  case apart =>
    intro q d howner hchan
    rw [seat_moved] at howner hchan
    rcases howner with ⟨rfl, ho⟩ | ⟨-, ho⟩ <;> rcases hchan with ⟨hd, hs⟩ | ⟨-, hs⟩
    · exact h.apart q s ho hs
    · exact hnot q _ hs
    · exact hnot q _ (hd ▸ ho)
    · exact h.apart q d ho hs
  case empty =>
    intro q hq side
    simp [Places.moved, h.empty q hq side]
  case bridged =>
    intro d b
    by_cases hd : d = c
    · rw [hd, place_moved_self]
      exact fun hb => by cases hb
    · by_cases hs : d = s
      · rw [hs, place_moved hne]
        exact h.bridged s b
      · rw [place_moved_of_ne hs hd]
        exact h.bridged d b
  case pending =>
    intro d b
    by_cases hd : d = c
    · rw [hd, place_moved_self]
      exact h.pending c b
    · by_cases hs : d = s
      · rw [hs, place_moved hne]
        exact h.pending s b
      · rw [place_moved_of_ne hs hd]
        exact h.pending d b
  case registered => exact h.registered

def shed (v : Places) (c : ChannelId) : Places :=
  { v with
    place :=
      fun d => if d = c then { v.place c with slot := .empty, bridge := none } else v.place d }

theorem Matched.shed (h : v.Matched) (hc : ∀ p, (v.place c).slot ≠ .pair p) :
    (v.shed c).Matched where
  agree d p := by
    by_cases hd : d = c
    · have hnot := hc p
      rw [Ne, h.agree] at hnot
      simp [Places.shed, hd, hnot]
    · simp [Places.shed, hd, h.agree]
  driven d p := by
    by_cases hd : d = c
    · simp [Places.shed, hd]
    · simpa [Places.shed, hd] using h.driven d p
  apart := h.apart
  empty := h.empty
  bridged d b := by
    by_cases hd : d = c
    · simp [Places.shed, hd]
    · simpa [Places.shed, hd] using h.bridged d b
  pending d b := by
    by_cases hd : d = c
    · simpa [Places.shed, hd] using h.pending c b
    · simpa [Places.shed, hd] using h.pending d b
  registered := h.registered

theorem not_agree_shed (h : v.Matched) (hc : (v.place c).slot = .pair p) :
    ¬ ∀ d q, ((v.shed c).place d).slot = .pair q ↔ ∃ side, (v.shed c).seat q side = some d := by
  intro hagree
  have hslot := (hagree c p).2 ((h.agree c p).1 hc)
  simp [Places.shed] at hslot

theorem not_agree_moved (hne : s ≠ c) (hc : (v.place c).slot = .pair p) :
    ¬ ∀ d q, ((v.moved s c).place d).slot = .pair q ↔ ∃ side, (v.moved s c).seat q side = some d := by
  intro hagree
  have hslot : ((v.moved s c).place s).slot = .pair p := by simp [moved, hne, hc]
  obtain ⟨side, hside⟩ := (hagree s p).1 hslot
  simp only [moved] at hside
  split at hside
  · exact hne (Option.some.inj hside).symm
  · next hs => exact hs hside

end Places

end Switchboard
