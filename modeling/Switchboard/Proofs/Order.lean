import Switchboard.Proofs.RelayDelivery

namespace Switchboard

namespace Exchange

variable {e : Exchange} {p : PairId} {side : Side}

theorem not_retry_of_deliver {frame : Frame} {source peer : Option ChannelId} {b : Acquisition} :
    .retry b ∉ (e.deliver p frame source peer).2 := by
  unfold deliver
  split <;> exact fun h => by cases List.mem_singleton.1 h

theorem eq_of_retry_mem_wait {a b : Acquisition} (h : .retry b ∈ a.wait) : b = a := by
  rw [Acquisition.wait] at h
  split at h <;> simpa using h

theorem eq_nil_of_wait_eq {a : Acquisition} {ts us : List Task}
    (h : a.wait = ts ++ .retry a :: us) :
    us = [] := by
  have hlength := congrArg List.length h
  rw [List.length_append, List.length_cons] at hlength
  rw [Acquisition.wait] at h hlength
  split at h
  · next hsource =>
      rw [if_pos hsource] at hlength
      cases ts with
      | nil => cases (List.cons.inj h).1
      | cons t ts => exact List.eq_nil_of_length_eq_zero (by simp at hlength; omega)
  · next hsource =>
      rw [if_neg hsource] at hlength
      exact List.eq_nil_of_length_eq_zero (by simp at hlength; omega)

theorem acquire_waits_or {a b : Acquisition} (h : .retry b ∈ (e.acquire a).2) :
    (e.acquire a).2 = a.wait ∧ b = a ∨ ∃ (x : Exchange) (peer : Option ChannelId), .retry b ∈
      (x.proceed a peer).2 := by
  rw [acquire] at h ⊢
  rcases hs : e.seek a.pair a.side with ⟨_ | o | _, x⟩ <;> rw [hs] at h
  · exact .inr ⟨x, none, h⟩
  · exact .inr ⟨x, some o, h⟩
  · exact .inl ⟨rfl, eq_of_retry_mem_wait h⟩

theorem isRelay_of_retry_mem_relay {frame : Frame} {source : Option ChannelId} {locked : Bool}
    {b : Acquisition} (h : .retry b ∈ (e.relay p side frame source locked).2) :
    b.purpose.isRelay = true := by
  rw [relay_eq] at h
  cases hend : (e.pair p).endpoint side.peer with
  | none =>
      rw [hend] at h
      cases List.mem_singleton.1 h
  | some other =>
      rw [hend] at h
      dsimp only at h
      split at h
      · cases List.mem_singleton.1 h
      · rcases acquire_waits_or h with ⟨-, rfl⟩ | ⟨x, peer, hlaid⟩
        · rfl
        · exact absurd hlaid not_retry_of_deliver

theorem isRelay_of_retry_mem_depart {leaver : ChannelId} {b : Acquisition}
    (h : .retry b ∈ (e.depart p side leaver).2) : b.purpose.isRelay = true := by
  rw [depart] at h
  generalize e.setSlot leaver .empty = x at h
  split at h
  · cases h
  · cases hunserved : unserved (x.pair p) with
    | some chan =>
        rw [hunserved] at h
        cases List.mem_singleton.1 h
    | none =>
        rw [hunserved] at h
        exact isRelay_of_retry_mem_relay h

theorem acquire_lays {a b : Acquisition} (h : .retry b ∈ (e.acquire a).2) :
    (e.acquire a).2 = a.wait ∧ b = a ∨ b.purpose.isRelay = true ∧ a.purpose.isRelay = false := by
  rcases acquire_waits_or h with hwaits | ⟨x, peer, hlaid⟩
  · exact .inl hwaits
  · refine .inr ?_
    obtain ⟨q, s, source, purpose⟩ := a
    cases purpose with
    | relay frame source => exact absurd hlaid not_retry_of_deliver
    | dialStatus leaver status | ownerLeaving leaver =>
        cases peer <;> exact ⟨isRelay_of_retry_mem_depart hlaid, rfl⟩

end Exchange

namespace Session

variable {s t : Session} {a : Acquisition} {below : List Task} {c : ChannelId}

theorem eq_of_retry {rest ts : List Task} (hagenda : s.agenda = .retry a :: rest)
    (hts : s.step.agenda = ts ++ rest) : ts = (s.exchange.acquire a).2 := by
  refine List.append_cancel_right (hts.symm.trans ?_)
  rw [step_retry hagenda]
  rfl

/-- What comes to stand on the agenda is laid down by the turn, and is new in it. -/
theorem Moves.lays (hm : Moves s t) (hbefore : ¬ .retry a :: below <:+ s.agenda)
    (hafter : .retry a :: below <:+ t.agenda) :
    t = s.step ∧ s.Begins a ∧ ∃ u rest ts, s.agenda = u :: rest ∧ t.agenda = ts ++ rest ∧
      .retry a ∈ ts := by
  -- The part of the new agenda that was laid down holds the acquisition.
  have hpart : ∀ {ts rest : List Task}, ¬ .retry a :: below <:+ rest →
    .retry a :: below <:+ ts ++ rest →
      ∃ above more, ts = above ++ .retry a :: more ∧ below = more ++ rest := by
    intro ts rest hrest hboth
    rcases List.suffix_or_suffix_of_suffix hboth (List.suffix_append ts rest) with h |
      ⟨u | ⟨x, more⟩, hu⟩
    · exact absurd h hrest
    · exact absurd (hu ▸ List.suffix_rfl) hrest
    · obtain ⟨rfl, rfl⟩ := List.cons.inj hu
      obtain ⟨above, habove⟩ := hboth
      refine ⟨above, more, List.append_cancel_right (habove.symm.trans ?_), rfl⟩
      exact (List.append_assoc above (.retry a :: more) rest).symm
  cases hm with
  | others b rest ops hhead =>
      obtain ⟨above, more, hts, -⟩ := hpart hbefore (agenda_interrupt s ops ▸ hafter)
      have hwaits : a ∈ backedOff (tasksOf ops ++ [Task.closeScript]) := by
        rw [mem_backedOff, hts]
        exact List.mem_append_right above (.head _)
      rw [backedOff_append, backedOff_tasksOf] at hwaits
      cases hwaits
  | step =>
      cases hagenda : s.agenda with
      | nil =>
          rw [step_idle hagenda] at hafter
          exact absurd hafter hbefore
      | cons u rest =>
          obtain ⟨ts, hts, hleads⟩ := step_laid hagenda
          rw [hagenda] at hbefore
          rw [hts] at hafter
          obtain ⟨above, more, hparts, hbelow⟩ :=
            hpart (fun h => hbefore (h.trans (List.suffix_cons u rest))) hafter
          have hmem : .retry a ∈ ts := hparts ▸ List.mem_append_right above (.head more)
          have hnew : u ≠ .retry a := by
            rintro rfl
            have hacquire := eq_of_retry hagenda hts
            rcases Exchange.acquire_lays (hacquire ▸ hmem) with ⟨hwait, -⟩ | ⟨hrelay, hnot⟩
            · -- It waits as it has waited before.
              rw [hacquire, hwait] at hparts
              rw [Exchange.eq_nil_of_wait_eq hparts, List.nil_append] at hbelow
              exact hbefore (hbelow ▸ List.suffix_rfl)
            · rw [hrelay] at hnot
              cases hnot
          refine ⟨rfl, ⟨?_, ?_⟩, u, rest, ts, rfl, hts, hmem⟩
          · have hwaits := (hleads []).carries (a := a) (by simpa [mem_backedOff] using hmem)
            rcases hwaits with hold | hmay
            · rw [List.append_nil, mem_backedOff, List.mem_singleton] at hold
              exact absurd hold.symm hnew
            · exact hmay
          · intro later hlater
            rw [hagenda] at hlater
            exact hnew (List.cons.inj hlater).1

theorem pendingRetries_eq_backedOff (ts : List Task) :
    pendingRetries ts = ((backedOff ts).map fun a => (a.pair, a.purpose.isRelay) : List
      (PairId × Bool)) := by
  induction ts with
  | nil => rfl
  | cons t ts ih =>
      cases t with
      | retry a => exact congrArg (Multiset.cons (a.pair, a.purpose.isRelay)) ih
      | _ => exact ih

/-- The relays in the cell of a pair are those that have backed off on it. -/
theorem inFlight_eq_backedOff (h : s.ledger.Sound) (p : PairId) :
    (s.exchange.pair p).glare.inFlight =
      (backedOff s.agenda).countP fun a => a.pair = p && a.purpose.isRelay := by
  have hcount : (pendingRetries s.agenda).count (p, true) =
      (backedOff s.agenda).countP fun a => a.pair = p && a.purpose.isRelay := by
    rw [pendingRetries_eq_backedOff, Multiset.coe_count]
    simp only [List.count, List.countP_map]
    apply List.countP_congr
    intro a _
    simp
  by_cases hp : p ∈ s.exchange.pairIds
  · exact (h.record p hp).inFlight.trans hcount
  · rw [Exchange.pair_of_not_mem hp, ← hcount]
    exact (Multiset.count_eq_zero.2 fun hmem => hp (h.known _ hmem)).symm

theorem Moves.enters (hm : Moves s t) (h : s.ledger.Sound)
    (hbefore : ¬ .retry a :: below <:+ s.agenda)
    (hafter : .retry a :: below <:+ t.agenda) (hrelay : a.purpose.isRelay = true) :
    (s.exchange.pair a.pair).glare.inFlight < (t.exchange.pair a.pair).glare.inFlight := by
  obtain ⟨rfl, hbegins, u, rest, ts, hagenda, hts, hmem⟩ := hm.lays hbefore hafter
  have hlaid : 0 < (backedOff ts).countP fun b => b.pair = a.pair && b.purpose.isRelay :=
    List.countP_pos_iff.2 ⟨a, mem_backedOff.2 hmem, by simp [hrelay]⟩
  have hbacked : ((backedOff [u]).countP fun b => b.pair = a.pair && b.purpose.isRelay) = 0 := by
    refine List.countP_eq_zero.2 fun b hb => ?_
    obtain rfl := List.mem_singleton.1 (mem_backedOff.1 hb)
    rcases Exchange.acquire_lays (eq_of_retry hagenda hts ▸ hmem) with ⟨-, rfl⟩ | ⟨-, hdeparts⟩
    · exact absurd hagenda (hbegins.2 rest)
    · simp [hdeparts]
  rw [inFlight_eq_backedOff (hm.sound h), inFlight_eq_backedOff h, hts, hagenda,
    ← List.singleton_append,
    backedOff_append, backedOff_append, List.countP_append, List.countP_append, hbacked]
  exact Nat.add_lt_add_right hlaid _

theorem Moves.brings (hm : Moves s t) (hseated : TurnState.Seated s.exchange)
    (hagenda : s.agenda = .retry a :: below)
    (hmessage : a.purpose.message ≠ none)
    (hside : a.purpose.isRelay = false → a.purpose.leaving = some a.side.peer) (c : ChannelId) :
    ∃ l, (t.exchange.channel c).frames = (s.exchange.channel c).frames ++ l ∧ a.Brings l := by
  cases hm with
  | others => exact ⟨[], (List.append_nil _).symm, .inl rfl⟩
  | step =>
      rw [step_retry hagenda]
      exact Exchange.acquire_brings hseated hmessage hside c

/-- From turn `b` on, which lays it down, the acquisition waits until turn `q`, with `below` to be
done after it. -/
structure WaitsBetween (s : Nat → Session) (a : Acquisition) (below : List Task)
    (b q : Nat) : Prop where
  lt : b < q
  before : ¬ .retry a :: below <:+ (s b).agenda
  laid : ∀ k, b < k → k ≤ q → .retry a :: below <:+ (s k).agenda

section Runs

variable {s : Nat → Session} {n b b' q q' : Nat} {f g : Frame} {l l' : List Frame}

theorem WaitsBetween.unique (h : WaitsBetween s a below b q) (h' : WaitsBetween s a below b' q) :
    b' = b := by
  rcases Nat.lt_trichotomy b b' with hlt | heq | hlt
  · exact absurd (h.laid b' hlt h'.lt.le) h'.before
  · exact heq.symm
  · exact absurd (h'.laid b hlt h.lt.le) h.before

theorem exists_waitsBetween (hnone : ¬ .retry a :: below <:+ (s 0).agenda)
    (hlaid : .retry a :: below <:+ (s q).agenda) :
    ∃ b, WaitsBetween s a below b q := by
  induction q with
  | zero => exact absurd hlaid hnone
  | succ q ih =>
      by_cases hbefore : .retry a :: below <:+ (s q).agenda
      · obtain ⟨b, hb⟩ := ih hbefore
        refine ⟨b, Nat.lt_succ_of_lt hb.lt, hb.before, fun k hk hkq => ?_⟩
        rcases Nat.le_succ_iff.1 hkq with hle | rfl
        · exact hb.laid k hk hle
        · exact hlaid
      · refine ⟨q, Nat.lt_succ_self q, hbefore, fun k hk hkq => ?_⟩
        rwa [Nat.le_antisymm hkq hk]

/-- Of two that wait at a time, the one whose turn it is began later. -/
theorem WaitsBetween.over {a' : Acquisition} {below' : List Task} (h : WaitsBetween s a below b q)
    (h' : WaitsBetween s a' below' b' q') (hagenda : (s q).agenda = .retry a :: below) (hb : b < b')
    (hb' : b' < q) :
    q' < q := by
  by_contra hle
  -- The later one stands on the agenda of the turn, hence on what stood there when it began.
  have hinner := h'.laid q hb' (Nat.le_of_not_lt hle)
  rw [hagenda] at hinner
  exact h'.before (hinner.trans (h.laid b' hb hb'.le))

def returning (s : Session) : Option Frame :=
  match s.agenda with
  | .retry a :: _ => a.purpose.message
  | _ => none

/-- Since which turn a frame has been on its way that turn `q` puts on a queue behind `l`. What
comes first when a message comes back is this message, and anything else is new. -/
inductive SentSince (s : Nat → Session) (q : Nat) : List Frame → Frame → Nat → Prop
  | returning (a : Acquisition) (below : List Task) (f : Frame) (b : Nat)
      (hagenda : (s q).agenda = .retry a :: below) (hmessage : a.purpose.message = some f)
      (hwaits : WaitsBetween s a below b q) : SentSince s q [] f b
  | new (l : List Frame) (f : Frame) (hnew : l = [] → (s q).returning = none) : SentSince s q l f q

theorem returning_of_retry {s : Session} (h : s.agenda = .retry a :: below) :
    s.returning = a.purpose.message := by
  rw [returning, h]

theorem SentSince.le (h : SentSince s q l f b) : b ≤ q := by
  cases h with
  | returning _ _ _ _ _ _ hwaits => exact hwaits.lt.le
  | new _ _ => exact Nat.le_refl _

theorem SentSince.unique (h : SentSince s q l f b) (h' : SentSince s q l f b') : b' = b := by
  cases h with
  | returning a below _ _ hagenda hmessage hwaits =>
      cases h' with
      | returning _ _ _ _ hagenda' _ hwaits' =>
          obtain ⟨ha, rfl⟩ := List.cons.inj (hagenda.symm.trans hagenda')
          cases ha
          exact hwaits.unique hwaits'
      | new _ _ hnew =>
          rw [returning_of_retry hagenda, hmessage] at hnew
          cases hnew rfl
  | new _ _ hnew =>
      cases h' with
      | returning _ _ _ _ hagenda' hmessage' _ =>
          rw [returning_of_retry hagenda', hmessage'] at hnew
          cases hnew rfl
      | new _ _ => rfl

/-- Turn `q` puts the frame on the channel's queue, behind `l`, and it has been on its way since
turn `b`. -/
structure Queues (s : Nat → Session) (c : ChannelId) (f : Frame) (b q : Nat) (l : List Frame) :
    Prop where
  queue : ∃ r, ((s (q + 1)).exchange.channel c).frames = ((s q).exchange.channel c).frames ++
    (l ++ f :: r)
  since : SentSince s q l f b

/-- Of two messages the later one is sent first if, and only if, it began while the other was on its
way. -/
theorem Queues.before_iff (hf : Queues s c f b q l) (hg : Queues s c g b' q' l') (hb : b < b') :
    q' < q ↔ b' < q := by
  refine ⟨fun hq => Nat.lt_of_le_of_lt hg.since.le hq, fun hq => ?_⟩
  cases hf.since with
  | new _ _ => exact absurd (Nat.lt_trans hb hq) (Nat.lt_irrefl _)
  | returning _ _ _ _ hagenda _ hwaits =>
      cases hg.since with
      | new _ _ => exact hq
      | returning _ _ _ _ _ _ hwaits' => exact hwaits.over hwaits' hagenda hb hq

theorem not_laid_start {config : Config} {ops : List Operation} {s : Session}
    (h : start config ops = .ok s) :
    ¬ .retry a :: below <:+ s.agenda := by
  rw [eq_of_start h]
  intro hlaid
  have hwaits : a ∈ backedOff (tasksOf ops) := mem_backedOff.2 (hlaid.subset (.head below))
  rw [backedOff_tasksOf] at hwaits
  cases hwaits

theorem waits_begun {config : Config} {ops : List Operation} (hstart : start config ops = .ok (s 0))
    (hmoves : ∀ k < n, Moves (s k) (s (k + 1))) (hq : q ≤ n)
    (hlaid : .retry a :: below <:+ (s q).agenda) :
    ∃ b, WaitsBetween s a below b q ∧ s (b + 1) = (s b).step ∧ (s b).Begins a ∧
      (a.purpose.isRelay = true → ((s b).exchange.pair a.pair).glare.inFlight <
        ((s (b + 1)).exchange.pair a.pair).glare.inFlight) ∧
      ∀ c, a.purpose.leaver = some c → ∃ rest, (s b).Hangs c rest := by
  obtain ⟨b, hb⟩ := exists_waitsBetween (not_laid_start hstart) hlaid
  have hmove := hmoves b (Nat.lt_of_lt_of_le hb.lt hq)
  have hafter := hb.laid (b + 1) (Nat.lt_succ_self b) hb.lt
  obtain ⟨m, hm⟩ := (Reachable.start hstart).trace hmoves b (hb.lt.le.trans hq)
  obtain ⟨hstep, hbegins, -⟩ := hmove.lays hb.before hafter
  exact ⟨b, hb, hstep, hbegins, hmove.enters hm.sound hb.before hafter, fun c hleaver =>
    (hbegins.hangs hleaver).imp fun _ h => h.1⟩

/-- What a turn puts on a queue has been on its way since one turn, in which it was new. -/
theorem queued_begun {config : Config} {ops : List Operation}
    (hstart : start config ops = .ok (s 0))
    (hmoves : ∀ k < n, Moves (s k) (s (k + 1))) (hq : q < n)
    (hfeeds : ¬ (s q).Entitles (.feeds c)) :
    ∃ l, ((s (q + 1)).exchange.channel c).frames = ((s q).exchange.channel c).frames ++ l ∧
      ∀ l₁ f l₂, l = l₁ ++ f :: l₂ → ∃ b, SentSince s q l₁ f b ∧
        (∀ b', SentSince s q l₁ f b' → b' = b) ∧ ∃ a, (s b).Begins a ∧
        a.purpose.message = some f := by
  have hunique : ∀ l₁ f b, SentSince s q l₁ f b →
    (∃ a, (s b).Begins a ∧ a.purpose.message = some f) →
      ∃ b, SentSince s q l₁ f b ∧ (∀ b', SentSince s q l₁ f b' → b' = b) ∧
        ∃ a, (s b).Begins a ∧ a.purpose.message = some f :=
    fun l₁ f b hb hnew => ⟨b, hb, fun b' => hb.unique, hnew⟩
  cases hreturning : (s q).returning with
  | none =>
      obtain ⟨d, hleads⟩ := (hmoves q hq).leads
      obtain ⟨l, hl, hbrings⟩ := hleads.brings hfeeds
      refine ⟨l, hl, fun l₁ f l₂ hparts => hunique l₁ f q (.new l₁ f fun _ => hreturning) ?_⟩
      obtain ⟨a, hmay, hmessage⟩ := hbrings f (hparts ▸ List.mem_append_right l₁ (.head l₂))
      refine ⟨a, ⟨hmay, fun below hagenda => ?_⟩, hmessage⟩
      rw [returning_of_retry hagenda, hmessage] at hreturning
      cases hreturning
  | some f₀ =>
      obtain ⟨a, below, hagenda, hmessage⟩ : ∃ a below, (s q).agenda = .retry a :: below ∧
          a.purpose.message = some f₀ := by
        rw [Session.returning] at hreturning
        split at hreturning
        · next a below hagenda => exact ⟨a, below, hagenda, hreturning⟩
        · cases hreturning
      obtain ⟨b, hwaits, -, hbegins, -⟩ := waits_begun hstart hmoves hq.le
        (hagenda ▸ List.suffix_rfl : .retry a :: below <:+ (s q).agenda)
      obtain ⟨m, hm⟩ := (Reachable.start hstart).trace hmoves q hq.le
      obtain ⟨l, hl, hbrings⟩ :=
        (hmoves q hq).brings hm.seated hagenda (by simp [hmessage]) hbegins.faces c
      refine ⟨l, hl, fun l₁ f l₂ hparts => ?_⟩
      rcases hbrings with rfl | ⟨f₁, r, hmessage', rfl, hangups⟩
      · cases List.append_ne_nil_of_right_ne_nil l₁ (List.cons_ne_nil f l₂) hparts.symm
      · cases l₁ with
        | nil =>
            obtain ⟨rfl, rfl⟩ := List.cons.inj hparts
            exact hunique [] f₁ b (.returning a below f₁ b hagenda hmessage' hwaits)
              ⟨a, hbegins, hmessage'⟩
        | cons g l₁ =>
            -- Only the hangup that a departure sends comes behind its message.
            obtain ⟨hdeparts, cause, rfl⟩ := hangups f
              ((List.cons.inj hparts).2 ▸ List.mem_append_right l₁ (.head l₂))
            refine hunique _ _ q (.new _ _ fun h => by cases h)
              ⟨⟨a.pair, a.side, none, .relay (.hangup cause) none⟩,
              ⟨⟨_, below, hagenda, .tells hdeparts rfl rfl⟩, fun later hlater => ?_⟩, rfl⟩
            rw [hagenda] at hlater
            have ha := Task.retry.inj (List.cons.inj hlater).1
            rw [ha] at hdeparts
            cases hdeparts

def place (s : Nat → Session) (c : ChannelId) (q : Nat) (l : List Frame) : Nat :=
  ((s q).exchange.channel c).frames.length + l.length

theorem Queues.getElem?_place (hf : Queues s c f b q l) :
    ((s (q + 1)).exchange.channel c).frames[place s c q l]? = some f := by
  obtain ⟨r, hr⟩ := hf.queue
  rw [hr, place, List.getElem?_append_right (Nat.le_add_right _ _), Nat.add_sub_cancel_left,
    List.getElem?_append_right (Nat.le_refl _), Nat.sub_self]
  rfl

theorem Queues.stays {m : Nat} (hf : Queues s c f b q l)
    (hgrows : ((s (q + 1)).exchange.channel c).frames <+: ((s m).exchange.channel c).frames) :
    ((s m).exchange.channel c).frames[place s c q l]? = some f := by
  obtain ⟨hlt, hget⟩ := List.getElem?_eq_some_iff.1 hf.getElem?_place
  rw [List.prefix_iff_getElem?.1 hgrows _ hlt, hget]

theorem Queues.place_lt (hf : Queues s c f b q l) (l' : List Frame)
    (hgrows : ((s (q + 1)).exchange.channel c).frames <+: ((s q').exchange.channel c).frames) :
    place s c q l < place s c q' l' := by
  obtain ⟨hlt, -⟩ := List.getElem?_eq_some_iff.1 hf.getElem?_place
  exact Nat.lt_of_lt_of_le hlt (hgrows.length_le.trans (Nat.le_add_right _ _))

theorem Queues.place_lt_of_same (hf : Queues s c f b q l) (hg : Queues s c g b' q l')
    (hb : b < b') :
    place s c q l < place s c q l' := by
  refine Nat.add_lt_add_left (?_ : l.length < l'.length) _
  cases hf.since with
  | new _ _ => exact absurd hb (Nat.not_lt_of_le hg.since.le)
  | returning a below _ _ hagenda hmessage hwaits =>
      rw [List.length_nil, List.length_pos_iff]
      rintro rfl
      cases hg.since with
      | new _ _ hnew =>
          rw [returning_of_retry hagenda, hmessage] at hnew
          cases hnew rfl
      | returning a' below' _ _ hagenda' _ hwaits' =>
          obtain ⟨ha, rfl⟩ := List.cons.inj (hagenda.symm.trans hagenda')
          cases ha
          exact absurd hb (hwaits.unique hwaits' ▸ Nat.lt_irrefl _)

end Runs

/-- Along any run, with any operations of others wherever a driver has backed off: whoever waits
began in one turn, in which its relay entered the cell or its departure was told to the driver, and
the relays in a cell are those that wait. Every frame that a turn puts on a queue has one beginning,
unless the queue is fed by hand. Of two messages on one queue the later one stands before the other
if and only if it began before the other was sent. -/
theorem arrives_before_iff {config : Config} {ops : List Operation} {s : Nat → Session} {n : Nat}
    (hstart : start config ops = .ok (s 0)) (hmoves : ∀ k < n, Moves (s k) (s (k + 1))) :
    (∀ q ≤ n, ∀ a below, .retry a :: below <:+ (s q).agenda →
      ∃ b, WaitsBetween s a below b q ∧ s (b + 1) = (s b).step ∧ (s b).Begins a ∧
        (a.purpose.isRelay = true → ((s b).exchange.pair a.pair).glare.inFlight <
          ((s (b + 1)).exchange.pair a.pair).glare.inFlight) ∧
        ∀ c, a.purpose.leaver = some c → ∃ rest, (s b).Hangs c rest) ∧
    (∀ q ≤ n, ∀ p, ((s q).exchange.pair p).glare.inFlight =
      (backedOff (s q).agenda).countP fun a => a.pair = p && a.purpose.isRelay) ∧
    (∀ q < n, ∀ c, ¬ (s q).Entitles (.feeds c) →
      ∃ l, ((s (q + 1)).exchange.channel c).frames = ((s q).exchange.channel c).frames ++ l ∧
        ∀ l₁ f l₂, l = l₁ ++ f :: l₂ → ∃ b, SentSince s q l₁ f b ∧
          (∀ b', SentSince s q l₁ f b' → b' = b) ∧ ∃ a, (s b).Begins a ∧
          a.purpose.message = some f) ∧
    ∀ c f g b b' q q' l l', q < n → q' < n → Queues s c f b q l → Queues s c g b' q' l' → b < b' →
      (q' < q ↔ b' < q) ∧
      ∀ m ≤ n, q < m → q' < m → (∀ k, min q q' ≤ k → k < m → ¬ (s k).Entitles (.feeds c)) →
        ((s m).exchange.channel c).frames[place s c q l]? = some f ∧
        ((s m).exchange.channel c).frames[place s c q' l']? = some g ∧
        place s c q l ≠ place s c q' l' ∧ (place s c q' l' < place s c q l ↔ b' < q) := by
  refine ⟨fun q hq a below => waits_begun hstart hmoves hq, fun q hq p => ?_,
    fun q hq c => queued_begun hstart hmoves hq, ?_⟩
  · obtain ⟨m, hm⟩ := (Reachable.start hstart).trace hmoves q hq
    exact inFlight_eq_backedOff hm.sound p
  intro c f g b b' q q' l l' hq hq' hf hg hb
  have hbefore := hf.before_iff hg hb
  refine ⟨hbefore, fun m hm hqm hqm' hfeeds => ?_⟩
  have hgrows : ∀ i j, min q q' ≤ i → i ≤ j → j ≤ m →
      ((s i).exchange.channel c).frames <+: ((s j).exchange.channel c).frames :=
      fun i j hi hij hj =>
    grows_until hmoves (hj.trans hm) hij fun k hik hkj =>
      hfeeds k (hi.trans hik) (Nat.lt_of_lt_of_le hkj hj)
  refine ⟨hf.stays (hgrows (q + 1) m (by omega) hqm (Nat.le_refl m)),
    hg.stays (hgrows (q' + 1) m (by omega) hqm' (Nat.le_refl m)), ?_⟩
  rw [← hbefore]
  rcases Nat.lt_trichotomy q q' with hlt | rfl | hlt
  · have hplace := hf.place_lt l' (hgrows (q + 1) q' (by omega) hlt hqm'.le)
    exact ⟨hplace.ne, by omega⟩
  · have hplace := hf.place_lt_of_same hg hb
    exact ⟨hplace.ne, by omega⟩
  · have hplace := hg.place_lt l (hgrows (q' + 1) q (by omega) hlt hqm.le)
    exact ⟨hplace.ne', by omega⟩

/-- A text has to back off for the chan-side, and another one is sent meanwhile. -/
def jostled : List Operation :=
  [.request .dispatched "Local" "100@internal" ⟨4⟩, .scriptLocks ⟨2⟩ [false],
    .onBackOff [.signal .dispatched ⟨1⟩ (.sendText "second")],
    .signal .dispatched ⟨1⟩ (.sendText "first")]

/-- The first text has entered the cell, alone, before the second one is sent, and arrives after it.
-/
theorem jostled_arrives_late : ∃ s, start {} jostled = .ok s ∧
    backedOff (s.run 10).agenda = [⟨⟨1⟩, .chan, some ⟨1⟩, .relay (.text "first") (some ⟨1⟩)⟩] ∧
    ((s.run 10).exchange.pair ⟨1⟩).glare.inFlight = 1 ∧
    ((s.run 10).exchange.channel ⟨2⟩).frames = [] ∧ (s.run 40).agenda = [] ∧
    ((s.run 40).exchange.channel ⟨2⟩).frames = [.text "second", .text "first"] :=
  ⟨_, rfl, by decide +kernel, by decide +kernel, by decide +kernel, by decide +kernel, by decide +kernel⟩

theorem jostled_overtaken : ∃ s, start {} jostled = .ok s ∧
    Queues (fun k => s.run k) ⟨2⟩ (.text "first") 9 18 [] ∧
    Queues (fun k => s.run k) ⟨2⟩ (.text "second") 12 12 [] ∧
    place (fun k => s.run k) ⟨2⟩ 12 [] < place (fun k => s.run k) ⟨2⟩ 18 [] ∧
    ((s.run 19).exchange.channel ⟨2⟩).frames[place (fun k => s.run k) ⟨2⟩ 18 []]? =
    some (.text "first") := by
  have hstart : start {} jostled = .ok { exchange := {}, agenda := tasksOf jostled } := rfl
  generalize hs : ({ exchange := {}, agenda := tasksOf jostled } : Session) = s at hstart
  have hfirst : Queues (fun k => s.run k) ⟨2⟩ (.text "first") 9 18 [] := by
    subst hs
    refine ⟨⟨[], by decide +kernel⟩,
      .returning ⟨⟨1⟩, .chan, some ⟨1⟩, .relay (.text "first") (some ⟨1⟩)⟩
      [.settle .done, .unlock ⟨1⟩, .report] _ _ rfl rfl ⟨by decide, fun h => ?_,
      fun k hk hkq => ?_⟩⟩
    · exact absurd h.length_le (by decide +kernel)
    · have hcases : k = 10 ∨ k = 11 ∨ k = 12 ∨ k = 13 ∨ k = 14 ∨ k = 15 ∨ k = 16 ∨ k = 17 ∨
        k = 18 := by omega
      rcases hcases with rfl | rfl | rfl | rfl | rfl | rfl | rfl | rfl | rfl <;>
        exact List.suffix_iff_eq_drop.2 rfl
  have hsecond : Queues (fun k => s.run k) ⟨2⟩ (.text "second") 12 12 [] := by
    subst hs
    exact ⟨⟨[], by decide +kernel⟩, .new [] _ fun _ => rfl⟩
  have hfeeds : ∀ k, min 18 12 ≤ k → k < 19 → ¬ (s.run k).Entitles (.feeds ⟨2⟩) := by
    intro k hk hkm hfeeds
    have hcases : k = 12 ∨ k = 13 ∨ k = 14 ∨ k = 15 ∨ k = 16 ∨ k = 17 ∨ k = 18 := by omega
    subst hs
    obtain ⟨rest, ⟨frame, hagenda⟩ | hagenda⟩ := agenda_of_feeds hfeeds <;>
      rcases hcases with rfl | rfl | rfl | rfl | rfl | rfl | rfl <;> cases hagenda
  obtain ⟨-, -, -, horder⟩ := arrives_before_iff (s := fun k => s.run k) (n := 19) hstart
    (fun k _ => run_succ _ k ▸ .step _)
  obtain ⟨-, hplaces⟩ :=
    horder ⟨2⟩ _ _ 9 12 18 12 [] [] (by decide) (by decide) hfirst hsecond (by decide)
  obtain ⟨hat, -, -, hplace⟩ := hplaces 19 (Nat.le_refl 19) (by decide) (by decide) hfeeds
  exact ⟨s, hstart, hfirst, hsecond, hplace.2 (by decide), hat⟩

end Session
end Switchboard
