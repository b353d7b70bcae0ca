import Switchboard.Proofs.TurnState.Effects

namespace Switchboard

/-- What the turn of an acquisition may put on a queue: its message, and behind it the hangup that a
departure sends when it is over; or nothing at all. -/
def Acquisition.Brings (a : Acquisition) (l : List Frame) : Prop :=
  l = [] ∨ ∃ f r, a.purpose.message = some f ∧ l = f :: r ∧
    ∀ g ∈ r, a.purpose.isRelay = false ∧ ∃ cause, g = .hangup cause

namespace Exchange

variable {e : Exchange} {p : PairId} {side : Side} {c : ChannelId}

theorem frames_of_view {e' : Exchange} (h : e'.view = e.view) (c : ChannelId) :
    (e'.channel c).frames = (e.channel c).frames :=
  congrArg ChannelView.frames (channelView_eq_of_view h c)

theorem frames_deliver_or (e : Exchange) (p : PairId) (frame : Frame)
    (source peer : Option ChannelId)
    (c : ChannelId) :
    ((e.deliver p frame source peer).1.channel c).frames = (e.channel c).frames ∨
      peer = some c ∧ (e.pair p).phase.isMasqueraded = false ∧
        ((e.deliver p frame source peer).1.channel c).frames = (e.channel c).frames ++ [frame] := by
  unfold deliver
  split
  · refine .inl ((frames_of_view (view_releasePeer _ peer) c).trans ?_)
    exact congrArg Channel.frames (channel_eq_of_channels (channels_leaveGlare e p) c)
  · cases peer with
    | none => exact .inl rfl
    | some o =>
        have hrelease := fun x : Exchange => frames_of_view (view_releasePeer x (some o)) c
        dsimp only
        split
        · exact .inl (hrelease e)
        · next hphase =>
          obtain ⟨x, hx, hplace⟩ := view_place e frame source o
          rw [hplace, ← frames_of_view hx c]
          rcases channel_modifyChannel_or x o c fun z =>
            { z with frames := z.frames ++ [frame] } with
            hc | ⟨rfl, hc⟩
          · exact .inl ((hrelease _).trans (congrArg Channel.frames hc))
          · exact .inr ⟨rfl, Bool.eq_false_iff.2 hphase,
              (hrelease _).trans (congrArg Channel.frames hc)⟩

theorem endpoint_of_taken {x : Exchange} {o : ChannelId} (h : e.seek p side = (.taken o, x)) :
    (e.pair p).endpoint side = some o :=
  endpoint_of_seek (congrArg Prod.fst h)

theorem frames_relay_or (e : Exchange) (p : PairId) (side : Side) (frame : Frame)
    (source : Option ChannelId) (locked : Bool) (c : ChannelId) :
    ((e.relay p side frame source locked).1.channel c).frames = (e.channel c).frames ∨
      (e.pair p).endpoint side.peer = some c ∧ (e.pair p).phase.isMasqueraded = false ∧
        ((e.relay p side frame source locked).1.channel c).frames =
        (e.channel c).frames ++ [frame] := by
  rw [relay_eq]
  cases hend : (e.pair p).endpoint side.peer with
  | none => exact .inl rfl
  | some other =>
      dsimp only
      split
      · exact .inl rfl
      · next hopen =>
        have hphase : (e.pair p).phase.isMasqueraded = false :=
          Bool.eq_false_iff.2 fun hphase => hopen (Bool.or_eq_true_iff.2 (.inl hphase))
        have hentered : ((e.modifyPair p Pair.entered).pair p).endpoint side.peer = some other :=
          (congrFun (pair_modifyPair_congr Pair.endpoint e p p rfl) side.peer).trans hend
        have hseek := view_seek (e.modifyPair p Pair.entered) p side.peer
        rw [acquire]
        rcases hs : (e.modifyPair p Pair.entered).seek p side.peer with ⟨sought, x⟩
        rw [hs] at hseek
        have hsame : (x.channel c).frames = (e.channel c).frames := frames_of_view hseek c
        rw [← hsame]
        cases sought with
        | gone => exact (frames_deliver_or x p frame source none c).imp_right fun h => by cases h.1
        | busy => exact .inl rfl
        | taken o =>
            rw [endpoint_of_taken hs] at hentered
            rw [← hentered]
            exact (frames_deliver_or x p frame source (some o) c).imp_right fun h =>
              ⟨h.1, hphase, h.2.2⟩

theorem frames_depart_or (e : Exchange) (p : PairId) (side : Side) (leaver c : ChannelId) :
    ((e.depart p side leaver).1.channel c).frames = (e.channel c).frames ∨
      (e.pair p).endpoint side.peer = some c ∧ (e.pair p).phase.isMasqueraded = false ∧ ∃ cause,
        ((e.depart p side leaver).1.channel c).frames =
        (e.channel c).frames ++ [.hangup cause] := by
  have hsame : ((e.setSlot leaver .empty).channel c).frames = (e.channel c).frames :=
    channel_modifyChannel_congr Channel.frames e leaver c rfl
  have hpair : (e.setSlot leaver .empty).pair p = e.pair p := rfl
  rw [depart]
  rw [← hsame, ← hpair]
  generalize e.setSlot leaver .empty = x
  split
  · exact .inl (congrArg Channel.frames (channel_eq_of_channels (channels_retire x p) c))
  · cases unserved (x.pair p) with
    | some chan => exact .inl rfl
    | none =>
        refine (frames_relay_or x p side _ none false c).imp_right ?_
        rintro ⟨hend, hphase, hframes⟩
        exact ⟨hend, hphase, _, hframes⟩

theorem frames_ownerLeaves (hseated : TurnState.Seated e) (leaver : ChannelId)
    {peer : Option ChannelId}
    (hpeer : (e.pair p).endpoint .chan = peer) (c : ChannelId) :
    ∃ l, ((e.ownerLeaves p leaver peer).1.channel c).frames = (e.channel c).frames ++ l ∧
      (l = [] ∨ ∃ r, l = .bare .hangup :: r ∧ ∀ g ∈ r, ∃ cause, g = .hangup cause) := by
  have hclear : ∀ x : Exchange, x.pair p = e.pair p →
    ((x.clearSide p .owner).pair p).endpoint .chan = peer := by
    intro x hx
    change ((x.modifyPair p (·.clear .owner)).pair p).endpoint .chan = peer
    rw [pair_modifyPair_congr (·.endpoint .chan) x p p rfl, hx, hpeer]
  cases peer with
  | none =>
      rcases frames_depart_or (e.clearSide p .owner) p .owner leaver c with hsame | ⟨hend, -⟩
      · exact ⟨[], hsame.trans (List.append_nil _).symm, .inl rfl⟩
      · cases (hclear e rfl).symm.trans hend
  | some o =>
      have hdepart :=
        frames_depart_or (((e.clearSide p .owner).queueFrame o (.bare .hangup)).unlock o) p
        .owner leaver c
      have hunlock :=
        frames_of_view (view_unlock ((e.clearSide p .owner).queueFrame o (.bare .hangup)) o) c
      have hend :
        ((((e.clearSide p .owner).queueFrame o (.bare .hangup)).unlock o).pair p).endpoint .chan =
        some o :=
        hclear e rfl
      rw [hunlock, show Side.owner.peer = .chan from rfl, hend] at hdepart
      by_cases hc : c = o
      · subst hc
        have hqueued : (((e.clearSide p .owner).queueFrame c (.bare .hangup)).channel c).frames =
            (e.channel c).frames ++ [.bare .hangup] := by
          rw [queueFrame, channel_modifyChannel (e.clearSide p .owner) _ (hseated p .chan c hpeer)]
          rfl
        rw [hqueued] at hdepart
        rcases hdepart with hsame | ⟨-, -, cause, hsent⟩
        · exact ⟨[.bare .hangup], hsame, .inr ⟨[], rfl, List.forall_mem_nil _⟩⟩
        · refine ⟨[.bare .hangup, .hangup cause], hsent.trans (List.append_assoc _ _ _),
            .inr ⟨_, rfl, ?_⟩⟩
          exact List.forall_mem_singleton.2 ⟨cause, rfl⟩
      · have hother : (((e.clearSide p .owner).queueFrame o (.bare .hangup)).channel c).frames =
            (e.channel c).frames := by
          rw [queueFrame, channel_modifyChannel_of_ne _ _ hc]
          rfl
        rcases hdepart with hsame | ⟨hco, -⟩
        · exact ⟨[], (hsame.trans hother).trans (List.append_nil _).symm, .inl rfl⟩
        · exact absurd (Option.some.inj hco).symm hc

theorem proceed_brings (hseated : TurnState.Seated e) {a : Acquisition}
    (hmessage : a.purpose.message ≠ none)
    (hside : a.purpose.isRelay = false → a.purpose.leaving = some a.side.peer)
    {peer : Option ChannelId}
    (hpeer : (e.pair a.pair).endpoint a.side = peer) (c : ChannelId) :
    ∃ l, ((e.proceed a peer).1.channel c).frames = (e.channel c).frames ++ l ∧ a.Brings l := by
  obtain ⟨p, side, source, purpose⟩ := a
  cases purpose with
  | relay frame source =>
      rcases frames_deliver_or e p frame source peer c with hsame | ⟨-, -, hsent⟩
      · exact ⟨[], hsame.trans (List.append_nil _).symm, .inl rfl⟩
      · exact ⟨[frame], hsent, .inr ⟨frame, [], rfl, rfl, List.forall_mem_nil _⟩⟩
  | dialStatus leaver status => exact absurd rfl hmessage
  | ownerLeaving leaver =>
      have hchan : side = .chan := by
        cases side with
        | owner => cases hside rfl
        | chan => rfl
      subst hchan
      obtain ⟨l, hframes, hl⟩ := frames_ownerLeaves hseated leaver hpeer c
      refine ⟨l, hframes, hl.imp_right fun ⟨r, hr, hangups⟩ => ?_⟩
      exact ⟨_, r, rfl, hr, fun g hg => ⟨rfl, hangups g hg⟩⟩

theorem endpoint_of_gone {x : Exchange} (h : e.seek p side = (.gone, x)) :
    (e.pair p).endpoint side = none := by
  rw [seek] at h
  cases hend : (e.pair p).endpoint side with
  | none => rfl
  | some peer =>
      rw [hend] at h
      dsimp only at h
      rcases hl : e.tryLock peer with ⟨_ | _, e'⟩ <;> rw [hl] at h <;> cases h

theorem acquire_brings (hseated : TurnState.Seated e) {a : Acquisition}
    (hmessage : a.purpose.message ≠ none)
    (hside : a.purpose.isRelay = false → a.purpose.leaving = some a.side.peer) (c : ChannelId) :
    ∃ l, ((e.acquire a).1.channel c).frames = (e.channel c).frames ++ l ∧ a.Brings l := by
  have hseek := view_seek e a.pair a.side
  rw [acquire]
  rcases hs : e.seek a.pair a.side with ⟨sought, x⟩
  rw [hs] at hseek
  have hend : (x.pair a.pair).endpoint a.side = (e.pair a.pair).endpoint a.side := by
    rw [pair_eq_of_view hseek]
  have hseated' : TurnState.Seated x := fun q s o ho => by
    rw [pair_eq_of_view hseek] at ho
    exact size_eq_of_view hseek ▸ hseated q s o ho
  rw [← frames_of_view hseek c]
  cases sought with
  | gone => exact proceed_brings hseated' hmessage hside (hend.trans (endpoint_of_gone hs)) c
  | taken o => exact proceed_brings hseated' hmessage hside (hend.trans (endpoint_of_taken hs)) c
  | busy => exact ⟨[], (List.append_nil _).symm, .inl rfl⟩

end Exchange
end Switchboard
