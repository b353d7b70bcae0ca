import Switchboard.Proofs.RelayTurns
import Switchboard.Proofs.TurnState.ChanServed
import Switchboard.Proofs.Exclusion
import Switchboard.Proofs.LockRestoration

namespace Switchboard

namespace Exchange

def ownDepth (e : Exchange) : Option ChannelId → Nat
  | some c => e.locks.depths .main c
  | none => 0

def giveUp (e : Exchange) : Option ChannelId → Exchange
  | some c => e.modifyChannel c fun x => { x with lock := x.lock.suspend .main }
  | none => e

def takeBack? (e : Exchange) (depth : Nat) : Option ChannelId → Option Exchange
  | some c =>
    if depth = 0 then some e
    else ((e.channel c).lock.resume? .main depth).map fun l =>
    e.modifyChannel c ({ · with lock := l })
  | none => some e

end Exchange

namespace Acquisition

/-- How far an acquisition has come. -/
inductive Stage
  | trying
  | waiting
  | away (depth : Nat)
  | ended (peer : Option ChannelId)

def Stage.lets : Stage → Bool
  | waiting | away _ => true
  | trying | ended _ => false

/-- An acquisition in a session, with what its driver is going to do after it at the head of the
agenda. -/
structure Progress where
  stage : Stage
  session : Session

namespace Progress

def exchange (x : Progress) : Exchange := x.session.exchange

def depth (x : Progress) (c : ChannelId) : Nat := x.exchange.locks.depths .main c

/-- What the driver itself does. It may have to give up and take back its own lock any number of
times before it has the record again. -/
inductive Acts (a : Acquisition) : Progress → Progress → Prop
  | gone {s : Session} {e} (h : s.exchange.seek a.pair a.side = (.gone, e)) :
      Acts a ⟨.trying, s⟩ ⟨.ended none, { s with exchange := e }⟩
  | taken {s : Session} {c e} (h : s.exchange.seek a.pair a.side = (.taken c, e)) :
      Acts a ⟨.trying, s⟩ ⟨.ended (some c), { s with exchange := e }⟩
  | busy {s : Session} {e} (h : s.exchange.seek a.pair a.side = (.busy, e)) :
      Acts a ⟨.trying, s⟩ ⟨.waiting, s.turn (e, a.wait)⟩
  | giveUp {s : Session} {rest} (h : s.agenda = .retry a :: rest) :
      Acts a ⟨.waiting, s⟩
        ⟨.away (s.exchange.ownDepth a.source), { s with exchange := s.exchange.giveUp a.source }⟩
  | takeBack {s : Session} {depth e rest} (h : s.agenda = .retry a :: rest)
      (he : s.exchange.takeBack? depth a.source = some e) :
      Acts a ⟨.away depth, s⟩ ⟨.waiting, { s with exchange := e }⟩
  | again {s : Session} {rest} (h : s.agenda = .retry a :: rest) :
      Acts a ⟨.waiting, s⟩ ⟨.trying, { s with agenda := rest }⟩

/-- What others do meanwhile, in a script that was laid down or in any operations, which they bring
to their end. -/
inductive Lets (a : Acquisition) : Progress → Progress → Prop
  | script {stage : Stage} {s t : Session} {point rest} (hfree : stage.lets = true)
      (h : s.agenda = .pause point :: .retry a :: rest) (hs : s.step.Leads t)
      (ht : t.agenda = .retry a :: rest) :
      Lets a ⟨stage, s⟩ ⟨stage, t⟩
  | others {stage : Stage} {s t : Session} {rest} (hfree : stage.lets = true)
      (h : s.agenda = .retry a :: rest)
      (ops : List Operation) (hs : (s.interrupt ops).Leads t) (ht : t.agenda = s.agenda) :
      Lets a ⟨stage, s⟩ ⟨stage, t⟩

end Progress
end Acquisition

namespace Exchange

variable {e e' : Exchange} {p : PairId} {side : Side} {c d : ChannelId}

theorem seek_eq (e : Exchange) (p : PairId) (side : Side) :
    e.seek p side = match (e.pair p).endpoint side with
      | none => (.gone, e)
      | some c => if e.refuses c then (.busy, e.spent c) else (.taken c, e.taken c) := by
  rw [seek]
  cases (e.pair p).endpoint side with
  | none => rfl
  | some c =>
      dsimp only
      rw [tryLock_eq]
      cases e.refuses c <;> rfl

theorem seek_gone (h : e.seek p side = (.gone, e')) : (e.pair p).endpoint side = none ∧ e' = e := by
  rw [seek_eq] at h
  cases hend : (e.pair p).endpoint side with
  | none =>
      rw [hend] at h
      exact ⟨rfl, (Prod.mk.inj h).2.symm⟩
  | some c =>
      rw [hend] at h
      dsimp only at h
      split at h <;> cases h

theorem seek_taken (h : e.seek p side = (.taken c, e')) :
    (e.pair p).endpoint side = some c ∧ e.refuses c = false ∧ e' = e.taken c := by
  rw [seek_eq] at h
  cases hend : (e.pair p).endpoint side with
  | none =>
      rw [hend] at h
      cases h
  | some d =>
      rw [hend] at h
      dsimp only at h
      split at h
      · cases h
      · next hwilling =>
          cases h
          exact ⟨rfl, Bool.eq_false_iff.2 hwilling, rfl⟩

theorem seek_busy (h : e.seek p side = (.busy, e')) : ∃ c, e' = e.spent c := by
  rw [seek_eq] at h
  split at h
  · cases h
  · next c _ =>
      split at h
      · exact ⟨c, (Prod.mk.inj h).2.symm⟩
      · cases h

theorem depths_update (v : Locks) (c d : ChannelId) (l : RecursiveLock Party) (t : Party) :
    Locks.depths (Function.update v c l) t d = if d = c then l.depthOf t else v.depths t d := by
  unfold Locks.depths
  by_cases hd : d = c
  · rw [hd, Function.update_self, if_pos rfl]
  · rw [Function.update_of_ne hd, if_neg hd]

theorem locks_taken (hc : c.Among e.channels.size) :
    (e.taken c).locks = Function.update e.locks c ((e.locks c).take .main) :=
  locks_relock (e.spent c) hc _

theorem depths_taken (hsound : e.locks.Sound) (hc : c.Among e.channels.size)
    (hwilling : e.refuses c = false)
    (d : ChannelId) :
    (e.taken c).locks.depths .main d = e.locks.depths .main d + if some c = some d then 1
      else 0 := by
  rw [locks_taken hc, depths_update]
  by_cases hd : d = c
  · subst hd
    rw [if_pos rfl, if_pos rfl, (hsound d).depthOf_take (openTo_of_noScriptedFailure e hwilling),
      if_pos rfl]
    rfl
  · rw [if_neg hd, if_neg fun h => hd (Option.some.inj h).symm, Nat.add_zero]

theorem among_of_depths (h : 0 < e.locks.depths .main c) : c.Among e.channels.size := by
  by_contra hc
  rw [Locks.depths, (locks_unmade e hc id).2] at h
  cases h

theorem locks_giveUp (e : Exchange) (c : ChannelId) :
    (e.giveUp (some c)).locks = Function.update e.locks c ((e.locks c).suspend .main) := by
  by_cases hc : c.Among e.channels.size
  · exact locks_relock e hc _
  · obtain ⟨hsame, hfree⟩ := locks_unmade e hc fun x => { x with lock := x.lock.suspend .main }
    refine hsame.trans (Function.update_eq_self_iff.2 ?_).symm
    rw [hfree]
    rfl

theorem locks_takeBack {depth : Nat} (h : e.takeBack? depth (some c) = some e') (hpos : 0 < depth)
    (hc : c.Among e.channels.size) : e'.locks = Function.update e.locks c ⟨some .main, depth⟩ := by
  rw [takeBack?, if_neg hpos.ne'] at h
  obtain ⟨l, hl, rfl⟩ := Option.map_eq_some_iff.1 h
  obtain ⟨-, rfl⟩ := RecursiveLock.resume?_eq_some.1 hl
  exact locks_relock e hc _

theorem sound_giveUp (h : e.locks.Sound) (source : Option ChannelId) :
    (e.giveUp source).locks.Sound := by
  cases source with
  | none => exact h
  | some c =>
      rw [locks_giveUp]
      exact h.update ((h c).suspend .main) c

theorem sound_takeBack {depth : Nat} {source : Option ChannelId} (h : e.locks.Sound)
    (he : e.takeBack? depth source = some e')
    (hmade : ∀ c, 0 < depth → source = some c → c.Among e.channels.size) : e'.locks.Sound := by
  cases source with
  | none =>
      cases he
      exact h
  | some c =>
      rcases Nat.eq_zero_or_pos depth with rfl | hpos
      · cases he
        exact h
      · rw [locks_takeBack he hpos (hmade c hpos rfl)]
        exact h.update (by simp [RecursiveLock.Sound, hpos.ne']) c

theorem view_giveUp (e : Exchange) (source : Option ChannelId) :
    (e.giveUp source).view = e.view := by
  cases source with
  | none => rfl
  | some c => exact view_modifyChannel e c rfl

theorem view_takeBack {depth : Nat} {source : Option ChannelId}
    (h : e.takeBack? depth source = some e') :
    e'.view = e.view := by
  cases source with
  | none => cases h; rfl
  | some c =>
      rw [takeBack?] at h
      split at h
      · cases h
        rfl
      · obtain ⟨l, -, rfl⟩ := Option.map_eq_some_iff.1 h
        exact view_modifyChannel e c rfl

theorem seated_of_view (h : e'.view = e.view) (hseated : TurnState.Seated e) :
    TurnState.Seated e' := by
  intro p side c hc
  rw [pair_eq_of_view h] at hc
  rw [size_eq_of_view h]
  exact hseated p side c hc

end Exchange

namespace Acquisition.Progress

open Exchange

variable {a : Acquisition} {x y : Progress} {c : ChannelId}

theorem Acts.view (h : Acts a x y) : y.exchange.view = x.exchange.view := by
  cases h with
  | @gone s e hseek | @taken s c e hseek | @busy s e hseek =>
      have hview := view_seek s.exchange a.pair a.side
      rw [hseek] at hview
      exact hview
  | @giveUp s => exact view_giveUp s.exchange a.source
  | takeBack _ he => exact view_takeBack he
  | again => rfl

theorem Lets.leads (h : Lets a x y) : x.session.Leads y.session := by
  cases h with
  | script _ _ hs => exact .head (.step _) hs
  | others _ h ops hs => exact .head (.others _ a _ ops h) hs

theorem Lets.stage (h : Lets a x y) : y.stage = x.stage ∧ x.stage.lets = true := by
  cases h with
  | script hfree | others hfree => exact ⟨rfl, hfree⟩

/-- What an acquisition relies on wherever it has come to. -/
structure Sound (a : Acquisition) (x : Progress) : Prop where
  locks : x.exchange.locks.Sound
  seated : TurnState.Seated x.exchange
  source : ∀ depth c, x.stage = .away depth → 0 < depth → a.source = some c →
    c.Among x.exchange.channels.size

theorem Sound.of_stage (hlocks : x.exchange.locks.Sound) (hseated : TurnState.Seated x.exchange)
    (h : ∀ depth, x.stage ≠ .away depth) : Sound a x :=
  ⟨hlocks, hseated, fun depth _ haway => absurd haway (h depth)⟩

theorem Lets.sound (h : Lets a x y) (hx : Sound a x) : Sound a y := by
  have hleads : ∀ t, x.session.Leads t →
      TurnState.Seated t.exchange ∧ x.exchange.channels.size ≤ t.exchange.channels.size := by
    intro t ht
    induction ht with
    | refl => exact ⟨hx.seated, Nat.le_refl _⟩
    | tail _ hm ih =>
        obtain ⟨d, hdesk⟩ := hm.leads
        exact ⟨hm.seated ih.1, ih.2.trans (TurnState.Leads.channels hdesk)⟩
  obtain ⟨hseated, hsize⟩ := hleads y.session h.leads
  refine ⟨Session.Leads.locks_sound h.leads hx.locks, hseated,
    fun depth c hstage hpos hsource => ?_⟩
  exact (hx.source depth c (h.stage.1 ▸ hstage) hpos hsource).mono hsize

/-- What others do may be whole operations. Unless these are on the locks themselves, they leave the
driver as deep in every lock as it was. -/
theorem Lets.whole {stage : Stage} {s t : Session} {rest : List Task} {ops : List Operation}
    (hfree : stage.lets = true)
    (h : s.agenda = .retry a :: rest) (hv : s.exchange.locks.Sound)
    (hops : ∀ c what, Operation.locking c what ∉ ops)
    (ht : (s.interrupt ops).Completes .main s.agenda t) :
    Lets a ⟨stage, s⟩ ⟨stage, t⟩ ∧ ∀ c, depth ⟨stage, t⟩ c = depth ⟨stage, s⟩ c :=
  ⟨.others hfree h ops ht.leads.1 ht.leads.2, congrFun (Session.depths_interrupt hv hops ht)⟩

theorem Acts.sound (h : Acts a x y) (hx : Sound a x) : Sound a y := by
  have hseated := seated_of_view h.view hx.seated
  have hsize := size_eq_of_view h.view
  cases h with
  | @gone s e hseek =>
      obtain ⟨-, rfl⟩ := seek_gone hseek
      exact .of_stage hx.locks hseated fun _ haway => by cases haway
  | @taken s c e hseek =>
      obtain ⟨hend, -, rfl⟩ := seek_taken hseek
      have hmade : c.Among s.exchange.channels.size := hx.seated _ _ _ hend
      have hlocks : (s.exchange.taken c).locks.Sound := by
        rw [locks_taken hmade]
        exact hx.locks.update RecursiveLock.sound_take c
      exact .of_stage hlocks hseated fun _ haway => by cases haway
  | @busy s e hseek =>
      obtain ⟨c, rfl⟩ := seek_busy hseek
      exact .of_stage hx.locks hseated fun _ haway => by cases haway
  | @giveUp s rest hagenda =>
      refine ⟨sound_giveUp hx.locks a.source, hseated, fun depth c hstage hpos hsource => ?_⟩
      have hown : s.exchange.locks.depths .main c = depth := by
        have hdepth := Stage.away.inj hstage
        rwa [hsource] at hdepth
      rw [hsize]
      exact among_of_depths (c := c) (hown ▸ hpos)
  | @takeBack s depth e rest hagenda he =>
      have hlocks := sound_takeBack hx.locks he fun c => hx.source depth c rfl
      exact .of_stage hlocks hseated fun _ haway => by cases haway
  | again => exact .of_stage hx.locks hseated fun _ haway => by cases haway

/-- How deep the driver holds the lock of `c`, if it was so deep at first. -/
def HoldsDepth (a : Acquisition) (c : ChannelId) (deep : Nat) (x : Progress) : Prop :=
  match x.stage with
  | .trying | .waiting => x.depth c = deep
  | .away depth => if a.source = some c then x.depth c = 0 ∧ depth = deep else x.depth c = deep
  | .ended peer => x.depth c = deep + if peer = some c then 1 else 0

theorem Acts.holdsDepth {deep : Nat} (h : Acts a x y) (hx : Sound a x)
    (hdeep : HoldsDepth a c deep x) : HoldsDepth a c deep y := by
  cases h with
  | @gone s e hseek =>
      obtain ⟨-, rfl⟩ := seek_gone hseek
      exact hdeep
  | @taken s d e hseek =>
      obtain ⟨hend, hwilling, rfl⟩ := seek_taken hseek
      have hbefore : s.exchange.locks.depths .main c = deep := hdeep
      have hafter := depths_taken hx.locks (hx.seated _ _ _ hend) hwilling c
      change (s.exchange.taken d).locks.depths .main c = deep + if some d = some c then 1 else 0
      rw [← hbefore]
      exact hafter
  | @busy s e hseek =>
      obtain ⟨d, rfl⟩ := seek_busy hseek
      exact hdeep
  | @giveUp s rest hagenda =>
      have hbefore : s.exchange.locks.depths .main c = deep := hdeep
      change if a.source = some c then (s.exchange.giveUp a.source).locks.depths .main c = 0 ∧
        s.exchange.ownDepth a.source = deep
        else (s.exchange.giveUp a.source).locks.depths .main c = deep
      cases a.source with
      | none => exact hbefore
      | some d =>
          rw [locks_giveUp, depths_update]
          by_cases hd : c = d
          · subst hd
            rw [if_pos rfl, if_pos rfl, RecursiveLock.depthOf_suspend, if_pos rfl]
            exact ⟨rfl, hbefore⟩
          · rw [if_neg hd, if_neg fun h => hd (Option.some.inj h).symm]
            exact hbefore
  | @takeBack s depth e rest hagenda he =>
      change if a.source = some c then s.exchange.locks.depths .main c = 0 ∧ depth = deep
        else s.exchange.locks.depths .main c = deep at hdeep
      change e.locks.depths .main c = deep
      cases hsource : a.source with
      | none =>
          rw [hsource] at he hdeep
          cases he
          exact hdeep
      | some d =>
          rw [hsource] at he hdeep
          rcases Nat.eq_zero_or_pos depth with rfl | hpos
          · cases he
            split at hdeep
            · exact hdeep.1.trans hdeep.2
            · exact hdeep
          · rw [locks_takeBack he hpos (hx.source depth d rfl hpos hsource), depths_update]
            by_cases hd : c = d
            · subst hd
              rw [if_pos rfl] at hdeep ⊢
              exact hdeep.2
            · rw [if_neg fun h => hd (Option.some.inj h).symm] at hdeep
              rw [if_neg hd, hdeep]
  | again => exact hdeep

theorem Lets.holdsDepth {deep : Nat} (h : Lets a x y) (hsame : y.depth c = x.depth c)
    (hdeep : HoldsDepth a c deep x) :
    HoldsDepth a c deep y := by
  rw [HoldsDepth] at hdeep ⊢
  rw [h.stage.1, hsame]
  exact hdeep

theorem not_acts_ended {peer : Option ChannelId} (h : x.stage = .ended peer) :
    ¬ (Acts a x y ∨ Lets a x y) := by
  rintro (hacts | hlets)
  · cases hacts <;> cases h
  · have hfree := hlets.stage.2
    rw [h] at hfree
    cases hfree

theorem acts_of_trying (h : Acts a x y ∨ Lets a x y) (hstage : x.stage = .trying) : Acts a x y := by
  refine h.resolve_right fun hlets => ?_
  have hfree := hlets.stage.2
  rw [hstage] at hfree
  cases hfree

theorem Acts.trying (h : Acts a x y) (hx : Sound a x) (hstage : x.stage = .trying) :
    (y.stage = .waiting ∧ x.exchange.acquire a = (y.exchange, a.wait)) ∨
      ∃ peer, y.stage = .ended peer ∧ x.exchange.acquire a = y.exchange.proceed a peer ∧
        (y.exchange.pair a.pair).endpoint a.side = peer ∧
        ∀ c, peer = some c → (y.exchange.channel c).lock.heldBy .main = true := by
  cases h with
  | @gone s e hseek =>
      obtain ⟨hend, rfl⟩ := seek_gone hseek
      refine .inr ⟨none, rfl, ?_, hend, fun _ => nofun⟩
      change s.exchange.acquire a = _
      rw [acquire, hseek]
      rfl
  | @taken s c e hseek =>
      obtain ⟨hend, -, rfl⟩ := seek_taken hseek
      refine .inr ⟨some c, rfl, ?_, hend, ?_⟩
      · change s.exchange.acquire a = _
        rw [acquire, hseek]
        rfl
      · intro d hd
        obtain rfl := Option.some.inj hd
        have hmade : c.Among s.exchange.channels.size := hx.seated _ _ _ hend
        change ((s.exchange.taken c).locks c).heldBy .main = true
        rw [locks_taken hmade, Function.update_self, RecursiveLock.heldBy_iff]
        rfl
  | @busy s e hseek =>
      refine .inl ⟨rfl, ?_⟩
      change s.exchange.acquire a = _
      rw [acquire, hseek]
      rfl
  | giveUp | takeBack | again => cases hstage

theorem trying_of_ended {peer : Option ChannelId} (h : Acts a x y ∨ Lets a x y)
    (hended : y.stage = .ended peer) :
    x.stage = .trying := by
  rcases h with hacts | hlets
  · cases hacts with
    | gone | taken => rfl
    | busy | giveUp | takeBack | again => cases hended
  · obtain ⟨hsame, hfree⟩ := hlets.stage
    rw [← hsame, hended] at hfree
    cases hfree

section Run

variable {z : Nat → Progress} {n : Nat}
    (hsteps : ∀ k < n, Acts a (z k) (z (k + 1)) ∨ Lets a (z k) (z (k + 1)))
include hsteps

theorem sound_run (hstart : Sound a (z 0)) (k : Nat) (hk : k ≤ n) : Sound a (z k) := by
  induction k with
  | zero => exact hstart
  | succ k ih =>
      have hbefore := ih (Nat.le_of_succ_le hk)
      exact (hsteps k hk).elim (fun h => h.sound hbefore) fun h => h.sound hbefore

theorem holdsDepth_run {deep : Nat} (hstart : Sound a (z 0)) (hdeep : HoldsDepth a c deep (z 0))
    (hothers : ∀ k < n, Lets a (z k) (z (k + 1)) → (z (k + 1)).depth c = (z k).depth c) (k : Nat)
    (hk : k ≤ n) :
    HoldsDepth a c deep (z k) := by
  induction k with
  | zero => exact hdeep
  | succ k ih =>
      have hbefore := ih (Nat.le_of_succ_le hk)
      rcases hsteps k hk with h | h
      · exact h.holdsDepth (sound_run hsteps hstart k (Nat.le_of_succ_le hk)) hbefore
      · exact h.holdsDepth (hothers k hk h) hbefore

end Run

end Acquisition.Progress

theorem Exchange.takeBack?_giveUp {e : Exchange} (h : e.locks.Sound) (source : Option ChannelId) :
    (e.giveUp source).takeBack? (e.ownDepth source) source = some e := by
  cases source with
  | none => rfl
  | some c =>
      change (e.giveUp (some c)).takeBack? (e.locks.depths .main c) (some c) = some e
      by_cases hheld : (e.channel c).lock.heldBy .main = true
      · have hpos : 0 < e.locks.depths .main c := (h c).heldBy_iff_depthOf_pos.1 hheld
        have hdepth : e.locks.depths .main c = (e.channel c).lock.depth :=
          RecursiveLock.depthOf_of_holder (RecursiveLock.heldBy_iff.1 hheld)
        rw [takeBack?, if_neg hpos.ne', giveUp,
          channel_modifyChannel (e := e) _ (among_of_depths hpos), hdepth]
        dsimp only
        rw [RecursiveLock.resume?_suspend (RecursiveLock.heldBy_iff.1 hheld), Option.map_some,
          modifyChannel_comp]
        exact congrArg some (modifyChannel_eq_self e rfl)
      · have hfree := Bool.eq_false_iff.2 hheld
        have hself : e.giveUp (some c) = e := modifyChannel_eq_self e
          (congrArg (fun l => { e.channel c with lock := l })
          (RecursiveLock.suspend_of_not_held hfree))
        have hdepth : e.locks.depths .main c = 0 := RecursiveLock.depthOf_of_not_held hfree
        rw [hself, hdepth]
        rfl

namespace Acquisition

open Exchange Progress Session

/-- An acquisition has come to its end, after so many steps of its driver and of others, with
`peer`. -/
structure Reaches (a : Acquisition) (x : Nat → Progress) (n : Nat) (peer : Option ChannelId) :
    Prop where
  current : ((x n).exchange.pair a.pair).endpoint a.side = peer
  held : ∀ c, peer = some c → ((x n).exchange.channel c).lock.heldBy .main = true
  /-- Of every lock that others have left to the driver as deep as they found it (see `Lets.whole`),
  the driver has no more than before, but for the one that it has reached. -/
  depth : ∀ c, (∀ k < n, Lets a (x k) (x (k + 1)) → (x (k + 1)).depth c = (x k).depth c) →
    (x n).depth c = (x 0).depth c + if peer = some c then 1 else 0
  records : ∀ k < n, Acts a (x k) (x (k + 1)) → (x (k + 1)).exchange.pairs = (x k).exchange.pairs
  attempts : ∀ k < n, (x k).stage = .trying → (x k).exchange.acquire a =
    if k + 1 = n then (x n).exchange.proceed a peer else ((x (k + 1)).exchange, a.wait)
  retries : ∀ k < n, (x k).stage = .waiting →
    ((x k).exchange.giveUp a.source).takeBack? ((x k).exchange.ownDepth a.source) a.source =
    some (x k).exchange ∧
    (x k).exchange.retry a = (x k).exchange.acquire a

/-- Whatever others do to the record and to the channels while an acquisition waits, in the end it
has the lock of whoever is on the side then, once more than before, or nobody's if nobody is. It
keeps no lock of those who were there before, and has its own again as deep as it had it. -/
theorem reaches_current {a : Acquisition} {x : Nat → Progress} {n : Nat} {peer : Option ChannelId}
    (hlocks : (x 0).exchange.locks.Sound) (hseated : TurnState.Seated (x 0).exchange)
    (hstart : (x 0).stage = .trying)
    (hsteps : ∀ k < n, Acts a (x k) (x (k + 1)) ∨ Lets a (x k) (x (k + 1)))
    (hended : (x n).stage = .ended peer) :
    Reaches a x n peer := by
  have hbegin : Sound a (x 0) :=
    .of_stage hlocks hseated fun _ haway => by rw [hstart] at haway; cases haway
  have hsound := sound_run hsteps hbegin
  obtain ⟨m, rfl⟩ : ∃ m, n = m + 1 := by
    refine Nat.exists_eq_succ_of_ne_zero ?_
    rintro rfl
    rw [hstart] at hended
    cases hended
  have hlast := trying_of_ended (hsteps m (Nat.lt_succ_self m)) hended
  have hreached :=
    (acts_of_trying (hsteps m (Nat.lt_succ_self m)) hlast).trying (hsound m (Nat.le_succ m)) hlast
  rw [hended] at hreached
  rcases hreached with ⟨hwaiting, -⟩ | ⟨_, hpeer, hproceeds, hcurrent, hheld⟩
  · cases hwaiting
  obtain rfl := Stage.ended.inj hpeer
  refine ⟨hcurrent, hheld, fun c hothers => ?_, fun k hk h => ?_, fun k hk htrying => ?_,
    fun k hk hwaiting => ?_⟩
  · have hdeep : HoldsDepth a c ((x 0).depth c) (x 0) := by rw [HoldsDepth, hstart]
    have hend := holdsDepth_run hsteps hbegin hdeep hothers (m + 1) (Nat.le_refl _)
    rw [HoldsDepth, hended] at hend
    exact hend
  · exact congrArg ExchangeView.pairs h.view
  · by_cases hk' : k = m
    · subst hk'
      rw [if_pos rfl]
      exact hproceeds
    · have hlt : k + 1 < m + 1 := by omega
      rw [if_neg (by omega)]
      have hattempt :=
        (acts_of_trying (hsteps k hk) htrying).trying (hsound k (Nat.le_of_lt hk)) htrying
      rcases hattempt with ⟨-, hwait⟩ | ⟨_, hstop, -⟩
      · exact hwait
      · exact absurd (hsteps (k + 1) hlt) (not_acts_ended hstop)
  · exact ⟨takeBack?_giveUp (hsound k (Nat.le_of_lt hk)).locks a.source, retry_eq _ a⟩

/-- The owner-side sends a text with its own lock held twice, and the chan-side's lock is refused.
Before it is tried again another channel is put on the chan-side. -/
def ousting : List Operation :=
  [.request .dispatched "Local" "100@internal" ⟨4⟩, .newChannel "SIP/third",
    .edit ⟨3⟩ (.slot (.pair ⟨1⟩)),
    .locking ⟨1⟩ .lock, .locking ⟨1⟩ .lock, .scriptLocks ⟨2⟩ [false], .onBackOff [.fixup ⟨2⟩ ⟨3⟩],
    .relay ⟨1⟩ .owner (.text "hello") (some ⟨1⟩) true]

def receiver : Acquisition := ⟨⟨1⟩, .chan, some ⟨1⟩, .relay (.text "hello") (some ⟨1⟩)⟩

def ousted (k : Nat) : Progress :=
  let s := run 20 { exchange := {}, agenda := tasksOf ousting }
  let tries := { s with exchange := s.exchange.modifyPair ⟨1⟩ Pair.entered, agenda := [.report] }
  let waits := tries.turn ((tries.exchange.seek ⟨1⟩ .chan).2, receiver.wait)
  let lets := waits.step.run 4
  let gives := { lets with exchange := lets.exchange.giveUp (some ⟨1⟩) }
  let lends := (gives.interrupt [.locking ⟨1⟩ .hold, .locking ⟨1⟩ .releaseHold]).run 7
  let takes :=
    { lends with exchange := (lends.exchange.takeBack? 2 (some ⟨1⟩)).getD lends.exchange }
  let again := { takes with agenda := [.report] }
  match k with
  | 0 => ⟨.trying, tries⟩
  | 1 => ⟨.waiting, waits⟩
  | 2 => ⟨.waiting, lets⟩
  | 3 => ⟨.away 2, gives⟩
  | 4 => ⟨.away 2, lends⟩
  | 5 => ⟨.waiting, takes⟩
  | 6 => ⟨.trying, again⟩
  | _ => ⟨.ended (some ⟨3⟩), { again with exchange := (again.exchange.seek ⟨1⟩ .chan).2 }⟩

theorem ousted_steps : ∀ k < 7,
    Acts receiver (ousted k) (ousted (k + 1)) ∨ Lets receiver (ousted k) (ousted (k + 1))
  | 0, _ => .inl (.busy rfl)
  | 1, _ => .inr (.script rfl rfl (leads_run _ 4) rfl)
  | 2, _ => .inl (.giveUp (show _ = [_, .report] from rfl))
  | 3, _ => .inr (.others rfl (show _ = [_, .report] from rfl) _ (leads_run _ 7) rfl)
  | 4, _ => .inl (.takeBack (show _ = [_, .report] from rfl) rfl)
  | 5, _ => .inl (.again rfl)
  | 6, _ => .inl (.taken rfl)

theorem ousted_reaches : (ousted 0).exchange.locks.Sound ∧ TurnState.Seated (ousted 0).exchange ∧
    ((ousted 0).exchange.pair ⟨1⟩).chan = some ⟨2⟩ ∧ Reaches receiver ousted 7 (some ⟨3⟩) ∧
    [⟨1⟩, ⟨2⟩, ⟨3⟩].map (ousted 7).depth = [2, 0, 1] := by
  have hstart : start {} ousting = .ok { exchange := {}, agenda := tasksOf ousting } := rfl
  have hreachable := (Reachable.start hstart).run 20
  have hlocks : (ousted 0).exchange.locks.Sound :=
    (locks_modifyPair _ _ _).symm ▸ hreachable.locks_sound
  have hseated : TurnState.Seated (ousted 0).exchange := by
    intro p side c hc
    have hsame : ∀ e : Exchange, ((e.modifyPair ⟨1⟩ Pair.entered).pair p).endpoint side =
      (e.pair p).endpoint side :=
      fun e => congrFun (pair_modifyPair_congr Pair.endpoint e ⟨1⟩ p rfl) side
    exact hreachable.seated p side c ((hsame _).symm.trans hc)
  exact ⟨hlocks, hseated, rfl, reaches_current hlocks hseated rfl ousted_steps rfl, rfl⟩

end Acquisition
end Switchboard
