import Switchboard.Proofs.Ledger.Sound
import Switchboard.Proofs.ExchangeView
import Switchboard.Proofs.Territory

namespace Switchboard

/-- How many channels of the territory have not been hung up, and how many attempts on their locks
are laid down. -/
def Territory.credit (T : Territory) (e : Exchange) : Nat :=
  (T.channels.countP fun c => !(e.channel c).hungup) + e.contention.attempts.countP
    (·.1 ∈ T.channels)

def Purpose.parties : Purpose → List ChannelId
  | .relay _ source => source.toList
  | .dialStatus leaver _ | .ownerLeaving leaver => [leaver]

structure Acquisition.Within (T : Territory) (a : Acquisition) : Prop where
  pair : T.pairs a.pair
  source : ∀ c, a.source = some c → c ∈ T.channels
  parties : ∀ c ∈ a.purpose.parties, c ∈ T.channels

namespace Task

/-- The task is about the territory, and nobody gets in before it is done. -/
def Suits (T : Territory) (e : Exchange) : Task → Prop
  | dispatch c s => c ∈ T.channels ∧ (s = .hangup ∨ (e.channel c).bridge = none)
  | hangup c | delist c | unlock c => c ∈ T.channels
  | retry a => a.Within T
  | pause point => point = .backOff ∧ T.unscripted
  | settle _ => True
  | _ => False

/-- A bound on what is to come of a task, apart from the hangups of channels that are still up and
the attempts on locks that are laid down. -/
def stepBound : Task → Nat
  | dispatch _ _ => 6
  | retry _ => 4
  | hangup _ => 3
  | _ => 1

variable {T : Territory} {e : Exchange} {ws : List Write}

theorem Suits.after {t : Task} (ht : t.Suits T e) (hws : ∀ w ∈ ws, w.Within T) :
    t.Suits T (e.after ws) := by
  cases t with
  | dispatch c s =>
      refine ⟨ht.1, ht.2.imp_right fun hbridge => ?_⟩
      rw [(Exchange.channel_after_loosens hws e c).bridge, hbridge]
  | _ => exact ht

end Task

def stepBound : List Task → Nat
  | [] => 0
  | t :: ts => t.stepBound + stepBound ts

@[simp] theorem stepBound_append (ts us : List Task) :
    stepBound (ts ++ us) = stepBound ts + stepBound us := by
  induction ts with
  | nil => simp [stepBound]
  | cons t ts ih => simp [stepBound, ih, Nat.add_assoc]

namespace Exchange

def Writes (T : Territory) (e : Exchange) (f : Exchange → Exchange) : Prop :=
  ∃ ws, (∀ w ∈ ws, w.Within T) ∧ ∀ x, AgreeOn T e x → f x = x.after ws

def Gives {β : Type} (T : Territory) (e : Exchange) (f : Exchange → β × Exchange) : Prop :=
  ∃ r, Writes T e (fun x => (f x).2) ∧ ∀ x, AgreeOn T e x → (f x).1 = r

/-- It is always the same chain of writes and the same tasks, which are about the territory. Their
bound is at most `n`, with five for each unit of credit used up meanwhile. -/
def Does (T : Territory) (e : Exchange) (h : Exchange → Turn) (n : Nat) : Prop :=
  ∃ ws ts, (∀ w ∈ ws, w.Within T) ∧ (∀ x, AgreeOn T e x → h x = (x.after ws, ts)) ∧
    (∀ t ∈ ts, t.Suits T (e.after ws)) ∧
    stepBound ts + 5 * T.credit (e.after ws) ≤ n + 5 * T.credit e

variable {T : Territory} {e x : Exchange} {w : Write} {ws : List Write} {c : ChannelId} {p : PairId}
  {side : Side} {β : Type} {r : β} {m n : Nat} {f g : Exchange → Exchange} {h k : Exchange → Turn}
  {ts : List Task}

theorem credit_after_le (hws : ∀ w ∈ ws, w.Within T) (e : Exchange) :
    T.credit (e.after ws) ≤ T.credit e := by
  refine Nat.add_le_add (List.countP_mono_left fun c _ hlive => ?_)
    ((attempts_after ws e).countP_le)
  rw [Bool.not_eq_true'] at hlive ⊢
  by_contra hhungup
  rw [Bool.not_eq_false] at hhungup
  rw [(channel_after_loosens hws e c).hungup hhungup] at hlive
  cases hlive

theorem Writes.congr (hg : Writes T e g) (hfg : ∀ x, AgreeOn T e x → f x = g x) : Writes T e f := by
  obtain ⟨ws, hws, hx⟩ := hg
  exact ⟨ws, hws, fun x hex => (hfg x hex).trans (hx x hex)⟩

theorem Does.congr (hk : Does T e k n) (hhk : ∀ x, AgreeOn T e x → h x = k x) : Does T e h n := by
  obtain ⟨ws, ts, hws, hx, hts⟩ := hk
  exact ⟨ws, ts, hws, fun x hex => (hhk x hex).trans (hx x hex), hts⟩

theorem Does.mono (hh : Does T e h m) (hmn : m ≤ n) : Does T e h n := by
  obtain ⟨ws, ts, hws, hx, hts, hbound⟩ := hh
  exact ⟨ws, ts, hws, hx, hts, by omega⟩

theorem writes_id (T : Territory) (e : Exchange) : Writes T e id := ⟨[], by simp, fun _ _ => rfl⟩

theorem writes_write (hw : w.Within T) : Writes T e w.apply :=
  ⟨[w], by simpa using hw, fun _ _ => rfl⟩

theorem Writes.comp (he : e.SelfContained T) (hf : Writes T e f)
    (hg : ∀ e₁, e₁.SelfContained T → Writes T e₁ g) :
    Writes T e fun x => g (f x) := by
  obtain ⟨ws, hws, hfx⟩ := hf
  obtain ⟨vs, hvs, hgx⟩ := hg (e.after ws) (he.after hws)
  refine ⟨ws ++ vs, fun w hw => (List.mem_append.1 hw).elim (hws w) (hvs w), fun x hx => ?_⟩
  simp only [hfx x hx, hgx _ (hx.after ws), after_append]

theorem does_after (hws : ∀ w ∈ ws, w.Within T) (hk : Does T (e.after ws) k n) :
    Does T e (fun x => k (x.after ws)) n := by
  obtain ⟨vs, ts, hvs, hkx, hts, hbound⟩ := hk
  refine ⟨ws ++ vs, ts, fun w hw => (List.mem_append.1 hw).elim (hws w) (hvs w),
    fun x hx => ?_, ?_, ?_⟩
  · simp only [hkx _ (hx.after ws), after_append]
  · rwa [after_append]
  · have hcredit := credit_after_le hws e
    rw [after_append]
    omega

theorem Writes.does (he : e.SelfContained T) (hf : Writes T e f)
    (hk : ∀ e₁, e₁.SelfContained T → Does T e₁ k n) :
    Does T e (fun x => k (f x)) n := by
  obtain ⟨ws, hws, hfx⟩ := hf
  refine (does_after hws (hk (e.after ws) (he.after hws))).congr fun x hx => ?_
  rw [hfx x hx]

theorem Gives.does {f : Exchange → β × Exchange} {k : β → Exchange → Turn} (he : e.SelfContained T)
    (hf : Gives T e f)
    (hk : ∀ r e₁, e₁.SelfContained T → Does T e₁ (k r) n) :
    Does T e (fun x => k (f x).1 (f x).2) n := by
  obtain ⟨r, hwrites, hr⟩ := hf
  refine (hwrites.does he (hk r)).congr fun x hx => ?_
  simp only [hr x hx]

theorem Writes.gives (hf : Writes T e f) (r : β) : Gives T e fun x => (r, f x) :=
  ⟨r, hf, fun _ _ => rfl⟩

theorem Gives.bind {γ : Type} {f : Exchange → β × Exchange} {k : β → Exchange → γ × Exchange}
    (he : e.SelfContained T)
    (hf : Gives T e f) (hk : ∀ r e₁, e₁.SelfContained T → Gives T e₁ (k r)) :
    Gives T e fun x => k (f x).1 (f x).2 := by
  obtain ⟨r, ⟨ws, hws, hx⟩, hr⟩ := hf
  obtain ⟨u, ⟨vs, hvs, hy⟩, hu⟩ := hk r (e.after ws) (he.after hws)
  refine ⟨u, ⟨ws ++ vs, fun w hw => (List.mem_append.1 hw).elim (hws w) (hvs w), fun x hex => ?_⟩,
    fun x hex => ?_⟩
  · simp only [hr x hex, hx x hex, hy _ (hex.after ws), after_append]
  · simp only [hr x hex, hx x hex, hu _ (hex.after ws)]

theorem Writes.comp_gives {k : Exchange → β × Exchange} (he : e.SelfContained T) (hf : Writes T e f)
    (hk : ∀ e₁, e₁.SelfContained T → Gives T e₁ k) : Gives T e fun x => k (f x) :=
  (hf.gives ()).bind he (k := fun _ => k) fun _ => hk

theorem Gives.congr {f k : Exchange → β × Exchange} (hk : Gives T e k)
    (hfk : ∀ x, AgreeOn T e x → f x = k x) :
    Gives T e f := by
  obtain ⟨r, hwrites, hr⟩ := hk
  exact ⟨r, hwrites.congr fun x hx => congrArg Prod.snd (hfk x hx),
    fun x hx => (congrArg Prod.fst (hfk x hx)).trans (hr x hx)⟩

theorem gives_same (T : Territory) (e : Exchange) (r : β) : Gives T e fun x => (r, x) :=
  (writes_id T e).gives r

theorem Does.append (he : e.SelfContained T) (hh : Does T e h n)
    (hts : ∀ e₁, e₁.SelfContained T → ∀ t ∈ ts, t.Suits T e₁) :
    Does T e (fun x => ((h x).1, (h x).2 ++ ts)) (n + stepBound ts) := by
  obtain ⟨ws, us, hws, hx, hus, hbound⟩ := hh
  refine ⟨ws, us ++ ts, hws, fun x hex => ?_, fun t ht => ?_, ?_⟩
  · simp only [hx x hex]
  · exact (List.mem_append.1 ht).elim (hus t) (hts _ (he.after hws) t)
  · rw [stepBound_append]
    omega

theorem does_tasks (ts : List Task) (hts : ∀ t ∈ ts, t.Suits T e) :
    Does T e (fun x => (x, ts)) (stepBound ts) :=
  ⟨[], ts, by simp, fun _ _ => rfl, hts, Nat.le_refl _⟩

theorem does_settled (T : Territory) (e : Exchange) (a : Answer) : Does T e (·.settled a) 1 :=
  does_tasks [.settle a] (by simp [Task.Suits])

theorem AgreeOn.recordOf (hx : AgreeOn T e x) (hc : c ∈ T.channels) :
    x.recordOf c = e.recordOf c := by
  simp only [Exchange.recordOf, hx.channel hc]

theorem SelfContained.pairs (he : e.SelfContained T) (hc : c ∈ T.channels)
    (hp : e.recordOf c = some p) : T.pairs p :=
  he.slot c hc p (slot_of_recordOf hp)

theorem AgreeOn.membership (hx : AgreeOn T e x) (he : e.SelfContained T) (hc : c ∈ T.channels) :
    x.membership c = e.membership c := by
  rw [Exchange.membership, Exchange.membership, hx.recordOf hc]
  cases hp : e.recordOf c with
  | none => rfl
  | some p => rw [Option.bind_some, Option.bind_some, hx.pair (he.pairs hc hp)]

theorem AgreeOn.isDriven (hx : AgreeOn T e x) (hc : c ∈ T.channels) :
    x.isDriven c = e.isDriven c := by
  simp only [Exchange.isDriven, hx.channel hc, hx.proxyRegistered]

theorem AgreeOn.notLocal (hx : AgreeOn T e x) (hc : c ∈ T.channels) :
    x.notLocal c = e.notLocal c := by
  simp only [Exchange.notLocal, hx.channel hc]

theorem AgreeOn.feedsBoth (hx : AgreeOn T e x) {source : Option ChannelId} {other : ChannelId}
    (hsource : ∀ s, source = some s → s ∈ T.channels) (hother : other ∈ T.channels) :
    x.feedsBoth source other = e.feedsBoth source other := by
  cases source with
  | none => rfl
  | some s =>
      simp only [Exchange.feedsBoth, Option.any_some, hx.channel (hsource s rfl), hx.channel hother]

theorem lock_gives (he : e.SelfContained T) (hc : c ∈ T.channels) :
    ∃ ws, (∀ w ∈ ws, w.Within T) ∧ ∀ x, AgreeOn T e x → x.lock? c = some (x.after ws) := by
  refine ⟨[.channel c ({ · with lock := (e.channel c).lock.take .main })], ?_, fun x hx => ?_⟩
  · simp only [List.mem_singleton, forall_eq]
    exact ⟨hc, fun y => ⟨.inl rfl, rfl, fun _ => rfl, id⟩⟩
  · rw [lock?, hx.channel hc, RecursiveLock.lock?, if_pos (he.free c hc)]
    rfl

theorem credit_spend {a : ChannelId × Bool} (ha : a ∈ e.contention.attempts)
    (hc : a.1 ∈ T.channels) :
    T.credit ((Write.spend a.1).apply e) + 1 = T.credit e := by
  obtain ⟨b, before, behind, -, hb, hsplit, herase⟩ :=
    List.exists_of_eraseP (p := (·.1 = a.1)) ha (by simp)
  have hcount : (e.contention.attempts.eraseP (·.1 = a.1)).countP (·.1 ∈ T.channels) + 1 =
      e.contention.attempts.countP (·.1 ∈ T.channels) := by
    have hb' : b.1 ∈ T.channels := by simp_all
    rw [herase, hsplit]
    simp [hb', Nat.add_assoc]
  exact congrArg (_ + ·) hcount

theorem tryLock_gives (he : e.SelfContained T) (hc : c ∈ T.channels) :
    ∃ b ws, (∀ w ∈ ws, w.Within T) ∧ (∀ x, AgreeOn T e x → x.tryLock c = (b, x.after ws)) ∧
      (b = false → T.unscripted ∧ T.credit (e.after ws) + 1 = T.credit e) := by
  have hspend : (Write.spend c).Within T := hc
  cases hfails : (e.contention.attempts.find? (·.1 = c)).any (!·.2) with
  | true =>
      obtain ⟨a, hfind, hfailed⟩ : ∃ a, e.contention.attempts.find? (·.1 = c) = some a ∧
        a.2 = false := by
        cases hf : e.contention.attempts.find? (·.1 = c) <;> simp_all
      have hmem := List.mem_of_find?_eq_some hfind
      obtain rfl : a.1 = c := by simpa using List.find?_some hfind
      refine ⟨false, [.spend a.1], by simpa using hspend, fun x hx => ?_,
        fun _ => ⟨?_, credit_spend hmem hc⟩⟩
      · simp only [tryLock, hx.attempt hc, hfails]
        rfl
      · refine he.noScriptedFailure.resolve_right fun hwilling => ?_
        rw [hwilling a hmem hc] at hfailed
        cases hfailed
  | false =>
      obtain ⟨ws, hws, hlock⟩ := lock_gives (he.apply hspend) hc
      refine ⟨true, .spend c :: ws, by simpa using ⟨hspend, hws⟩, fun x hx => ?_,
        fun h => by cases h⟩
      have htaken := hlock _ (hx.apply (.spend c))
      simp only [tryLock, hx.attempt hc, hfails]
      change attemptLock ((Write.spend c).apply x) c = _
      rw [attemptLock, htaken]
      rfl

theorem unlock_writes (hc : c ∈ T.channels) : Writes T e (·.unlock c) := by
  refine writes_write (w := .channel c _) ⟨hc, fun y => ⟨.inl rfl, rfl, fun hopen => ?_, id⟩⟩
  change (y.lock.unlock .main).openTo .main = true
  rw [RecursiveLock.unlock]
  split
  · split <;> rfl
  · exact hopen

theorem modifyChannel_writes {f : Channel → Channel} (hc : c ∈ T.channels)
    (hf : ∀ y, (f y).ties = y.ties) :
    Writes T e (·.modifyChannel c f) :=
  writes_write (w := .channel c f) ⟨hc, fun y => Channel.loosens_of_ties (hf y)⟩

theorem setSlot_writes (hc : c ∈ T.channels) : Writes T e (·.setSlot c .empty) :=
  writes_write (w := .channel c _) ⟨hc, fun _ => ⟨.inr rfl, rfl, id, id⟩⟩

theorem queueFrame_writes (hc : c ∈ T.channels) (frame : Frame) :
    Writes T e (·.queueFrame c frame) :=
  modifyChannel_writes hc fun _ => rfl

theorem setVar_writes (hc : c ∈ T.channels) (name value : String) :
    Writes T e (·.setVar c name value) :=
  modifyChannel_writes hc fun _ => rfl

theorem setState_writes (hc : c ∈ T.channels) (s : ChannelState) : Writes T e (·.setState c s) :=
  modifyChannel_writes hc fun _ => rfl

theorem modifyPair_writes {f : Pair → Pair} (hp : T.pairs p) (hf : ∀ y, (f y).endpoint = y.endpoint) :
    Writes T e (·.modifyPair p f) :=
  writes_write (w := .pair p f) ⟨hp, fun y side => .inl (congrFun (hf y) side)⟩

theorem destroy_writes (hp : T.pairs p) : Writes T e (·.destroy p) := by
  by_cases hdestroyed : (e.pair p).destroyed = true
  · refine (writes_id T e).congr fun x hx => ?_
    simp only [destroy, hx.pair hp, hdestroyed, if_true, id]
  · let done : Pair → Pair := fun y =>
      { y with owner := none, chan := none, ownerUse := .dropped, chanUse := .dropped, destroyed := true }
    refine ⟨[.pair p done, .drop (e.pair p).ownerUse, .drop (e.pair p).chanUse, .count], ?_,
      fun x hx => ?_⟩
    · intro w hw
      simp only [List.mem_cons, List.not_mem_nil, or_false] at hw
      rcases hw with rfl | rfl | rfl | rfl
      · exact ⟨hp, fun y side => .inr (by cases side <;> rfl)⟩
      all_goals trivial
    · simp only [destroy, hx.pair hp, hdestroyed]
      rfl

theorem clearSide_writes (hp : T.pairs p) (side : Side) : Writes T e (·.clearSide p side) := by
  refine ⟨[.pair p (·.clear side), .drop ((e.pair p).token side)], ?_, fun x hx => ?_⟩
  · intro w hw
    simp only [List.mem_cons, List.not_mem_nil, or_false] at hw
    rcases hw with rfl | rfl
    · refine ⟨hp, fun y s => ?_⟩
      rw [endpoint_clear]
      split
      · exact .inr rfl
      · exact .inl rfl
    · trivial
  · simp only [clearSide, hx.pair hp]
    rfl

theorem leaveGlare_writes (he : e.SelfContained T) (hp : T.pairs p) :
    Writes T e (·.leaveGlare p) := by
  have hglare : Writes T e (·.modifyPair p ({ · with glare := (e.pair p).glare.leave.2 })) :=
    modifyPair_writes hp fun _ => rfl
  by_cases hexit : (e.pair p).glare.leave.1 = .destroy
  · refine (hglare.comp he fun e₁ _ => destroy_writes hp).congr fun x hx => ?_
    simp only [leaveGlare, hx.pair hp, hexit, if_true]
  · refine hglare.congr fun x hx => ?_
    simp only [leaveGlare, hx.pair hp, hexit, if_false]

theorem retire_writes (he : e.SelfContained T) (hp : T.pairs p) : Writes T e (·.retire p) := by
  have hunlink : Writes T e fun x => { x with registry := x.registry.unlink p } :=
    writes_write (w := .unlink p) hp
  have hglare : Writes T e (·.cancelGlare p) := by
    refine (hunlink.comp he fun e₁ _ => modifyPair_writes
      (f := ({ · with glare := (e.pair p).glare.cancel.2 })) hp
      fun _ => rfl).congr fun x hx => ?_
    simp only [cancelGlare, hx.pair hp]
  by_cases hdeferred : (e.pair p).glare.cancel.1 = true
  · refine hglare.congr fun x hx => ?_
    simp only [retire_eq, hx.pair hp, hdeferred, if_true]
  · refine (hglare.comp he fun e₁ _ => destroy_writes hp).congr fun x hx => ?_
    simp only [retire_eq, hx.pair hp, hdeferred]
    rfl

theorem place_writes (he : e.SelfContained T) (hc : c ∈ T.channels) (frame : Frame)
    {source : Option ChannelId}
    (hsource : ∀ s, source = some s → s ∈ T.channels) : Writes T e (·.place frame source c) := by
  have hqueue : ∀ e₁ : Exchange, e₁.SelfContained T → Writes T e₁
      fun x => (if frame.isControl .ringing then x.setState c .ringing
      else x).queueFrame c frame := by
    intro e₁ he₁
    cases frame.isControl .ringing with
    | true => exact (setState_writes hc _).comp he₁ fun e₂ _ => queueFrame_writes hc frame
    | false => exact queueFrame_writes hc frame
  have hbusy : ∀ x, AgreeOn T e x → (source.bind fun s => (x.channel s).getVar busyPeer) =
      source.bind fun s => (e.channel s).getVar busyPeer := by
    intro x hx
    cases source with
    | none => rfl
    | some s => rw [Option.bind_some, Option.bind_some, hx.channel (hsource s rfl)]
  cases hvar : source.bind fun s => (e.channel s).getVar busyPeer with
  | none =>
      refine (hqueue e he).congr fun x hx => ?_
      simp only [place, hbusy x hx, hvar]
  | some busy =>
      refine ((setVar_writes hc busyPeer busy).comp he hqueue).congr fun x hx => ?_
      simp only [place, hbusy x hx, hvar]

theorem releasePeer_writes {peer : Option ChannelId} (hpeer : ∀ c, peer = some c → c ∈ T.channels) :
    Writes T e (·.releasePeer peer) := by
  cases peer with
  | none => exact writes_id T e
  | some c => exact unlock_writes (hpeer c rfl)

theorem deliver_does (he : e.SelfContained T) (hp : T.pairs p) (frame : Frame)
    {source peer : Option ChannelId}
    (hsource : ∀ s, source = some s → s ∈ T.channels)
    (hpeer : ∀ c, peer = some c → c ∈ T.channels) :
    Does T e (·.deliver p frame source peer) 1 := by
  by_cases hcancelled : (e.pair p).glare.isCancelled = true
  · refine ((leaveGlare_writes he hp).does he fun e₁ he₁ =>
      (releasePeer_writes hpeer).does he₁ fun e₂ _ => does_settled T e₂ .recordDestroyed).congr
        fun x hx => ?_
    simp only [deliver, hx.pair hp, hcancelled, if_true]
  · have hrest : ∀ e₁ : Exchange, e₁.SelfContained T → Does T e₁ (fun x =>
        ((x.releasePeer peer).modifyPair p fun r => { r with glare := r.glare.leave.2 }).settled
          .relayed) 1 :=
      fun e₁ he₁ => (releasePeer_writes hpeer).does he₁ fun e₂ he₂ =>
        (modifyPair_writes (f := fun r => { r with glare := r.glare.leave.2 }) hp fun _ => rfl).does
          he₂ fun e₃ _ =>
          does_settled T e₃ .relayed
    cases peer with
    | none =>
        refine (hrest e he).congr fun x hx => ?_
        simp only [deliver, hx.pair hp, hcancelled]
        rfl
    | some c =>
        by_cases hmasqueraded : (e.pair p).phase.isMasqueraded = true
        · refine (hrest e he).congr fun x hx => ?_
          simp only [deliver, hx.pair hp, hcancelled, hmasqueraded]
          rfl
        · refine ((place_writes he (hpeer c rfl) frame hsource).does he hrest).congr fun x hx => ?_
          simp only [deliver, hx.pair hp, hcancelled, hmasqueraded]
          rfl

/-- An endpoint is locked or gone, or the attempt on its lock was laid down to fail. -/
theorem acquire_does (he : e.SelfContained T) {a : Acquisition} (ha : a.Within T)
    (hproceed : ∀ e₁ peer, e₁.SelfContained T → (∀ c, peer = some c → c ∈ T.channels) →
    Does T e₁ (·.proceed a peer) n) :
    Does T e (·.acquire a) n := by
  cases hend : (e.pair a.pair).endpoint a.side with
  | none =>
      refine (hproceed e none he fun c hc => by cases hc).congr fun x hx => ?_
      simp only [acquire, seek, hx.pair ha.pair, hend]
  | some peer =>
      have hpeer := he.seated a.pair ha.pair a.side peer hend
      obtain ⟨b, ws, hws, htry, hfailed⟩ := tryLock_gives he hpeer
      cases b with
      | true =>
          have hwrites : Writes T e fun x => (x.tryLock peer).2 :=
            ⟨ws, hws, fun x hx => congrArg Prod.snd (htry x hx)⟩
          refine (hwrites.does he fun e₁ he₁ => hproceed e₁ (some peer) he₁ fun c hc => ?_).congr
            fun x hx => ?_
          · rw [← Option.some.inj hc]
            exact hpeer
          · simp only [acquire, seek, hx.pair ha.pair, hend, htry x hx]
      | false =>
          obtain ⟨hunscripted, hcredit⟩ := hfailed rfl
          have hwait : (∀ t ∈ a.wait, t.Suits T (e.after ws)) ∧ stepBound a.wait ≤ 5 := by
            rw [Acquisition.wait]
            split
            · exact ⟨by simpa [Task.Suits] using ⟨hunscripted, ha⟩, by simp [stepBound, Task.stepBound]⟩
            · exact ⟨by simpa [Task.Suits] using ha, by simp [stepBound, Task.stepBound]⟩
          refine ⟨ws, a.wait, hws, fun x hx => ?_, hwait.1, by omega⟩
          simp only [acquire, seek, hx.pair ha.pair, hend, htry x hx]

theorem relay_does (he : e.SelfContained T) (hp : T.pairs p) (side : Side) (frame : Frame)
    (source : Option ChannelId)
    (hsource : ∀ s, source = some s → s ∈ T.channels) (locked : Bool) :
    Does T e (·.relay p side frame source locked) 1 := by
  cases hend : (e.pair p).endpoint side.peer with
  | none =>
      refine (does_settled T e .relayed).congr fun x hx => ?_
      simp only [relay_eq, hx.pair hp, hend]
  | some other =>
      have hother := he.seated p hp side.peer other hend
      cases hdrop : (e.pair p).phase.isMasqueraded || e.feedsBoth source other with
      | true =>
          refine (does_settled T e .relayed).congr fun x hx => ?_
          simp only [relay_eq, hx.pair hp, hend, hx.feedsBoth hsource hother, hdrop, if_true]
      | false =>
          have henter : Writes T e (·.modifyPair p Pair.entered) :=
            modifyPair_writes hp fun _ => rfl
          have ha :
            (⟨p, side.peer, if locked then source else none,
            .relay frame source⟩ : Acquisition).Within T := by
            refine ⟨hp, fun c hc => ?_, fun c hc => hsource c (Option.mem_toList.1 hc)⟩
            cases locked with
            | true => exact hsource c hc
            | false => cases hc
          refine (henter.does he fun e₁ he₁ => acquire_does he₁ ha fun e₂ peer he₂ hpeer =>
            deliver_does he₂ hp frame hsource hpeer).congr fun x hx => ?_
          simp only [relay_eq, hx.pair hp, hend, hx.feedsBoth hsource hother, hdrop]
          rfl

theorem depart_does (he : e.SelfContained T) (hp : T.pairs p) (side : Side) {leaver : ChannelId}
    (hleaver : leaver ∈ T.channels) : Does T e (·.depart p side leaver) 3 := by
  have hslot := setSlot_writes (e := e) hleaver
  have hpair : ∀ x, AgreeOn T e x → (x.setSlot leaver .empty).pair p = e.pair p :=
    fun x hx => hx.pair hp
  by_cases hvacant : (e.pair p).isVacant = true
  · have hretire := hslot.does he fun e₁ he₁ => (retire_writes he₁ hp).does he₁ fun e₂ _ =>
      does_tasks [] (T := T) (e := e₂) (by simp)
    refine (hretire.mono (Nat.zero_le 3)).congr fun x hx => ?_
    simp only [depart, hpair x hx, hvacant, if_true]
  · cases hunserved : unserved (e.pair p) with
    | some chan =>
        have hchan : (e.pair p).endpoint .chan = some chan := by
          rw [unserved] at hunserved
          split at hunserved
          · cases hunserved
          · exact hunserved
        have hmem := he.seated p hp .chan chan hchan
        refine (hslot.does he fun e₁ _ => does_tasks [.hangup chan] (T := T) ?_).congr
          fun x hx => ?_
        · simpa [Task.Suits] using hmem
        · simp only [depart, hpair x hx, hvacant, hunserved]
          rfl
    | none =>
        have hrelay := hslot.does he fun e₁ he₁ =>
          relay_does he₁ hp side (.hangup (e.channel leaver).hangupCause)
          none (fun s hs => by cases hs) false
        refine (hrelay.mono (by omega)).congr fun x hx => ?_
        have hcause : ((x.setSlot leaver .empty).channel leaver).hangupCause =
          (e.channel leaver).hangupCause := by
          rw [← hx.channel hleaver]
          exact channel_modifyChannel_congr Channel.hangupCause x leaver leaver rfl
        simp only [depart, hpair x hx, hvacant, hunserved, hcause]
        rfl

theorem chanLeaves_does (he : e.SelfContained T) (hp : T.pairs p) {leaver : ChannelId}
    (hleaver : leaver ∈ T.channels)
    (status : String) {peer : Option ChannelId} (hpeer : ∀ c, peer = some c → c ∈ T.channels) :
    Does T e (·.chanLeaves p leaver status peer) 3 := by
  have hdepart : ∀ e₁ : Exchange, e₁.SelfContained T →
    Does T e₁ (fun x => (x.clearSide p .chan).depart p .chan leaver) 3 :=
    fun e₁ he₁ => (clearSide_writes hp .chan).does he₁ fun e₂ he₂ =>
      depart_does he₂ hp .chan hleaver
  cases peer with
  | none => exact hdepart e he
  | some owner =>
      have howner := hpeer owner rfl
      exact (setVar_writes howner channelStatus status).does he fun e₁ he₁ =>
        (unlock_writes howner).does he₁ hdepart

theorem ownerLeaves_does (he : e.SelfContained T) (hp : T.pairs p) {leaver : ChannelId}
    (hleaver : leaver ∈ T.channels)
    {peer : Option ChannelId} (hpeer : ∀ c, peer = some c → c ∈ T.channels) :
    Does T e (·.ownerLeaves p leaver peer) 3 := by
  have hdepart : ∀ e₁ : Exchange, e₁.SelfContained T → Does T e₁ (·.depart p .owner leaver) 3 :=
    fun e₁ he₁ => depart_does he₁ hp .owner hleaver
  cases peer with
  | none => exact (clearSide_writes hp .owner).does he hdepart
  | some chan =>
      have hchan := hpeer chan rfl
      exact (clearSide_writes hp .owner).does he fun e₁ he₁ =>
        (queueFrame_writes hchan (.bare .hangup)).does he₁
        fun e₂ he₂ => (unlock_writes hchan).does he₂ hdepart

theorem within_of_leaver (hp : T.pairs p) (hc : c ∈ T.channels) {purpose : Purpose}
    (hparties : purpose.parties = [c])
    (side : Side) : Acquisition.Within T ⟨p, side, some c, purpose⟩ where
  pair := hp
  source _ hs := Option.some.inj hs ▸ hc
  parties d hd := by
    rw [hparties, List.mem_singleton] at hd
    exact hd ▸ hc

theorem proceed_does (he : e.SelfContained T) {a : Acquisition} (ha : a.Within T)
    {peer : Option ChannelId}
    (hpeer : ∀ c, peer = some c → c ∈ T.channels) : Does T e (·.proceed a peer) 3 := by
  obtain ⟨p, side, source, purpose⟩ := a
  cases purpose with
  | relay frame source =>
      exact (deliver_does he ha.pair frame
        (fun c hc => ha.parties c (Option.mem_toList.2 hc)) hpeer).mono (by omega)
  | dialStatus leaver status =>
      exact chanLeaves_does he ha.pair (ha.parties leaver (List.mem_singleton_self _)) status hpeer
  | ownerLeaving leaver =>
      exact ownerLeaves_does he ha.pair (ha.parties leaver (List.mem_singleton_self _)) hpeer

theorem avoidDeadlock_writes (hc : c ∈ T.channels) : Writes T e (·.avoidDeadlock c) :=
  modifyChannel_writes hc fun y => by rw [Channel.ties, y.lock.cycle_eq .main, Channel.ties]

theorem retry_does (he : e.SelfContained T) {a : Acquisition} (ha : a.Within T) :
    Does T e (·.retry a) 3 := by
  have hacquire : ∀ e₁ : Exchange, e₁.SelfContained T → Does T e₁ (·.acquire a) 3 := fun e₁ he₁ =>
    acquire_does he₁ ha fun e₂ peer he₂ hpeer => proceed_does he₂ ha hpeer
  cases hsource : a.source with
  | none =>
      refine (hacquire e he).congr fun x hx => ?_
      simp only [retry, hsource]
  | some source =>
      refine ((avoidDeadlock_writes (ha.source source hsource)).does he hacquire).congr
        fun x hx => ?_
      simp only [retry, hsource]

theorem passAnsweredElsewhere_writes (he : e.SelfContained T) (hp : T.pairs p) {leaver : ChannelId}
    (hleaver : leaver ∈ T.channels) : Writes T e (·.passAnsweredElsewhere p leaver) := by
  cases helsewhere : (e.channel leaver).answeredElsewhere with
  | false =>
      refine (writes_id T e).congr fun x hx => ?_
      simp only [passAnsweredElsewhere, hx.channel hleaver, helsewhere]
      rfl
  | true =>
      cases hend : (e.pair p).chan with
      | none =>
          refine (writes_id T e).congr fun x hx => ?_
          simp only [passAnsweredElsewhere, hx.channel hleaver, hx.pair hp, helsewhere, hend,
            if_true, id]
      | some chan =>
          have hmem : chan ∈ T.channels := he.seated p hp .chan chan hend
          have hset : Writes T e (·.setAnsweredElsewhere chan) :=
            modifyChannel_writes hmem fun _ => rfl
          refine hset.congr fun x hx => ?_
          simp only [passAnsweredElsewhere, hx.channel hleaver, hx.pair hp, helsewhere,
            hend, if_true]

theorem teardown_does (he : e.SelfContained T) (hc : c ∈ T.channels) :
    Does T e (·.teardown c) 4 := by
  have hsettle : ∀ e₁ : Exchange, e₁.SelfContained T → ∀ t ∈ [Task.settle .done], t.Suits T e₁ := by
    simp [Task.Suits]
  cases hmember : e.membership c with
  | none =>
      refine ((does_settled T e (.failed (e.notLocal c))).mono (by omega)).congr fun x hx => ?_
      simp only [teardown, hx.membership he hc, hmember, hx.notLocal hc]
      rfl
  | some place =>
      obtain ⟨p, side⟩ := place
      have hp := he.pairs hc (membership_eq_some hmember).1
      cases side with
      | owner =>
          have ha : Acquisition.Within T ⟨p, .chan, some c, .ownerLeaving c⟩ :=
            within_of_leaver hp hc rfl .chan
          have hacquire := (passAnsweredElsewhere_writes he hp hc).does he fun e₁ he₁ =>
            acquire_does he₁ ha fun e₂ peer he₂ hpeer => proceed_does he₂ ha hpeer
          refine (hacquire.append he hsettle).congr fun x hx => ?_
          simp only [teardown, hx.membership he hc, hmember]
      | chan =>
          cases hvar : (e.channel c).getVar dialStatus with
          | some status =>
              have ha : Acquisition.Within T ⟨p, .owner, some c, .dialStatus c status⟩ :=
                within_of_leaver hp hc rfl .owner
              have hacquire := acquire_does he ha fun e₂ peer he₂ hpeer => proceed_does he₂ ha hpeer
              refine (hacquire.append he hsettle).congr fun x hx => ?_
              simp only [teardown, hx.membership he hc, hmember, hx.channel hc, hvar]
          | none =>
              have hleave : Does T e (·.chanLeaves p c "" none) 3 :=
                chanLeaves_does he hp hc "" fun d hd => by cases hd
              refine (hleave.append he hsettle).congr fun x hx => ?_
              simp only [teardown, hx.membership he hc, hmember, hx.channel hc, hvar]
              rfl

theorem handOver_writes (he : e.SelfContained T) {chan : ChannelId} (hc : c ∈ T.channels)
    (hchan : chan ∈ T.channels) :
    Writes T e (·.handOver c chan) := by
  have hstores : ∀ e₁ : Exchange, e₁.SelfContained T →
    Writes T e₁ (·.inheritDatastores c chan) := by
    intro e₁ _
    refine (modifyChannel_writes
      (f := fun y => { y with datastores := y.datastores ++ (e₁.channel c).datastores })
      hchan fun _ => rfl).congr fun x hx => ?_
    simp only [inheritDatastores, hx.channel hc]
  have hcaller := modifyChannel_writes (e := e) (f := fun y =>
    { y with
      caller := (e.channel c).caller
      profile := handProfile e.config (e.channel c).profile y.profile
      answeredElsewhere := y.answeredElsewhere || (e.channel c).answeredElsewhere
      vars :=
        y.vars ++ (e.channel c).vars.filter fun v =>
        !e.config.inheritFilter.any (·.catches v.1 v.2) })
    hchan fun _ => rfl
  refine (hcaller.comp he hstores).congr fun x hx => ?_
  simp only [handOver, hx.channel hc, hx.config]

theorem extensionExists_gives (T : Territory) (e : Exchange) (context exten : String)
    (caller : Option String) :
    Gives T e (·.extensionExists context exten caller) := by
  have hask :
    Writes T e (Write.ask ⟨context, exten, 1, caller, e.hasExtension context exten⟩).apply :=
    writes_write trivial
  refine (hask.gives (e.hasExtension context exten)).congr fun x hx => ?_
  have hextensions : x.hasExtension context exten = e.hasExtension context exten := by
    rw [hasExtension, hx.extensions]
    rfl
  rw [extensionExists, hextensions]
  rfl

theorem startDialplan_gives (hc : c ∈ T.channels) : Gives T e (·.startDialplan c) := by
  cases hrefused : e.dialplanRefused with
  | true =>
      refine (gives_same T e (.error (.other "unable to start PBX"))).congr fun x hx => ?_
      simp only [startDialplan, hx.dialplanRefused, hrefused, if_true]
  | false =>
      have hstarted : Writes T e (·.modifyChannel c ({ · with dialplanStarted := true })) :=
        modifyChannel_writes hc fun _ => rfl
      refine (hstarted.gives (.ok ())).congr fun x hx => ?_
      simp only [startDialplan, hx.dialplanRefused, hrefused]
      rfl

def connected (p : PairId) (chan : ChannelId) :
    Except HostError Unit → Exchange → Except ChannelError Unit × Exchange
  | .error _, e => (.error (.dialplanFailed (e.channel chan).name), e)
  | .ok _, e => (.ok (), e.modifyPair p ({ · with phase := .dialplanLaunched }))

def looked (p : PairId) (chan : ChannelId) (d : Destination) (found : Bool) (e : Exchange) :
    Except ChannelError Unit × Exchange :=
  if !found then (.error (.extensionUnreachable d.exten d.context), e)
  else connected p chan (e.startDialplan chan).1 (e.startDialplan chan).2

theorem connected_gives (hp : T.pairs p) (hc : c ∈ T.channels) (r : Except HostError Unit) :
    Gives T e (connected p c r) := by
  cases r with
  | error why =>
      refine (gives_same T e (.error (.dialplanFailed (e.channel c).name))).congr fun x hx => ?_
      rw [connected, hx.channel hc]
  | ok u =>
      have hphase : Writes T e (·.modifyPair p ({ · with phase := .dialplanLaunched })) :=
        modifyPair_writes hp fun _ => rfl
      exact hphase.gives (Except.ok ())

theorem looked_gives (he : e.SelfContained T) (hp : T.pairs p) (hc : c ∈ T.channels)
    (d : Destination) (found : Bool) :
    Gives T e (looked p c d found) := by
  cases found with
  | false => exact gives_same T e _
  | true => exact (startDialplan_gives hc).bind he fun r _ _ => connected_gives hp hc r

theorem launch_of_ready {chan : ChannelId} (hmember : e.membership c = some (p, .owner))
    (hend : (e.pair p).chan = some chan) (hcan : (e.channel c).state.canPlaceCall = true) :
    e.launch c =
      let d := (e.pair p).destination
      let asked := (e.handOver c chan).extensionExists d.context d.exten (e.channel c).caller.num
      looked p chan d asked.1 asked.2 := by
  simp only [launch, hmember, hend, hcan, looked]
  split
  · next h => exact absurd h (by simp)
  · split
    · rfl
    · split <;> next hstart => rw [hstart]; rfl

theorem launch_gives (he : e.SelfContained T) (hc : c ∈ T.channels) : Gives T e (·.launch c) := by
  cases hmember : e.membership c with
  | none =>
      refine (gives_same T e (.error (e.notLocal c))).congr fun x hx => ?_
      simp only [launch, hx.membership he hc, hmember, hx.notLocal hc]
  | some place =>
      obtain ⟨p, side⟩ := place
      have hp := he.pairs hc (membership_eq_some hmember).1
      cases side with
      | chan =>
          refine (gives_same T e (.error (e.notLocal c))).congr fun x hx => ?_
          simp only [launch, hx.membership he hc, hmember, hx.notLocal hc]
      | owner =>
          cases hend : (e.pair p).chan with
          | none =>
              refine (gives_same T e (.error (.endpointGone (e.channel c).name))).congr
                fun x hx => ?_
              simp only [launch, hx.membership he hc, hmember, hx.pair hp, hend, hx.channel hc]
          | some chan =>
              have hchan : chan ∈ T.channels := he.seated p hp .chan chan hend
              cases hcan : (e.channel c).state.canPlaceCall with
              | false =>
                  refine (gives_same T e
                    (.error (.stateViolation (e.channel c).name (e.channel c).state))).congr
                    fun x hx => ?_
                  simp only [launch, hx.membership he hc, hmember, hx.pair hp, hend,
                    hx.channel hc, hcan]
                  rfl
              | true =>
                  let d := (e.pair p).destination
                  have hcall := (handOver_writes he hc hchan).comp_gives he fun e₁ he₁ =>
                    (extensionExists_gives T e₁ d.context d.exten (e.channel c).caller.num).bind he₁
                      fun found e₂ he₂ =>
                      looked_gives he₂ hp hchan d found
                  refine hcall.congr fun x hx => ?_
                  have hchan' : (x.pair p).chan = some chan := by rw [hx.pair hp, hend]
                  have hcan' : (x.channel c).state.canPlaceCall = true := by
                    rw [hx.channel hc, hcan]
                  simp only [launch_of_ready ((hx.membership he hc).trans hmember) hchan' hcan',
                    hx.pair hp, hx.channel hc]
                  rfl

theorem does_refused (T : Territory) (e : Exchange) (why : ChannelError) :
    Does T e (·.refused why) 1 :=
  does_settled T e (.failed why)

theorem suits_settle (T : Territory) (e : Exchange) (a : Answer) :
    ∀ t ∈ [Task.settle a], t.Suits T e := by
  simp [Task.Suits]

theorem relayFrom_does (he : e.SelfContained T) (hc : c ∈ T.channels) (frame : Frame) :
    Does T e (·.relayFrom c frame) 2 := by
  cases hmember : e.membership c with
  | none =>
      refine ((does_refused T e (e.notLocal c)).mono (by omega)).congr fun x hx => ?_
      simp only [relayFrom, hx.membership he hc, hmember, hx.notLocal hc]
  | some place =>
      have hp := he.pairs hc (membership_eq_some hmember).1
      have hrelay :=
        relay_does he hp place.2 frame (some c) (fun s hs => Option.some.inj hs ▸ hc) true
      refine (hrelay.append he fun e₁ _ => suits_settle T e₁ .done).congr fun x hx => ?_
      simp only [relayFrom, hx.membership he hc, hmember]

theorem answer_does (he : e.SelfContained T) (hc : c ∈ T.channels) : Does T e (·.answer c) 2 := by
  cases hmember : e.membership c with
  | none =>
      refine ((does_refused T e (e.notLocal c)).mono (by omega)).congr fun x hx => ?_
      simp only [answer, hx.membership he hc, hmember, hx.notLocal hc]
  | some place =>
      obtain ⟨p, side⟩ := place
      cases side with
      | owner =>
          refine ((does_settled T e .done).mono (by omega)).congr fun x hx => ?_
          simp only [answer, hx.membership he hc, hmember]
      | chan =>
          refine (relayFrom_does he hc (.bare .answer)).congr fun x hx => ?_
          simp only [answer, hx.membership he hc, hmember]

theorem indicate_does (he : e.SelfContained T) (hc : c ∈ T.channels) (kind : ControlKind)
    (data : Bytes) :
    Does T e (·.indicate c kind data) 2 := by
  cases hrecord : e.recordOf c with
  | none =>
      refine ((does_refused T e (e.notLocal c)).mono (by omega)).congr fun x hx => ?_
      simp only [indicate, hx.recordOf hc, hrecord, hx.notLocal hc]
  | some p =>
      have hp := he.pairs hc hrecord
      have hrelayed := relayFrom_does he hc (.control kind data)
      have hmusic :
        ∀ music,
        Does T e (fun x => (x.modifyChannel c ({ · with music := music })).settled .done) 2 :=
        fun music =>
          ((modifyChannel_writes (f := ({ · with music := music })) hc fun _ => rfl).does he
          fun e₁ _ => does_settled T e₁ .done).mono (by omega)
      cases hmoh : (e.pair p).destination.options.mohPassthru with
      | true =>
          refine hrelayed.congr fun x hx => ?_
          simp only [indicate, hx.recordOf hc, hrecord, hx.pair hp, hmoh, if_true]
      | false =>
          cases kind with
          | hold =>
              refine (hmusic (.playing (musicclassOf data))).congr fun x hx => ?_
              simp only [indicate, hx.recordOf hc, hrecord, hx.pair hp, hmoh]
              rfl
          | unhold =>
              refine (hmusic .silent).congr fun x hx => ?_
              simp only [indicate, hx.recordOf hc, hrecord, hx.pair hp, hmoh]
              rfl
          | _ =>
              refine hrelayed.congr fun x hx => ?_
              simp only [indicate, hx.recordOf hc, hrecord, hx.pair hp, hmoh]
              rfl

theorem tryOptimize_unbridged (e : Exchange) (p : PairId) (side : Side) :
    e.tryOptimize p side none = (none, e) := by
  have hnone : e.candidates p side none = none := by
    unfold candidates
    dsimp only
    split <;> rfl
  rw [tryOptimize]
  rw [hnone]

theorem writeKnowing_unbridged (he : e.SelfContained T) (hp : T.pairs p) (hc : c ∈ T.channels)
    (frame : Frame) :
    Does T e (·.writeKnowing p c frame none) 2 := by
  cases hside : (e.pair p).sideOf c with
  | none =>
      refine ((does_refused T e (e.notLocal c)).mono (by omega)).congr fun x hx => ?_
      simp only [writeKnowing, hx.pair hp, hside, hx.notLocal hc]
  | some side =>
      have hrelay := relay_does he hp side frame (some c) (fun s hs => Option.some.inj hs ▸ hc) true
      refine (hrelay.append he fun e₁ _ => suits_settle T e₁ .done).congr fun x hx => ?_
      simp only [writeKnowing, hx.pair hp, hside, tryOptimize_unbridged, ite_self, Option.map_none,
        Option.toList_none,
        List.append_nil]

theorem writeFrame_does (he : e.SelfContained T) (hc : c ∈ T.channels)
    (hbridge : (e.channel c).bridge = none)
    (frame : Frame) : Does T e (·.writeFrame c frame) 2 := by
  cases hrecord : e.recordOf c with
  | none =>
      refine ((does_refused T e (e.notLocal c)).mono (by omega)).congr fun x hx => ?_
      simp only [writeFrame, hx.recordOf hc, hrecord, hx.notLocal hc]
  | some p =>
      refine (writeKnowing_unbridged he (he.pairs hc hrecord) hc frame).congr fun x hx => ?_
      simp only [writeFrame, hx.recordOf hc, hrecord, hx.channel hc, hbridge, ite_self]

def called : Except ChannelError Unit → Exchange → Turn
  | .ok _, e => e.settled .done
  | .error why, e => e.refused why

theorem signal_does (he : e.SelfContained T) (hc : c ∈ T.channels) (s : Signal)
    (hs : s = .hangup ∨ (e.channel c).bridge = none) : Does T e (·.signal c s) 4 := by
  have hrelayed := fun frame => (relayFrom_does he hc frame).mono (n := 4) (by omega)
  cases s with
  | call dialled milliseconds =>
      refine ((launch_gives he hc).does he (k := called) fun r e₁ _ => ?_).congr fun x hx => ?_
      · cases r with
        | ok u => exact (does_settled T e₁ .done).mono (by omega)
        | error why => exact (does_refused T e₁ why).mono (by omega)
      · rw [signal]
        rcases x.launch c with ⟨_ | _, _⟩ <;> rfl
  | hangup => exact teardown_does he hc
  | answer => exact (answer_does he hc).mono (by omega)
  | write frame =>
      rcases hs with hs | hbridge
      · cases hs
      · exact (writeFrame_does he hc hbridge frame).mono (by omega)
  | indicate kind data => exact (indicate_does he hc kind data).mono (by omega)
  | beginDigit | endDigit | sendText | sendHtml => exact hrelayed _

theorem dispatch_does (he : e.SelfContained T) (hc : c ∈ T.channels) (s : Signal)
    (hs : s = .hangup ∨ (e.channel c).bridge = none) : Does T e (·.dispatch c s) 5 := by
  cases hdriven : e.isDriven c with
  | false =>
      refine ((does_refused T e (e.notLocal c)).mono (by omega)).congr fun x hx => ?_
      simp only [dispatch, hx.isDriven hc, hdriven, hx.notLocal hc]
      rfl
  | true =>
      obtain ⟨ws, hws, hlock⟩ := lock_gives he hc
      have hbridge : s = .hangup ∨ ((e.after ws).channel c).bridge = none :=
        hs.imp_right fun hnone => (channel_after_loosens hws e c).bridge.trans hnone
      have hunlock : ∀ e₁ : Exchange, e₁.SelfContained T → ∀ t ∈ [Task.unlock c], t.Suits T e₁ := by
        simpa [Task.Suits] using fun _ _ => hc
      refine (does_after hws
        (((signal_does (he.after hws) hc s hbridge).append (he.after hws) hunlock))).congr
        fun x hx => ?_
      simp only [dispatch, hx.isDriven hc, hdriven, hlock x hx, if_true]

theorem hangup_does (he : e.SelfContained T) (hc : c ∈ T.channels) : Does T e (·.hangup c) 2 := by
  cases hhungup : (e.channel c).hungup with
  | true =>
      refine ((does_settled T e .done).mono (by omega)).congr fun x hx => ?_
      simp only [hangup, hx.channel hc, hhungup, if_true]
  | false =>
      let w : Write := .channel c ({ · with hungup := true })
      have hw : w.Within T := ⟨hc, fun _ => ⟨.inl rfl, rfl, id, fun _ => rfl⟩⟩
      have hnow : ((w.apply e).channel c).hungup = true :=
        congrArg Channel.hungup (channel_modifyChannel e _ (he.made c hc))
      have hlive : (T.channels.countP fun d => !(e.channel d).hungup) =
          (T.channels.countP fun d => !((w.apply e).channel d).hungup) + 1 := by
        refine countP_eq_succ T.nodup hc (by rw [hnow]; rfl) (by rw [hhungup]; rfl) fun d hd => ?_
        rw [show (w.apply e).channel d = e.channel d from channel_modifyChannel_of_ne e _ hd]
      have hcredit : T.credit e = T.credit (w.apply e) + 1 := by
        rw [Territory.credit, Territory.credit, hlive, Nat.add_right_comm]
        rfl
      refine ⟨[w], [if (w.apply e).isDriven c then .dispatch c .hangup else .settle .done,
        .delist c], by simpa using hw,
        fun x hx => ?_, fun t ht => ?_, ?_⟩
      · simp only [hangup, hx.channel hc, hhungup]
        rw [← (hx.apply w).isDriven hc]
        rfl
      · simp only [List.mem_cons, List.not_mem_nil, or_false] at ht
        rcases ht with rfl | rfl
        · split
          · exact ⟨hc, .inl rfl⟩
          · trivial
        · exact hc
      · change _ + 5 * T.credit (w.apply e) ≤ _
        rw [hcredit]
        split <;> simp only [stepBound, Task.stepBound] <;> omega

end Exchange
end Switchboard
