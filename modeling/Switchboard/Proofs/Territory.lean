import Switchboard.Proofs.Places.Frame

namespace Switchboard

/-- Some pairs, and the channels they deal with. -/
structure Territory where
  pairs : PairId → Prop
  channels : List ChannelId
  nodup : channels.Nodup
  unscripted : Prop

def Territory.Apart (T U : Territory) : Prop :=
  (∀ p, T.pairs p → ¬ U.pairs p) ∧ ∀ c ∈ T.channels, c ∉ U.channels

theorem Territory.Apart.symm {T U : Territory} (h : T.Apart U) : U.Apart T :=
  ⟨fun p hU hT => h.1 p hT hU, fun c hU hT => h.2 c hT hU⟩

/-- A channel may lose its slot and be hung up; its bridge stays, and its lock can be taken as
before. -/
structure Channel.Loosens (x y : Channel) : Prop where
  slot : y.slot = x.slot ∨ y.slot = .empty
  bridge : y.bridge = x.bridge
  lock : x.lock.openTo .main = true → y.lock.openTo .main = true
  hungup : x.hungup = true → y.hungup = true

def Pair.Loosens (x y : Pair) :
    Prop := ∀ side, y.endpoint side = x.endpoint side ∨ y.endpoint side = none

@[refl] theorem Channel.Loosens.refl (x : Channel) : x.Loosens x := ⟨.inl rfl, rfl, id, id⟩

theorem Channel.Loosens.trans {x y z : Channel} (h : x.Loosens y) (h' : y.Loosens z) :
    x.Loosens z where
  slot := by
    rcases h'.slot with hz | hz
    · rw [hz]
      exact h.slot
    · exact .inr hz
  bridge := h'.bridge.trans h.bridge
  lock := h'.lock ∘ h.lock
  hungup := h'.hungup ∘ h.hungup

def Channel.ties (x : Channel) : Slot × Option ChannelId × RecursiveLock Party × Bool :=
  (x.slot, x.bridge, x.lock, x.hungup)

theorem Channel.loosens_of_ties {x y : Channel} (h : y.ties = x.ties) : x.Loosens y := by
  obtain ⟨hslot, hbridge, hlock, hhungup⟩ : _ ∧ _ ∧ _ ∧ _ := by
    simpa only [ties, Prod.mk.injEq] using h
  exact ⟨.inl hslot, hbridge, fun hopen => hlock ▸ hopen, fun hbefore => hhungup.trans hbefore⟩

@[refl] theorem Pair.Loosens.refl (x : Pair) : x.Loosens x := fun _ => .inl rfl

/-- One change to one part of an exchange. -/
inductive Write
  | channel (c : ChannelId) (f : Channel → Channel)
  | pair (p : PairId) (f : Pair → Pair)
  | unlink (p : PairId)
  | count
  | drop (token : ModuleUse.Token)
  | delist (c : ChannelId)
  | ask (l : Lookup)
  | spend (c : ChannelId)

namespace Write

def apply (w : Write) (e : Exchange) : Exchange :=
  match w with
  | channel c f => e.modifyChannel c f
  | pair p f => e.modifyPair p f
  | unlink p => { e with registry := e.registry.unlink p }
  | count => { e with registry := e.registry.noteDestroyed }
  | drop token => { e with moduleUse := e.moduleUse.drop token }
  | delist c => e.delist c
  | ask l => { e with lookups := e.lookups ++ [l] }
  | spend c =>
    { e with contention := { e.contention with
      attempts := e.contention.attempts.eraseP (·.1 = c) } }

/-- The write is to something in the territory, and ties nothing together there. -/
def Within (T : Territory) : Write → Prop
  | channel c f => c ∈ T.channels ∧ ∀ x : Channel, x.Loosens (f x)
  | pair p f => T.pairs p ∧ ∀ x : Pair, x.Loosens (f x)
  | unlink p => T.pairs p
  | delist c | spend c => c ∈ T.channels
  | count | drop _ | ask _ => True

end Write

namespace Exchange

def after (e : Exchange) (ws : List Write) : Exchange := ws.foldl (fun e w => w.apply e) e

@[simp] theorem after_nil (e : Exchange) : e.after [] = e := rfl

@[simp] theorem after_cons (e : Exchange) (w : Write) (ws : List Write) :
    e.after (w :: ws) = (w.apply e).after ws := rfl

@[simp] theorem after_append (e : Exchange) (ws vs : List Write) :
    e.after (ws ++ vs) = (e.after ws).after vs :=
  List.foldl_append

def settings (e : Exchange) : Config × Bool × List (String × String) × Bool :=
  (e.config, e.proxyRegistered, e.extensions, e.dialplanRefused)

def NoScriptedFailure (T : Territory) (e : Exchange) : Prop :=
  ∀ a ∈ e.contention.attempts, a.1 ∈ T.channels → a.2 = true

/-- The channels of the territory were made, their locks can be taken, and slots and sides link them
only to each other. -/
structure SelfContained (T : Territory) (e : Exchange) : Prop where
  made : ∀ c ∈ T.channels, c.Among e.channels.size
  slot : ∀ c ∈ T.channels, ∀ p, (e.channel c).slot = .pair p → T.pairs p
  seated : ∀ p, T.pairs p → ∀ side c, (e.pair p).endpoint side = some c → c ∈ T.channels
  free : ∀ c ∈ T.channels, (e.channel c).lock.openTo .main = true
  noScriptedFailure : T.unscripted ∨ e.NoScriptedFailure T

/-- Two exchanges that are the same in the territory. -/
structure AgreeOn (T : Territory) (e x : Exchange) : Prop where
  settings : x.settings = e.settings
  channels : ∀ c ∈ T.channels, x.channels.get? c.number = e.channels.get? c.number
  pairs : ∀ p, T.pairs p → x.pairs.get? p.number = e.pairs.get? p.number
  attempts : ∀ c ∈ T.channels, x.contention.attempts.filter (·.1 = c) =
    e.contention.attempts.filter (·.1 = c)

def Same (e x : Exchange) : Prop := ∃ ls, ls.Perm e.lookups ∧ x = { e with lookups := ls }

variable {T U : Territory} {e x : Exchange} {w : Write} {ws : List Write} {c : ChannelId}
    {p : PairId}

theorem settings_apply (w : Write) (e : Exchange) : (w.apply e).settings = e.settings := by
  cases w <;> rfl

theorem size_apply (w : Write) (e : Exchange) : (w.apply e).channels.size = e.channels.size := by
  cases w with
  | channel c f => exact Table.size_modify _ _ _
  | _ => rfl

theorem size_after (ws : List Write) (e : Exchange) :
    (e.after ws).channels.size = e.channels.size := by
  induction ws generalizing e with
  | nil => rfl
  | cons w ws ih => exact (ih (w.apply e)).trans (size_apply w e)

theorem attempts_apply (w : Write) (e : Exchange) :
    (w.apply e).contention.attempts.Sublist e.contention.attempts := by
  cases w with
  | spend c => exact List.eraseP_sublist
  | _ => exact List.Sublist.refl _

theorem attempts_after (ws : List Write) (e : Exchange) :
    (e.after ws).contention.attempts.Sublist e.contention.attempts := by
  induction ws generalizing e with
  | nil => exact List.Sublist.refl _
  | cons w ws ih => exact (ih (w.apply e)).trans (attempts_apply w e)

theorem NoScriptedFailure.apply (h : e.NoScriptedFailure T) (w : Write) :
    (w.apply e).NoScriptedFailure T :=
  fun a ha => h a ((attempts_apply w e).mem ha)

theorem channels_apply_of_not_mem (h : w.Within T) (hc : c ∉ T.channels) :
    (w.apply e).channels.get? c.number = e.channels.get? c.number := by
  cases w with
  | channel d f =>
      have hne : d.number ≠ c.number := by
        obtain ⟨i⟩ := d
        obtain ⟨j⟩ := c
        rintro rfl
        exact hc h.1
      exact (Table.get?_modify _ _ _ _).trans (if_neg hne)
  | _ => rfl

theorem pairs_apply_of_not (h : w.Within T) (hp : ¬ T.pairs p) :
    (w.apply e).pairs.get? p.number = e.pairs.get? p.number := by
  cases w with
  | pair q f =>
      have hne : q.number ≠ p.number := by
        obtain ⟨i⟩ := q
        obtain ⟨j⟩ := p
        rintro rfl
        exact hp h.1
      exact (Table.get?_modify _ _ _ _).trans (if_neg hne)
  | _ => rfl

theorem channel_after_of_not_mem (h : ∀ w ∈ ws, w.Within T) (hc : c ∉ T.channels) (e : Exchange) :
    (e.after ws).channel c = e.channel c := by
  induction ws generalizing e with
  | nil => rfl
  | cons w ws ih =>
      have hw := channels_apply_of_not_mem (e := e) (h w List.mem_cons_self) hc
      refine (ih (fun v hv => h v (List.mem_cons_of_mem w hv)) (w.apply e)).trans ?_
      simp only [channel, Table.get, hw]

theorem pair_after_of_not (h : ∀ w ∈ ws, w.Within T) (hp : ¬ T.pairs p) (e : Exchange) :
    (e.after ws).pair p = e.pair p := by
  induction ws generalizing e with
  | nil => rfl
  | cons w ws ih =>
      have hw := pairs_apply_of_not (e := e) (h w List.mem_cons_self) hp
      refine (ih (fun v hv => h v (List.mem_cons_of_mem w hv)) (w.apply e)).trans ?_
      simp only [pair, Table.get, hw]

theorem channel_apply_loosens (h : w.Within T) (e : Exchange) (c : ChannelId) :
    (e.channel c).Loosens ((w.apply e).channel c) := by
  cases w with
  | channel d f =>
      change (e.channel c).Loosens ((e.modifyChannel d f).channel c)
      rcases channel_modifyChannel_or e d c f with hsame | ⟨-, hnew⟩
      · rw [hsame]
      · rw [hnew]
        exact h.2 _
  | _ => rfl

theorem channel_after_loosens (h : ∀ w ∈ ws, w.Within T) (e : Exchange) (c : ChannelId) :
    (e.channel c).Loosens ((e.after ws).channel c) := by
  induction ws generalizing e with
  | nil => rfl
  | cons w ws ih =>
      exact (channel_apply_loosens (h w List.mem_cons_self) e c).trans
        (ih (fun v hv => h v (List.mem_cons_of_mem w hv)) (w.apply e))

theorem pair_apply_loosens (h : w.Within T) (e : Exchange) (p : PairId) :
    (e.pair p).Loosens ((w.apply e).pair p) := by
  cases w with
  | pair q f =>
      change (e.pair p).Loosens ((e.modifyPair q f).pair p)
      simp only [pair, modifyPair, Table.get, Table.get?_modify]
      split
      · cases e.pairs.get? p.number with
        | none => rfl
        | some y => exact h.2 y
      · rfl
  | _ => rfl

theorem SelfContained.apply (h : e.SelfContained T) (hw : w.Within T) :
    (w.apply e).SelfContained T where
  made c hc := by
    rw [size_apply]
    exact h.made c hc
  slot c hc p hp := by
    rcases (channel_apply_loosens hw e c).slot with hslot | hslot <;> rw [hslot] at hp
    · exact h.slot c hc p hp
    · cases hp
  seated p hp side c hc := by
    rcases pair_apply_loosens hw e p side with hend | hend <;> rw [hend] at hc
    · exact h.seated p hp side c hc
    · cases hc
  free c hc := (channel_apply_loosens hw e c).lock (h.free c hc)
  noScriptedFailure := h.noScriptedFailure.imp_right (·.apply w)

theorem SelfContained.after (h : e.SelfContained T) (hws : ∀ w ∈ ws, w.Within T) :
    (e.after ws).SelfContained T := by
  induction ws generalizing e with
  | nil => exact h
  | cons w ws ih =>
      exact ih (h.apply (hws w List.mem_cons_self)) fun v hv => hws v (List.mem_cons_of_mem w hv)

@[refl] theorem AgreeOn.refl (T : Territory) (e : Exchange) : AgreeOn T e e :=
  ⟨rfl, fun _ _ => rfl, fun _ _ => rfl, fun _ _ => rfl⟩

theorem AgreeOn.channel (h : AgreeOn T e x) (hc : c ∈ T.channels) : x.channel c = e.channel c := by
  simp only [Exchange.channel, Table.get, h.channels c hc]

theorem AgreeOn.pair (h : AgreeOn T e x) (hp : T.pairs p) : x.pair p = e.pair p := by
  simp only [Exchange.pair, Table.get, h.pairs p hp]

theorem AgreeOn.attempt (h : AgreeOn T e x) (hc : c ∈ T.channels) :
    x.contention.attempts.find? (·.1 = c) = e.contention.attempts.find? (·.1 = c) := by
  rw [← List.head?_filter, ← List.head?_filter, h.attempts c hc]

theorem AgreeOn.config (h : AgreeOn T e x) : x.config = e.config := congrArg Prod.fst h.settings

theorem AgreeOn.proxyRegistered (h : AgreeOn T e x) : x.proxyRegistered = e.proxyRegistered :=
  congrArg (·.2.1) h.settings

theorem AgreeOn.extensions (h : AgreeOn T e x) : x.extensions = e.extensions :=
  congrArg (·.2.2.1) h.settings

theorem AgreeOn.dialplanRefused (h : AgreeOn T e x) : x.dialplanRefused = e.dialplanRefused :=
  congrArg (·.2.2.2) h.settings

theorem AgreeOn.selfContained (h : AgreeOn T e x) (he : e.SelfContained T) : x.SelfContained T where
  made c hc := by
    have hmade := (Table.get?_isSome_iff _ _).2 (he.made c hc)
    rw [← h.channels c hc] at hmade
    exact (Table.get?_isSome_iff _ _).1 hmade
  slot c hc := by
    rw [h.channel hc]
    exact he.slot c hc
  seated p hp := by
    rw [h.pair hp]
    exact he.seated p hp
  free c hc := by
    rw [h.channel hc]
    exact he.free c hc
  noScriptedFailure := he.noScriptedFailure.imp_right fun hwilling a ha hc => by
    have hmem : a ∈ x.contention.attempts.filter (·.1 = a.1) := List.mem_filter.2 ⟨ha, by simp⟩
    rw [h.attempts a.1 hc] at hmem
    exact hwilling a (List.mem_filter.1 hmem).1 hc

theorem filter_attempts_apply (w : Write) (hw : ∀ d, w = .spend d → d ≠ c) :
    (w.apply e).contention.attempts.filter (·.1 = c) = e.contention.attempts.filter (·.1 = c) := by
  cases w with
  | spend d =>
      have hne := hw d rfl
      change (e.contention.attempts.eraseP (·.1 = d)).filter (·.1 = c) = _
      induction e.contention.attempts with
      | nil => rfl
      | cons a attempts ih =>
          by_cases ha : a.1 = d
          · simp [ha, hne]
          · simp [List.filter_cons, ha, ih]
  | _ => rfl

theorem filter_attempts_spend (e : Exchange) (c : ChannelId) :
    ((Write.spend c).apply e).contention.attempts.filter (·.1 = c) =
      (e.contention.attempts.filter (·.1 = c)).tail := by
  change (e.contention.attempts.eraseP (·.1 = c)).filter (·.1 = c) = _
  induction e.contention.attempts with
  | nil => rfl
  | cons a attempts ih =>
      by_cases ha : a.1 = c
      · simp [ha]
      · simp [ha, ih]

theorem AgreeOn.apply (h : AgreeOn T e x) (w : Write) : AgreeOn T (w.apply e) (w.apply x) where
  settings := by rw [settings_apply, settings_apply, h.settings]
  channels c hc := by
    have hsame := h.channels c hc
    cases w with
    | channel d f =>
        change (x.channels.modify _ _).get? _ = (e.channels.modify _ _).get? _
        rw [Table.get?_modify, Table.get?_modify, hsame]
    | _ => exact hsame
  pairs p hp := by
    have hsame := h.pairs p hp
    cases w with
    | pair q f =>
        change (x.pairs.modify _ _).get? _ = (e.pairs.modify _ _).get? _
        rw [Table.get?_modify, Table.get?_modify, hsame]
    | _ => exact hsame
  attempts c hc := by
    have hsame := h.attempts c hc
    by_cases hspent : w = .spend c
    · rw [hspent, filter_attempts_spend, filter_attempts_spend, hsame]
    · have hother : ∀ d, w = .spend d → d ≠ c := fun d hd hdc => hspent (hdc ▸ hd)
      rw [filter_attempts_apply w hother, filter_attempts_apply w hother, hsame]

theorem AgreeOn.after (h : AgreeOn T e x) (ws : List Write) :
    AgreeOn T (e.after ws) (x.after ws) := by
  induction ws generalizing e x with
  | nil => exact h
  | cons w ws ih => exact ih (h.apply w)

/-- What is done in one territory is not to be seen in another. -/
theorem AgreeOn.elsewhere (h : AgreeOn T e x) (hU : U.Apart T) (hws : ∀ w ∈ ws, w.Within U) :
    AgreeOn T e (x.after ws) := by
  induction ws generalizing x with
  | nil => exact h
  | cons w ws ih =>
      have hw := hws w List.mem_cons_self
      refine ih (x := w.apply x) ⟨?_, fun c hc => ?_, fun p hp => ?_, fun c hc => ?_⟩
        fun v hv => hws v (List.mem_cons_of_mem w hv)
      · rw [settings_apply, h.settings]
      · rw [channels_apply_of_not_mem hw (hU.symm.2 c hc), h.channels c hc]
      · rw [pairs_apply_of_not hw (hU.symm.1 p hp), h.pairs p hp]
      · rw [filter_attempts_apply w, h.attempts c hc]
        rintro d rfl rfl
        exact hU.2 d hw hc

@[refl] theorem Same.refl (e : Exchange) : e.Same e := ⟨e.lookups, .refl _, rfl⟩

theorem Same.trans {y : Exchange} (h : e.Same x) (h' : x.Same y) : e.Same y := by
  obtain ⟨ls, hls, rfl⟩ := h
  obtain ⟨ms, hms, rfl⟩ := h'
  exact ⟨ms, hms.trans hls, rfl⟩

theorem Same.apply (h : e.Same x) (w : Write) : (w.apply e).Same (w.apply x) := by
  obtain ⟨ls, hls, rfl⟩ := h
  cases w with
  | ask l => exact ⟨ls ++ [l], hls.append_right [l], rfl⟩
  | _ => exact ⟨ls, hls, rfl⟩

theorem Same.after (h : e.Same x) (ws : List Write) : (e.after ws).Same (x.after ws) := by
  induction ws generalizing e x with
  | nil => exact h
  | cons w ws ih => exact ih (h.apply w)

end Exchange

theorem Table.modify_comm {α : Type} (t : Table α) {m n : Nat} (f g : α → α) (h : m ≠ n) :
    (t.modify m f).modify n g = (t.modify n g).modify m f := by
  cases m with
  | zero => rfl
  | succ i =>
      cases n with
      | zero => rfl
      | succ j =>
          exact congrArg Table.mk
            (List.modify_modify_ne f g t.rows fun hij => h (congrArg Nat.succ hij))

theorem ModuleUse.drop_comm (m : ModuleUse) (t u : Token) :
    (m.drop t).drop u = (m.drop u).drop t := by
  cases t <;> cases u <;> rfl

theorem Registry.unlink_comm (r : Registry) {p q : PairId} (h : p ≠ q) :
    (r.unlink p).unlink q = (r.unlink q).unlink p := by
  have hfilter := List.filter_comm (fun s => decide (s ≠ p)) (fun s => decide (s ≠ q)) r.pairs
  by_cases hp : p ∈ r.pairs <;> by_cases hq : q ∈ r.pairs <;>
    simp_all [unlink, contains, Ne.symm h]

theorem Registry.noteDestroyed_unlink (r : Registry) (p : PairId) :
    (r.unlink p).noteDestroyed = r.noteDestroyed.unlink p := by
  by_cases hp : p ∈ r.pairs <;> simp [unlink, noteDestroyed, contains, hp]

namespace Exchange

variable {T U : Territory} {e x : Exchange} {v w : Write} {vs ws : List Write}

theorem same_of_eq (h : x = e) : e.Same x := h ▸ .refl e

theorem apply_comm (hTU : T.Apart U) (hw : w.Within T) (hv : v.Within U) (e : Exchange) :
    (v.apply (w.apply e)).Same (w.apply (v.apply e)) := by
  cases w with
  | channel c f =>
      cases v with
      | channel d g =>
          have hne : c.number ≠ d.number := by
            obtain ⟨i⟩ := c
            obtain ⟨j⟩ := d
            rintro rfl
            exact hTU.2 ⟨i⟩ hw.1 hv.1
          exact same_of_eq (congrArg (fun t => { e with channels := t })
            (Table.modify_comm e.channels f g hne).symm)
      | _ => rfl
  | pair p f =>
      cases v with
      | pair q g =>
          have hne : p.number ≠ q.number := by
            obtain ⟨i⟩ := p
            obtain ⟨j⟩ := q
            rintro rfl
            exact hTU.1 ⟨i⟩ hw.1 hv.1
          exact same_of_eq (congrArg (fun t => { e with pairs := t })
            (Table.modify_comm e.pairs f g hne).symm)
      | _ => rfl
  | unlink p =>
      cases v with
      | unlink q =>
          have hne : p ≠ q := fun heq => hTU.1 p hw (heq ▸ hv)
          exact same_of_eq (congrArg (fun r => { e with registry := r })
            (e.registry.unlink_comm hne).symm)
      | count =>
          exact same_of_eq (congrArg (fun r => { e with registry := r })
            (e.registry.noteDestroyed_unlink p).symm)
      | _ => rfl
  | count =>
      cases v with
      | unlink q =>
          exact same_of_eq (congrArg (fun r => { e with registry := r })
            (e.registry.noteDestroyed_unlink q))
      | _ => rfl
  | drop t =>
      cases v with
      | drop u =>
          exact same_of_eq (congrArg (fun m => { e with moduleUse := m })
            (e.moduleUse.drop_comm u t))
      | _ => rfl
  | delist c =>
      cases v with
      | delist d =>
          exact same_of_eq (congrArg (fun l => { e with listed := l })
            (List.filter_comm (fun a => decide (a ≠ c)) (fun a => decide (a ≠ d)) e.listed))
      | _ => rfl
  | ask l =>
      cases v with
      | ask m =>
          refine ⟨e.lookups ++ [m] ++ [l], ?_, rfl⟩
          change (e.lookups ++ [m] ++ [l]).Perm (e.lookups ++ [l] ++ [m])
          rw [List.append_assoc, List.append_assoc]
          exact List.Perm.append_left _ (List.Perm.swap l m [])
      | _ => rfl
  | spend c =>
      cases v with
      | spend d =>
          have hne : c ≠ d := fun heq => hTU.2 c hw (heq ▸ hv)
          have herase : (e.contention.attempts.eraseP (·.1 = d)).eraseP (·.1 = c) =
              (e.contention.attempts.eraseP (·.1 = c)).eraseP (·.1 = d) := by
            apply List.eraseP_comm
            intro a _
            by_cases ha : a.1 = d
            · exact .inr (by simp [ha, Ne.symm hne])
            · exact .inl (by simp [ha])
          exact same_of_eq
            (congrArg (fun l => { e with contention := { e.contention with attempts := l } })
            herase)
      | _ => rfl

/-- Chains of writes to territories that are apart may be carried out in either order. -/
theorem after_comm (hTU : T.Apart U) (hws : ∀ w ∈ ws, w.Within T) (hvs : ∀ v ∈ vs, v.Within U)
    (e : Exchange) :
    ((e.after ws).after vs).Same ((e.after vs).after ws) := by
  have hone : ∀ {w : Write}, w.Within T → ∀ (vs : List Write), (∀ v ∈ vs, v.Within U) →
    ∀ e : Exchange,
      ((w.apply e).after vs).Same (w.apply (e.after vs)) := by
    intro w hw vs
    induction vs with
    | nil => exact fun _ e => .refl _
    | cons v vs ih =>
        intro hvs e
        exact ((apply_comm hTU hw (hvs v List.mem_cons_self) e).after vs).trans
          (ih (fun u hu => hvs u (List.mem_cons_of_mem v hu)) (v.apply e))
  induction ws generalizing e with
  | nil => exact .refl _
  | cons w ws ih =>
      exact (ih (fun u hu => hws u (List.mem_cons_of_mem w hu)) (w.apply e)).trans
        ((hone (hws w List.mem_cons_self) vs hvs e).after ws)

end Exchange
end Switchboard
