import Switchboard.Proofs.RelayTurns

namespace Switchboard

theorem Channel.monitor_self {x : Channel} {m : Option String} (h : m = x.monitor) :
    { x with monitor := m } = x := by
  subst h
  rfl

theorem Channel.audiohooks_self {x : Channel} {hooks : List String} (h : hooks = x.audiohooks) :
    { x with audiohooks := hooks } = x := by
  subst h
  rfl

inductive Role
  | owner
  | chan
  | third
deriving DecidableEq

theorem Role.injective_of_ne {α : Type} {f : Role → α} (hpair : f .owner ≠ f .chan)
    (howner : f .third ≠ f .owner)
    (hchan : f .third ≠ f .chan) : Function.Injective f := by
  intro r s hrs
  cases r <;> cases s
  case owner.owner | chan.chan | third.third => rfl
  case owner.chan => exact absurd hrs hpair
  case chan.owner => exact absurd hrs.symm hpair
  case third.owner => exact absurd hrs howner
  case owner.third => exact absurd hrs.symm howner
  case third.chan => exact absurd hrs hchan
  case chan.third => exact absurd hrs.symm hchan

structure Parties (e : Exchange) where
  pair : PairId
  member : Role → ChannelId
  known : pair ∈ e.pairIds
  made : ∀ r, (member r).Among e.channels.size
  different : Function.Injective member

/-- The parties' channels and record, with the other fields of the exchange that an optimisation
changes. -/
structure PartiesState where
  channel : Role → Channel
  record : Pair
  attempts : List (ChannelId × Bool)
  listed : List ChannelId
  moduleUse : ModuleUse

namespace PartiesState

variable (v : PartiesState) (r : Role)

theorem eq_of_channel {v w : PartiesState} (h : ∀ r, v.channel r = w.channel r)
    (hrest : { v with channel := w.channel } = w) : v = w := by
  rw [← hrest, ← funext h]

def alter (f : Channel → Channel) : PartiesState :=
  { v with channel := Function.update v.channel r (f (v.channel r)) }

def locked : PartiesState := v.alter r fun x => { x with lock := x.lock.take .main }

def unlocked : PartiesState := v.alter r fun x => { x with lock := x.lock.unlock .main }

@[simp] theorem channel_alter_self (f : Channel → Channel) :
    (v.alter r f).channel r = f (v.channel r) :=
  Function.update_self r _ _

@[simp] theorem channel_alter_of_ne {r s : Role} (h : s ≠ r) (f : Channel → Channel) :
    (v.alter r f).channel s = v.channel s :=
  Function.update_of_ne h _ _

theorem alter_eq_self {f : Channel → Channel} (h : f (v.channel r) = v.channel r) :
    v.alter r f = v := by
  rw [alter, h, Function.update_eq_self]

theorem alter_alter (f g : Channel → Channel) :
    (v.alter r f).alter r g = v.alter r fun x => g (f x) := by
  simp only [alter, Function.update_self, Function.update_idem]

theorem alter_comm {r s : Role} (h : r ≠ s) (f g : Channel → Channel) :
    (v.alter r f).alter s g = (v.alter s g).alter r f := by
  simp only [alter, Function.update_of_ne h, Function.update_of_ne h.symm, Function.update_comm h]

@[simp] theorem record_alter (f : Channel → Channel) : (v.alter r f).record = v.record := rfl

def withMonitorsSwapped : PartiesState where
  __ := v
  channel
    | .owner => { v.channel .owner with
        monitor := if (v.channel .third).monitor.isNone then none else (v.channel .owner).monitor }
    | .chan => v.channel .chan
    | .third => { v.channel .third with
        monitor := if (v.channel .third).monitor.isNone then (v.channel .owner).monitor
          else (v.channel .third).monitor }

def withAudiohooksSwapped : PartiesState where
  __ := v
  channel
    | .owner => { v.channel .owner with
        audiohooks := if (v.channel .chan).audiohooks = [] then (v.channel .owner).audiohooks
          else (v.channel .chan).audiohooks }
    | .chan => { v.channel .chan with
        audiohooks :=
          if (v.channel .chan).audiohooks = [] then [] else (v.channel .owner).audiohooks }
    | .third => v.channel .third

def withGroupsMoved : PartiesState where
  __ := v
  channel
    | .owner =>
        { v.channel .owner with groups := (v.channel .owner).groups ++ (v.channel .chan).groups }
    | .chan => { v.channel .chan with groups := [] }
    | .third => v.channel .third

def withIdentitiesSwapped (r s : Role) : PartiesState :=
  (v.alter s fun x => { x with
    name := (v.channel r).name ++ "<ZOMBIE>", technology := (v.channel r).technology,
    slot := (v.channel r).slot,
    formats := (v.channel r).formats, monitor := (v.channel r).monitor, zombie := true,
    bridge := none }).alter r
    fun x => { x with
      name := (v.channel s).name, technology := (v.channel s).technology,
      slot := (v.channel s).slot,
      formats := (v.channel s).formats, monitor := (v.channel s).monitor }

end PartiesState

namespace Exchange

theorem modifyChannel_comm (e : Exchange) {c d : ChannelId} (h : c ≠ d) (f g : Channel → Channel) :
    (e.modifyChannel c f).modifyChannel d g = (e.modifyChannel d g).modifyChannel c f := by
  obtain ⟨_ | i⟩ := c
  · rfl
  · obtain ⟨_ | j⟩ := d
    · rfl
    · have hne : i ≠ j := fun hij => h (by rw [hij])
      simp only [modifyChannel, Table.modify, List.modify_modify_ne _ _ _ hne]

theorem modifyPair_comp (e : Exchange) (p : PairId) (f g : Pair → Pair) :
    (e.modifyPair p f).modifyPair p g = e.modifyPair p fun x => g (f x) := by
  obtain ⟨_ | i⟩ := p
  · rfl
  · simp only [modifyPair, Table.modify, List.modify_modify_eq]
    rfl

theorem modifyPair_eq_self {e : Exchange} {p : PairId} {f : Pair → Pair}
    (h : f (e.pair p) = e.pair p) :
    e.modifyPair p f = e := by
  rw [modifyPair_congr (e := e) (g := id) h]
  obtain ⟨_ | i⟩ := p
  · rfl
  · simp only [modifyPair, Table.modify, List.modify_id]

end Exchange

namespace Parties

open Exchange

variable {e : Exchange} (k : Parties e) (v : PartiesState)

/-- The exchange with the parties' channels replaced. -/
def setChannels (x : Role → Channel) : Exchange :=
  ((e.modifyChannel (k.member .owner) fun _ => x .owner).modifyChannel (k.member .chan) fun _ =>
    x .chan).modifyChannel (k.member .third) fun _ => x .third

/-- The exchange with the parties' state replaced. -/
def put : Exchange :=
  { (k.setChannels v.channel).modifyPair k.pair fun _ => v.record with
    listed := v.listed
    moduleUse := v.moduleUse
    contention := { e.contention with attempts := v.attempts } }

def current : PartiesState where
  channel r := e.channel (k.member r)
  record := e.pair k.pair
  attempts := e.contention.attempts
  listed := e.listed
  moduleUse := e.moduleUse

theorem member_ne {r s : Role} (h : r ≠ s) : k.member r ≠ k.member s :=
  fun hrs => h (k.different hrs)

theorem put_current : k.put k.current = e := by
  have hseat : k.setChannels k.current.channel = e := by
    rw [setChannels]
    rw [modifyChannel_eq_self e rfl, modifyChannel_eq_self e rfl, modifyChannel_eq_self e rfl]
  rw [put]
  rw [hseat]
  change e.modifyPair k.pair (fun _ => e.pair k.pair) = e
  exact modifyPair_eq_self rfl

theorem modifyChannel_setChannels (x : Role → Channel) (r : Role) (f : Channel → Channel) :
    (k.setChannels x).modifyChannel (k.member r) f = k.setChannels
      (Function.update x r (f (x r))) := by
  rw [setChannels, setChannels]
  cases r with
  | owner =>
      rw [modifyChannel_comm _ (k.member_ne (r := .third) (s := .owner) (by decide)),
        modifyChannel_comm _ (k.member_ne (r := .chan) (s := .owner) (by decide)),
        modifyChannel_comp]
      rfl
  | chan =>
      rw [modifyChannel_comm _ (k.member_ne (r := .third) (s := .chan) (by decide)),
        modifyChannel_comp]
      rfl
  | third =>
      rw [modifyChannel_comp]
      rfl

theorem channel_setChannels (x : Role → Channel) (r : Role) :
    (k.setChannels x).channel (k.member r) = x r := by
  rw [setChannels]
  cases r with
  | owner =>
      rw [channel_modifyChannel_of_ne _ _ (k.member_ne (by decide)),
        channel_modifyChannel_of_ne _ _ (k.member_ne (by decide)),
        channel_modifyChannel e _ (k.made .owner)]
  | chan =>
      rw [channel_modifyChannel_of_ne _ _ (k.member_ne (by decide)), channel_modifyChannel]
      rw [size_modifyChannel]
      exact k.made .chan
  | third =>
      rw [channel_modifyChannel]
      rw [size_modifyChannel, size_modifyChannel]
      exact k.made .third

theorem channel_setChannels_of_ne (x : Role → Channel) {c : ChannelId} (h : ∀ r, c ≠ k.member r) :
    (k.setChannels x).channel c = e.channel c := by
  rw [setChannels]
  rw [channel_modifyChannel_of_ne _ _ (h _), channel_modifyChannel_of_ne _ _ (h _),
    channel_modifyChannel_of_ne _ _ (h _)]

@[simp] theorem channel_put (r : Role) : (k.put v).channel (k.member r) = v.channel r :=
  k.channel_setChannels v.channel r

theorem channel_put_of_ne {c : ChannelId} (h : ∀ r, c ≠ k.member r) :
    (k.put v).channel c = e.channel c :=
  k.channel_setChannels_of_ne v.channel h

@[simp] theorem pair_put : (k.put v).pair k.pair = v.record :=
  (revised_modifyPair (e := k.setChannels v.channel) k.known fun _ => v.record).here

theorem pair_put_of_ne {p : PairId} (h : p ≠ k.pair) : (k.put v).pair p = e.pair p :=
  pair_modifyPair_of_ne (k.setChannels v.channel) _ h

@[simp] theorem modifyChannel_put (r : Role) (f : Channel → Channel) :
    (k.put v).modifyChannel (k.member r) f = k.put (v.alter r f) := by
  rw [put, put]
  rw [PartiesState.alter]
  rw [← k.modifyChannel_setChannels]
  rfl

@[simp] theorem modifyPair_put (f : Pair → Pair) :
    (k.put v).modifyPair k.pair f = k.put { v with record := f v.record } := by
  have hcomp := modifyPair_comp (k.setChannels v.channel) k.pair (fun _ => v.record) f
  exact congrArg (fun x : Exchange =>
    { x with listed := v.listed, moduleUse := v.moduleUse, contention := { e.contention with attempts := v.attempts } })
    hcomp

theorem recordOf_put {r : Role} {p : PairId} (h : (v.channel r).slot = .pair p) :
    (k.put v).recordOf (k.member r) = some p := by
  simp only [recordOf, channel_put, h]

@[simp] theorem isDriven_put (r : Role) :
    (k.put v).isDriven (k.member r) = ((v.channel r).technology = .proxy && e.proxyRegistered) := by
  rw [isDriven]
  rw [channel_put]
  rfl

def spend (r : Role) : PartiesState := { v with attempts := v.attempts.eraseP (·.1 = k.member r) }

theorem spent_put (r : Role) : (k.put v).spent (k.member r) = k.put (k.spend v r) := rfl

theorem taken_put (r : Role) : (k.put v).taken (k.member r) = k.put ((k.spend v r).locked r) := by
  rw [taken, spent_put, modifyChannel_put]
  rfl

theorem refuses_put (r : Role) :
    (k.put v).refuses (k.member r) =
      ((v.attempts.find? (·.1 = k.member r)).any (!·.2) || !(v.channel r).lock.openTo .main) := by
  rw [refuses]
  rw [channel_put]
  rfl

theorem find?_eraseP_of_ne {c d : ChannelId} (h : c ≠ d) (attempts : List (ChannelId × Bool)) :
    (attempts.eraseP (·.1 = d)).find? (·.1 = c) = attempts.find? (·.1 = c) := by
  induction attempts with
  | nil => rfl
  | cons a attempts ih =>
      by_cases had : a.1 = d
      · simp [had, h.symm]
      · simp [had, List.find?_cons, ih]

theorem refuses_put_of_ne {r s : Role} (h : r ≠ s) {w : PartiesState}
    (hw : w.attempts = (k.spend v s).attempts)
    (hlock : (w.channel r).lock = (v.channel r).lock) :
    (k.put w).refuses (k.member r) = (k.put v).refuses (k.member r) := by
  rw [refuses_put, refuses_put, hw, hlock, spend, find?_eraseP_of_ne (k.member_ne h)]

theorem tryLock_put {r : Role} (h : (k.put v).refuses (k.member r) = false) :
    (k.put v).tryLock (k.member r) = (true, k.put ((k.spend v r).locked r)) := by
  rw [tryLock_eq, h, if_neg Bool.false_ne_true, taken_put]

theorem unlock_put (r : Role) : (k.put v).unlock (k.member r) = k.put (v.unlocked r) := by
  rw [unlock, modifyChannel_put]
  rfl

theorem lock?_put {r : Role} (h : (v.channel r).lock.openTo .main = true) :
    (k.put v).lock? (k.member r) = some (k.put (v.locked r)) := by
  rw [lock?_eq, channel_put, if_pos h, modifyChannel_put]
  rfl

variable {r s : Role}

theorem swapMonitors_put (h : r ≠ s) :
    (k.put v).swapMonitors (k.member r) (k.member s) =
      k.put ((v.alter s ({ · with monitor := (v.channel r).monitor })).alter r
        ({ · with monitor := (v.channel s).monitor })) := by
  rw [swapMonitors]
  simp only [modifyChannel_put, channel_put, PartiesState.channel_alter_of_ne _ h.symm]
  rw [v.alter_comm h, PartiesState.alter_alter]

theorem swapAudiohooks_put (h : r ≠ s) :
    (k.put v).swapAudiohooks (k.member r) (k.member s) =
      k.put ((v.alter s ({ · with audiohooks := (v.channel r).audiohooks })).alter r
        ({ · with audiohooks := (v.channel s).audiohooks })) := by
  rw [swapAudiohooks]
  simp only [modifyChannel_put, channel_put, PartiesState.channel_alter_of_ne _ h.symm]
  rw [v.alter_comm h, PartiesState.alter_alter]

theorem moveGroups_put :
    (k.put v).moveGroups (k.member r) (k.member s) =
      k.put ((v.alter r ({ · with groups := [] })).alter s
        fun x => { x with groups := x.groups ++ (v.channel r).groups }) := by
  rw [moveGroups]
  simp only [modifyChannel_put, channel_put]

theorem lend_put :
    (if (v.channel .owner).monitor.isSome && (v.channel .third).monitor.isNone then
      (k.put v).swapMonitors (k.member .owner) (k.member .third) else k.put v) =
      k.put v.withMonitorsSwapped := by
  cases hthird : (v.channel .third).monitor with
  | some m =>
      rw [Option.isNone_some, Bool.and_false, if_neg Bool.false_ne_true]
      refine congrArg _ (PartiesState.eq_of_channel (fun t => ?_) rfl)
      cases t
      · exact (Channel.monitor_self (by simp [hthird])).symm
      · rfl
      · exact (Channel.monitor_self (by simp [hthird])).symm
  | none =>
      cases howner : (v.channel .owner).monitor with
      | none =>
          rw [Option.isSome_none, Bool.false_and, if_neg Bool.false_ne_true]
          refine congrArg _ (PartiesState.eq_of_channel (fun t => ?_) rfl)
          cases t
          · exact (Channel.monitor_self (by simp [howner])).symm
          · rfl
          · exact (Channel.monitor_self (by simp [howner, hthird])).symm
      | some m =>
          rw [Option.isSome_some, Option.isNone_none, Bool.and_true, if_pos rfl,
            swapMonitors_put _ _ (by decide)]
          refine congrArg _ (PartiesState.eq_of_channel (fun t => ?_) rfl)
          cases t <;> simp [PartiesState.alter, PartiesState.withMonitorsSwapped,
            Function.update, hthird]

theorem hook_put :
    (if (v.channel .chan).audiohooks.isEmpty then k.put v
      else (k.put v).swapAudiohooks (k.member .chan) (k.member .owner)) =
      k.put v.withAudiohooksSwapped := by
  split
  · next hempty =>
      have hnone := List.isEmpty_iff.1 hempty
      refine congrArg _ (PartiesState.eq_of_channel (fun t => ?_) rfl)
      cases t
      · exact (Channel.audiohooks_self (by simp [hnone])).symm
      · exact (Channel.audiohooks_self (by simp [hnone])).symm
      · rfl
  · next hempty =>
      have hsome : (v.channel .chan).audiohooks ≠ [] := fun h => hempty (List.isEmpty_iff.2 h)
      rw [swapAudiohooks_put _ _ (by decide)]
      refine congrArg _ (PartiesState.eq_of_channel (fun t => ?_) rfl)
      cases t <;> simp [PartiesState.alter, PartiesState.withAudiohooksSwapped,
        Function.update, hsome]

theorem moveGroups_put_owner :
    (k.put v).moveGroups (k.member .chan) (k.member .owner) = k.put v.withGroupsMoved := by
  rw [moveGroups_put]
  refine congrArg _ (PartiesState.eq_of_channel (fun t => ?_) rfl)
  cases t <;> rfl

theorem gatherAttachments_put :
    (k.put v).gatherAttachments (k.member .owner) (k.member .chan) (k.member .third) =
      k.put v.withMonitorsSwapped.withAudiohooksSwapped.withGroupsMoved := by
  rw [gatherAttachments]
  rw [channel_put, channel_put, lend_put, channel_put, hook_put, moveGroups_put_owner]

theorem swapIdentities_put (h : r ≠ s) :
    (k.put v).swapIdentities (k.member r) (k.member s) = k.put (v.withIdentitiesSwapped r s) := by
  rw [swapIdentities]
  simp only [modifyChannel_put, channel_put, k.swapMonitors_put _ h,
    PartiesState.channel_alter_of_ne _ h,
    PartiesState.channel_alter_of_ne _ h.symm, PartiesState.channel_alter_self]
  refine congrArg _ (PartiesState.eq_of_channel (fun t => ?_) rfl)
  by_cases hts : t = s
  · subst hts
    simp [PartiesState.withIdentitiesSwapped, h.symm]
  · by_cases htr : t = r
    · subst htr
      simp [PartiesState.withIdentitiesSwapped, h]
    · simp [PartiesState.withIdentitiesSwapped, hts, htr]

end Parties
end Switchboard
