import Switchboard.Proofs.Answering
import Switchboard.Proofs.Territory.Turns

namespace Switchboard

namespace Text

theorem occursIn_iff {pattern s : List Char} : occursIn pattern s = true ↔ pattern <:+: s := by
  induction s with
  | nil => simp [occursIn]
  | cons c s ih =>
      rw [occursIn, Bool.or_eq_true, List.isPrefixOf_iff_prefix, ih, List.infix_cons_iff]

end Text

namespace Config

variable {config : Config} {v : String × String}

/-- There is a filter, and the variable has both its patterns: one in the name and one in the value.
-/
def Withholds (config : Config) (v : String × String) : Prop :=
  ∃ f ∈ config.inheritFilter, f.nameContains.toList <:+: v.1.toList ∧
    f.valueContains.toList <:+: v.2.toList

theorem withholds_iff : config.Withholds v ↔
    config.inheritFilter.any (·.catches v.1 v.2) = true := by
  simp only [Withholds, Option.any_eq_true, VariableFilter.catches, Text.contains, Bool.and_eq_true,
    Text.occursIn_iff, Option.mem_def]

instance : Decidable (config.Withholds v) := decidable_of_iff _ withholds_iff.symm

def IsQueue (config : Config) (application : String) : Prop :=
  application.toList.map Char.toLower = config.queueApplication.toList.map Char.toLower

theorem isQueue_iff {application : String} :
    config.IsQueue application ↔ Text.sameLetters application config.queueApplication = true := by
  rw [IsQueue, Text.sameLetters, decide_eq_true_eq]

instance (application : String) : Decidable (config.IsQueue application) :=
  decidable_of_iff _ isQueue_iff.symm

end Config

def Channel.SameButHandedOver (x y : Channel) : Prop :=
  y = { x with
    caller := y.caller, profile := y.profile, answeredElsewhere := y.answeredElsewhere,
    vars := y.vars,
    datastores := y.datastores }

def Channel.handedFrom (x giver : Channel) (config : Config) : Channel :=
  { x with
    caller := giver.caller
    profile := Exchange.handProfile config giver.profile x.profile
    answeredElsewhere := x.answeredElsewhere || giver.answeredElsewhere
    vars := x.vars ++ giver.vars.filter (¬ config.Withholds ·)
    datastores := x.datastores ++ giver.datastores }

namespace Exchange

variable {e e' : Exchange} {p : PairId} {c chan : ChannelId} {a : Answer}

theorem handOver_eq (h : c ≠ chan) :
    e.handOver c chan = e.modifyChannel chan (·.handedFrom (e.channel c) e.config) := by
  have hkept : (fun v : String × String => !e.config.inheritFilter.any (·.catches v.1 v.2)) =
      (¬ e.config.Withholds ·) := funext fun v => Bool.eq_iff_iff.2 <| by
    rw [Bool.not_eq_true', ← Bool.not_eq_true, ← Config.withholds_iff, decide_eq_true_eq]
  unfold Channel.handedFrom
  rw [handOver, inheritDatastores, channel_modifyChannel_of_ne _ _ h, modifyChannel_comp, ← hkept]

def dialable (e : Exchange) (p : PairId) : Bool :=
  e.hasExtension (e.pair p).destination.context (e.pair p).destination.exten

theorem dialable_iff : e.dialable p = true ↔
    ((e.pair p).destination.context, (e.pair p).destination.exten) ∈ e.extensions :=
  List.contains_iff_mem

/-- The exchange after `handOver` and the question whether the extension exists. -/
def handedOver (e : Exchange) (p : PairId) (c chan : ChannelId) : Exchange :=
  let d := (e.pair p).destination
  { e.modifyChannel chan (·.handedFrom (e.channel c) e.config) with
    lookups := e.lookups ++ [⟨d.context, d.exten, 1, (e.channel c).caller.num, e.dialable p⟩] }

def calling (e : Exchange) (p : PairId) (c chan : ChannelId) : Exchange :=
  ((e.handedOver p c chan).serve chan).modifyPair p ({ · with phase := .dialplanLaunched })

/-- The channel is the owner-side of its record. One that is on both sides counts as the chan-side.
-/
structure IsOwner (e : Exchange) (p : PairId) (c : ChannelId) : Prop where
  slot : (e.channel c).slot = .pair p
  owner : (e.pair p).owner = some c
  apart : (e.pair p).chan ≠ some c

theorem membership_owner_iff : e.membership c = some (p, .owner) ↔ e.IsOwner p c := by
  constructor
  · intro hm
    refine ⟨slot_of_recordOf (membership_eq_some hm).1, (membership_eq_some hm).2, fun hchan => ?_⟩
    have hside := membership_of_chan (slot_of_recordOf (membership_eq_some hm).1) hchan
    rw [hm] at hside
    cases hside
  · intro h
    refine membership_of_endpoint h.slot h.owner fun d howner hchan => h.apart ?_
    rw [hchan, ← howner, h.owner]

structure Prepared (e : Exchange) (p : PairId) (c chan : ChannelId) : Prop where
  owner : e.IsOwner p c
  chanSide : (e.pair p).chan = some chan
  state : (e.channel c).state.canPlaceCall = true

theorem Prepared.apart (h : e.Prepared p c chan) : c ≠ chan :=
  fun hsame => h.owner.apart (hsame ▸ h.chanSide)

/-- How a call can end, and what the exchange is then. -/
inductive Call (e : Exchange) (c : ChannelId) : Answer → Exchange → Prop
  | foreign (h : ∀ p, ¬ e.IsOwner p c) : Call e c (.failed (.notLocal (e.channel c).name)) e
  | alone {p : PairId} (h : e.IsOwner p c) (hchan : (e.pair p).chan = none) :
    Call e c (.failed (.endpointGone (e.channel c).name)) e
  | signalling {p : PairId} {chan : ChannelId} (h : e.IsOwner p c)
    (hchan : (e.pair p).chan = some chan) (hstate : (e.channel c).state.canPlaceCall = false) :
    Call e c (.failed (.stateViolation (e.channel c).name (e.channel c).state)) e
  | unreachable {p : PairId} {chan : ChannelId} (h : e.Prepared p c chan)
      (hexten : e.dialable p = false) :
    Call e c
      (.failed (.extensionUnreachable (e.pair p).destination.exten (e.pair p).destination.context))
      (e.handedOver p c chan)
  | turnedDown {p : PairId} {chan : ChannelId} (h : e.Prepared p c chan)
      (hexten : e.dialable p = true)
    (hrefused : e.dialplanRefused = true) :
    Call e c (.failed (.dialplanFailed (e.channel chan).name)) (e.handedOver p c chan)
  | placed {p : PairId} {chan : ChannelId} (h : e.Prepared p c chan) (hexten : e.dialable p = true)
    (hrefused : e.dialplanRefused = false) : Call e c .done (e.calling p c chan)

theorem launch_of_foreign (h : ∀ p, ¬ e.IsOwner p c) : e.launch c = (.error (e.notLocal c), e) := by
  rw [launch]
  rcases hm : e.membership c with _ | ⟨p, _ | _⟩
  · rfl
  · exact absurd (membership_owner_iff.1 hm) (h p)
  · rfl

theorem launch_of_alone (h : e.IsOwner p c) (hchan : (e.pair p).chan = none) :
    e.launch c = (.error (.endpointGone (e.channel c).name), e) := by
  rw [launch]
  rw [membership_owner_iff.2 h]
  dsimp only
  rw [hchan]

theorem launch_of_signalling (h : e.IsOwner p c) (hchan : (e.pair p).chan = some chan)
    (hstate : (e.channel c).state.canPlaceCall = false) :
    e.launch c = (.error (.stateViolation (e.channel c).name (e.channel c).state), e) := by
  rw [launch]
  rw [membership_owner_iff.2 h]
  dsimp only
  rw [hchan, hstate]
  rfl

theorem launch_of_prepared (h : e.Prepared p c chan) :
    e.launch c =
      if e.dialable p then
        if e.dialplanRefused then
          (.error (.dialplanFailed (e.channel chan).name), e.handedOver p c chan)
        else (.ok (), e.calling p c chan)
      else
        (.error (.extensionUnreachable (e.pair p).destination.exten (e.pair p).destination.context),
          e.handedOver p c chan) := by
  have hname : ((e.handedOver p c chan).channel chan).name = (e.channel chan).name :=
    channel_modifyChannel_congr Channel.name e chan chan rfl
  have hsame : (e.handedOver p c chan).dialplanRefused = e.dialplanRefused := rfl
  rw [launch_of_ready (membership_owner_iff.2 h.owner) h.chanSide h.state, handOver_eq h.apart]
  change looked p chan (e.pair p).destination (e.dialable p) (e.handedOver p c chan) = _
  rw [looked, startDialplan_eq, hsame]
  cases e.dialable p with
  | false => rfl
  | true =>
      cases e.dialplanRefused with
      | false => rfl
      | true =>
          rw [← hname]
          rfl

theorem signal_call (e : Exchange) (c : ChannelId) (dialled : String) (ms : Option Nat) :
    ∃ (a : Answer) (e' : Exchange), e.signal c (.call dialled ms) = e'.settled a ∧
      Call e c a e' := by
  unfold signal
  dsimp only
  by_cases howner : ∃ p, e.IsOwner p c
  · obtain ⟨p, howner⟩ := howner
    cases hchan : (e.pair p).chan with
    | none =>
        rw [launch_of_alone howner hchan]
        exact ⟨_, e, rfl, .alone howner hchan⟩
    | some chan =>
        cases hstate : (e.channel c).state.canPlaceCall with
        | false =>
            rw [launch_of_signalling howner hchan hstate]
            exact ⟨_, e, rfl, .signalling howner hchan hstate⟩
        | true =>
            have hready : e.Prepared p c chan := ⟨howner, hchan, hstate⟩
            rw [launch_of_prepared hready]
            cases hexten : e.dialable p with
            | false => exact ⟨_, _, rfl, .unreachable hready hexten⟩
            | true =>
                cases hrefused : e.dialplanRefused with
                | true => exact ⟨_, _, rfl, .turnedDown hready hexten hrefused⟩
                | false => exact ⟨_, _, rfl, .placed hready hexten hrefused⟩
  · have hforeign := not_exists.1 howner
    rw [launch_of_foreign hforeign]
    exact ⟨_, e, rfl, .foreign hforeign⟩

theorem isOwner_writing : (e.writing c).IsOwner p c ↔ e.IsOwner p c := by
  rw [← membership_owner_iff, ← membership_owner_iff, membership_eq_of_view (view_writing e c)]

theorem Prepared.of_writing (h : (e.writing c).Prepared p c chan) : e.Prepared p c chan where
  owner := isOwner_writing.1 h.owner
  chanSide := h.chanSide
  state := channel_writing (·.state.canPlaceCall) (fun _ _ => rfl) c c ▸ h.state

theorem handedOver_writing (h : c ≠ chan) :
    (e.writing c).handedOver p c chan = (e.handedOver p c chan).writing c := by
  have hcaller : ((e.writing c).channel c).caller = (e.channel c).caller :=
    channel_writing Channel.caller (fun _ _ => rfl) c c
  have hhanded : (fun x : Channel => x.handedFrom ((e.writing c).channel c) e.config) =
      (·.handedFrom (e.channel c) e.config) :=
    channel_writing (fun y x => Channel.handedFrom x y e.config) (fun _ _ => rfl) c c
  -- What is handed over goes to one channel and the lock is another's, so either may be written first.
  have hcomm : (e.writing c).modifyChannel chan (·.handedFrom (e.channel c) e.config) =
      (e.modifyChannel chan (·.handedFrom (e.channel c) e.config)).writing c :=
        modifyChannel_comm e h _ _
  have hsettings : (e.writing c).config = e.config := rfl
  unfold handedOver
  dsimp only
  rw [hsettings, hhanded, hcomm, hcaller]
  rfl

theorem calling_writing (h : c ≠ chan) :
    (e.writing c).calling p c chan = (e.calling p c chan).writing c := by
  have hserve : ((e.handedOver p c chan).writing c).serve chan =
    ((e.handedOver p c chan).serve chan).writing c :=
    modifyChannel_comm _ h _ _
  rw [calling, handedOver_writing h, hserve]
  rfl

theorem channel_handedOver_of_ne {d : ChannelId} (h : d ≠ chan) :
    (e.handedOver p c chan).channel d = e.channel d :=
  channel_modifyChannel_of_ne e _ h

theorem channel_calling_of_ne {d : ChannelId} (h : d ≠ chan) :
    (e.calling p c chan).channel d = e.channel d :=
  (channel_modifyChannel_of_ne (e.handedOver p c chan) _ h).trans (channel_handedOver_of_ne h)

theorem Call.of_writing (h : (e.writing c).Call c a e') :
    ∃ x : Exchange, e' = x.writing c ∧ (x.channel c).lock = (e.channel c).lock ∧ e.Call c a x := by
  have hname : ∀ d, ((e.writing c).channel d).name = (e.channel d).name :=
    channel_writing Channel.name (fun _ _ => rfl) c
  have hstate : ((e.writing c).channel c).state = (e.channel c).state :=
    channel_writing Channel.state (fun _ _ => rfl) c c
  cases h with
  | foreign h =>
      rw [hname]
      exact ⟨e, rfl, rfl, .foreign fun p hp => h p (isOwner_writing.2 hp)⟩
  | alone h hchan =>
      rw [hname]
      exact ⟨e, rfl, rfl, .alone (isOwner_writing.1 h) hchan⟩
  | signalling h hchan hbusy =>
      rw [hstate] at hbusy ⊢
      rw [hname]
      exact ⟨e, rfl, rfl, .signalling (isOwner_writing.1 h) hchan hbusy⟩
  | unreachable h hexten =>
      have h := h.of_writing
      exact ⟨_, handedOver_writing h.apart, by rw [channel_handedOver_of_ne h.apart],
        .unreachable h hexten⟩
  | turnedDown h hexten hrefused =>
      have h := h.of_writing
      rw [hname]
      exact ⟨_, handedOver_writing h.apart, by rw [channel_handedOver_of_ne h.apart],
        .turnedDown h hexten hrefused⟩
  | placed h hexten hrefused =>
      have h := h.of_writing
      exact ⟨_, calling_writing h.apart, by rw [channel_calling_of_ne h.apart],
        .placed h hexten hrefused⟩

/-- An owner-side has called, and this has come of it. -/
structure HandsOver (e e' : Exchange) (p : PairId) (owner chan : ChannelId) : Prop where
  caller : (e'.channel chan).caller = (e.channel owner).caller
  language : (e'.channel chan).profile.language = (e.channel owner).profile.language
  accountcode : (e'.channel chan).profile.accountcode = (e.channel owner).profile.accountcode
  musicclass : (e'.channel chan).profile.musicclass = (e.channel owner).profile.musicclass
  cdrFlags : (e'.channel chan).profile.cdrFlags = (e.channel owner).profile.cdrFlags
  queued : ∀ app, (e.channel owner).profile.application = some app → e.config.IsQueue app →
    (e'.channel chan).profile.application = some app
  unqueued : (∀ app, (e.channel owner).profile.application = some app → ¬ e.config.IsQueue app) →
    (e'.channel chan).profile.application = (e.channel chan).profile.application
  answeredElsewhere : (e'.channel chan).answeredElsewhere =
    ((e.channel chan).answeredElsewhere || (e.channel owner).answeredElsewhere)
  vars : (e'.channel chan).vars = (e.channel chan).vars ++ (e.channel owner).vars.filter
    (¬ e.config.Withholds ·)
  datastores : (e'.channel chan).datastores =
    (e.channel chan).datastores ++ (e.channel owner).datastores
  dialplanStarted : (e'.channel chan).dialplanStarted = true
  chanSide : (e.channel chan).SameButHandedOver
    { e'.channel chan with dialplanStarted := (e.channel chan).dialplanStarted }
  channels : ∀ d ≠ chan, e'.channel d = e.channel d
  made : e'.channels.size = e.channels.size
  record : e'.pair p = { e.pair p with phase := .dialplanLaunched }
  pairs : ∀ q ≠ p, e'.pair q = e.pair q
  known : e'.pairs.size = e.pairs.size
  asked : e'.lookups = e.lookups ++
    [⟨(e.pair p).destination.context, (e.pair p).destination.exten, 1,
    (e.channel owner).caller.num, true⟩]
  rest : e' = { e with channels := e'.channels, pairs := e'.pairs, lookups := e'.lookups }

/-- A call that fails after `handOver`: the chan-side has inherited from the owner-side, and
records, registry and counters are as they were. -/
structure HandsOverOnly (e e' : Exchange) (chan : ChannelId) : Prop where
  chanSide : (e.channel chan).SameButHandedOver (e'.channel chan)
  channels : ∀ d ≠ chan, e'.channel d = e.channel d
  made : e'.channels.size = e.channels.size
  rest : e' = { e with channels := e'.channels, lookups := e'.lookups }

theorem handsOverOnly_handedOver (e : Exchange) (p : PairId) (c chan : ChannelId) :
    e.HandsOverOnly (e.handedOver p c chan) chan where
  chanSide := by
    -- A record may name a chan-side that was never made; then there is nobody to hand anything over to.
    rcases channel_modifyChannel_or e chan chan (·.handedFrom (e.channel c) e.config) with hsame |
      ⟨-, hhanded⟩
    · have hsame : (e.handedOver p c chan).channel chan = e.channel chan := hsame
      rw [hsame]
      rfl
    · have hhanded : (e.handedOver p c chan).channel chan =
        (e.channel chan).handedFrom (e.channel c) e.config := hhanded
      rw [hhanded]
      rfl
  channels _ h := channel_handedOver_of_ne h
  made := Table.size_modify _ _ _
  rest := rfl

theorem application_queued {config : Config} {owner chan : CallProfile} {app : String}
    (happ : owner.application = some app) (hqueue : config.IsQueue app) :
    (handProfile config owner chan).application = some app := by
  have hany : owner.application.any (Text.sameLetters · config.queueApplication) = true := by
    rw [happ, Option.any_some, ← Config.isQueue_iff]
    exact hqueue
  exact (if_pos hany).trans happ

theorem application_unqueued {config : Config} {owner chan : CallProfile}
    (hother : ∀ app, owner.application = some app → ¬ config.IsQueue app) :
    (handProfile config owner chan).application = chan.application := by
  have hany : ¬ owner.application.any (Text.sameLetters · config.queueApplication) = true := by
    rw [Option.any_eq_true]
    rintro ⟨app, happ, hqueue⟩
    exact hother app happ (Config.isQueue_iff.2 hqueue)
  exact if_neg hany

theorem handsOver_calling (h : e.Prepared p c chan) (hslot : (e.channel chan).slot = .pair p)
    (hexten : e.dialable p = true) : e.HandsOver (e.calling p c chan) p c chan := by
  have hmade := among_of_slot e hslot
  have hend : (e.pair p).endpoint .owner = some c := h.owner.owner
  have hp : p ∈ (e.handedOver p c chan).pairIds := mem_pairIds_of_attached hend
  have hchan : (e.calling p c chan).channel chan =
      { (e.channel chan).handedFrom (e.channel c) e.config with dialplanStarted := true } := by
    have hhanded : (e.handedOver p c chan).channel chan =
      (e.channel chan).handedFrom (e.channel c) e.config :=
      channel_modifyChannel e _ hmade
    have hmade' : chan.Among (e.handedOver p c chan).channels.size := by
      rwa [(handsOverOnly_handedOver e p c chan).made]
    have hserved :=
      channel_modifyChannel (e.handedOver p c chan) ({ · with dialplanStarted := true }) hmade'
    rwa [hhanded] at hserved
  exact {
    caller := (congrArg Channel.caller hchan :)
    language := (congrArg (·.profile.language) hchan :)
    accountcode := (congrArg (·.profile.accountcode) hchan :)
    musicclass := (congrArg (·.profile.musicclass) hchan :)
    cdrFlags := (congrArg (·.profile.cdrFlags) hchan :)
    queued := fun app happ hqueue => hchan ▸ application_queued happ hqueue
    unqueued := fun hother => hchan ▸ application_unqueued hother
    answeredElsewhere := (congrArg Channel.answeredElsewhere hchan :)
    vars := (congrArg Channel.vars hchan :)
    datastores := (congrArg Channel.datastores hchan :)
    dialplanStarted := (congrArg Channel.dialplanStarted hchan :)
    chanSide := by
      rw [hchan]
      rfl
    channels := fun d hd => channel_calling_of_ne hd
    made := (Table.size_modify _ _ _).trans (Table.size_modify _ _ _)
    record := (revised_modifyPair (e := (e.handedOver p c chan).serve chan) hp _).here
    pairs := fun q hq => pair_modifyPair_of_ne _ _ hq
    known := Table.size_modify _ _ _
    asked := by
      rw [← hexten]
      rfl
    rest := rfl }

/-- Both endpoints are attached, and the owner-side has not started signalling. -/
structure ReadyToCall (e : Exchange) (p : PairId) (owner chan : ChannelId) : Prop where
  ownerSlot : (e.channel owner).slot = .pair p
  chanSlot : (e.channel chan).slot = .pair p
  ownerSide : (e.pair p).owner = some owner
  chanSide : (e.pair p).chan = some chan
  apart : owner ≠ chan
  state : (e.channel owner).state = .down ∨ (e.channel owner).state = .reserved

theorem canPlaceCall_iff {x : ChannelState} :
    x.canPlaceCall = true ↔ x = .down ∨ x = .reserved := by
  cases x <;> decide

theorem ReadyToCall.prepared (h : e.ReadyToCall p c chan) : e.Prepared p c chan where
  owner :=
    ⟨h.ownerSlot,
    h.ownerSide, by rw [h.chanSide]; exact fun hsame => h.apart (Option.some.inj hsame).symm⟩
  chanSide := h.chanSide
  state := canPlaceCall_iff.2 h.state

theorem IsOwner.unique {q : PairId} (h : e.IsOwner p c) (h' : e.IsOwner q c) : p = q :=
  Slot.pair.inj (h.slot.symm.trans h'.slot)

end Exchange

namespace Session

open Exchange

variable {s : Session} {n : Nat} {p : PairId} {c chan : ChannelId} {route : Route}
    {dialled : String}
  {ms : Option Nat} {rest : List Task}

theorem call_ends (hs : s.Reachable n)
    (hagenda : s.agenda = .operate (.signal route c (.call dialled ms)) :: rest)
    (hc : c.Among s.exchange.channels.size)
    (hready : route = .dispatched → s.exchange.isDriven c = true ∧ s.exchange.Open c) :
    ∃ a e, s.Ends rest e a ∧ s.exchange.Call c a e := by
  cases route with
  | direct =>
      obtain ⟨a, e, hanswers, hcall⟩ := signal_call s.exchange c dialled ms
      exact ⟨a, e, ends_direct hagenda hc hanswers, hcall⟩
  | dispatched =>
      obtain ⟨hdriven, hopen⟩ := hready rfl
      obtain ⟨a, e', hanswers, hcall⟩ := signal_call (s.exchange.writing c) c dialled ms
      obtain ⟨e, rfl, hlock, hcall⟩ := hcall.of_writing
      exact ⟨a, e, ends_dispatched hagenda hc rfl hdriven hopen hanswers hlock
        (hlock ▸ hs.locks_sound c), hcall⟩

/-- A call by the owner-side of an attached pair succeeds exactly if its extension exists and the
dialplan may be started. The chan-side then has inherited everything that `HandsOver` lists, and
nothing else has changed. -/
theorem call_hands_over (hs : s.Reachable n) (h : s.exchange.ReadyToCall p c chan)
    (hagenda : s.agenda = .operate (.signal route c (.call dialled ms)) :: rest)
    (hready : route = .dispatched → s.exchange.isDriven c = true ∧ s.exchange.Open c) :
    ∃ e a, s.Ends rest e a ∧
      (a = .done ↔ ((s.exchange.pair p).destination.context,
      (s.exchange.pair p).destination.exten) ∈
        s.exchange.extensions ∧ s.exchange.dialplanRefused = false) ∧
      (a = .done → s.exchange.HandsOver e p c chan) := by
  have hp := h.prepared
  have hsame : ∀ {q : PairId} {d : ChannelId}, s.exchange.IsOwner q c →
    (s.exchange.pair q).chan = some d →
      q = p ∧ d = chan := fun howner hd => by
    obtain rfl := howner.unique hp.owner
    exact ⟨rfl, Option.some.inj (hd.symm.trans h.chanSide)⟩
  obtain ⟨a, e, hends, hcall⟩ := call_ends hs hagenda (among_of_slot _ h.ownerSlot) hready
  refine ⟨e, a, hends, ?_⟩
  rw [← dialable_iff]
  cases hcall with
  | foreign hnone => exact absurd hp.owner (hnone p)
  | alone howner hnone =>
      obtain rfl := howner.unique hp.owner
      rw [h.chanSide] at hnone
      cases hnone
  | signalling howner hd hbusy =>
      rw [hp.state] at hbusy
      cases hbusy
  | unreachable hready hexten =>
      obtain ⟨rfl, rfl⟩ := hsame hready.owner hready.chanSide
      simp [hexten]
  | turnedDown hready hexten hrefused => simp [hrefused]
  | placed hready hexten hrefused =>
      obtain ⟨rfl, rfl⟩ := hsame hready.owner hready.chanSide
      exact ⟨by simp [hexten, hrefused], fun _ => handsOver_calling hready h.chanSlot hexten⟩

/-- The caller has a variable twice, one that is withheld, and the application of the settings in
other letters. The chan-side has a variable of its own. -/
def invitation : List Operation :=
  [.addExtension "internal" "100", .request .direct "Local" "100@internal" ⟨4⟩,
    .edit ⟨1⟩ (.caller { num := some "42" }),
    .edit ⟨1⟩ (.profile { language := "de", application := some "QUEUE" }),
    .edit ⟨1⟩ (.pushVar "colour" "red"), .edit ⟨1⟩ (.pushVar "SIPADDHEADER01" "Alert-Info: ring"),
    .edit ⟨1⟩ (.pushVar "colour" "red"), .edit ⟨1⟩ (.datastore "cdr"),
    .edit ⟨2⟩ (.pushVar "colour" "blue"),
    .signal .dispatched ⟨1⟩ (.call "" none)]

theorem invitation_hands_over :
    ∃ s, start {} invitation = .ok s ∧ (s.run 27).exchange.ReadyToCall ⟨1⟩ ⟨1⟩ ⟨2⟩ ∧
    (s.run 27).agenda = [.operate (.signal .dispatched ⟨1⟩ (.call "" none)), .report] ∧
    (s.run 27).exchange.isDriven ⟨1⟩ = true ∧ (s.run 27).exchange.Open ⟨1⟩ ∧
    ∃ e, (s.run 27).Ends [.report] e .done ∧ (e.channel ⟨2⟩).caller.num = some "42" ∧
      (e.channel ⟨2⟩).profile.application = some "QUEUE" ∧
      (e.channel ⟨2⟩).vars = [("colour", "blue"), ("colour", "red"), ("colour", "red")] ∧
      (e.channel ⟨2⟩).datastores = ["cdr"] ∧ (e.pair ⟨1⟩).phase = .dialplanLaunched := by
  have hstart : start {} invitation = .ok { exchange := {}, agenda := tasksOf invitation } := rfl
  generalize hs : ({ exchange := {}, agenda := tasksOf invitation } : Session) = s at hstart
  have hcallable : (s.run 27).exchange.ReadyToCall ⟨1⟩ ⟨1⟩ ⟨2⟩ := by
    subst hs
    constructor <;> decide +kernel
  have hagenda : (s.run 27).agenda =
    [.operate (.signal .dispatched ⟨1⟩ (.call "" none)), .report] := by
    subst hs
    rfl
  have hdriven : (s.run 27).exchange.isDriven ⟨1⟩ = true := by
    subst hs
    decide +kernel
  have hopen : (s.run 27).exchange.Open ⟨1⟩ := by
    subst hs
    rw [Open]
    decide +kernel
  have hthrough : (((s.run 27).exchange.pair ⟨1⟩).destination.context,
      ((s.run 27).exchange.pair ⟨1⟩).destination.exten) ∈ (s.run 27).exchange.extensions ∧
      (s.run 27).exchange.dialplanRefused = false := by
    subst hs
    decide +kernel
  obtain ⟨e, a, hends, hdone, hover⟩ :=
    call_hands_over ((Reachable.start hstart).run 27) hcallable hagenda
    fun _ => ⟨hdriven, hopen⟩
  obtain rfl := hdone.2 hthrough
  have hover := hover rfl
  refine ⟨s, hstart, hcallable, hagenda, hdriven, hopen, e, hends, ?_, ?_, ?_, ?_, ?_⟩
  · rw [hover.caller]
    subst hs
    decide +kernel
  · refine hover.queued "QUEUE" ?_ ?_ <;> subst hs <;> decide +kernel
  · rw [hover.vars]
    subst hs
    decide +kernel
  · rw [hover.datastores]
    subst hs
    decide +kernel
  · rw [hover.record]

end Session

/-- What can be in the way of a call, in the order in which it is met. -/
inductive Obstacle
  | notLocal
  | endpointGone
  | stateViolation
  | extensionUnreachable
  | dialplanFailed

namespace Obstacle

variable {e e' : Exchange} {route : Route} {p : PairId} {c chan : ChannelId} {a : Answer}

def rank : Obstacle → Nat
  | notLocal => 0
  | endpointGone => 1
  | stateViolation => 2
  | extensionUnreachable => 3
  | dialplanFailed => 4

theorem rank_injective : Function.Injective rank := by
  intro o o' h
  cases o <;> cases o' <;> first | rfl | cases h

/-- It is met after `handOver`. -/
def IsLate (o : Obstacle) : Prop := stateViolation.rank < o.rank

instance (o : Obstacle) : Decidable o.IsLate := Nat.decLt _ _

/-- It is there, whether or not another one is met before it. -/
def Bars (e : Exchange) (route : Route) (c : ChannelId) : Obstacle → Prop
  | notLocal => (route = .dispatched ∧ e.isDriven c = false) ∨ ∀ p, ¬ e.IsOwner p c
  | endpointGone => ∃ p, (e.channel c).slot = .pair p ∧ (e.pair p).chan = none
  | stateViolation => (e.channel c).state ≠ .down ∧ (e.channel c).state ≠ .reserved
  | extensionUnreachable => ∃ p, (e.channel c).slot = .pair p ∧
      ((e.pair p).destination.context, (e.pair p).destination.exten) ∉ e.extensions
  | dialplanFailed => e.dialplanRefused = true

inductive Message (e : Exchange) (c : ChannelId) : Obstacle → ChannelError → Prop
  | notLocal : Message e c .notLocal (.notLocal (e.channel c).name)
  | endpointGone : Message e c .endpointGone (.endpointGone (e.channel c).name)
  | stateViolation :
      Message e c .stateViolation (.stateViolation (e.channel c).name (e.channel c).state)
  | extensionUnreachable {p : PairId} (h : (e.channel c).slot = .pair p) :
    Message e c .extensionUnreachable
      (.extensionUnreachable (e.pair p).destination.exten (e.pair p).destination.context)
  | dialplanFailed {p : PairId} {chan : ChannelId} (h : (e.channel c).slot = .pair p)
    (hchan : (e.pair p).chan = some chan) :
    Message e c .dialplanFailed (.dialplanFailed (e.channel chan).name)

structure Fails (e e' : Exchange) (route : Route) (c : ChannelId) (o : Obstacle)
    (why : ChannelError) : Prop where
  bars : o.Bars e route c
  first : ∀ o' : Obstacle, o'.rank < o.rank → ¬ o'.Bars e route c
  message : o.Message e c why
  early : ¬ o.IsLate → e' = e
  late : o.IsLate → ∃ p chan, e.IsOwner p c ∧ (e.pair p).chan = some chan ∧ e.HandsOverOnly e' chan

theorem fails_at_once {o : Obstacle} {why : ChannelError} (hearly : ¬ o.IsLate)
    (hbars : o.Bars e route c)
    (hfirst : ∀ o' : Obstacle, o'.rank < o.rank → ¬ o'.Bars e route c)
    (hmessage : o.Message e c why) :
    o.Fails e e route c why where
  bars := hbars
  first := hfirst
  message := hmessage
  early _ := rfl
  late hlate := absurd hlate hearly

theorem fails_after_handedOver {o : Obstacle} {why : ChannelError} (hlate : o.IsLate)
    (hbars : o.Bars e route c)
    (hfirst : ∀ o' : Obstacle, o'.rank < o.rank → ¬ o'.Bars e route c)
    (hmessage : o.Message e c why)
    (h : e.Prepared p c chan) : o.Fails e (e.handedOver p c chan) route c why where
  bars := hbars
  first := hfirst
  message := hmessage
  early hearly := absurd hlate hearly
  late _ := ⟨p, chan, h.owner, h.chanSide, e.handsOverOnly_handedOver p c chan⟩

theorem none_before (o : Obstacle) (hrank : o.rank < notLocal.rank) : ¬ o.Bars e route c :=
  absurd hrank (Nat.not_lt_zero _)

theorem passed {o : Obstacle} (hbefore : ∀ o' : Obstacle, o'.rank < o.rank → ¬ o'.Bars e route c)
    (h : ¬ o.Bars e route c) (o' : Obstacle) (hrank : o'.rank < o.rank + 1) :
    ¬ o'.Bars e route c := by
  rcases Nat.lt_succ_iff_lt_or_eq.1 hrank with hlt | hsame
  · exact hbefore o' hlt
  · rwa [rank_injective hsame]

variable (hroute : ¬ (route = .dispatched ∧ e.isDriven c = false))

include hroute

theorem passed_owner (h : e.IsOwner p c) (o : Obstacle) (hrank : o.rank < endpointGone.rank) :
    ¬ o.Bars e route c := by
  refine passed (o := notLocal) none_before (fun hbars => ?_) o hrank
  exact hbars.elim hroute fun hnone => hnone p h

theorem passed_chan (h : e.IsOwner p c) (hchan : (e.pair p).chan = some chan) (o : Obstacle)
    (hrank : o.rank < stateViolation.rank) : ¬ o.Bars e route c := by
  refine passed (o := endpointGone) (passed_owner hroute h) ?_ o hrank
  rintro ⟨q, hslot, hnone⟩
  obtain rfl : p = q := Slot.pair.inj (h.slot.symm.trans hslot)
  rw [hchan] at hnone
  cases hnone

theorem passed_state (h : e.Prepared p c chan) (o : Obstacle)
    (hrank : o.rank < extensionUnreachable.rank) :
    ¬ o.Bars e route c := by
  refine passed (o := stateViolation) (passed_chan hroute h.owner h.chanSide) ?_ o hrank
  rintro ⟨hdown, hreserved⟩
  exact (Exchange.canPlaceCall_iff.1 h.state).elim hdown hreserved

theorem passed_extension (h : e.Prepared p c chan) (hexten : e.dialable p = true) (o : Obstacle)
    (hrank : o.rank < dialplanFailed.rank) : ¬ o.Bars e route c := by
  refine passed (o := extensionUnreachable) (passed_state hroute h) ?_ o hrank
  rintro ⟨q, hslot, hnone⟩
  obtain rfl : p = q := Slot.pair.inj (h.owner.slot.symm.trans hslot)
  exact hnone (Exchange.dialable_iff.1 hexten)

theorem passed_all (h : e.Prepared p c chan) (hexten : e.dialable p = true)
    (hrefused : e.dialplanRefused = false)
    (o : Obstacle) : ¬ o.Bars e route c := by
  refine passed (o := dialplanFailed) (passed_extension hroute h hexten) ?_ o
    (by cases o <;> decide)
  intro hbars
  exact absurd (hrefused.symm.trans hbars) Bool.false_ne_true

theorem of_call (h : e.Call c a e') :
    a = .done ∧ (∀ o : Obstacle, ¬ o.Bars e route c) ∨
      ∃ (o : Obstacle) (why : ChannelError), a = .failed why ∧ o.Fails e e' route c why := by
  cases h with
  | placed h hexten hrefused => exact .inl ⟨rfl, passed_all hroute h hexten hrefused⟩
  | foreign h =>
      exact .inr ⟨notLocal, _, rfl, fails_at_once (by decide) (.inr h) none_before .notLocal⟩
  | alone h hchan =>
      have hbars : endpointGone.Bars e route c := ⟨_, h.slot, hchan⟩
      exact .inr ⟨_, _, rfl, fails_at_once (by decide) hbars (passed_owner hroute h) .endpointGone⟩
  | signalling h hchan hstate =>
      have hbars : stateViolation.Bars e route c := by
        rw [← Bool.not_eq_true, Exchange.canPlaceCall_iff, not_or] at hstate
        exact hstate
      exact .inr ⟨_, _, rfl, fails_at_once (by decide) hbars
        (passed_chan hroute h hchan) .stateViolation⟩
  | unreachable h hexten =>
      have hbars : extensionUnreachable.Bars e route c := by
        rw [← Bool.not_eq_true, Exchange.dialable_iff] at hexten
        exact ⟨_, h.owner.slot, hexten⟩
      have hmessage := Message.extensionUnreachable h.owner.slot
      exact .inr ⟨_, _, rfl, fails_after_handedOver (by decide) hbars
        (passed_state hroute h) hmessage h⟩
  | turnedDown h hexten hrefused =>
      have hbars : dialplanFailed.Bars e route c := hrefused
      have hmessage := Message.dialplanFailed h.owner.slot h.chanSide
      exact .inr ⟨_, _, rfl, fails_after_handedOver (by decide) hbars
        (passed_extension hroute h hexten) hmessage h⟩

end Obstacle

namespace Session

open Exchange

variable {s : Session} {n : Nat} {c : ChannelId} {route : Route} {dialled : String}
    {ms : Option Nat}
  {rest : List Task}

/-- A call fails for the first obstacle in the order of `Obstacle.rank`, and succeeds if there is
none. An obstacle that is met before `handOver` leaves the state as it was. -/
theorem call_fails_first (hs : s.Reachable n)
    (hagenda : s.agenda = .operate (.signal route c (.call dialled ms)) :: rest)
    (hc : c.Among s.exchange.channels.size)
    (hopen : route = .dispatched → s.exchange.isDriven c = true → s.exchange.Open c) :
    ∃ e a, s.Ends rest e a ∧
      (a = .done ∧ (∀ o : Obstacle, ¬ o.Bars s.exchange route c) ∨
        ∃ (o : Obstacle) (why : ChannelError), a = .failed why ∧
        o.Fails s.exchange e route c why) := by
  by_cases hundriven : route = .dispatched ∧ s.exchange.isDriven c = false
  · obtain ⟨rfl, hdriven⟩ := hundriven
    have hbars : Obstacle.notLocal.Bars s.exchange .dispatched c := .inl ⟨rfl, hdriven⟩
    have hfails := Obstacle.fails_at_once (by decide) hbars Obstacle.none_before .notLocal
    exact ⟨_, _, ends_undriven hagenda hc rfl hdriven, .inr ⟨_, _, rfl, hfails⟩⟩
  · have hready : route = .dispatched → s.exchange.isDriven c = true ∧
      s.exchange.Open c := fun hroute => by
      have hdriven : s.exchange.isDriven c = true := by
        rw [← Bool.not_eq_false]
        exact fun hfalse => hundriven ⟨hroute, hfalse⟩
      exact ⟨hdriven, hopen hroute hdriven⟩
    obtain ⟨a, e, hends, hcall⟩ := call_ends hs hagenda hc hready
    exact ⟨e, a, hends, Obstacle.of_call hundriven hcall⟩

def fruitless : List Operation :=
  [.request .direct "Local" "100@internal" ⟨4⟩, .refuseDialplan true,
    .edit ⟨1⟩ (.pushVar "colour" "red"),
    .signal .dispatched ⟨1⟩ (.call "" none)]

theorem fruitless_fails : ∃ s, start {} fruitless = .ok s ∧
    (s.run 9).agenda = [.operate (.signal .dispatched ⟨1⟩ (.call "" none)), .report] ∧
    ChannelId.Among ⟨1⟩ (s.run 9).exchange.channels.size ∧ (s.run 9).exchange.Open ⟨1⟩ ∧
    Obstacle.dialplanFailed.Bars (s.run 9).exchange .dispatched ⟨1⟩ ∧
    ∃ e, (s.run 9).Ends [.report] e (.failed (.extensionUnreachable "100" "internal")) ∧
      (s.run 9).exchange.HandsOverOnly e ⟨2⟩ := by
  have hstart : start {} fruitless = .ok { exchange := {}, agenda := tasksOf fruitless } := rfl
  generalize hs : ({ exchange := {}, agenda := tasksOf fruitless } : Session) = s at hstart
  have hagenda : (s.run 9).agenda =
    [.operate (.signal .dispatched ⟨1⟩ (.call "" none)), .report] := by
    subst hs
    rfl
  have hopen : (s.run 9).exchange.Open ⟨1⟩ := by
    subst hs
    rw [Open]
    decide +kernel
  have hrefused : Obstacle.dialplanFailed.Bars (s.run 9).exchange .dispatched ⟨1⟩ := by
    subst hs
    rw [Obstacle.Bars]
    decide +kernel
  have hready : (s.run 9).exchange.Prepared ⟨1⟩ ⟨1⟩ ⟨2⟩ := by
    subst hs
    constructor
    · constructor <;> decide +kernel
    all_goals decide +kernel
  have hmade := among_of_slot _ hready.owner.slot
  have hdriven : ¬ (Route.dispatched = .dispatched ∧ (s.run 9).exchange.isDriven ⟨1⟩ = false) := by
    subst hs
    decide +kernel
  have hplace : ((s.run 9).exchange.pair ⟨1⟩).destination.exten = "100" ∧
      ((s.run 9).exchange.pair ⟨1⟩).destination.context = "internal" ∧
      (s.run 9).exchange.extensions = [] := by
    subst hs
    decide +kernel
  have hbars : Obstacle.extensionUnreachable.Bars (s.run 9).exchange .dispatched ⟨1⟩ :=
    ⟨⟨1⟩, hready.owner.slot, by rw [hplace.2.2]; exact List.not_mem_nil⟩
  obtain ⟨e, a, hends, ⟨-, hnone⟩ | ⟨o, why, rfl, hfails⟩⟩ :=
    call_fails_first ((Reachable.start hstart).run 9) hagenda
    hmade fun _ _ => hopen
  · exact absurd hbars (hnone _)
  · obtain rfl : o = .extensionUnreachable := by
      have hlate : ¬ o.rank < Obstacle.extensionUnreachable.rank :=
        fun hlt => Obstacle.passed_state hdriven hready o hlt hfails.bars
      have hearly : ¬ Obstacle.extensionUnreachable.rank < o.rank :=
        fun hlt => hfails.first _ hlt hbars
      exact Obstacle.rank_injective (by omega)
    obtain ⟨p, chan, howner, hchan, honly⟩ := hfails.late (by decide)
    obtain rfl := howner.unique hready.owner
    obtain rfl : chan = ⟨2⟩ := Option.some.inj (hchan.symm.trans hready.chanSide)
    cases hfails.message with
    | extensionUnreachable hslot =>
        obtain rfl := Slot.pair.inj (hslot.symm.trans hready.owner.slot)
        rw [hplace.1, hplace.2.1] at hends
        exact ⟨s, hstart, hagenda, hmade, hopen, hrefused, e, hends, honly⟩

end Session
end Switchboard
