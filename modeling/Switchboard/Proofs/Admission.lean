import Switchboard.Proofs.Listing
import Switchboard.Proofs.ListedChannels

namespace Switchboard

namespace Table

variable {α : Type} (t : Table α)

theorem next_push (a : α) : (t.push a).next = t.next + 1 := congrArg (· + 1) (size_push t a)

end Table

namespace Destination

def gives (text : String) (letter : Char) : Bool :=
  ((Text.cut '/' text).map fun (_, letters) => letters.toList.contains letter).getD false

end Destination

namespace Exchange

variable (e : Exchange)

/-- Why the allocation that comes after `k` others is refused, if it is: so it was laid down, or the
limit is reached. -/
def refusal? (k : Nat) : Option HostError :=
  (e.contention.allocations[k]?.getD none).or
    (if e.allocationLimit = some k then some (.refused "channel limit reached") else none)

/-- An endpoint of a new pair. -/
def endpointOf (d : Destination) (format : FormatMask) (p : PairId) (name : String)
    (jitterbuffer : Option Jitterbuffer) : Channel :=
  let codec := format.best.getD .empty
  { name, technology := .proxy, state := .down,
    formats := { native := codec, read := codec, write := codec, rawRead := codec, rawWrite := codec }
    location := ⟨d.context, d.exten, 1⟩, slot := .pair p, jitterbuffer }

def jitterbufferFor (text : String) : Jitterbuffer :=
  { e.config.jitterbuffer with enabled := Destination.gives text 'n' && Destination.gives text 'j' }

def questionFor (d : Destination) : Lookup :=
  ⟨d.context, d.exten, 1, none, e.hasExtension d.context d.exten⟩

/-- What a request that is granted makes of an exchange: a pair and its two endpoints. -/
structure Admits (e e' : Exchange) (text : String) (d : Destination) (format : FormatMask)
    (p : PairId)
    (owner chan : ChannelId) : Prop where
  channelIds : e'.channelIds = e.channelIds ++ [owner, chan]
  listed : e'.listed = e.listed ++ [owner, chan]
  ownerSide : e'.channel owner =
    endpointOf d format p (e.baseName d ++ ";1") (some (e.jitterbufferFor text))
  chanSide : e'.channel chan = endpointOf d format p (e.baseName d ++ ";2") none
  pairIds : e'.pairIds = e.pairIds ++ [p]
  record : e'.pair p =
    { destination := d, requested := format, jitterbuffer := e.jitterbufferFor text, owner, chan,
      ownerUse := .held, chanUse := .held, phase := .fresh, glare := .idle, destroyed := false }
  registry : e'.registry =
    ⟨e.registry.pairs ++ [p], { e.registry.stats with
    registered := e.registry.stats.registered + 1 }⟩
  once : e'.registry.occurrences p = 1
  moduleUse : e'.moduleUse.inUse = e.moduleUse.inUse + 2
  channel : ∀ c, c.Among e.channels.size → e'.channel c = e.channel c
  pair : ∀ q ∈ e.pairIds, e'.pair q = e.pair q
  rest : e' =
    { e with
      channels := e'.channels, listed := e'.listed, pairs := e'.pairs, registry := e'.registry
      moduleUse := e'.moduleUse
      allocationLimit := e.allocationLimit.map (· - 2)
      contention := { e.contention with allocations := e.contention.allocations.drop 2 }
      lookups := e.lookups ++ [e.questionFor d]
      allocations := e.allocations ++
        [endpointRequest d (e.baseName d ++ ";1"), endpointRequest d (e.baseName d ++ ";2")] }

def denied : Exchange :=
  { e with contention := { e.contention with allocations := e.contention.allocations.drop 1 } }

def allotted (r : Allocation) : Exchange :=
  { e with
    channels := e.channels.push
      { name := r.name, technology := r.technology, state := r.state, location := ⟨r.context, r.exten, 0⟩,
        profile := { accountcode := r.accountcode } }
    listed := e.listed ++ [⟨e.channels.next⟩]
    allocationLimit := e.allocationLimit.map (· - 1)
    contention := { e.contention with allocations := e.contention.allocations.drop 1 }
    allocations := e.allocations ++ [r] }

theorem allocateWithin_eq (r : Allocation) :
    e.allocateWithin r =
      if e.allocationLimit = some 0 then (.error (.refused "channel limit reached"), e)
      else (.ok ⟨e.channels.next⟩, { e.allotted r with contention := e.contention }) := by
  rw [allocateWithin]
  split <;> rfl

theorem allocate_eq (r : Allocation) :
    e.allocate r =
      match e.refusal? 0 with
      | some why => (.error why, e.denied)
      | none => (.ok ⟨e.channels.next⟩, e.allotted r) := by
  cases hscript : e.contention.allocations with
  | nil =>
      have hkept : e.contention.allocations.drop 1 = e.contention.allocations := by rw [hscript]; rfl
      rw [allocate, hscript, refusal?, hscript, denied, allotted, hkept]
      dsimp only
      rw [allocateWithin_eq]
      by_cases hlimit : e.allocationLimit = some 0
      · rw [if_pos hlimit, if_pos hlimit]
        rfl
      · rw [if_neg hlimit, if_neg hlimit]
        rfl
  | cons outcome rest =>
      rw [allocate, hscript, refusal?, hscript, denied, allotted, hscript]
      cases outcome with
      | some why => rfl
      | none =>
          dsimp only
          rw [allocateWithin_eq]
          by_cases hlimit : e.allocationLimit = some 0
          · rw [if_pos hlimit, if_pos hlimit]
            rfl
          · rw [if_neg hlimit, if_neg hlimit]
            rfl

theorem refusal?_allotted (h : e.refusal? 0 = none) (r : Allocation) (k : Nat) :
    (e.allotted r).refusal? k = e.refusal? (k + 1) := by
  have hlimit : (e.allocationLimit.map (· - 1) = some k) = (e.allocationLimit = some (k + 1)) := by
    rw [refusal?] at h
    cases hl : e.allocationLimit with
    | none => simp
    | some limit =>
        cases limit with
        | zero => simp [hl] at h
        | succ limit => simp
  simp only [refusal?, allotted, hlimit, List.getElem?_drop, Nat.add_comm 1 k]

def posed (d : Destination) : Exchange := { e with lookups := e.lookups ++ [e.questionFor d] }

def halfway (d : Destination) : Exchange :=
  (e.posed d).allotted (endpointRequest d (e.baseName d ++ ";1"))

def equipped (d : Destination) : Exchange :=
  (e.halfway d).allotted (endpointRequest d (e.baseName d ++ ";2"))

def furnished (d : Destination) (format : FormatMask) : Exchange :=
  ((e.equipped d).install d format ⟨e.channels.next⟩ ⟨e.channels.next + 1⟩).2

theorem createPair_eq {text : String} {d : Destination} (format : FormatMask)
    (h : Destination.parse text e.config.defaultContext = .ok d) :
    e.createPair text format =
      match (e.posed d).allocate (endpointRequest d (e.baseName d ++ ";1")) with
      | (.error why, e') => (.error (.ofHost why), e')
      | (.ok owner, e') =>
        match e'.allocate (endpointRequest d (e.baseName d ++ ";2")) with
        | (.error why, e') => (.error (.ofHost why), e'.release owner)
        | (.ok chan, e') =>
            (.ok (e'.install d format owner chan).1, (e'.install d format owner chan).2) := by
  rw [createPair, h]
  rfl

theorem refusal?_halfway (h : e.refusal? 0 = none) (d : Destination) :
    (e.halfway d).refusal? 0 = e.refusal? 1 :=
  refusal?_allotted (e.posed d) h (endpointRequest d (e.baseName d ++ ";1")) 0

variable {e} {text : String} {format : FormatMask} {d : Destination} {why : HostError}

theorem createPair_ownerRefused (h : Destination.parse text e.config.defaultContext = .ok d)
    (h0 : e.refusal? 0 = some why) :
    e.createPair text format = (.error (.ofHost why), (e.posed d).denied) := by
  have hfirst : (e.posed d).refusal? 0 = some why := h0
  rw [createPair_eq e format h, allocate_eq, hfirst]

theorem createPair_chanRefused (h : Destination.parse text e.config.defaultContext = .ok d)
    (h0 : e.refusal? 0 = none) (h1 : e.refusal? 1 = some why) :
    e.createPair text format =
      (.error (.ofHost why), (e.halfway d).denied.release ⟨e.channels.next⟩) := by
  have hfirst : (e.posed d).refusal? 0 = none := h0
  have hsecond := (e.refusal?_halfway h0 d).trans h1
  rw [createPair_eq e format h, allocate_eq, hfirst]
  change (match (e.halfway d).allocate _ with | (.error _, _) => _ | (.ok _, _) => _) = _
  rw [allocate_eq, hsecond]
  rfl

theorem createPair_granted (h : Destination.parse text e.config.defaultContext = .ok d)
    (h0 : e.refusal? 0 = none) (h1 : e.refusal? 1 = none) :
    e.createPair text format = (.ok ⟨e.pairs.next⟩, e.furnished d format) := by
  have hfirst : (e.posed d).refusal? 0 = none := h0
  have hsecond := (e.refusal?_halfway h0 d).trans h1
  have hchan : (e.halfway d).channels.next = e.channels.next + 1 := Table.next_push _ _
  rw [createPair_eq e format h, allocate_eq, hfirst]
  change (match (e.halfway d).allocate _ with | (.error _, _) => _ | (.ok _, _) => _) = _
  rw [allocate_eq, hsecond]
  dsimp only
  rw [hchan]
  rfl

end Exchange

namespace Session

variable {s : Session}

theorem Reachable.listedInvariant {n : Nat} (hs : s.Reachable n) : s.ListedInvariant := by
  induction hs with
  | start h => exact listedInvariant_start h
  | next _ hm ih => exact hm.listedInvariant ih

end Session
end Switchboard
