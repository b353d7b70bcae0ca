import Switchboard.Task

namespace Switchboard.Exchange

def furnish (e : Exchange) (c : ChannelId) (p : PairId) (d : Destination) (codec : FormatMask) :
    Exchange :=
  e.modifyChannel c fun x =>
    { x with formats := .uniform codec, location := ⟨d.context, d.exten, 1⟩, slot := .pair p }

def install (e : Exchange) (d : Destination) (requested : FormatMask) (owner chan : ChannelId) :
    PairId × Exchange :=
  let p : PairId := ⟨e.pairs.next⟩
  let codec := requested.best.getD .empty
  let jitterbuffer := { e.config.jitterbuffer with enabled := d.options.jitterbuffer }
  let e := ((e.furnish owner p d codec).furnish chan p d codec).modifyChannel owner
    ({ · with jitterbuffer := some jitterbuffer })
  let (ownerUse, moduleUse) := e.moduleUse.acquire
  let (chanUse, moduleUse) := moduleUse.acquire
  let record : Pair := { destination := d, requested, jitterbuffer, owner, chan, ownerUse, chanUse }
  (p, { e with pairs := e.pairs.push record, moduleUse, registry := e.registry.register p })

/-- The name that the endpoints of a pair have in common. The tag is the number that the owner-side
is going to have. -/
def baseName (e : Exchange) (d : Destination) : String :=
  Technology.proxy.name ++ "/" ++ d.display ++ "-" ++ Text.hexPadded 4 e.channels.next

def endpointRequest (d : Destination) (name : String) : Allocation :=
  { technology := .proxy, name, exten := d.exten, context := d.context }

/-- A pair for a destination. If the second endpoint is refused, the first is given back. -/
def createPair (e : Exchange) (text : String) (format : FormatMask) :
    Except ChannelError PairId × Exchange :=
  match Destination.parse text e.config.defaultContext with
  | .error why => (.error why, e)
  | .ok d =>
    let (_, e) := e.extensionExists d.context d.exten none
    let base := e.baseName d
    match e.allocate (endpointRequest d (base ++ ";1")) with
    | (.error why, e) => (.error (.ofHost why), e)
    | (.ok owner, e) =>
      match e.allocate (endpointRequest d (base ++ ";2")) with
      | (.error why, e) => (.error (.ofHost why), e.release owner)
      | (.ok chan, e) =>
        let (p, e) := e.install d format owner chan
        (.ok p, e)

def deviceState (e : Exchange) (device : String) : DeviceState × Exchange :=
  match Destination.parseDevice device with
  | none => (.invalid, e)
  | some (exten, context) =>
    let (found, e) := e.extensionExists context exten none
    (if !found then .invalid else if e.ownerActive exten context then .inUse else .notInUse, e)

def handProfile (config : Config) (owner chan : CallProfile) : CallProfile :=
  { owner with
    application :=
      if owner.application.any (Text.sameLetters · config.queueApplication) then owner.application
      else chan.application }

def handOver (e : Exchange) (owner chan : ChannelId) : Exchange :=
  let giver := e.channel owner
  let kept := giver.vars.filter fun (name, value) =>
    !e.config.inheritFilter.any (·.catches name value)
  let e := e.modifyChannel chan fun x =>
    { x with
      caller := giver.caller
      profile := handProfile e.config giver.profile x.profile
      answeredElsewhere := x.answeredElsewhere || giver.answeredElsewhere
      vars := x.vars ++ kept }
  e.inheritDatastores owner chan

def launch (e : Exchange) (c : ChannelId) : Except ChannelError Unit × Exchange :=
  match e.membership c with
  | some (p, .owner) =>
    let record := e.pair p
    match record.chan with
    | none => (.error (.endpointGone (e.channel c).name), e)
    | some chan =>
      let caller := e.channel c
      if !caller.state.canPlaceCall then (.error (.stateViolation caller.name caller.state), e)
      else
        let d := record.destination
        let (found, e) := (e.handOver c chan).extensionExists d.context d.exten caller.caller.num
        if !found then (.error (.extensionUnreachable d.exten d.context), e)
        else
          match e.startDialplan chan with
          | (.error _, e) => (.error (.dialplanFailed (e.channel chan).name), e)
          | (.ok _, e) => (.ok (), e.modifyPair p ({ · with phase := .dialplanLaunched }))
  | _ => (.error (e.notLocal c), e)

end Switchboard.Exchange
