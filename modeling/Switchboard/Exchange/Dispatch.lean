import Switchboard.Exchange.Launch
import Switchboard.Exchange.Masquerade
import Switchboard.Exchange.Teardown

namespace Switchboard.Exchange

def relayFrom (e : Exchange) (c : ChannelId) (frame : Frame) : Turn :=
  match e.membership c with
  | none => e.refused (e.notLocal c)
  | some (p, side) =>
    let (e, tasks) := e.relay p side frame (some c) true
    (e, tasks ++ [.settle .done])

def answer (e : Exchange) (c : ChannelId) : Turn :=
  match e.membership c with
  | none => e.refused (e.notLocal c)
  | some (_, .owner) => e.settled .done
  | some (_, .chan) => e.relayFrom c (.bare .answer)

def musicclassOf (data : Bytes) : Option String :=
  (String.fromUTF8? ⟨data.toArray⟩).filter (· ≠ "")

def startMusic (e : Exchange) (c : ChannelId) (musicclass : Option String) : Exchange :=
  e.modifyChannel c ({ · with music := .playing musicclass })

def stopMusic (e : Exchange) (c : ChannelId) : Exchange :=
  e.modifyChannel c ({ · with music := .silent })

def indicate (e : Exchange) (c : ChannelId) (kind : ControlKind) (data : Bytes) : Turn :=
  match e.recordOf c with
  | none => e.refused (e.notLocal c)
  | some p =>
    if (e.pair p).destination.options.mohPassthru then e.relayFrom c (.control kind data)
    else
      match kind with
      | .hold => (e.startMusic c (musicclassOf data)).settled .done
      | .unhold => (e.stopMusic c).settled .done
      | _ => e.relayFrom c (.control kind data)

def signal (e : Exchange) (c : ChannelId) : Signal → Turn
  | .call _ _ =>
    match e.launch c with
    | (.ok _, e) => e.settled .done
    | (.error why, e) => e.refused why
  | .hangup => e.teardown c
  | .answer => e.answer c
  | .write frame => e.writeFrame c frame
  | .indicate kind data => e.indicate c kind data
  | .beginDigit digit => e.relayFrom c (.digitBegin digit)
  | .endDigit digit milliseconds => e.relayFrom c (.digitEnd digit milliseconds)
  | .sendText text => e.relayFrom c (.text text)
  | .sendHtml subclass data => e.relayFrom c (.html subclass data)

/-- The driver is told something with the channel locked. A lock that is held elsewhere is waited
for. -/
def dispatch (e : Exchange) (c : ChannelId) (s : Signal) : Turn :=
  if e.isDriven c then
    match e.lock? c with
    | none => (e, [.dispatch c s])
    | some e =>
      let (e, tasks) := e.signal c s
      (e, tasks ++ [.unlock c])
  else e.refused (e.notLocal c)

/-- A channel is hung up once; its driver hears of it, and then it is listed no more. -/
def hangup (e : Exchange) (c : ChannelId) : Turn :=
  if (e.channel c).hungup then e.settled .done
  else
    let e := e.modifyChannel c ({ · with hungup := true })
    (e, [if e.isDriven c then .dispatch c .hangup else .settle .done, .delist c])

def send (e : Exchange) (c : ChannelId) : Signal → Turn
  | .hangup => (e, [.hangup c])
  | .answer => (e, [.dispatch c .answer, .raise c])
  | .write frame =>
    if (e.channel c).zombie then e.settled .done
    else if e.isDriven c then (e, [.dispatch c (.write frame)])
    else (e.modifyChannel c fun x => { x with written := x.written ++ [frame] }).settled .done
  | s => (e, [.dispatch c s])

def resume (e : Exchange) : Task → Turn
  | .dispatch c s => e.dispatch c s
  | .hangup c => e.hangup c
  | .delist c => (e.delist c, [])
  | .unlock c => (e.unlock c, [])
  | .retry a => e.retry a
  | .write p c frame third => e.writeKnowing p c frame third
  | .complete survivor => e.complete survivor
  | .takeOver survivor clone => e.takeOver survivor clone
  | _ => (e, [])

end Switchboard.Exchange
