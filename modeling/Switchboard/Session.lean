import Switchboard.Exchange.Service

namespace Switchboard

structure Report where
  answer : Answer
  pairs : List Pair
  registered : Nat
  inUse : Nat
  listed : Nat
  released : Nat
  queued : List Nat
  /-- The reports of each script that ran meanwhile. -/
  nested : List (List Report)
deriving Inhabited

/-- Reports on the operations of one script: those that are done, and the scripts inside the one
that is not. -/
structure Level where
  finished : List Report := []
  nested : List (List Report) := []
deriving Inhabited

structure Session where
  exchange : Exchange
  answer : Answer := .done
  backOffScripts : List (List Operation) := []
  resolutionScripts : List (List Operation) := []
  level : Level := {}
  outer : List Level := []
  agenda : List Task := []
deriving Inhabited

namespace Exchange

def report (e : Exchange) (answer : Answer) (nested : List (List Report)) : Report where
  answer := answer
  pairs := e.pairs.toList
  registered := e.registry.size
  inUse := e.moduleUse.inUse
  listed := e.listed.length
  released := e.released
  queued := e.channels.toList.map (·.frames.length)
  nested := nested

end Exchange

namespace Session

def tasksOf (ops : List Operation) : List Task := ops.flatMap fun op => [.operate op, .report]

def start (config : Config) (ops : List Operation) : Except Config.Defect Session :=
  (Exchange.start config).map fun e => { exchange := e, agenda := tasksOf ops }

def push (s : Session) (tasks : List Task) : Session := { s with agenda := tasks ++ s.agenda }

def turn (s : Session) (t : Turn) : Session := { s with exchange := t.1 }.push t.2

/-- A script runs before anything else, and is reported on a level of its own. -/
def interrupt (s : Session) (script : List Operation) : Session :=
  { s with outer := s.level :: s.outer, level := {} }.push (tasksOf script ++ [Task.closeScript])

/-- The oldest script laid down for the point, if there is one, interrupts what is going on. -/
def pause (s : Session) : Point → Session
  | .backOff =>
    match s.backOffScripts with
    | [] => s
    | script :: rest => { s with backOffScripts := rest }.interrupt script
  | .resolution =>
    match s.resolutionScripts with
    | [] => s
    | script :: rest => { s with resolutionScripts := rest }.interrupt script

def closeScript (s : Session) : Session :=
  match s.outer with
  | [] => s
  | level :: rest =>
    { s with outer := rest, level := { level with nested := level.nested ++ [s.level.finished] } }

def report (s : Session) : Session :=
  let r := s.exchange.report s.answer s.level.nested
  { s with level := ⟨s.level.finished ++ [r], []⟩ }

def operate (s : Session) (op : Operation) : Session :=
  match s.exchange.missing op with
  | some answer => { s with answer }
  | none =>
    match op with
    | .onBackOff script =>
      { s with backOffScripts := s.backOffScripts ++ [script], answer := .done }
    | .onResolution script =>
      { s with resolutionScripts := s.resolutionScripts ++ [script], answer := .done }
    | op => s.turn (s.exchange.perform op)

def perform (s : Session) : Task → Session
  | .operate op => s.operate op
  | .pause point => s.pause point
  | .settle answer => { s with answer }
  | .raise c => if s.answer = .done then { s with exchange := s.exchange.setState c .up } else s
  | .closeScript => s.closeScript
  | .report => s.report
  | t => s.turn (s.exchange.resume t)

def step (s : Session) : Session :=
  match s.agenda with
  | [] => s
  | t :: rest => { s with agenda := rest }.perform t

def run : Nat → Session → Session
  | 0, s => s
  | fuel + 1, s => if s.agenda.isEmpty then s else run fuel s.step

end Session

mutual

def Operation.weight : Operation → Nat
  | .onBackOff script | .onResolution script => 1 + weightAll script
  | .scriptLocks _ outcomes => 1 + outcomes.length
  | _ => 1

def Operation.weightAll : List Operation → Nat
  | [] => 0
  | op :: rest => op.weight + weightAll rest

end

structure Outcome where
  steps : List Report
  exchange : Exchange
deriving Inhabited

/-- The whole session. Steps are allowed for every operation, every back-off that was laid down, and
the hangups that follow from hangups; only a lock that nobody gives back uses them up. -/
def Session.play (config : Config) (ops : List Operation) : Except Config.Defect Outcome :=
  (Session.start config ops).map fun s =>
    let s := s.run (100 * (Operation.weightAll ops + 1))
    ⟨s.level.finished, s.exchange⟩

end Switchboard
