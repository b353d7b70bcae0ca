import Switchboard.Exchange
import Switchboard.Json.Printer

namespace Switchboard

structure Snapshot where
  id : String
  owner : Option String
  chan : Option String
  exten : String
  context : String
  options : Options
  phase : Phase
  glare : Glare
  createdAt : String
deriving DecidableEq, Inhabited

def Options.toJson (o : Options) : Json :=
  .record [("no_optimization", .bool o.noOptimization), ("jitterbuffer", .bool o.jitterbuffer),
    ("bridge_report", .bool o.bridgeReport), ("moh_passthru", .bool o.mohPassthru)]

def Phase.name : Phase → String
  | fresh => "fresh"
  | dialplanLaunched => "dialplan_launched"
  | optimized => "optimized"
  | torn => "torn"

def Glare.toJson : Glare → Json
  | idle => .str "none"
  | detected relays => .record [("detected", .record [("relays", .nat relays)])]
  | cancelled relays => .record [("cancelled", .record [("relays", .nat relays)])]

namespace Snapshot

def summary (s : Snapshot) : String :=
  s.owner.getD "<unowned>" ++ " -- " ++ s.exten ++ "@" ++ s.context

def toJson (s : Snapshot) : Json :=
  .record [("id", .str s.id), ("owner", .optional s.owner), ("chan", .optional s.chan),
    ("exten", .str s.exten), ("context", .str s.context), ("options", s.options.toJson),
    ("phase", .str s.phase.name), ("glare", s.glare.toJson), ("created_at", .str s.createdAt)]

def writeAll (snapshots : List Snapshot) : String := Json.write (.array (snapshots.map toJson))

end Snapshot

namespace Exchange

/-- A pair as it stands. It goes by its number, and `T` stands for the time of its making, since an
exchange has no clock. -/
def snapshot (e : Exchange) (p : PairId) : Snapshot :=
  let record := e.pair p
  { id := "#" ++ toString p.number
    owner := record.owner.map fun c => (e.channel c).name
    chan := record.chan.map fun c => (e.channel c).name
    exten := record.destination.exten
    context := record.destination.context
    options := record.destination.options
    phase := record.phase
    glare := record.glare
    createdAt := "T" }

def snapshots (e : Exchange) : List Snapshot := e.registry.pairs.map e.snapshot

def showChannels (e : Exchange) : String :=
  match e.snapshots with
  | [] => "No local channels in use\n"
  | all => String.join (all.map fun s => s.summary ++ "\n")

end Exchange
end Switchboard
