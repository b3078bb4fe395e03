import GraphIngest.Report.Shape
import GraphIngest.Convert.Run

/-!
# Shapes of conversion answers

The JSON forms of conversion faults, settings, counters and run outcomes. A conversion fault
names its kind within its family, and the kind of the fault it wraps, if any.
-/

namespace GraphIngest

namespace Report

def convertError (e : ConvertError) : Json :=
  let base := [("error", Json.str ("ConvertError::" ++ e.kind)), ("message", .str e.message)]
  match e.sourceKind with
  | some k => .obj (base ++ [("source", .str k)])
  | none => .obj base

/-- Conversion settings, field by field. -/
def config (c : Config) : Json :=
  .obj [("adaptive_flush", .bool c.adaptiveFlush), ("batch_size", .num (.nat c.batchSize)),
    ("flush_size", .num (.nat c.flushSize)),
    ("retry", .obj [("attempts", .num (.nat c.retry.attempts)),
      ("backoff_ms", .num (.nat c.retry.backoffMs))]),
    ("serialize", .bool c.serialize), ("worker_mode", .str c.workerMode.name),
    ("workers", optNat c.workers)]

def counters (c : Counters) : Json :=
  .obj [("resources_seen", .num (.nat c.resourcesSeen)),
    ("nodes_committed", .num (.nat c.nodesCommitted)),
    ("relationships_committed", .num (.nat c.relsCommitted))]

def summary (s : RunSummary) : Json :=
  .obj [("counters", counters s.counters), ("phases_run", .arr (s.phasesRun.map (.str ·.name)))]

end Report

end GraphIngest
