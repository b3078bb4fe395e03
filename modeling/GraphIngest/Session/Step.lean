import GraphIngest.Session.Dump
import GraphIngest.Report.Run

/-!
# Sessions

A session is a converter set up over a store, a source and shared state, driven step by step:
runs, cancelling, direct writes to the store (through the same fault plan as the converter's),
lookups and counts, applying the rules to one record, and looking at the settings, the shared
state and the store. Answers use identities only when the run order is fixed: one worker (or
serializing) without the controller.
-/

namespace GraphIngest

/-- What a session is set up from. -/
structure Setup where
  rules : RuleSet
  named : List String
  config : Config
  source : Source
  store : StoreKind
  plan : FaultPlan := {}
  counters : List String := []
  /-- The serial number of the first handle minted for a new node. -/
  minted : Nat := 0

/-- One step of a session. -/
inductive Step where
  /-- Runs the converter. -/
  | run (o : RunOptions)
  /-- Trips the cancellation token. -/
  | cancel
  /-- Clears the cancellation token. -/
  | reset
  /-- Writes a fragment to the store. -/
  | write (k : WriteKind) (f : Fragment)
  /-- Looks nodes up by labels and property values. -/
  | find (labels : List String) (conditions : Props)
  /-- Counts nodes (of a label) and relationships (of a type). -/
  | count (label relType : Option String)
  /-- Applies the rules of a phase to a record, optionally reporting the context after. -/
  | apply (phase : Phase) (record : Record) (context : Bool)
  /-- Reports settings and shared state. -/
  | inspect
  /-- Lists the nodes carrying a label. -/
  | nodesWithLabel (label : String)
  /-- Dumps the store. -/
  | dump
  deriving Inhabited

/-- A session: the converter and its world, the kind of store, the relationship types the
session names, and the names of its counters. -/
structure Session where
  run : Run Store
  store : StoreKind
  named : List String
  counters : List String
  deriving Inhabited

namespace Session

def start (s : Setup) : Session :=
  let global := s.counters.foldl (fun g k => g.set k (.counter 0)) GlobalState.empty
  let global := global.set "cancel" (.token .run)
  let store : Store := match s.store with
    | .memory => .memory Graph.empty
    | _ => .tables TableGraph.fresh
  let world : World Store := { store, plan := s.plan, global, source := s.source, minted := s.minted }
  { run := { conv := { config := s.config, rules := s.rules }, world },
    store := s.store, named := labelSet s.named, counters := s.counters }

def canonical (s : Session) : Bool :=
  let c := s.run.conv.config
  !((c.serialize || c.workers == some 1) && !c.controllerEnabled)

/-- The dump of the store, or the fault of reading it. -/
def dump (s : Session) : Json :=
  match s.run.world.store.view with
  | .ok g => Dump.graph s.store s.canonical s.named g
  | .error e => Report.storageError e

/-- Whether the token under `cancel` is tripped. -/
def cancelled (s : Session) : Json :=
  match s.run.world.global.token? "cancel" with
  | some .run => .bool s.run.world.cancelled
  | some (.own c) => .bool c
  | none => .null

def extend (j : Json) (more : List (String × Json)) : Json :=
  match j with
  | .obj ms => .obj (ms ++ more)
  | j => j

/-- What the progress reports of a run say: calls per phase, the largest count seen, and the
distinct expected totals. -/
def progress (ps : List Progress) : Json :=
  let calls (p : Phase) := ps.filter (·.phase == p) |>.length
  let hints := ps.foldl (fun acc p => if acc.contains p.totalHint then acc else p.totalHint :: acc) []
  let hints := hints.mergeSort fun a b => match a, b with
    | none, _ => true
    | some _, none => false
    | some x, some y => decide (x ≤ y)
  .obj [("node_calls", .num (.nat (calls .node))), ("relationship_calls", .num (.nat (calls .relationship))),
    ("max_seen", optNat ((ps.map (·.seen)).max?)), ("total_hints", .arr (hints.map optNat))]

def runStep (s : Session) (o : RunOptions) : Session × Json :=
  let (r, res) := Run.run { s.run with progress := [] } o
  let s := { s with run := r }
  let c := r.conv
  (s, .obj [("result", match res with
      | .ok summary => .obj [("ok", Report.summary summary)]
      | .error e => Report.convertError e),
    ("state", .str c.state.name), ("completed", .arr (c.completed.map (.str ·.name))),
    ("retained", .bool c.retained.isSome), ("counters", Report.counters c.counters),
    ("progress", progress r.progress.reverse),
    ("writes", if s.canonical then .null else .num (.nat r.world.writes)), ("graph", s.dump)])

def applyStep (s : Session) (phase : Phase) (rec : Record) (context : Bool) : Session × Json :=
  let (w, res, rec') := s.run.world.apply s.run.conv.rules phase rec
  let s := { s with run := { s.run with world := w } }
  let result := match res with
    | .ok f => .obj [("ok", Report.fragment false f)]
    | .error (.rule e) => Report.ruleError e
    | .error (.panic m) => Report.fault "panic" m
  let out := [("result", result), ("has_supplies", Json.bool rec'.hasSupplies)]
  let ctx := if context then
      [("context", Json.obj [("phase", .str phase.name), ("global_keys", .arr (w.global.keys.map .str)),
        ("record", Report.record rec')])]
    else []
  (s, .obj (out ++ ctx))

def inspect (s : Session) : Json :=
  let g := s.run.world.global
  .obj [("config", Report.config s.run.conv.config), ("global_keys", .arr (g.keys.map .str)),
    ("global_len", .num (.nat g.size)), ("global_debug", .str g.debug),
    ("counters", .obj (s.counters.map fun k => (k, optNat (g.counter? k)))),
    ("cancelled", s.cancelled)]

/-- Takes one step. -/
def step (s : Session) : Step → Session × Json
  | .run o => s.runStep o
  | .cancel =>
    let s := { s with run := { s.run with world := { s.run.world with cancelled := true } } }
    (s, .obj [("cancelled", .bool true)])
  | .reset =>
    let s := { s with run := { s.run with world := { s.run.world with cancelled := false } } }
    (s, .obj [("cancelled", .bool false)])
  | .write k f =>
    let (w, res) := s.run.world.write k f
    let s := { s with run := { s.run with world := w } }
    match res with
    | .ok f' => (s, .obj [("ok", Report.fragment true f')])
    | .error e => (s, extend (Report.storageError e) [("fragment", Report.fragment true f)])
  | .find labels conditions =>
    match s.run.world.store.matchNodes labels conditions with
    | .ok nodes => (s, .obj [("ok", Dump.found s.canonical nodes)])
    | .error e => (s, Report.storageError e)
  | .count label relType =>
    let st := s.run.world.store
    match st.nodeCount label, st.relCount relType with
    | .ok n, .ok r => (s, .obj [("nodes", .num (.nat n)), ("relationships", .num (.nat r))])
    | .error e, _ | _, .error e => (s, Report.storageError e)
  | .apply phase rec context => s.applyStep phase rec context
  | .inspect => (s, s.inspect)
  | .nodesWithLabel label =>
    match s.run.world.store.nodesWithLabel label with
    | .ok nodes => (s, .obj [("ok", Dump.found s.canonical nodes)])
    | .error e => (s, Report.storageError e)
  | .dump => (s, s.dump)

/-- Takes steps in order; the answer of each. -/
def steps (s : Session) : List Step → Session × List Json
  | [] => (s, [])
  | st :: rest =>
    let (s, a) := s.step st
    let (s, as) := steps s rest
    (s, a :: as)

end Session

end GraphIngest
