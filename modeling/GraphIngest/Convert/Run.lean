import GraphIngest.Convert.Batcher
import GraphIngest.Convert.Buffer
import GraphIngest.Rules.Chain
import GraphIngest.Store.Either

/-!
# Running a conversion

A conversion runs the node phase over every record of its source, then the relationship phase,
each applying the rule chain of the record's type for that phase. A worker takes records in
batches, passes over those whose type has no rules for the phase (they are still counted), buffers
what the rules build as elements to create and elements to merge, and commits the buffer once it
holds the commit size, and at the end: first the part to create, then the part to merge, each
retried as the retry policy allows.

The relationship phase replays the batches the node phase handed back when there are relationship
rules, and otherwise reads the source again. The store is any `GraphStore`, reached through a
fault plan that can fail chosen writes and trip the cancellation token before them; writes are
numbered from one.
-/

namespace GraphIngest

/-- Writes a store should fail or precede by a cancellation, by number. -/
structure FaultPlan where
  failWrites : List Nat := []
  message : String := "injected"
  cancelAt : List Nat := []
  deriving Inhabited

/-- What a conversion needs of a graph store: the two ways of writing a fragment, the node
lookup, and the source as it reads the store's own database (for a store kept in one). -/
class GraphStore (σ : Type) where
  create : σ → Fragment → σ × Except StorageError Fragment
  merge : σ → Fragment → σ × Except StorageError Fragment
  matchNodes : σ → List String → Props → Except StorageError (List Node)
  readBy : σ → Source → Source

instance : GraphStore TableGraph where
  create := TableGraph.create
  merge := TableGraph.merge
  matchNodes := TableGraph.matchNodes
  readBy t src := src.onDatabase t.db

instance : GraphStore Store where
  create := Store.create
  merge := Store.merge
  matchNodes := Store.matchNodes
  readBy := Store.readBy

variable {σ : Type} [GraphStore σ]

/-- What a conversion acts on: the store and its fault plan with the writes so far, the shared
state, the cancellation token, the handles minted so far, the source, and whether the source is
built on the database the store is kept in. -/
structure World (σ : Type) where
  store : σ
  plan : FaultPlan := {}
  writes : Nat := 0
  global : GlobalState := {}
  cancelled : Bool := false
  minted : Nat := 0
  source : Source
  sharesStore : Bool := false
  deriving Inhabited

/-- How a store write treats uncommitted elements. -/
inductive WriteKind where
  | create
  | merge
  deriving DecidableEq, Inhabited

namespace World

def write (w : World σ) (k : WriteKind) (f : Fragment) : World σ × Except StorageError Fragment :=
  let n := w.writes + 1
  let w := { w with writes := n, cancelled := w.cancelled || w.plan.cancelAt.contains n }
  if w.plan.failWrites.contains n then (w, .error (.transient w.plan.message))
  else
    let (g, r) := match k with
      | .create => GraphStore.create w.store f
      | .merge => GraphStore.merge w.store f
    ({ w with store := g }, r)

/-- Applies the rules of a phase to a record against the store and the shared state: the world
after, the outcome, and the record as the rules left it. -/
def apply (w : World σ) (rules : RuleSet) (phase : Phase) (rec : Record) :
    World σ × Except ApplyError Fragment × Record :=
  let env : RuleEnv := { phase, lookup := GraphStore.matchNodes w.store }
  let st : RuleState := { record := rec, global := w.global, cancelled := w.cancelled, minted := w.minted }
  let (res, st') := RuleM.run (RuleM.ruleSet rules) env st
  ({ w with global := st'.global, cancelled := st'.cancelled, minted := st'.minted }, res, st'.record)

end World

/-- The counts of a run: records committed, nodes and relationships written, and records
processed so far, committed or not. -/
structure Counters where
  resourcesSeen : Nat := 0
  nodesCommitted : Nat := 0
  relsCommitted : Nat := 0
  processed : Nat := 0
  deriving Inhabited, DecidableEq

/-- Adds committed records and elements. -/
def Counters.add (c : Counters) (records nodes rels : Nat) : Counters :=
  { c with resourcesSeen := c.resourcesSeen + records, nodesCommitted := c.nodesCommitted + nodes,
           relsCommitted := c.relsCommitted + rels }

/-- Where a converter stands. -/
inductive RunState where
  | idle
  | nodePhase
  | relationshipPhase
  | done
  | aborted
  deriving DecidableEq, Inhabited

/-- The name of a state. -/
def RunState.name : RunState → String
  | .idle => "idle"
  | .nodePhase => "node_phase"
  | .relationshipPhase => "relationship_phase"
  | .done => "done"
  | .aborted => "aborted"

/-- A report of progress: one more record processed in a phase, how many so far in the run,
and how many the run expects in all, if known. -/
structure Progress where
  phase : Phase
  seen : Nat
  totalHint : Option Nat
  deriving Inhabited

/-- Which phases a run skips. -/
structure RunOptions where
  skipNodes : Bool := false
  skipRelationships : Bool := false
  deriving Inhabited

/-- The outcome of a successful run. -/
structure RunSummary where
  counters : Counters
  phasesRun : List Phase
  deriving Inhabited

/-- A converter: settings, rules, and where it stands. -/
structure Converter where
  config : Config
  rules : RuleSet
  state : RunState := .idle
  completed : List Phase := []
  retained : Option (List Batch) := none
  counters : Counters := {}
  deriving Inhabited

/-- Everything a run changes: the converter, the world, and the progress reports (newest
first). -/
structure Run (σ : Type) where
  conv : Converter
  world : World σ
  progress : List Progress := []
  deriving Inhabited

namespace Run

/-- Tries a write as the retry policy allows: after a failure, a cancellation during the pause
ends the attempts. -/
def retry (policy : RetryPolicy) (phase : Phase) (k : WriteKind) (f : Fragment) :
    Nat → Nat → World σ → World σ × Except ConvertError Unit
  | 0, _, w => (w, .ok ())
  | fuel + 1, attempt, w =>
    let (w, r) := w.write k f
    match r with
    | .ok _ => (w, .ok ())
    | .error e =>
      if attempt ≥ max policy.attempts 1 then (w, .error (.store phase attempt e))
      else if w.cancelled then (w, .error .cancelled)
      else retry policy phase k f fuel (attempt + 1) w

/-- Commits a buffer: the part to create, then the part to merge; the records are counted with
the first part committed. -/
def flush (r : Run σ) (phase : Phase) (b : CommitBuffer) : Run σ × Except ConvertError Unit :=
  let policy := r.conv.config.retry
  let fuel := max policy.attempts 1
  let (r, uncounted, res) :=
    if b.create.isEmpty then (r, b.records, Except.ok ())
    else
      let (w, res) := retry policy phase .create b.create fuel 1 r.world
      match res with
      | .ok _ =>
        let c := r.conv.counters.add b.records b.create.nodes.length b.create.rels.length
        ({ r with world := w, conv := { r.conv with counters := c } }, 0, Except.ok ())
      | .error e => ({ r with world := w }, b.records, .error e)
  match res with
  | .error e => (r, .error e)
  | .ok _ =>
    let (r, res) :=
      if b.merge.isEmpty then (r, Except.ok ())
      else
        let (w, res) := retry policy phase .merge b.merge fuel 1 r.world
        ({ r with world := w }, res)
    match res with
    | .error e => (r, .error e)
    | .ok _ =>
      let c := r.conv.counters.add uncounted b.merge.nodes.length b.merge.rels.length
      ({ r with conv := { r.conv with counters := c } }, .ok ())

/-- How a worker ended: done, stopped by cancellation, failed, or gave up altogether. -/
inductive WorkerEnd where
  | done
  | stopped
  | failed (e : ConvertError)
  | panicked (message : String)
  deriving Inhabited

/-- Applies the rules of a phase to one record: the record after the rules and their fragment,
or how the worker ends. -/
def applyRules (r : Run σ) (phase : Phase) (rec : Record) : Run σ × Except WorkerEnd (Record × Fragment) :=
  let (w, res, rec') := r.world.apply r.conv.rules phase rec
  let r := { r with world := w }
  match res with
  | .ok f => (r, .ok (rec'.clearSupplies, f))
  | .error (.rule e) => (r, .error (.failed (.rule phase rec'.recordType rec'.identity e)))
  | .error (.panic m) => (r, .error (.panicked m))

/-- The state of one worker in a phase: what it has built and not yet committed. -/
structure WorkerState where
  buffer : CommitBuffer := {}

def records (phase : Phase) (mask : List String) (totalHint : Option Nat) :
    List Record → List Record → Run σ → WorkerState → Run σ × WorkerState × Except WorkerEnd (List Record)
  | [], acc, r, ws => (r, ws, .ok acc.reverse)
  | rec :: rest, acc, r, ws =>
    if r.world.cancelled then (r, ws, .error .stopped)
    else
      let step : Run σ × WorkerState × Except WorkerEnd Record :=
        if mask.contains rec.recordType then
          match applyRules r phase rec with
          | (r, .ok (rec', f)) => (r, { ws with buffer := ws.buffer.add f }, .ok rec')
          | (r, .error e) => (r, ws, .error e)
        else (r, ws, .ok rec)
      match step with
      | (r, ws, .ok rec') =>
        let c := r.conv.counters
        let c := { c with processed := c.processed + 1 }
        let r := { r with conv := { r.conv with counters := c },
                          progress := ⟨phase, c.processed, totalHint⟩ :: r.progress }
        records phase mask totalHint rest (rec' :: acc) r ws
      | (r, ws, .error e) => (r, ws, .error e)

/-- The worker loop of a phase; `fuel` bounds the batches. -/
def work (phase : Phase) (mask : List String) (totalHint : Option Nat) (group flushSize : Nat) :
    Nat → Run σ → Batcher → WorkerState → Run σ × Batcher × WorkerEnd
  | 0, r, b, _ => (r, b, .done)
  | fuel + 1, r, b, ws =>
    if r.world.cancelled then (r, b, .stopped)
    else
      match b.next group with
      | (.error e, b) => (r, b, .failed e)
      | (.ok none, b) =>
        if ws.buffer.isEmpty then (r, b, .done)
        else match flush r phase ws.buffer with
          | (r, .ok _) => (r, b, .done)
          | (r, .error e) => (r, b, .failed e)
      | (.ok (some batch), b) =>
        match batch.records with
        | .error e => (r, b, .failed e)
        | .ok rs =>
          match records phase mask totalHint rs [] r ws with
          | (r, _, .error e) => (r, b, e)
          | (r, ws, .ok rs') =>
            let ws := { ws with buffer := ws.buffer.addRecords rs.length }
            let b := b.retainProcessed batch.index rs'
            if ws.buffer.size ≥ flushSize then
              match flush r phase ws.buffer with
              | (r, .ok _) => work phase mask totalHint group flushSize fuel r b {}
              | (r, .error e) => (r, b, .failed e)
            else work phase mask totalHint group flushSize fuel r b ws

end Run

def panicText (message : String) : String :=
  "task \x7bid\x7d panicked with message " ++ JsonDecode.debugText message

namespace Run

/-- Runs one phase over a batcher; on success the batcher after it. -/
def phase (r : Run σ) (p : Phase) (b : Batcher) (totalHint : Option Nat) : Run σ × Except ConvertError Batcher :=
  let c := r.conv.config
  let mask := r.conv.rules.typeMask p
  let flushSize := max c.initialFlushSize 1
  let group := if c.controllerEnabled then flushSize else max c.effectiveBatchSize 1
  let fuel := (match b.feed with
    | .stream items => items.length
    | .replay bs => bs.length) + 2
  let ws : WorkerState := {}
  let (r, b, ending) := work p mask totalHint group flushSize fuel r b ws
  let firstError : Option ConvertError := match ending with
    | .failed e => if e.isCancelled then none else some e
    | .panicked m => some (.worker (panicText m))
    | _ => none
  match firstError with
  | some e => ({ r with conv := { r.conv with state := .aborted } }, .error e)
  | none =>
    if r.world.cancelled then ({ r with conv := { r.conv with state := .aborted } }, .error .cancelled)
    else (r, .ok b)

def complete (r : Run σ) (p : Phase) : Run σ :=
  if r.conv.completed.contains p then r else { r with conv := { r.conv with completed := r.conv.completed ++ [p] } }

def openSource (r : Run σ) : Run σ × Except ConvertError (List Item) :=
  let source := if r.world.sharesStore then GraphStore.readBy r.world.store r.world.source else r.world.source
  let (res, src) := source.openPass
  let r := { r with world := { r.world with source := src } }
  match res with
  | .ok items => (r, .ok items)
  | .error e => ({ r with conv := { r.conv with state := .aborted } }, .error (.source e))

def relationshipPhase (r : Run σ) (totalHint : Option Nat) : Run σ × Except ConvertError Unit :=
  let r := { r with conv := { r.conv with state := .relationshipPhase } }
  let mode := r.conv.config.workerMode
  let (r, batcher) : Run σ × Except ConvertError Batcher := match r.conv.retained with
    | some bs => (r, .ok (Batcher.ofRetained bs mode))
    | none =>
      match openSource r with
      | (r, .ok items) => (r, .ok (Batcher.ofItems items mode false))
      | (r, .error e) => (r, .error e)
  match batcher with
  | .error e => (r, .error e)
  | .ok b =>
    match phase r .relationship b totalHint with
    | (r, .error e) => (r, .error e)
    | (r, .ok _) =>
      let r := { r with conv := { r.conv with retained := none } }
      (complete r .relationship, .ok ())

/-- Runs a conversion. Counters start from zero; a tripped cancellation token refuses the run. -/
def run (r : Run σ) (o : RunOptions) : Run σ × Except ConvertError RunSummary :=
  let r := { r with conv := { r.conv with counters := {} } }
  if r.world.cancelled then ({ r with conv := { r.conv with state := .aborted } }, .error .cancelled)
  else
    let relMask := r.conv.rules.typeMask .relationship
    let phaseCount := (if o.skipNodes then 0 else 1) + (if o.skipRelationships then 0 else 1)
    let totalHint := r.world.source.lenHint.map (· * phaseCount)
    let nodeStep : Run σ × Except ConvertError (List Phase) :=
      if o.skipNodes then (r, .ok [])
      else
        let r := { r with conv := { r.conv with state := .nodePhase, retained := none } }
        let retain := !relMask.isEmpty
        match openSource r with
        | (r, .error e) => (r, .error e)
        | (r, .ok items) =>
          match phase r .node (Batcher.ofItems items r.conv.config.workerMode retain) totalHint with
          | (r, .error e) => (r, .error e)
          | (r, .ok b) =>
            let r := if retain then { r with conv := { r.conv with retained := some b.takeRetained.1 } } else r
            (complete r .node, .ok [.node])
    match nodeStep with
    | (r, .error e) => (r, .error e)
    | (r, .ok ran) =>
      let relStep : Run σ × Except ConvertError (List Phase) :=
        if o.skipRelationships then (r, .ok ran)
        else match relationshipPhase r totalHint with
          | (r, .ok _) => (r, .ok (ran ++ [.relationship]))
          | (r, .error e) => (r, .error e)
      match relStep with
      | (r, .error e) => (r, .error e)
      | (r, .ok ran) =>
        let r := { r with conv := { r.conv with state := .done } }
        (r, .ok { counters := r.conv.counters, phasesRun := ran })

end Run

end GraphIngest
