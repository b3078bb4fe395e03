import GraphIngest.Convert.Run

/-!
# The workers of a phase

A phase runs on several workers at once, all taking batches from one batcher and writing to one
store. Each worker looks whether it should stop, takes the next batch, applies the rules to each
record, hands the records back, and commits its buffer once it holds the commit size, and a last
time when the batcher has run dry: the part to create, then the part to merge, pausing after a
failed try; a stop seen during the pause abandons the commit as cancelled.

The orchestrator joins the workers as they end, keeps the first fault that is not a cancellation,
and tells every worker to stop on such a fault or a tripped token. A schedule is a list of moves:
a worker's atomic step, a join, a look at the token, a cancellation or a resize. Every
interleaving of the workers is the play of a schedule.
-/

namespace GraphIngest

open Run (WorkerEnd)

namespace Pool

/-- A commit under way: the part to create, the part to merge, the records not yet counted, and
whether the worker ends after it. -/
structure Commit where
  create : Fragment
  merge : Fragment
  uncounted : Nat
  last : Bool
  deriving Inhabited

namespace Commit

/-- The part of a commit written by a kind of write. -/
def part (c : Commit) : WriteKind → Fragment
  | .create => c.create
  | .merge => c.merge

/-- Whether writing a part holds the merge lock: a merge does, and a create that carries
relationships. -/
def locked (c : Commit) : WriteKind → Bool
  | .create => !c.create.rels.isEmpty
  | .merge => true

def ofBuffer (b : CommitBuffer) (last : Bool) : Commit :=
  { create := b.create, merge := b.merge, uncounted := b.records, last }

end Commit

/-- Where a worker stands in its loop. -/
inductive At where
  /-- At the head of the loop. -/
  | top
  /-- Inside the batch `index`: the records still to process, and those processed (newest first). -/
  | batch (index : Nat) (todo done : List Record)
  /-- About to try a part of a commit for the `attempt`-th time. -/
  | write (c : Commit) (k : WriteKind) (attempt : Nat)
  /-- Pausing after a failed try, before try `attempt`. -/
  | pause (c : Commit) (k : WriteKind) (attempt : Nat)
  /-- Both parts written: about to count the commit. -/
  | close (c : Commit)
  /-- Ended, and not yet joined. -/
  | ended (e : WorkerEnd)
  /-- Joined by the orchestrator. -/
  | joined (e : WorkerEnd)
  deriving Inhabited

/-- A worker: where it stands, what it has built and not committed, and how many batches it has
processed to their end. -/
structure Worker where
  at_ : At := .top
  buffer : CommitBuffer := {}
  batches : Nat := 0
  deriving Inhabited

namespace Commit

/-- Where a commit goes once its create part is written: to its merge part if it has one, else
to its close. -/
def afterCreate (c : Commit) : At := if c.merge.isEmpty then .close c else .write c .merge 1

/-- Where a commit begins: with its create part if it has one. -/
def first (c : Commit) : At := if c.create.isEmpty then c.afterCreate else .write c .create 1

end Commit

namespace Worker

/-- Starts committing the buffer, taking it out. -/
def startCommit (w : Worker) (last : Bool) : Worker :=
  { w with buffer := {}, at_ := (Commit.ofBuffer w.buffer last).first }

/-- Whether the worker holds the merge lock: it is inside a part that takes the lock, past its
first try. -/
def holdsLock (w : Worker) : Bool :=
  match w.at_ with
  | .write c k attempt => c.locked k && 2 ≤ attempt
  | .pause c k _ => c.locked k
  | _ => false

def running (w : Worker) : Bool :=
  match w.at_ with
  | .ended _ | .joined _ => false
  | _ => true

def awaitsJoin (w : Worker) : Bool :=
  match w.at_ with
  | .ended _ => true
  | _ => false

end Worker

/-- One move of a schedule. -/
inductive Move where
  /-- Worker `i` takes its next step. -/
  | step (i : Nat)
  /-- The orchestrator joins worker `i`, if it has ended. -/
  | join (i : Nat)
  /-- The orchestrator sees a tripped cancellation token and tells the workers to stop. -/
  | notice
  /-- The cancellation token is tripped from outside the run. -/
  | cancel
  /-- The controller sets the commit size, on an adaptive run. -/
  | resize (size : Nat)
  deriving Inhabited

end Pool

open Pool in
/-- A phase under way on its workers: the run it is part of, the phase and what it needs of the
settings, the batcher, the stop flag, the workers, and the orchestrator's view: the ends received
in join order, the first fault kept, and whether it has seen the cancellation token tripped. -/
structure Pool (σ : Type) where
  run : Run σ
  phase : Phase
  mask : List String
  totalHint : Option Nat
  adaptive : Bool
  batchSize : Nat
  flushSize : Nat
  batcher : Batcher
  stop : Bool := false
  workers : List Worker
  received : List WorkerEnd := []
  firstError : Option ConvertError := none
  cancelSeen : Bool := false

/-- Counts one processed record and reports progress. -/
def Run.tick {σ : Type} (r : Run σ) (phase : Phase) (totalHint : Option Nat) : Run σ :=
  let c := r.conv.counters
  let c := { c with processed := c.processed + 1 }
  { r with conv := { r.conv with counters := c }, progress := ⟨phase, c.processed, totalHint⟩ :: r.progress }

def Run.countCommitted {σ : Type} (r : Run σ) (records nodes rels : Nat) : Run σ :=
  { r with conv := { r.conv with counters := r.conv.counters.add records nodes rels } }

namespace Pool

variable {σ : Type} [GraphStore σ]

/-- The workers of a phase at its start, each at the head of its loop with nothing buffered. -/
def start (n : Nat) (r : Run σ) (phase : Phase) (b : Batcher) (totalHint : Option Nat) : Pool σ :=
  let c := r.conv.config
  { run := r, phase, mask := r.conv.rules.typeMask phase, totalHint,
    adaptive := c.controllerEnabled, batchSize := max c.effectiveBatchSize 1,
    flushSize := max c.initialFlushSize 1, batcher := b, workers := List.replicate n {} }

section Step
variable (p : Pool σ)

/-- How many records a worker takes at once: the commit size while the controller runs. -/
def groupSize : Nat := if p.adaptive then p.flushSize else p.batchSize

/-- Whether a worker should stop: the phase was told to, or the run was cancelled. -/
def shouldStop : Bool := p.stop || p.run.world.cancelled

def attempts : Nat := max p.run.conv.config.retry.attempts 1

/-- Whether no worker other than `i` holds the merge lock. -/
def lockFree (i : Nat) : Bool := p.workers.zipIdx.all fun (w, j) => j == i || !w.holdsLock

/-- Puts worker `i` in a new state. -/
def setWorker (i : Nat) (w : Worker) : Pool σ := { p with workers := p.workers.set i w }

/-- Ends worker `i`. -/
def finish (i : Nat) (w : Worker) (e : WorkerEnd) : Pool σ := p.setWorker i { w with at_ := .ended e }

/-- The step of worker `i` in state `w`. -/
def workerStep (i : Nat) (w : Worker) : Pool σ :=
  match w.at_ with
  | .top =>
    if p.shouldStop then p.finish i w .stopped
    else
      match p.batcher.next p.groupSize with
      | (.error e, b) => { p with batcher := b }.finish i w (.failed e)
      | (.ok none, b) =>
        { p with batcher := b }.setWorker i
          (if w.buffer.isEmpty then { w with at_ := .ended .done } else w.startCommit true)
      | (.ok (some batch), b) =>
        match batch.records with
        | .error e => { p with batcher := b }.finish i w (.failed e)
        | .ok rs => { p with batcher := b }.setWorker i { w with at_ := .batch batch.index rs [] }
  | .batch index [] done =>
    let w := { w with buffer := w.buffer.addRecords done.length, batches := w.batches + 1 }
    { p with batcher := p.batcher.retainProcessed index done.reverse }.setWorker i
      (if w.buffer.size ≥ p.flushSize then w.startCommit false else { w with at_ := .top })
  | .batch index (rec :: todo) done =>
    if p.shouldStop then p.finish i w .stopped
    else if p.mask.contains rec.recordType then
      match p.run.applyRules p.phase rec with
      | (r, .ok (rec', f)) =>
        { p with run := r.tick p.phase p.totalHint }.setWorker i
          { w with buffer := w.buffer.add f, at_ := .batch index todo (rec' :: done) }
      | (r, .error e) => { p with run := r }.finish i w e
    else { p with run := p.run.tick p.phase p.totalHint }.setWorker i { w with at_ := .batch index todo (rec :: done) }
  | .write c k attempt =>
    -- a part that takes the merge lock waits for it before its first try
    if c.locked k && attempt ≤ 1 && !p.lockFree i then p
    else
      let (world, res) := p.run.world.write k (c.part k)
      let p := { p with run := { p.run with world } }
      match res, k with
      | .ok _, .create =>
        -- the records are counted with the first part written
        { p with run := p.run.countCommitted c.uncounted c.create.nodes.length c.create.rels.length }.setWorker i
          { w with at_ := { c with uncounted := 0 }.afterCreate }
      | .ok _, .merge => p.setWorker i { w with at_ := .close c }
      | .error e, _ =>
        if attempt ≥ p.attempts then p.finish i w (.failed (.store p.phase attempt e))
        else p.setWorker i { w with at_ := .pause c k (attempt + 1) }
  | .pause c k attempt =>
    if p.stop then p.finish i w (.failed .cancelled) else p.setWorker i { w with at_ := .write c k attempt }
  | .close c =>
    { p with run := p.run.countCommitted c.uncounted c.merge.nodes.length c.merge.rels.length }.setWorker i
      { w with at_ := if c.last then .ended .done else .top }
  | .ended _ | .joined _ => p

/-- What the orchestrator does with an end it receives: a fault or a worker that gave up makes it
stop every worker, and the first one that is not a cancellation is kept. -/
def receive (e : WorkerEnd) : Pool σ :=
  let p := { p with received := p.received ++ [e] }
  match e with
  | .done | .stopped => p
  | .failed err =>
    let p := { p with stop := true }
    if err.isCancelled then p
    else match p.firstError with
      | none => { p with firstError := some err }
      | some _ => p
  | .panicked m =>
    let p := { p with stop := true }
    match p.firstError with
    | none => { p with firstError := some (.worker (panicText m)) }
    | some _ => p

/-- The orchestrator joins worker `i` if it has ended. -/
def join (i : Nat) : Pool σ :=
  match p.workers[i]? with
  | some w =>
    match w.at_ with
    | .ended e => (p.setWorker i { w with at_ := .joined e }).receive e
    | _ => p
  | none => p

/-- One move of a schedule. -/
def move : Move → Pool σ
  | .step i =>
    match p.workers[i]? with
    | some w => p.workerStep i w
    | none => p
  | .join i => p.join i
  | .notice => if p.run.world.cancelled && !p.cancelSeen then { p with cancelSeen := true, stop := true } else p
  | .cancel => { p with run := { p.run with world := { p.run.world with cancelled := true } } }
  | .resize size => if p.adaptive then { p with flushSize := max size 1 } else p

/-- Plays a schedule. -/
def play (ms : List Move) : Pool σ := ms.foldl move p

/-- Whether every worker has been joined: the phase is over. -/
def finished : Bool := p.workers.all fun w => !w.running && !w.awaitsJoin

/-- How the phase ends, once over: with the fault kept, else cancelled if the token is tripped,
else normally, with the batcher as it was left. -/
def outcome : Run σ × Except ConvertError Batcher :=
  match p.firstError with
  | some e => ({ p.run with conv := { p.run.conv with state := .aborted } }, .error e)
  | none =>
    if p.run.world.cancelled then ({ p.run with conv := { p.run.conv with state := .aborted } }, .error .cancelled)
    else (p.run, .ok p.batcher)

end Step

end Pool

end GraphIngest
