import GraphIngest.Convert.Error
import GraphIngest.Convert.Controller
import GraphIngest.Yaml.Parse
import GraphIngest.Yaml.Decode

/-!
# Conversion settings

How a conversion runs: workers, serializing, batch and commit sizes, the controller, the worker
mode, and the retry policy. Settings are read from YAML in which every field may be left out;
unknown fields are refused. Settings are checked as a whole: serializing with more than one
worker, and a zero worker count, batch size, commit size or number of attempts are refused, in
that order.
-/

namespace GraphIngest

/-- How records reach the workers. -/
inductive WorkerMode where
  | shared
  | isolated
  deriving DecidableEq, Inhabited, Repr

/-- The name of a worker mode. -/
def WorkerMode.name : WorkerMode → String
  | .shared => "shared"
  | .isolated => "isolated"

/-- How often a commit is tried, and the pause in milliseconds between tries. -/
structure RetryPolicy where
  attempts : Nat := 2
  backoffMs : Nat := 10000
  deriving DecidableEq, Inhabited, Repr

/-- The settings of a conversion. -/
structure Config where
  workers : Option Nat := none
  serialize : Bool := false
  batchSize : Nat := 5000
  flushSize : Nat := 1
  adaptiveFlush : Bool := false
  workerMode : WorkerMode := .shared
  retry : RetryPolicy := {}
  deriving DecidableEq, Inhabited, Repr

namespace Config

/-- The default settings. -/
def new : Config := {}

/-- The default settings with everything run in one worker, one record at a time. -/
def serialized : Config := { serialize := true }

/-- The first fault of the settings, if any. -/
def validate (c : Config) : Except ConvertError Unit :=
  if c.serialize && c.workers.any (· > 1) then
    .error (.configuration "serialize cannot be combined with more than one worker")
  else if c.workers == some 0 then .error (.configuration "workers must be at least 1")
  else if c.batchSize == 0 then .error (.configuration "batch_size must be at least 1")
  else if c.flushSize == 0 then .error (.configuration "flush_size must be at least 1")
  else if c.retry.attempts == 0 then .error (.configuration "retry.attempts must be at least 1")
  else .ok ()

def controllerEnabled (c : Config) : Bool := c.adaptiveFlush && !c.serialize && c.batchSize > 1

/-- The worker count, when it does not depend on the host: one when serializing, else the count
asked for, if any. -/
def effectiveWorkers (c : Config) : Option Nat := if c.serialize then some 1 else c.workers

def effectiveBatchSize (c : Config) : Nat := if c.serialize then 1 else c.batchSize

def initialFlushSize (c : Config) : Nat :=
  if c.serialize then 1
  else if c.controllerEnabled then Controller.initialFlush
  else c.flushSize

/-! ## Reading settings from YAML -/

open Yaml Yaml.Dec

def sizeMax : Nat := Nat.pow 2 64 - 1

def retryOf (p : Path) : Dec RetryPolicy :=
  record "RetryPolicy" ["attempts", "backoff_ms"] true p ({} : RetryPolicy)
    (fun r k q => match k with
      | "attempts" => do return { r with attempts := ← natUpTo (Nat.pow 2 32 - 1) "u32" q }
      | _ => do return { r with backoffMs := ← natUpTo sizeMax "u64" q })
    pure

def decode (p : Path) : Dec Config :=
  record "ConverterConfig"
    ["workers", "serialize", "batch_size", "flush_size", "adaptive_flush", "worker_mode", "retry"]
    true p ({} : Config)
    (fun c k q => match k with
      | "workers" => do return { c with workers := ← option (natUpTo sizeMax "usize" q) }
      | "serialize" => do return { c with serialize := ← bool q }
      | "batch_size" => do return { c with batchSize := ← natUpTo sizeMax "usize" q }
      | "flush_size" => do return { c with flushSize := ← natUpTo sizeMax "usize" q }
      | "adaptive_flush" => do return { c with adaptiveFlush := ← bool q }
      | "worker_mode" => do
        let m ← variant ["shared", "isolated"] q
        return { c with workerMode := if m == "isolated" then .isolated else .shared }
      | _ => do return { c with retry := ← retryOf q })
    pure

def ofYaml (text : String) : Except ConvertError Config := do
  match Dec.document (Yaml.read text) (decode .root) with
  | .ok c => c.validate; pure c
  | .error f => throw (.configuration f.message)

end Config

end GraphIngest
