import GraphIngest.Convert.Parcel
import GraphIngest.Convert.Config
import GraphIngest.Source.Stream

/-!
# Batches

Workers take records in numbered batches. A batcher cuts the items of a source pass into batches
of the size asked for; a fault among the items ends the pass there, and the records taken into
the unfinished batch are lost. A batcher may keep the batches handed back after processing, by
number, to replay them later in order, one per request whatever size is asked for.
-/

namespace GraphIngest

/-- The records of a batch, as they are or sealed. -/
inductive Payload where
  | records (rs : List Record)
  | sealed (bytes : String)
  deriving Inhabited

/-- A numbered batch of records. -/
structure Batch where
  index : Nat
  len : Nat
  payload : Payload
  deriving Inhabited

namespace Batch

/-- A batch of records, sealed in isolated mode. -/
def make (index : Nat) (rs : List Record) (mode : WorkerMode) : Batch :=
  { index, len := rs.length,
    payload := match mode with
      | .shared => .records rs
      | .isolated => .sealed (Parcel.sealRecords rs) }

def isSealed (b : Batch) : Bool :=
  match b.payload with
  | .sealed _ => true
  | .records _ => false

def records (b : Batch) : Except ConvertError (List Record) :=
  match b.payload with
  | .records rs => .ok rs
  | .sealed bytes => Parcel.openRecords bytes

end Batch

/-- Where a batcher takes its batches from. -/
inductive Feed where
  | stream (items : List Item)
  | replay (batches : List Batch)
  deriving Inhabited

/-- A batcher: its feed, the number of the next batch, whether it has run dry, and the batches
kept for replay. -/
structure Batcher where
  mode : WorkerMode
  retain : Bool
  feed : Feed
  nextIndex : Nat := 0
  exhausted : Bool := false
  kept : List Batch := []
  deriving Inhabited

namespace Batcher

def ofItems (items : List Item) (mode : WorkerMode) (retain : Bool) : Batcher :=
  { mode, retain, feed := .stream items }

def ofRetained (batches : List Batch) (mode : WorkerMode) : Batcher :=
  { mode, retain := false, feed := .replay batches }

/-- Takes up to `size` records off the items; a fault ends the taking. -/
def takeRecords : Nat → List Item → List Record → Except SourceError (List Record) × List Item
  | 0, items, acc => (.ok acc.reverse, items)
  | _ + 1, [], acc => (.ok acc.reverse, [])
  | n + 1, .ok r :: rest, acc => takeRecords n rest (r :: acc)
  | _ + 1, .error e :: rest, _ => (.error e, rest)

/-- The next batch of up to `size` records (at least one), none when the feed has run dry. -/
def next (b : Batcher) (size : Nat) : Except ConvertError (Option Batch) × Batcher :=
  if b.exhausted then (.ok none, b)
  else match b.feed with
    | .replay batches =>
      match batches with
      | [] => (.ok none, { b with exhausted := true })
      | x :: rest => (.ok (some x), { b with feed := .replay rest, nextIndex := b.nextIndex + 1 })
    | .stream items =>
      match takeRecords (max size 1) items [] with
      | (.error e, rest) => (.error (.source e), { b with feed := .stream rest, exhausted := true })
      | (.ok [], rest) => (.ok none, { b with feed := .stream rest, exhausted := true })
      | (.ok rs, rest) =>
        (.ok (some (Batch.make b.nextIndex rs b.mode)),
          { b with feed := .stream rest, nextIndex := b.nextIndex + 1 })

def dispatched (b : Batcher) : Nat := b.nextIndex

/-- Keeps processed records for replay under their batch number, if this batcher keeps them. -/
def retainProcessed (b : Batcher) (index : Nat) (rs : List Record) : Batcher :=
  if !b.retain then b
  else { b with kept := insert (Batch.make index rs b.mode) b.kept }
where
  /-- Puts a batch among the kept ones by number, replacing one of the same number. -/
  insert (x : Batch) : List Batch → List Batch
    | [] => [x]
    | y :: rest =>
      if x.index < y.index then x :: y :: rest
      else if x.index == y.index then x :: rest
      else y :: insert x rest

/-- The kept batches in order, leaving none kept. -/
def takeRetained (b : Batcher) : List Batch × Batcher := (b.kept, { b with kept := [] })

end Batcher

end GraphIngest
