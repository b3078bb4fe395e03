import GraphIngest.Graph.Fragment

/-!
# Commit buffers

A worker gathers what its rules produced into a commit buffer until it flushes. An element with a
key is merged, everything else is created. Within a bucket a node is kept once per handle, the
first one seen, by a set of the handles kept beside its nodes; relationships are kept as they
come, and attributes are dropped.
-/

namespace GraphIngest

/-- The two ways an element is written: a blind insert or a keyed upsert. -/
inductive Bucket where
  | create
  | merge
  deriving DecidableEq, Repr

namespace Bucket

/-- The bucket of a node: merge exactly when it has a primary key. -/
def ofNode (n : Node) : Bucket := if n.primaryKey.isSome then .merge else .create

/-- The bucket of a relationship: merge exactly when it has a key. -/
def ofRel (r : Relationship) : Bucket := if r.key.isSome then .merge else .create

/-- The name of the bucket. -/
def name : Bucket → String
  | .create => "create"
  | .merge => "merge"

end Bucket

/-- One bucket of a buffer: the fragment it will write, and the set of its nodes' handles by
which a node is kept once. The set is only asked whether it holds a handle, so a list stands for
it. -/
structure Side where
  fragment : Fragment := {}
  handles : List Handle := []
  deriving Inhabited

namespace Side

/-- Keeps a node unless the set holds its handle, adding the handle to the set. -/
def pushNode (s : Side) (n : Node) : Side :=
  if s.handles.contains n.handle then s
  else { fragment := { s.fragment with nodes := s.fragment.nodes ++ [n] }, handles := n.handle :: s.handles }

/-- Keeps a relationship as it comes; the set is not asked. -/
def pushRel (s : Side) (r : Relationship) : Side := { s with fragment := s.fragment.pushRel r }

end Side

/-- A worker's elements not yet committed, split by bucket, with the count of records behind
them. -/
structure CommitBuffer where
  createSide : Side := {}
  mergeSide : Side := {}
  records : Nat := 0
  deriving Inhabited

namespace CommitBuffer

/-- What the buffer would create. -/
def create (b : CommitBuffer) : Fragment := b.createSide.fragment

/-- What the buffer would merge. -/
def merge (b : CommitBuffer) : Fragment := b.mergeSide.fragment

/-- Sorts every element of a fragment into its bucket; attributes are dropped. -/
def add (b : CommitBuffer) (f : Fragment) : CommitBuffer :=
  let b := f.nodes.foldl (fun b n =>
    match Bucket.ofNode n with
    | .create => { b with createSide := b.createSide.pushNode n }
    | .merge => { b with mergeSide := b.mergeSide.pushNode n }) b
  f.rels.foldl (fun b r =>
    match Bucket.ofRel r with
    | .create => { b with createSide := b.createSide.pushRel r }
    | .merge => { b with mergeSide := b.mergeSide.pushRel r }) b

def addRecords (b : CommitBuffer) (n : Nat) : CommitBuffer := { b with records := b.records + n }

/-- The number of buffered elements in both buckets. -/
def size (b : CommitBuffer) : Nat := b.create.size + b.merge.size

def isEmpty (b : CommitBuffer) : Bool := b.size == 0 && b.records == 0

end CommitBuffer

end GraphIngest
