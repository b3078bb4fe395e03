import Mathlib
import GraphIngest.Proofs.Rules.Chains

/-! # What a commit buffer holds

After any calls that add fragments and count records, each side of a commit buffer is the empty
side with every node and then every relationship sent to it pushed (`CommitBuffer.foldl_apply`):
pushes of relationships commute with pushes of nodes, which alone read and grow the handle set.
So each side's set holds exactly its nodes' handles, the side holds, in the order they came, the
first node of each handle sent to it and every relationship sent to it, and the buffer counts
every record it was told of (`CommitBuffer.holds_what_came`). Taking it into a commit leaves the
empty buffer.
-/

namespace GraphIngest

/-- A call on a commit buffer: a fragment added, or records counted. -/
inductive BufferCall where
  | add (f : Fragment)
  | addRecords (n : Nat)

namespace BufferCall

/-- The buffer after the call. -/
def apply (b : CommitBuffer) : BufferCall → CommitBuffer
  | .add f => b.add f
  | .addRecords n => b.addRecords n

/-- The nodes the call brings. -/
def nodes : BufferCall → List Node
  | .add f => f.nodes
  | .addRecords _ => []

/-- The relationships the call brings. -/
def rels : BufferCall → List Relationship
  | .add f => f.rels
  | .addRecords _ => []

/-- The records the call counts. -/
def records : BufferCall → Nat
  | .add _ => 0
  | .addRecords n => n

end BufferCall

open Fragment

namespace Side

/-- The side after nodes and then relationships are pushed onto it. -/
def pushAll (s : Side) (ns : List Node) (rs : List Relationship) : Side :=
  rs.foldl pushRel (ns.foldl pushNode s)

/-- A relationship pushed onto a side neither reads nor changes what a node push reads and
changes, so the two commute. -/
theorem pushNode_pushRel (s : Side) (n : Node) (r : Relationship) :
    (s.pushRel r).pushNode n = (s.pushNode n).pushRel r := by
  by_cases h : n.handle ∈ s.handles
  · rw [pushNode_of_mem h, pushNode_of_mem (by simpa using h)]
  · rw [pushNode_of_not_mem h, pushNode_of_not_mem (by simpa using h)]
    rfl

theorem foldl_pushRel_pushNode (rs : List Relationship) (s : Side) (n : Node) :
    (rs.foldl pushRel s).pushNode n = rs.foldl pushRel (s.pushNode n) := by
  induction rs generalizing s with
  | nil => rfl
  | cons r rs ih => rw [List.foldl_cons, List.foldl_cons, ih, pushNode_pushRel]

theorem foldl_pushNode_foldl_pushRel (ns : List Node) (rs : List Relationship) (s : Side) :
    ns.foldl pushNode (rs.foldl pushRel s) = rs.foldl pushRel (ns.foldl pushNode s) := by
  induction ns generalizing s with
  | nil => rfl
  | cons n ns ih => rw [List.foldl_cons, List.foldl_cons, foldl_pushRel_pushNode, ih]

/-- Pushing in two rounds pushes everything once, the nodes before the relationships. -/
theorem pushAll_pushAll (s : Side) (ns ns' : List Node) (rs rs' : List Relationship) :
    (s.pushAll ns rs).pushAll ns' rs' = s.pushAll (ns ++ ns') (rs ++ rs') := by
  simp only [pushAll, List.foldl_append, foldl_pushNode_foldl_pushRel]

theorem foldl_pushRel (rs : List Relationship) (s : Side) :
    rs.foldl pushRel s = { s with fragment := { s.fragment with rels := s.fragment.rels ++ rs } } := by
  induction rs generalizing s with
  | nil => simp
  | cons r rs ih => simp [ih, Fragment.pushRel]

/-- From an empty side, the nodes kept are the first of each handle, the set holds their handles,
and the relationships are all kept. -/
theorem empty_pushAll (ns : List Node) (rs : List Relationship) :
    ({} : Side).pushAll ns rs =
      { fragment := { nodes := newNodes [] ns, rels := rs },
        handles := (newNodes [] ns).reverse.map (·.handle) } := by
  simp [pushAll, foldl_pushRel, Side.foldl_pushNode]

end Side

namespace CommitBuffer

theorem foldl_putNode_sides (ns : List Node) (b : CommitBuffer) :
    ns.foldl putNode b =
      { b with createSide := (ns.filter (·.primaryKey.isNone)).foldl Side.pushNode b.createSide,
               mergeSide := (ns.filter (·.primaryKey.isSome)).foldl Side.pushNode b.mergeSide } := by
  induction ns generalizing b with
  | nil => rfl
  | cons n ns ih =>
    rw [List.foldl_cons, ih]
    cases hk : n.primaryKey <;> simp [putNode, Bucket.ofNode, hk]

theorem foldl_putRel_sides (rs : List Relationship) (b : CommitBuffer) :
    rs.foldl putRel b =
      { b with createSide := (rs.filter (·.key.isNone)).foldl Side.pushRel b.createSide,
               mergeSide := (rs.filter (·.key.isSome)).foldl Side.pushRel b.mergeSide } := by
  induction rs generalizing b with
  | nil => rfl
  | cons r rs ih =>
    rw [List.foldl_cons, ih]
    cases hk : r.key <;> simp [putRel, Bucket.ofRel, hk]

/-- Adding a fragment pushes, side by side, the nodes and then the relationships its keys send
there. -/
theorem add_sides (b : CommitBuffer) (f : Fragment) :
    (b.add f).createSide =
        b.createSide.pushAll (f.nodes.filter (·.primaryKey.isNone)) (f.rels.filter (·.key.isNone)) ∧
      (b.add f).mergeSide =
        b.mergeSide.pushAll (f.nodes.filter (·.primaryKey.isSome)) (f.rels.filter (·.key.isSome)) ∧
      (b.add f).records = b.records := by
  simp [add_eq, foldl_putRel_sides, foldl_putNode_sides, Side.pushAll]

/-- The buffer after `calls` from empty: each side is the empty side with every node and then
every relationship sent to it pushed, and the records of every call are counted. -/
theorem foldl_apply (calls : List BufferCall) :
    let b := calls.foldl BufferCall.apply {}
    let ns := calls.flatMap BufferCall.nodes
    let rs := calls.flatMap BufferCall.rels
    b.createSide = ({} : Side).pushAll (ns.filter (·.primaryKey.isNone)) (rs.filter (·.key.isNone)) ∧
      b.mergeSide = ({} : Side).pushAll (ns.filter (·.primaryKey.isSome)) (rs.filter (·.key.isSome)) ∧
      b.records = (calls.map BufferCall.records).sum := by
  induction calls using List.reverseRecOn with
  | nil => exact ⟨rfl, rfl, rfl⟩
  | append_singleton calls c ih =>
    obtain ⟨hc, hm, hr⟩ := ih
    simp only [List.foldl_append, List.foldl_cons, List.foldl_nil, List.flatMap_append,
      List.flatMap_singleton, List.filter_append, List.map_append, List.sum_append,
      List.map_singleton, List.sum_singleton]
    cases c with
    | add f =>
      obtain ⟨hc', hm', hr'⟩ := add_sides (calls.foldl BufferCall.apply {}) f
      refine ⟨?_, ?_, ?_⟩
      · rw [BufferCall.apply, hc', hc, Side.pushAll_pushAll]
        rfl
      · rw [BufferCall.apply, hm', hm, Side.pushAll_pushAll]
        rfl
      · rw [BufferCall.apply, hr', hr]
        rfl
    | addRecords n =>
      refine ⟨?_, ?_, ?_⟩
      · simpa [BufferCall.apply, addRecords, BufferCall.nodes, BufferCall.rels] using hc
      · simpa [BufferCall.apply, addRecords, BufferCall.nodes, BufferCall.rels] using hm
      · simp [BufferCall.apply, addRecords, hr, BufferCall.records]

/-- **What a commit buffer holds.** After any calls from empty, each side's set holds exactly the
handles of the side's nodes, and the side holds, in the order they came, the first node of each
handle among the nodes sent to it (those without a key to be created, the others to be merged):
its handles are apart and are all the handles sent to it. It holds every relationship its key
sends it, none dropped or repeated, and no attribute; the buffer counts the records of every
call, and its length is the number of nodes and relationships of both sides. Taking it into a
commit hands over both sides' fragments and the record count and leaves the empty buffer. -/
theorem holds_what_came (calls : List BufferCall) :
    let b := calls.foldl BufferCall.apply {}
    let ns := calls.flatMap BufferCall.nodes
    let rs := calls.flatMap BufferCall.rels
    (∀ x, x ∈ b.createSide.handles ↔ x ∈ b.create.nodes.map (·.handle)) ∧
      (∀ x, x ∈ b.mergeSide.handles ↔ x ∈ b.merge.nodes.map (·.handle)) ∧
      FirstNew [] (ns.filter (·.primaryKey.isNone)) b.create.nodes ∧
      FirstNew [] (ns.filter (·.primaryKey.isSome)) b.merge.nodes ∧
      b.create.rels = rs.filter (·.key.isNone) ∧ b.merge.rels = rs.filter (·.key.isSome) ∧
      b.create.attributes = [] ∧ b.merge.attributes = [] ∧
      b.records = (calls.map BufferCall.records).sum ∧
      b.size =
        b.create.nodes.length + b.create.rels.length + b.merge.nodes.length + b.merge.rels.length ∧
      ∀ (w : Pool.Worker) (last : Bool),
        ({ w with buffer := b }.startCommit last).buffer = {} ∧
        ({ w with buffer := b }.startCommit last).at_.commit? =
          some { create := b.create, merge := b.merge, uncounted := b.records, last } := by
  intro b ns rs
  obtain ⟨hc, hm, hr⟩ := foldl_apply calls
  rw [Side.empty_pushAll] at hc hm
  have hcf : b.create = _ := congrArg Side.fragment hc
  have hmf : b.merge = _ := congrArg Side.fragment hm
  refine ⟨fun x => ?_, fun x => ?_, ?_, ?_, by rw [hcf], by rw [hmf], by rw [hcf], by rw [hmf], hr,
    ?_, fun w last => ⟨rfl, Pool.Commit.first_commit? _⟩⟩
  · rw [hcf, hc]
    simp
  · rw [hmf, hm]
    simp
  · rw [hcf]
    exact firstNew_newNodes [] _
  · rw [hmf]
    exact firstNew_newNodes [] _
  · simp only [size, Fragment.size]
    omega

end CommitBuffer

end GraphIngest
