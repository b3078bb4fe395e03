import Mathlib
import GraphIngest.Convert.Buffer

/-! # The sides of a commit buffer

Each side of a buffer keeps beside its nodes the set of their handles, and asks only the set
whether a node is new. A run of pushes keeps, after the handles the set holds, the first node of
each new handle (`Side.foldl_pushNode`): the set plays the part of the handles `newNodes` has
seen. A side whose set is its nodes' handles keeps it so (`Side.Sound`), hence every buffer built
by adding fragments (`CommitBuffer.Sound`); in such a buffer the set answers as a scan of the
nodes would, and a buffer with no element holds nothing but its record count.
-/

namespace GraphIngest

namespace Side

theorem pushNode_of_mem {s : Side} {n : Node} (h : n.handle ∈ s.handles) : s.pushNode n = s := by
  simp [pushNode, h]

theorem pushNode_of_not_mem {s : Side} {n : Node} (h : n.handle ∉ s.handles) :
    s.pushNode n =
      { fragment := { s.fragment with nodes := s.fragment.nodes ++ [n] },
        handles := n.handle :: s.handles } := by
  simp [pushNode, h]

/-- Pushing nodes one by one keeps the nodes `newNodes` picks after the handles of the set, and
adds their handles to it. -/
theorem foldl_pushNode (l : List Node) (s : Side) :
    l.foldl pushNode s =
      { fragment := { s.fragment with nodes := s.fragment.nodes ++ Fragment.newNodes s.handles l },
        handles := (Fragment.newNodes s.handles l).reverse.map (·.handle) ++ s.handles } := by
  induction l generalizing s with
  | nil => simp [Fragment.newNodes]
  | cons n l ih =>
    rw [List.foldl_cons, ih]
    by_cases hn : n.handle ∈ s.handles
    · simp [pushNode_of_mem hn, Fragment.newNodes, hn]
    · rw [pushNode_of_not_mem hn]
      simp [Fragment.newNodes, hn]

theorem mem_pushNode {s : Side} {n x : Node} (h : x ∈ (s.pushNode n).fragment.nodes) :
    x ∈ s.fragment.nodes ∨ x = n := by
  unfold pushNode at h
  split at h
  · exact .inl h
  · simpa using h

@[simp] theorem pushNode_rels (s : Side) (n : Node) : (s.pushNode n).fragment.rels = s.fragment.rels := by
  unfold pushNode
  split <;> rfl

@[simp] theorem pushRel_handles (s : Side) (r : Relationship) : (s.pushRel r).handles = s.handles := rfl

@[simp] theorem pushRel_fragment (s : Side) (r : Relationship) :
    (s.pushRel r).fragment = s.fragment.pushRel r := rfl

/-- A side as its pushes leave it: the set holds exactly the handles of its nodes, and it holds
no attribute. -/
structure Sound (s : Side) : Prop where
  handles : ∀ x, x ∈ s.handles ↔ x ∈ s.fragment.nodes.map (·.handle)
  attributes : s.fragment.attributes = []

theorem sound_empty : ({} : Side).Sound := ⟨by simp, rfl⟩

theorem Sound.foldl_pushNode {s : Side} (h : s.Sound) (l : List Node) : (l.foldl pushNode s).Sound := by
  rw [Side.foldl_pushNode]
  refine ⟨fun x => ?_, h.attributes⟩
  simp only [List.mem_append, List.map_reverse, List.mem_reverse, h.handles x, List.map_append]
  exact or_comm

theorem Sound.pushNode {s : Side} (h : s.Sound) (n : Node) : (s.pushNode n).Sound :=
  h.foldl_pushNode [n]

theorem Sound.pushRel {s : Side} (h : s.Sound) (r : Relationship) : (s.pushRel r).Sound :=
  ⟨h.handles, h.attributes⟩

/-- A side with neither node nor relationship is the empty side: its set follows its nodes. -/
theorem Sound.eq_empty {s : Side} (h : s.Sound) (hn : s.fragment.nodes = [])
    (hr : s.fragment.rels = []) : s = {} := by
  have hh : s.handles = [] := List.eq_nil_iff_forall_not_mem.mpr fun x hx => by
    simpa [hn] using (h.handles x).mp hx
  have ha := h.attributes
  obtain ⟨⟨nodes, rels, attributes⟩, handles⟩ := s
  simp only at hn hr ha hh
  subst hn hr ha hh
  rfl

end Side

namespace CommitBuffer

@[simp] theorem create_mk (c m : Side) (k : Nat) :
    ({ createSide := c, mergeSide := m, records := k } : CommitBuffer).create = c.fragment := rfl

@[simp] theorem merge_mk (c m : Side) (k : Nat) :
    ({ createSide := c, mergeSide := m, records := k } : CommitBuffer).merge = m.fragment := rfl

/-- Sorts one node into its bucket, as `add` does. -/
def putNode (b : CommitBuffer) (n : Node) : CommitBuffer :=
  match Bucket.ofNode n with
  | .create => { b with createSide := b.createSide.pushNode n }
  | .merge => { b with mergeSide := b.mergeSide.pushNode n }

/-- Sorts one relationship into its bucket, as `add` does. -/
def putRel (b : CommitBuffer) (r : Relationship) : CommitBuffer :=
  match Bucket.ofRel r with
  | .create => { b with createSide := b.createSide.pushRel r }
  | .merge => { b with mergeSide := b.mergeSide.pushRel r }

theorem add_eq (b : CommitBuffer) (f : Fragment) :
    b.add f = f.rels.foldl putRel (f.nodes.foldl putNode b) := rfl

/-- Both sides of the buffer are sound. -/
structure Sound (b : CommitBuffer) : Prop where
  create : b.createSide.Sound
  merge : b.mergeSide.Sound

theorem sound_empty : ({} : CommitBuffer).Sound := ⟨Side.sound_empty, Side.sound_empty⟩

theorem Sound.putNode {b : CommitBuffer} (h : b.Sound) (n : Node) : (b.putNode n).Sound := by
  unfold CommitBuffer.putNode
  split
  · exact ⟨h.create.pushNode n, h.merge⟩
  · exact ⟨h.create, h.merge.pushNode n⟩

theorem Sound.putRel {b : CommitBuffer} (h : b.Sound) (r : Relationship) : (b.putRel r).Sound := by
  unfold CommitBuffer.putRel
  split
  · exact ⟨h.create.pushRel r, h.merge⟩
  · exact ⟨h.create, h.merge.pushRel r⟩

theorem Sound.add {b : CommitBuffer} (h : b.Sound) (f : Fragment) : (b.add f).Sound := by
  rw [add_eq]
  exact List.foldlRecOn (motive := Sound) f.rels _
    (List.foldlRecOn (motive := Sound) f.nodes _ h fun b hb n _ => hb.putNode n)
    fun b hb r _ => hb.putRel r

theorem Sound.addRecords {b : CommitBuffer} (h : b.Sound) (k : Nat) : (b.addRecords k).Sound :=
  ⟨h.create, h.merge⟩

theorem foldl_withRecords {α : Type} (g : CommitBuffer → α → CommitBuffer)
    (hg : ∀ b x k, g { b with records := k } x = { g b x with records := k })
    (l : List α) (b : CommitBuffer) (k : Nat) :
    l.foldl g { b with records := k } = { l.foldl g b with records := k } := by
  induction l generalizing b with
  | nil => rfl
  | cons x rest ih => rw [List.foldl_cons, List.foldl_cons, hg, ih]

theorem add_withRecords (b : CommitBuffer) (f : Fragment) (k : Nat) :
    ({ b with records := k } : CommitBuffer).add f = { b.add f with records := k } := by
  unfold add
  rw [foldl_withRecords (l := f.nodes) _ (fun b n k => by cases Bucket.ofNode n <;> rfl),
    foldl_withRecords (l := f.rels) _ (fun b r k => by cases Bucket.ofRel r <;> rfl)]

theorem isEmpty_records (k : Nat) : ({ records := k } : CommitBuffer).isEmpty = (k == 0) := by
  simp [isEmpty, size, create, merge, Fragment.size]

theorem size_eq_zero {b : CommitBuffer} (h : b.size = 0) :
    b.create.nodes = [] ∧ b.create.rels = [] ∧ b.merge.nodes = [] ∧ b.merge.rels = [] := by
  simp only [size, Fragment.size] at h
  simp only [← List.length_eq_zero_iff]
  omega

/-- A sound buffer with no element holds nothing but its record count. -/
theorem eq_of_size_eq_zero {b : CommitBuffer} (hb : b.Sound) (h : b.size = 0) (k : Nat) :
    ({ b with records := k } : CommitBuffer) = { records := k } := by
  obtain ⟨hcn, hcr, hmn, hmr⟩ := size_eq_zero h
  rw [hb.create.eq_empty hcn hcr, hb.merge.eq_empty hmn hmr]

end CommitBuffer

end GraphIngest
