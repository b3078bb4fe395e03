import GraphIngest.Proofs.Convert.Contents
import GraphIngest.Proofs.Rules.NodeEndpoint

/-! # Relationships between committed nodes

A relationship type is created (unkeyed), merged on type and endpoints (ghost-keyed), or merged
also on a property's value (keyed). A relationship fits its type's kind when it joins committed
nodes, carries the key its kind asks for, and has a key value equal to itself
(`Relationship.Fits`). A write of such relationships creates no node, and a create writes an
unkeyed one as a merge would (`Write.insertRel_eq_mergeRel`).
-/

namespace GraphIngest

/-! ## Relationships between two nodes -/

/-- The relationship an element is, if it is one. -/
def Element.rel? : Element → Option Relationship
  | .node _ => none
  | .rel r => some r

/-- A relationship's type and the value of its property `k`. -/
def Relationship.entry (k : String) (r : Relationship) : String × Value :=
  (r.relType, r.properties.keyValue k)

/-! ## What one write of a relationship does -/

/-- A relationship as a phase with kinds `kind` writes it: between committed nodes, keyed as the
kind of its type says, naming each property once, and with a key value that equals itself. -/
structure Relationship.Fits (kind : String → Option RelKey) (r : Relationship) : Prop where
  source : r.source.isCommitted = true
  target : r.target.isCommitted = true
  key : r.key = kind r.relType
  keysNodup : (r.properties.entries.map Prod.fst).Nodup
  keySelf : ∀ k, r.key = some (.property k) → (r.entry k == r.entry k) = true

section Write

variable {kind : String → Option RelKey} {C : List Element} {r : Relationship} {s d : Nat}

theorem Write.resolve_of_identity {n : Node} {id : Nat} (hn : n.identity = some id) {t t' : Txn} {a : Nat}
    (h : (Write.resolve n).run t = .ok a t') : a = id ∧ t' = t := by
  unfold Write.resolve at h
  rw [Write.run_bind_ok (rfl : Write.graph.run t = .ok t.graph t)] at h
  simp only [hn] at h
  split at h
  · cases h
    exact ⟨rfl, rfl⟩
  · cases h

end Write

/-! ## The writes of a relationship phase -/

/-- Elements a relationship phase writes, `kind` giving the kind of each type: relationships that
fit. -/
def RelShapes (kind : String → Option RelKey) (U : List Element) : Prop :=
  ∀ e ∈ U, ∃ r, e = .rel r ∧ r.Fits kind

section Phase

variable {N : List (Nat × StoredNode)} {kind : String → Option RelKey} {U : List Element}

theorem RelShapes.fragment (hU : RelShapes kind U) {C : List Element} {f : Fragment}
    (hf : ∀ e ∈ C ++ f.elements.map Element.shape, e ∈ U) :
    f.fresh = [] ∧ f.elements.map Element.shape = (f.rels.filter (·.identity.isNone)).map .rel ∧
      ∀ r ∈ f.rels, r.identity = none → r.Fits kind := by
  have hfresh : f.fresh = [] := List.eq_nil_iff_forall_not_mem.mpr fun n hn => by
    obtain ⟨r, hr, -⟩ := hU _ (Fragment.shape_mem_of_fresh hf hn)
    cases hr
  refine ⟨hfresh, by simp [Fragment.elements, hfresh, Element.shape], fun r hr hid => ?_⟩
  have hmem : Element.rel r ∈ C ++ f.elements.map Element.shape := by
    refine List.mem_append_right _ (List.mem_map.mpr ⟨.rel r, List.mem_append_right _ ?_, rfl⟩)
    exact List.mem_map_of_mem (List.mem_filter.mpr ⟨hr, by simp [hid]⟩)
  obtain ⟨r', hr', hfit⟩ := hU _ (hf _ hmem)
  cases hr'
  exact hfit

theorem RelShapes.onCommitted {f : Fragment} (hfit : ∀ r ∈ f.rels, r.identity = none → r.Fits kind) :
    ∀ r ∈ f.rels, r.OnCommitted := by
  intro r hr
  cases hid : r.identity with
  | some id => exact .inl (by simp [hid])
  | none => exact .inr ⟨(hfit r hr hid).source, (hfit r hr hid).target⟩

/-- A create writes an unkeyed relationship as a merge would. -/
theorem Write.insertRel_eq_mergeRel {rels : List Relationship} (hkeys : ∀ r ∈ rels, r.key = none) :
    ∀ r ∈ rels, ∀ s d, Write.insertRel r s d = Write.mergeRel r s d := fun r hr s d => by
  simp [Write.mergeRel, hkeys r hr]

theorem Write.create_run_of_fresh_nil {f : Fragment} (hfresh : f.fresh = []) (t : Txn) :
    (Write.create f).run t = (Write.writeRels Write.insertRel f.rels {}).run t := by
  unfold Write.create
  rw [show f.nodes.filter (!·.isCommitted) = [] from hfresh]
  rfl

theorem Write.merge_run_of_fresh_nil {f : Fragment} (hfresh : f.fresh = []) (t : Txn) :
    (Write.merge f).run t = (Write.writeRels Write.mergeRel f.rels {}).run t := by
  unfold Write.merge
  rw [show f.nodes.filter (!·.isCommitted) = [] from hfresh]
  rfl

end Phase

end GraphIngest
