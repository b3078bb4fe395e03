import GraphIngest.Proofs.Store.Journal
import GraphIngest.Store.Either

/-! # A failed write undoes itself

A session's store changes only through creates and merges (`Store.Reachable`). A write that fails
leaves a database as it was, its transaction dropped, and a memory graph is put back from the
write's log; but a handle the fragment names and that was bound before the write may stay bound
to a node the write created and that was dropped again (`Store.failed_write_restores`). -/

namespace GraphIngest

theorem TableGraph.write_failed {t t' : TableGraph} {w : Fragment → TableWrite Write.Assigned}
    {f : Fragment} {e : StorageError} (h : t.write w f = (t', .error e)) : t' = t := by
  unfold TableGraph.write at h
  split at h
  · simp at h
  · exact (Prod.mk.inj h).1.symm

namespace Store

@[simp] theorem create_memory (g : Graph) (f : Fragment) :
    (Store.memory g).create f = (.memory (g.create f).1, (g.create f).2) := rfl

@[simp] theorem create_tables (t : TableGraph) (f : Fragment) :
    (Store.tables t).create f = (.tables (t.create f).1, (t.create f).2) := rfl

@[simp] theorem merge_memory (g : Graph) (f : Fragment) :
    (Store.memory g).merge f = (.memory (g.merge f).1, (g.merge f).2) := rfl

@[simp] theorem merge_tables (t : TableGraph) (f : Fragment) :
    (Store.tables t).merge f = (.tables (t.merge f).1, (t.merge f).2) := rfl

/-- The stores a session reaches: an empty graph in memory or a database as it is opened, then
any creates and merges, whether they fail or not. -/
inductive Reachable : Store → Prop
  | memory : Reachable (.memory Graph.empty)
  | tables (t : TableGraph) : Reachable (.tables t)
  | create {s : Store} (f : Fragment) : Reachable s → Reachable (s.create f).1
  | merge {s : Store} (f : Fragment) : Reachable s → Reachable (s.merge f).1

/-- A memory store's graph is well formed; a database is taken as it is. -/
def Sane : Store → Prop
  | .memory g => g.Sane
  | .tables _ => True

theorem Sane.create {s : Store} (hs : s.Sane) (f : Fragment) : (s.create f).1.Sane := by
  cases s with
  | memory g => exact Graph.create_sane hs f
  | tables t => trivial

theorem Sane.merge {s : Store} (hs : s.Sane) (f : Fragment) : (s.merge f).1.Sane := by
  cases s with
  | memory g => exact Graph.merge_sane hs f
  | tables t => trivial

theorem Reachable.sane {s : Store} (h : s.Reachable) : s.Sane := by
  induction h with
  | memory => exact Graph.sane_empty
  | tables t => trivial
  | create f _ ih => exact ih.create f
  | merge f _ ih => exact ih.merge f

/-- What a failed write leaves of the store `s` it was given, the write naming the handles `hs`:
a memory graph restored but for rebindings of those handles, a database as it was. -/
def UndoneBut : Store → Store → List Handle → Prop
  | .memory g', .memory g, hs => g'.RestoredBut g hs
  | .tables t', .tables t, _ => t' = t
  | _, _, _ => False

variable {f : Fragment} {s' : Store} {e : StorageError}

theorem create_failed {s : Store} (hs : s.Sane) (h : s.create f = (s', .error e)) :
    s'.UndoneBut s f.handles := by
  cases s with
  | memory g =>
    rcases hc : g.create f with ⟨g', r⟩
    rw [create_memory, hc] at h
    obtain ⟨rfl, rfl⟩ := Prod.mk.inj h
    exact Graph.create_restores hs hc
  | tables t =>
    rcases hc : t.create f with ⟨t', r⟩
    rw [create_tables, hc] at h
    obtain ⟨rfl, rfl⟩ := Prod.mk.inj h
    exact TableGraph.write_failed hc

theorem merge_failed {s : Store} (hs : s.Sane) (h : s.merge f = (s', .error e)) :
    s'.UndoneBut s f.handles := by
  cases s with
  | memory g =>
    rcases hc : g.merge f with ⟨g', r⟩
    rw [merge_memory, hc] at h
    obtain ⟨rfl, rfl⟩ := Prod.mk.inj h
    exact Graph.merge_restores hs hc
  | tables t =>
    rcases hc : t.merge f with ⟨t', r⟩
    rw [merge_tables, hc] at h
    obtain ⟨rfl, rfl⟩ := Prod.mk.inj h
    exact TableGraph.write_failed hc

/-- **A failed write undoes itself**, in a store of either kind reached by any creates and
merges: afterwards the store holds the same nodes, relationships, identity counters and bound
handles as before, and binds every handle the fragment does not name to the same node. -/
theorem failed_write_restores {s : Store} (hs : s.Reachable)
    (h : s.create f = (s', .error e) ∨ s.merge f = (s', .error e)) : s'.UndoneBut s f.handles := by
  rcases h with h | h
  · exact create_failed hs.sane h
  · exact merge_failed hs.sane h

/-- A node under handle 1 is created; a second create names handle 1 again and then fails on a
relationship to a missing node. The node it made is dropped and the counter reset, but handle 1
stays bound to that node's identity 2. -/
theorem failed_create_keeps_rebinding :
    let f₁ : Fragment := { nodes := [{ handle := ⟨1⟩, labels := ["P"] }] }
    let f₂ : Fragment :=
      { nodes := [{ handle := ⟨1⟩, labels := ["Q"] }]
        rels := [{ relType := "T", source := { handle := ⟨9⟩, identity := some 99 },
                   target := { handle := ⟨9⟩, identity := some 99 } }] }
    let s := ((Store.memory Graph.empty).create f₁).1
    let g' : Graph :=
      { nodes := [(1, { handle := ⟨1⟩, labels := ["P"], props := {} })]
        handles := [(⟨1⟩, 2)]
        lastNode := 1 }
    s.Reachable ∧ s.create f₂ = (.memory g', .error (.missingEndpoint "() (identity 99)")) ∧
      (Store.memory g').UndoneBut s f₂.handles := by
  intro f₁ f₂ s g'
  have hs : s.Reachable := .create f₁ .memory
  have h : s.create f₂ = (.memory g', .error (.missingEndpoint "() (identity 99)")) := by rfl
  exact ⟨hs, h, failed_write_restores hs (Or.inl h)⟩

end Store

end GraphIngest
