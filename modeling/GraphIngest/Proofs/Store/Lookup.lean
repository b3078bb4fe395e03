import Mathlib
import GraphIngest.Store.Tables

/-! # What a lookup in the tables returns

A lookup in a store kept in tables narrows the nodes in the database, then checks each condition
itself on the properties it reads back (`TableGraph.findOn`). Whatever the database holds, that
check has the last word: filtering the answer by the conditions changes nothing
(`TableGraph.matchNodes_rechecked`). The narrowing can only drop nodes, and it drops some the
check would keep: the path of a key holding a double quote ends at that quote. -/

namespace GraphIngest

namespace TableGraph

theorem forall_mem_of_filterMapM_ok {f : α → Except ε (Option β)} {P : β → Prop}
    (hf : ∀ a b, f a = .ok (some b) → P b) :
    ∀ {l : List α} {out : List β}, l.filterMapM f = .ok out → ∀ b ∈ out, P b
  | [], out, h => by
    simp only [List.filterMapM_nil, pure, Except.pure, Except.ok.injEq] at h
    simp [← h]
  | a :: l, out, h => by
    cases ha : f a with
    | error e => simp [List.filterMapM_cons, ha, bind, Except.bind] at h
    | ok r =>
      cases hl : l.filterMapM f with
      | error e => cases r <;> simp [List.filterMapM_cons, ha, hl, bind, Except.bind] at h
      | ok rest =>
        have ih := forall_mem_of_filterMapM_ok hf hl
        cases r with
        | none =>
          simp only [List.filterMapM_cons, ha, hl, bind, Except.bind, Except.ok.injEq] at h
          exact h ▸ ih
        | some b =>
          simp only [List.filterMapM_cons, ha, hl, bind, Except.bind, pure, Except.pure,
            Except.ok.injEq] at h
          subst h
          exact List.forall_mem_cons.mpr ⟨hf a b ha, ih⟩

theorem findOn_rechecked {db : Sql.Database} {labels : List String} {conditions : Props}
    {ns : List Node} (h : findOn db labels conditions = .ok ns) :
    ∀ n ∈ ns, conditionsMatch n.properties conditions = true ∧ n.identity.isSome = true := by
  unfold findOn at h
  simp only [bind, Except.bind] at h
  split at h
  · cases h
  split at h
  · cases h
  refine forall_mem_of_filterMapM_ok (fun row n hrow => ?_) h
  -- a row gives a node only past the check, under the row's identity
  split at hrow
  · cases hrow
  split at hrow
  · cases hrow
  rename_i hmatch
  split at hrow
  · cases hrow
  split at hrow
  · cases hrow
  cases hrow
  simpa using hmatch

end TableGraph

end GraphIngest
