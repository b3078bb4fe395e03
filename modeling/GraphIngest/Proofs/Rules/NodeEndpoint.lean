import Mathlib
import GraphIngest.Proofs.Store.Journal
import GraphIngest.Rules.Compile
import GraphIngest.Store.Either

/-! # Building nodes and running rules

Facts the rule proofs share: what running rules does one primitive at a time (the lemmas beside
`RuleM.run_bind`), what a checked node rule builds (`NodeRule.build_ok`) and builds again for a
record with the same fields (`NodeRule.build_again`), and what a merge of a keyed node does to the
stored nodes (`Write.mergeNode_cases`).
-/

namespace GraphIngest

/-! ## Matching stored properties -/

@[simp] theorem conditionsMatch_single (ps : Props) (k : String) (v : Value) :
    conditionsMatch ps (Props.empty.insert k v) = propertyMatches ps k v := by
  simp [conditionsMatch, Props.insert, Props.insertEntry, Props.empty]

namespace Write

theorem replaceNode_run (id : Nat) (old updated : StoredNode) (t : Txn) :
    ∃ t', (replaceNode id old updated).run t = .ok () t' ∧
      t'.graph.nodes = setAssoc id updated t.graph.nodes :=
  ⟨_, rfl, rfl⟩

theorem bind_run (h : Handle) (id : Nat) (t : Txn) :
    ∃ t', (bind h id).run t = .ok () t' ∧ t'.graph.nodes = t.graph.nodes :=
  ⟨_, rfl, rfl⟩

/-- What a merge of a keyed node does when it goes through: it writes the node as new when no
stored node matches its merge label and key, and otherwise merges it into the one that does. -/
theorem mergeNode_cases {n : Node} {t t' : Txn} {id : Nat} {k : String} {v : Value}
    (hk : n.mergeKey = some (k, v)) (hm : (mergeNode n).run t = .ok id t') :
    (t.graph.find [n.mergeLabel.getD ""] (Props.empty.insert k v) = [] ∧
      t'.graph.nodes = t.graph.nodes ++ [(id, ⟨n.handle, n.labels, n.properties⟩)]) ∨
    (∃ old, t.graph.find [n.mergeLabel.getD ""] (Props.empty.insert k v) = [(id, old)] ∧
      t'.graph.nodes = setAssoc id
        { old with labels := labelSet (old.labels ++ n.labels), props := old.props.extend n.properties }
        t.graph.nodes) := by
  unfold mergeNode at hm
  simp only [hk] at hm
  rw [run_bind_ok (rfl : graph.run t = .ok t.graph t)] at hm
  split at hm
  next hnone =>
    obtain ⟨t₁, hrun, hnodes, -⟩ := insertNode_run n t
    rw [hrun] at hm
    obtain ⟨rfl, rfl⟩ := EStateM.Result.ok.inj hm
    exact .inl ⟨hnone, hnodes⟩
  next id₀ old hone =>
    obtain ⟨t₁, hrep, hnodes₁⟩ := replaceNode_run id₀ old
      { old with labels := labelSet (old.labels ++ n.labels), props := old.props.extend n.properties } t
    obtain ⟨t₂, hbind, hnodes₂⟩ := bind_run n.handle id₀ t₁
    rw [run_bind_ok hrep, run_bind_ok hbind] at hm
    obtain ⟨rfl, rfl⟩ := EStateM.Result.ok.inj hm
    exact .inr ⟨old, hone, hnodes₂.trans hnodes₁⟩
  next =>
    -- several stored nodes match: the merge fails with a conflict
    cases hm

end Write

/-! ## Building a node again -/

theorem evaluateAll_of_fields {specs : List (String × ValueSpec)} {r r' : Record}
    (h : r'.fields = r.fields) : evaluateAll specs r' = evaluateAll specs r := by
  simp only [evaluateAll, ValueSpec.evaluate, Record.get?, h]

namespace NodeRule

/-- What a checked rule document guarantees of a node rule: it has a label, and its primary label,
if it names one, is one of its labels. -/
structure Labelled (rule : NodeRule) : Prop where
  labels_ne_nil : rule.labels ≠ []
  primaryLabel_mem : ∀ l, rule.primaryLabel = some l → l ∈ rule.labels

theorem checkNodes_cons {entity : String} {seen : List String} {rule : NodeRule}
    {rest : List NodeRule} (h : RuleDocument.checkNodes entity seen (rule :: rest) = .ok ()) :
    rule.id ∉ seen ∧ rule.Labelled ∧ RuleDocument.checkNodes entity (rule.id :: seen) rest = .ok () := by
  unfold RuleDocument.checkNodes at h
  by_cases hs : seen.contains rule.id
  · rw [if_pos hs] at h
    cases h
  rw [if_neg hs] at h
  by_cases he : rule.labels.isEmpty
  · rw [if_pos he] at h
    cases h
  rw [if_neg he] at h
  have hne : rule.labels ≠ [] := by simpa using he
  refine ⟨by simpa using hs, ?_⟩
  cases hp : rule.primaryLabel with
  | none =>
    simp only [hp] at h
    exact ⟨⟨hne, by simp [hp]⟩, h⟩
  | some l =>
    simp only [hp] at h
    by_cases hl : rule.labels.contains l
    · rw [if_pos hl] at h
      refine ⟨⟨hne, fun l' hl' => ?_⟩, h⟩
      obtain rfl : l = l' := Option.some.inj (hp.symm.trans hl')
      simpa using hl
    · rw [if_neg hl] at h
      cases h

theorem build_ok {rule : NodeRule} {h : Handle} {r : Record} {n : Node} (hb : rule.build h r = .ok n) :
    ∃ ps, evaluateAll rule.properties r = .ok ps ∧
      n = { Node.new h rule.labels with
        properties := ps, primaryKey := rule.primaryKey, primaryLabel := rule.primaryLabel } := by
  unfold build at hb
  cases he : evaluateAll rule.properties r with
  | error e => simp [he, bind, Except.bind] at hb
  | ok ps =>
    simp only [he, bind, Except.bind, pure, Except.pure, Except.ok.injEq] at hb
    exact ⟨ps, rfl, hb.symm⟩

theorem build_again {rule : NodeRule} {h : Handle} {r r' : Record} {n : Node} (h' : Handle)
    (hb : rule.build h r = .ok n) (hf : r'.fields = r.fields) :
    rule.build h' r' = .ok { n with handle := h' } := by
  obtain ⟨ps, hps, rfl⟩ := build_ok hb
  simp [build, evaluateAll_of_fields hf, hps, bind, Except.bind, pure, Except.pure, Node.new]

end NodeRule

namespace RuleM

section Run

variable {α β : Type} (env : RuleEnv) (s : RuleState)

@[simp] theorem run_freshHandle :
    freshHandle.run env s = (.ok (Handle.minted s.minted), { s with minted := s.minted + 1 }) := rfl

@[simp] theorem run_record : record.run env s = (.ok s.record, s) := rfl

@[simp] theorem run_ofExcept_ok (a : α) : (ofExcept (.ok a)).run env s = (.ok a, s) := rfl

@[simp] theorem run_lookup (labels : List String) (conditions : Props) :
    (lookup labels conditions).run env s =
      (match env.lookup labels conditions with
        | .ok ns => .ok ns
        | .error e => .error (.rule (.store e)), s) := by
  -- the environment is read first, so the store's answer decides the rest
  change RuleM.run (match env.lookup labels conditions with
    | .ok ns => pure ns
    | .error e => fault (.store e)) env s = _
  cases env.lookup labels conditions <;> rfl

end Run

end RuleM

end GraphIngest
