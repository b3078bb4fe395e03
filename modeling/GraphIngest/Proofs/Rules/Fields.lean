import GraphIngest.Proofs.Convert.KeyedPhase

/-! # Rules without code change a record only in its supplies

Node and relationship rules build nodes and relationships out of a record's fields and hand
fragments on as supplies, but never rewrite the record. `KeepsFields` is that property of one
rule action: after it the record, its supplies cleared, is the record it was handed. Beside its
definition it is shown of the primitives and kept by `bind` and by folds; then of the node and
relationship rules, of every chain made of them, in sequence or merged (`Chain.CodeFree`: no rule
written as code, which may set the record to anything), and of the rules of a phase whose chains
are all such. Applying such rules leaves the record, once its supplies are cleared, as it came
(`World.apply_clearSupplies`).
-/

namespace GraphIngest

/-- A chain with no rule written as code anywhere in it. -/
inductive Chain.CodeFree : Chain → Prop
  | empty : Chain.CodeFree .empty
  | nodeRules (rules : List NodeRule) : Chain.CodeFree (.nodeRules rules)
  | relRules (rules : List RelRule) (nodes : List NodeRule) : Chain.CodeFree (.relRules rules nodes)
  | seq {steps : List (Option String × Chain)} : (∀ s ∈ steps, Chain.CodeFree s.2) → Chain.CodeFree (.seq steps)
  | mergeRels {inner : Chain} : Chain.CodeFree inner → Chain.CodeFree (.mergeRels inner)

/-- Every chain the rule set gives the phase `ph` is free of code. -/
def RuleSet.CodeFree (rs : RuleSet) (ph : Phase) : Prop := ∀ e ∈ rs.entries, (e.2.get ph).CodeFree

theorem RuleSet.CodeFree.chainFor {rs : RuleSet} {ph : Phase} (h : rs.CodeFree ph) {t : String} {c : Chain}
    (hc : rs.chainFor? t ph = some c) : c.CodeFree := by
  unfold RuleSet.chainFor? at hc
  obtain ⟨e, he, rfl⟩ := Option.map_eq_some_iff.mp hc
  obtain ⟨l₁, l₂, hl, -⟩ := List.lookup_eq_some_iff.mp he
  exact h (t, e) (by rw [hl]; simp)

namespace RuleM

variable {α β : Type}

/-- Running the action leaves the record as it was but for its supplies. -/
def KeepsFields (act : RuleM α) : Prop :=
  ∀ env s, (act.run env s).2.record.clearSupplies = s.record.clearSupplies

namespace KeepsFields

theorem pure (a : α) : KeepsFields (Pure.pure a : RuleM α) := fun _ _ => rfl

theorem bind {x : RuleM α} {f : α → RuleM β} (hx : KeepsFields x) (hf : ∀ a, KeepsFields (f a)) :
    KeepsFields (x >>= f) := by
  intro env s
  rw [run_bind]
  rcases hr : x.run env s with ⟨r, s'⟩
  have hs' : s'.record.clearSupplies = s.record.clearSupplies := by simpa [hr] using hx env s
  cases r with
  | ok a => exact (hf a env s').trans hs'
  | error e => exact hs'

theorem foldlM {f : β → α → RuleM β} (hf : ∀ b a, KeepsFields (f b a)) :
    ∀ (l : List α) (b : β), KeepsFields (l.foldlM f b)
  | [], b => pure b
  | a :: l, b => bind (hf b a) fun b' => foldlM hf l b'

end KeepsFields

open KeepsFields

theorem keepsFields_record : KeepsFields record := fun _ _ => rfl

theorem keepsFields_read : KeepsFields (MonadReader.read : RuleM RuleEnv) := fun _ _ => rfl

theorem keepsFields_freshHandle : KeepsFields freshHandle := fun _ _ => rfl

theorem keepsFields_fault (e : RuleError) : KeepsFields (fault e : RuleM α) := fun _ _ => rfl

theorem keepsFields_ofExcept (r : Except RuleError α) : KeepsFields (ofExcept r) := by
  cases r with
  | ok a => exact pure a
  | error e => exact keepsFields_fault e

theorem keepsFields_lookup (labels : List String) (conditions : Props) :
    KeepsFields (lookup labels conditions) :=
  bind keepsFields_read fun env => by
    cases env.lookup labels conditions with
    | ok ns => exact pure ns
    | error e => exact keepsFields_fault _

/-- A supply sets the record to itself with one more supply: only its supplies change. -/
theorem keepsFields_supply (id : String) (f : Fragment) : KeepsFields (supply id f) := fun _ _ => rfl

theorem keepsFields_nodeRules (rules : List NodeRule) : KeepsFields (nodeRules rules) :=
  foldlM (fun _ _ => bind keepsFields_freshHandle fun _ => bind keepsFields_record fun _ =>
    bind (keepsFields_ofExcept _) fun _ => bind (keepsFields_supply _ _) fun _ => pure _) _ _

theorem keepsFields_resolve (nodes : List NodeRule) (e : Endpoint) : KeepsFields (resolve nodes e) := by
  unfold resolve
  split
  · split
    · exact keepsFields_fault _
    · refine bind keepsFields_freshHandle fun _ => bind keepsFields_record fun _ =>
        bind (keepsFields_ofExcept _) fun built => ?_
      cases built.mergeKey with
      | none => exact keepsFields_fault _
      | some kv => exact keepsFields_lookup _ _
  · exact bind keepsFields_record fun _ => bind (keepsFields_ofExcept _) fun _ => keepsFields_lookup _ _

theorem keepsFields_relRules (rules : List RelRule) (nodes : List NodeRule) :
    KeepsFields (relRules rules nodes) :=
  foldlM (fun _ rule => bind (keepsFields_resolve _ _) fun starts =>
    bind (keepsFields_resolve _ _) fun ends => by
      split
      · split
        · exact pure _
        · exact bind keepsFields_record fun _ => keepsFields_fault _
      · exact bind keepsFields_record fun _ => bind (keepsFields_ofExcept _) fun _ => pure _) _ _

/-- A sequence of chains that keep the fields keeps them, named steps handing on supplies. -/
theorem keepsFields_sequence : ∀ (steps : List (Option String × Chain)),
    (∀ s ∈ steps, KeepsFields (chain s.2)) → ∀ out, KeepsFields (sequence steps out)
  | [], _, out => pure out
  | (name, c) :: rest, h, _ =>
    have hrest : ∀ s ∈ rest, KeepsFields (chain s.2) := fun s hs => h s (List.mem_cons_of_mem _ hs)
    bind (h (name, c) List.mem_cons_self) fun _ => by
      cases name with
      | some id => exact bind (keepsFields_supply id _) fun _ => keepsFields_sequence rest hrest _
      | none => exact keepsFields_sequence rest hrest _

/-- Chains free of code keep the fields; the induction follows the chain, a sequence through its steps. -/
theorem keepsFields_chain {c : Chain} (h : c.CodeFree) : KeepsFields (chain c) := by
  induction h with
  | empty => exact pure _
  | nodeRules rules => exact keepsFields_nodeRules rules
  | relRules rules nodes => exact keepsFields_relRules rules nodes
  | seq _ ih => exact keepsFields_sequence _ ih _
  | mergeRels _ ih => exact bind ih fun _ => pure _

/-- The rules a rule set gives a phase free of code keep the fields of the record they run on. -/
theorem keepsFields_ruleSet {rs : RuleSet} {ph : Phase} (h : rs.CodeFree ph) (env : RuleEnv) (henv : env.phase = ph)
    (s : RuleState) : ((ruleSet rs).run env s).2.record.clearSupplies = s.record.clearSupplies := by
  rw [run_ruleSet]
  rcases hc : rs.chainFor? s.record.recordType env.phase with _ | c
  · rfl
  · exact keepsFields_chain (h.chainFor (henv ▸ hc)) env s

end RuleM

/-- Rules free of code hand back the record they were applied to, but for its supplies. -/
theorem World.apply_clearSupplies {σ : Type} [GraphStore σ] (w : World σ) {rules : RuleSet} {phase : Phase}
    (h : rules.CodeFree phase) (rec : Record) : (w.apply rules phase rec).2.2.clearSupplies = rec.clearSupplies :=
  RuleM.keepsFields_ruleSet h _ rfl _

end GraphIngest
