import GraphIngest.Proofs.Rules.NodeEndpoint
import GraphIngest.Convert.Run

/-! # Rules only ever trip the cancellation token

A rule can trip the conversion's cancellation token (the `cancel` hook), and nothing a rule does
clears it. `KeepsToken` is that property of one rule action; beside its definition it is shown of
the primitives and kept by `bind` and by folds, and beside the library of procedural rules of
each of them (`RuleM.keepsToken_hook`). Here it follows for the declared rules, for every chain
(`keepsToken_chain`, by recursion on the chain, a rule written as code keeping it by its own law)
and for every rule set. A world to which rules are applied is then never less cancelled than
before (`World.apply_cancelled`).
-/

namespace GraphIngest

namespace RuleM

open KeepsToken

theorem keepsToken_nodeRules (rules : List NodeRule) : KeepsToken (nodeRules rules) :=
  foldlM (fun _ _ => bind keepsToken_freshHandle fun _ => bind keepsToken_record fun _ =>
    bind (keepsToken_ofExcept _) fun _ => bind (keepsToken_supply _ _) fun _ => pure _) _ _

theorem keepsToken_resolve (nodes : List NodeRule) (e : Endpoint) : KeepsToken (resolve nodes e) := by
  unfold resolve
  split
  · split
    · exact keepsToken_fault _
    · refine bind keepsToken_freshHandle fun _ => bind keepsToken_record fun _ =>
        bind (keepsToken_ofExcept _) fun built => ?_
      cases built.mergeKey with
      | none => exact keepsToken_fault _
      | some kv => exact keepsToken_lookup _ _
  · exact bind keepsToken_record fun _ => bind (keepsToken_ofExcept _) fun _ => keepsToken_lookup _ _

theorem keepsToken_relRules (rules : List RelRule) (nodes : List NodeRule) :
    KeepsToken (relRules rules nodes) :=
  foldlM (fun _ rule => bind (keepsToken_resolve _ _) fun starts =>
    bind (keepsToken_resolve _ _) fun ends => by
      split
      · split
        · exact pure _
        · exact bind keepsToken_record fun _ => keepsToken_fault _
      · exact bind keepsToken_record fun _ => bind (keepsToken_ofExcept _) fun _ => pure _) _ _

mutual

theorem keepsToken_chain : ∀ c : Chain, KeepsToken (chain c)
  | .empty => pure _
  | .nodeRules rules => keepsToken_nodeRules rules
  | .relRules rules nodes => keepsToken_relRules rules nodes
  | .fn rule => rule.keepsToken
  | .seq steps => keepsToken_sequence steps _
  | .mergeRels inner => bind (keepsToken_chain inner) fun _ => pure _

theorem keepsToken_sequence : ∀ (steps : List (Option String × Chain)) (out : Fragment),
    KeepsToken (sequence steps out)
  | [], _ => pure _
  | (name, c) :: rest, _ => KeepsToken.bind (keepsToken_chain c) fun _ => by
    cases name with
    | some id => exact KeepsToken.bind (keepsToken_supply id _) fun _ => keepsToken_sequence rest _
    | none => exact keepsToken_sequence rest _

end

theorem keepsToken_ruleSet (rs : RuleSet) : KeepsToken (ruleSet rs) :=
  bind keepsToken_record fun r => bind keepsToken_read fun env => by
    cases rs.chainFor? r.recordType env.phase with
    | some c => exact keepsToken_chain c
    | none => exact pure _

end RuleM

variable {σ : Type} [GraphStore σ]

theorem World.apply_cancelled {w : World σ} (rules : RuleSet) (phase : Phase) (rec : Record)
    (h : w.cancelled = true) : (w.apply rules phase rec).1.cancelled = true :=
  RuleM.keepsToken_ruleSet rules _ _ h

end GraphIngest
