import GraphIngest.Rules.Context

/-!
# What node and relationship rules build

Node rules build their nodes in order; each node is also handed on as a supply under its rule's
id. Relationship rules resolve the start endpoint, then the end endpoint: an endpoint naming a
node rule builds that node again and looks it up in the store through its merge label and key.
When either side found nothing the rule is skipped if it is optional, and otherwise fails naming
that side. Every start is joined with every end, start by start.
-/

namespace GraphIngest

namespace RuleM

def nodeRules (rules : List NodeRule) : RuleM Fragment :=
  rules.foldlM (fun out rule => do
    let h ← freshHandle
    let node ← ofExcept (rule.build h (← record))
    supply rule.id (Fragment.ofNode node)
    return out.pushNode node) Fragment.empty

/-- The nodes an endpoint stands for; `nodes` are the node rules of the record type. -/
def resolve (nodes : List NodeRule) (e : Endpoint) : RuleM (List Node) :=
  match e with
  | .node id =>
    match nodes.find? (·.id == id) with
    | none => fault (.compile s!"unknown node rule '{id}'")
    | some rule => do
      let built ← ofExcept (rule.build (← freshHandle) (← record))
      match built.mergeKey with
      | none => fault (.compile s!"node rule '{id}' has no primary key")
      | some (k, v) => lookup [built.mergeLabel.getD ""] (Props.empty.insert k v)
  | .lookup labels conditions => do
    lookup labels (← ofExcept (evaluateConditions conditions (← record)))

def joinAll (rule : RelRule) (props : Props) (starts ends : List Node) : List Relationship :=
  let key : Option RelKey := if rule.merge then some .ghost else rule.primaryKey.map .property
  starts.flatMap fun s => ends.map fun t =>
    { Relationship.new s rule.relType t with properties := props, key }

/-- Applies relationship rules to the record; `nodes` are the node rules of the record type. -/
def relRules (rules : List RelRule) (nodes : List NodeRule) : RuleM Fragment :=
  rules.foldlM (fun out rule => do
    let starts ← resolve nodes rule.source
    let ends ← resolve nodes rule.target
    if starts.isEmpty || ends.isEmpty then
      if rule.optional then return out
      else
        let missing := if starts.isEmpty then rule.source else rule.target
        fault (.noMatch (missing.describe (← record)))
    else
      let props ← ofExcept (evaluateAll rule.properties (← record))
      return (joinAll rule props starts ends).foldl Fragment.pushRel out) Fragment.empty

end RuleM

end GraphIngest
