import GraphIngest.Rules.Document
import GraphIngest.Rules.Chain

/-!
# Checking and compiling rule documents

Before a rule document becomes a rule set, the rules of each record type are checked, types in
sorted order, and the first fault found is reported. A type with node rules gets them as its node
chain, a type with relationship rules gets them as its relationship chain.
-/

namespace GraphIngest

namespace RuleDocument

/-- The first fault among the node rules of a type; `seen` are the ids before. -/
def checkNodes (entity : String) : List String → List NodeRule → Except RuleError Unit
  | _, [] => .ok ()
  | seen, rule :: rest =>
    if seen.contains rule.id then
      .error (.compile s!"{entity}: duplicate node rule id '{rule.id}'")
    else if rule.labels.isEmpty then
      .error (.compile s!"{entity}: node rule '{rule.id}' has no labels")
    else match rule.primaryLabel with
      | some l =>
        if rule.labels.contains l then checkNodes entity (rule.id :: seen) rest
        else .error (.compile
          s!"{entity}: primary label '{l}' of node rule '{rule.id}' is not one of its labels")
      | none => checkNodes entity (rule.id :: seen) rest

/-- The fault of an endpoint of a relationship rule, if any. -/
def checkEndpoint (entity : String) (nodes : List NodeRule) (rel : RelRule) :
    Endpoint → Except RuleError Unit
  | .node id =>
    match nodes.find? (·.id == id) with
    | none => .error (.compile s!"{entity}: relationship '{rel.relType}' refers to unknown node rule '{id}'")
    | some target =>
      if target.primaryKey.isNone then
        .error (.compile s!"{entity}: node rule '{id}' needs a primary_key to be used as an endpoint")
      else .ok ()
  | .lookup labels _ =>
    if labels.isEmpty then
      .error (.compile s!"{entity}: relationship '{rel.relType}' has an endpoint without labels")
    else .ok ()

def checkRels (entity : String) (nodes : List NodeRule) : List RelRule → Except RuleError Unit
  | [] => .ok ()
  | rel :: rest => do
    if rel.merge && rel.primaryKey.isSome then
      throw (.compile s!"{entity}: relationship '{rel.relType}' sets both merge and primary_key")
    checkEndpoint entity nodes rel rel.source
    checkEndpoint entity nodes rel rel.target
    checkRels entity nodes rest

def checkEntity (entity : String) (spec : EntityRules) : Except RuleError Unit := do
  checkNodes entity [] spec.nodes
  checkRels entity spec.nodes spec.relationships

/-- The rule set of a document, or the first fault of its rules. -/
def compile (d : RuleDocument) : Except RuleError RuleSet :=
  d.entities.foldlM (fun rs (entity, spec) => do
    checkEntity entity spec
    let rs := if spec.nodes.isEmpty then rs else rs.insert entity .node (.nodeRules spec.nodes)
    let rs := if spec.relationships.isEmpty then rs
      else rs.insert entity .relationship (.relRules spec.relationships spec.nodes)
    return rs) {}

end RuleDocument

def RuleSet.ofYaml (text : String) : Except RuleError RuleSet := do
  (← RuleDocument.ofYaml text).compile

end GraphIngest
