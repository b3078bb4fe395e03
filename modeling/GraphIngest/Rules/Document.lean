import GraphIngest.Rules.Spec
import GraphIngest.Yaml.Parse
import GraphIngest.Yaml.Decode
import GraphIngest.Graph.Serial

/-!
# Reading rule documents

A rule document is YAML (JSON text is read the same way). The document, the rules of a type, node
rules and relationship rules refuse unknown fields. A value specification and an endpoint are each
read as any value first, then tried in two forms, first to last, taking the first that fits
(`{field, as}` before `{value}`, `{node}` before `{labels, where}`); when no form fits, the fault
is placed at the enclosing mapping.
-/

namespace GraphIngest

namespace RuleDocument

open Yaml

/-! ## The forms tried for value specifications and endpoints -/

/-- A conversion target: its name, or a map from its name (or position) to null. -/
def conversionOf? (c : Content) : Option Conversion :=
  (Content.unitVariant? ["int", "float", "string", "bool"] c).bind Conversion.ofName?

/-- A property value, trying null, a boolean, a signed 64-bit integer, a double, a text and a
list of values in turn. -/
def valueOf? : Content → Option Value
  | .nothing => some .null
  | .unit => some .null
  | .bool b => some (.bool b)
  | .nat n => some (if n < Nat.pow 2 63 then .int n else .float (Binary64.ofRatio false n 1))
  | .int i => some (.int i)
  | .float x => some (.float x)
  | .str s => some (.str s)
  | .seq items => (valuesOf? items).map .array
  | .map _ => none
where
  /-- The values of a list of contents, if every one stands for one. -/
  valuesOf? : List Content → Option (List Value)
    | [] => some []
    | c :: rest => do return (← valueOf? c) :: (← valuesOf? rest)

/-- A value specification read from a field, if the content has that form. -/
def fieldForm? (c : Content) : Option ValueSpec := do
  let found ← Content.fields? ["field", "as"] c
  let name ← (found.lookup "field").bind Content.text?
  let conversion ← match found.lookup "as" with
    | none => some none
    | some a => Content.optional conversionOf? a
  return .field name conversion

/-- A fixed value specification, if the content has that form. -/
def constForm? (c : Content) : Option ValueSpec := do
  let found ← Content.fields? ["value"] c
  let v ← found.lookup "value"
  return .const (← valueOf? v)

/-- A value specification, trying both forms. -/
def valueSpecOf? (c : Content) : Option ValueSpec :=
  match fieldForm? c with
  | some v => some v
  | none => constForm? c

/-- An endpoint naming a node rule, if the content has that form. -/
def nodeForm? (c : Content) : Option Endpoint := do
  let found ← Content.fields? ["node"] c
  let name ← (found.lookup "node").bind Content.text?
  return .node name

/-- A lookup endpoint, if the content has that form. -/
def lookupForm? (c : Content) : Option Endpoint := do
  let found ← Content.fields? ["labels", "where"] c
  let items ← (found.lookup "labels").bind Content.items?
  let labels ← items.mapM Content.text?
  let conditions ← match found.lookup "where" with
    | none => some []
    | some w => Content.strMap? valueSpecOf? w
  return .lookup labels conditions

/-- An endpoint, trying both forms. -/
def endpointOf? (c : Content) : Option Endpoint :=
  match nodeForm? c with
  | some v => some v
  | none => lookupForm? c

/-! ## Reading the document -/

open Yaml.Dec JsonDecode

def valueSpec (p : Path) : Dec ValueSpec := do
  match valueSpecOf? (← content p) with
  | some v => pure v
  | none => fail "data did not match any variant of untagged enum ValueSpec"

def endpoint (p : Path) : Dec Endpoint := do
  match endpointOf? (← content p) with
  | some v => pure v
  | none => fail "data did not match any variant of untagged enum EndpointSpec"

def texts (p : Path) : Dec (List String) := seq p string

/-- A node rule being read: its fields as found so far. -/
structure NodeDraft where
  id : Option String := none
  labels : Option (List String) := none
  properties : List (String × ValueSpec) := []
  primaryKey : Option String := none
  primaryLabel : Option String := none

def nodeRule (p : Path) : Dec NodeRule :=
  record "NodeRule" ["id", "labels", "properties", "primary_key", "primary_label"] true p
    ({} : NodeDraft)
    (fun d k q => match k with
      | "id" => do return { d with id := some (← string q) }
      | "labels" => do return { d with labels := some (← texts q) }
      | "properties" => do return { d with properties := ← strMap q valueSpec }
      | "primary_key" => do return { d with primaryKey := ← option (string q) }
      | _ => do return { d with primaryLabel := ← option (string q) })
    (fun d => match d.id, d.labels with
      | none, _ => fail (missingField "id")
      | _, none => fail (missingField "labels")
      | some id, some labels =>
        pure { id, labels, properties := d.properties, primaryKey := d.primaryKey,
               primaryLabel := d.primaryLabel })

/-- A relationship rule being read: its fields as found so far. -/
structure RelDraft where
  relType : Option String := none
  source : Option Endpoint := none
  target : Option Endpoint := none
  properties : List (String × ValueSpec) := []
  primaryKey : Option String := none
  merge : Bool := false
  optional : Bool := false

def relRule (p : Path) : Dec RelRule :=
  record "RelationshipRule" ["type", "from", "to", "properties", "primary_key", "merge", "optional"]
    true p ({} : RelDraft)
    (fun d k q => match k with
      | "type" => do return { d with relType := some (← string q) }
      | "from" => do return { d with source := some (← endpoint q) }
      | "to" => do return { d with target := some (← endpoint q) }
      | "properties" => do return { d with properties := ← strMap q valueSpec }
      | "primary_key" => do return { d with primaryKey := ← option (string q) }
      | "merge" => do return { d with merge := ← bool q }
      | _ => do return { d with optional := ← bool q })
    (fun d => match d.relType, d.source, d.target with
      | none, _, _ => fail (missingField "type")
      | _, none, _ => fail (missingField "from")
      | _, _, none => fail (missingField "to")
      | some relType, some source, some target =>
        pure { relType, source, target, properties := d.properties, primaryKey := d.primaryKey,
               merge := d.merge, optional := d.optional })

def entityRules (p : Path) : Dec EntityRules :=
  record "EntityRules" ["nodes", "relationships"] true p ({} : EntityRules)
    (fun e k q => match k with
      | "nodes" => do return { e with nodes := ← seq q nodeRule }
      | _ => do return { e with relationships := ← seq q relRule })
    pure

def document (p : Path) : Dec RuleDocument :=
  record "RuleDocument" ["entities"] true p (none : Option (List (String × EntityRules)))
    (fun _ _ q => do return some (← strMap q entityRules))
    (fun d => match d with
      | some entities => pure { entities }
      | none => fail (missingField "entities"))

end RuleDocument

def RuleDocument.ofYaml (text : String) : Except RuleError RuleDocument :=
  match Yaml.Dec.document (Yaml.read text) (RuleDocument.document .root) with
  | .ok d => .ok d
  | .error f => .error (.yaml f.message)

end GraphIngest
