import GraphIngest.Rules.Error
import GraphIngest.Record

/-!
# Declarative rules

The parts of a rule document: how a property value is obtained, a node rule that builds one node
per record, the endpoints of a relationship rule, a relationship rule that joins every matched
start with every matched end, and the rules of one record type.

Conversions accept what a reader of tabular data would expect: numbers written as text, a double
truncated to an integer, an integer or a yes/no text read as a boolean. A null field stays null
under every conversion, and a property whose value is null is left out.
-/

namespace GraphIngest

/-- Whether a character is white space, as trimming takes it. -/
def isWhite (c : Char) : Bool :=
  let n := c.toNat
  (0x9 ≤ n && n ≤ 0xD) || n == 0x20 || n == 0x85 || n == 0xA0 || n == 0x1680 ||
    (0x2000 ≤ n && n ≤ 0x200A) || n == 0x2028 || n == 0x2029 || n == 0x202F || n == 0x205F ||
    n == 0x3000

def trimWhite (s : String) : String :=
  String.ofList ((s.toList.dropWhile isWhite).reverse.dropWhile isWhite).reverse

/-- The signed 64-bit integer a text spells: an optional sign and at least one decimal digit. -/
def readInt64? (s : String) : Option Int :=
  let (negative, digits) :=
    match s.toList with
    | '+' :: ds => (false, ds)
    | '-' :: ds => (true, ds)
    | ds => (false, ds)
  if digits.isEmpty || !digits.all Char.isDigit then none
  else
    let n := FloatText.digitValue digits
    if negative then (if n ≤ Nat.pow 2 63 then some (-(n : Int)) else none)
    else if n < Nat.pow 2 63 then some (n : Int) else none

/-- The target of a field conversion. -/
inductive Conversion where
  | int
  | float
  | string
  | bool
  deriving DecidableEq, Inhabited, Repr

namespace Conversion

/-- The name of the target, as rule documents spell it. -/
def name : Conversion → String
  | .int => "int"
  | .float => "float"
  | .string => "string"
  | .bool => "bool"

def ofName? : String → Option Conversion
  | "int" => some .int
  | "float" => some .float
  | "string" => some .string
  | "bool" => some .bool
  | _ => none

/-- The converted value, if the value has one. -/
def convert? : Conversion → Value → Option Value
  | .int, .int i => some (.int i)
  | .int, .float x => some (.int (Binary64.toInt64Saturating x))
  | .int, .bool b => some (.int (if b then 1 else 0))
  | .int, .str s =>
    let t := trimWhite s
    match readInt64? t with
    | some i => some (.int i)
    | none => (FloatText.read? t).map (fun x => .int (Binary64.toInt64Saturating x))
  | .float, .int i => some (.float (Binary64.ofInt i))
  | .float, .float x => some (.float x)
  | .float, .str s => (FloatText.read? (trimWhite s)).map .float
  | .string, .str s => some (.str s)
  | .string, v => some (.str v.display)
  | .bool, .bool b => some (.bool b)
  | .bool, .int i => some (.bool (i != 0))
  | .bool, .str s =>
    match (trimWhite s).toLower with
    | "true" | "yes" | "1" => some (.bool true)
    | "false" | "no" | "0" => some (.bool false)
    | _ => none
  | _, _ => none

/-- Converts the value of a field; null stays null, and a value without a conversion is a
fault naming the field, the value and the target. -/
def apply (c : Conversion) (field : String) (v : Value) : Except RuleError Value :=
  if v.isNull then .ok .null
  else match c.convert? v with
    | some w => .ok w
    | none => .error (.conversion field v.display c.name)

end Conversion

/-- Where a property value comes from: a record field (null when missing), optionally converted,
or a fixed value. -/
inductive ValueSpec where
  | field (name : String) (conversion : Option Conversion)
  | const (value : Value)
  deriving Inhabited

namespace ValueSpec

def evaluate (spec : ValueSpec) (r : Record) : Except RuleError Value :=
  match spec with
  | .field f c =>
    let raw := (r.get? f).getD .null
    match c with
    | some c => c.apply f raw
    | none => .ok raw
  | .const v => .ok v

end ValueSpec

/-- The values of named specifications for a record, in key order, leaving out nulls; the first
failing specification is the fault. -/
def evaluateAll (specs : List (String × ValueSpec)) (r : Record) : Except RuleError Props :=
  specs.foldlM (fun ps (k, spec) => do
    let v ← spec.evaluate r
    return if v.isNull then ps else ps.insert k v) Props.empty

/-- The values of lookup conditions for a record, in key order, nulls kept. -/
def evaluateConditions (specs : List (String × ValueSpec)) (r : Record) : Except RuleError Props :=
  specs.foldlM (fun ps (k, spec) => do return ps.insert k (← spec.evaluate r)) Props.empty

/-- A rule that builds one node per record. Its properties are sorted by key. -/
structure NodeRule where
  id : String
  labels : List String
  properties : List (String × ValueSpec) := []
  primaryKey : Option String := none
  primaryLabel : Option String := none
  deriving Inhabited

namespace NodeRule

/-- The node the rule builds for a record, under a given handle. -/
def build (rule : NodeRule) (h : Handle) (r : Record) : Except RuleError Node := do
  let props ← evaluateAll rule.properties r
  return { Node.new h rule.labels with
    properties := props, primaryKey := rule.primaryKey, primaryLabel := rule.primaryLabel }

end NodeRule

/-- One side of a relationship rule: the node a node rule of the same record builds, found again
through its merge label and key, or the committed nodes with all given labels whose properties
match the conditions. -/
inductive Endpoint where
  | node (id : String)
  | lookup (labels : List String) (conditions : List (String × ValueSpec))
  deriving Inhabited

namespace Endpoint

/-- How a fault names an endpoint that matched nothing: the node rule and the record, or the
lookup pattern with the conditions' values (`?` where a value cannot be had). -/
def describe (e : Endpoint) (r : Record) : String :=
  match e with
  | .node id => s!"node rule '{id}' for {r.display}"
  | .lookup labels conditions =>
    let parts := conditions.map fun (k, spec) =>
      k ++ ": " ++ (match spec.evaluate r with
        | .ok v => v.display
        | .error _ => "?")
    "(:" ++ ":".intercalate labels ++ " \x7b" ++ ", ".intercalate parts ++ "\x7d)"

end Endpoint

/-- A rule that joins matched nodes with relationships of one type. With `merge` the
relationships are merged on type and endpoints; with a primary key also on that property; with
`optional` an endpoint that matches nothing gives no relationship instead of a fault. -/
structure RelRule where
  relType : String
  source : Endpoint
  target : Endpoint
  properties : List (String × ValueSpec) := []
  primaryKey : Option String := none
  merge : Bool := false
  optional : Bool := false
  deriving Inhabited

/-- The rules of one record type. -/
structure EntityRules where
  nodes : List NodeRule := []
  relationships : List RelRule := []
  deriving Inhabited

/-- A rule document: the rules of each record type, sorted by type. -/
structure RuleDocument where
  entities : List (String × EntityRules) := []
  deriving Inhabited

end GraphIngest
