import GraphIngest.Graph.Serial
import GraphIngest.Rules.Error

/-!
# Reports of graph values

The JSON shapes in which results are reported. A double is reported as its display text,
`{"float": "2.5"}`, so that every double keeps its exact value. Handles are reported only when
asked for: handles minted for new nodes are arbitrary.
-/

namespace GraphIngest

namespace Report

def value : Value → Json
  | .null => .null
  | .bool b => .bool b
  | .int i => Json.int i
  | .float x => .obj [("float", .str (FloatText.plain x))]
  | .str s => .str s
  | .array items => .arr (values items)
where
  /-- A list of values. -/
  values : List Value → List Json
    | [] => []
    | v :: rest => value v :: values rest

/-- Properties, as an object. -/
def props (ps : Props) : Json := .obj (ps.entries.map fun (k, v) => (k, value v))

/-- A node; with `handles` its handle too. -/
def node (handles : Bool) (n : Node) : Json :=
  .obj ((if handles then [("handle", .str n.handle.text)] else []) ++
    [("identity", optNat n.identity), ("labels", .arr (n.labels.map .str)),
     ("properties", props n.properties), ("primary_key", optText n.primaryKey),
     ("primary_label", optText n.primaryLabel), ("merge_label", optText n.mergeLabel),
     ("display", .str n.display)])

def refOf (nodes : List Node) (h : Handle) : Json :=
  match nodes.findIdx? (·.handle == h) with
  | some i => .num (.nat i)
  | none => .null

def relKey : Option RelKey → Json
  | none => .null
  | some .ghost => .str "ghost"
  | some (.property k) => .obj [("property", .str k)]

/-- A relationship; `nodes` are the nodes of its fragment, whose positions the endpoint
references give. -/
def rel (handles : Bool) (nodes : List Node) (r : Relationship) : Json :=
  .obj [("identity", optNat r.identity), ("rel_type", .str r.relType),
    ("start", node handles r.source), ("end", node handles r.target),
    ("start_ref", refOf nodes r.source.handle), ("end_ref", refOf nodes r.target.handle),
    ("properties", props r.properties), ("primary_key", relKey r.key),
    ("display", .str r.display)]

def fragment (handles : Bool) (f : Fragment) : Json :=
  .obj [("nodes", .arr (f.nodes.map (node handles))),
    ("relationships", .arr (f.rels.map (rel handles f.nodes))),
    ("attributes", .arr (f.attributes.map fun a => .arr [.str a.key, value a.value])),
    ("len", .num (.nat f.size)), ("is_empty", .bool f.isEmpty)]

def record (r : Record) : Json :=
  .obj [("record_type", .str r.recordType), ("fields", props r.fields),
    ("identifying", .arr (r.identifying.map .str)), ("identity", .str r.identity),
    ("display", .str r.display)]

/-- What is known about an optional value: the value, its text and integer readings, whether it
is null, and its display text. -/
def valueInfo : Option Value → Json
  | none => .null
  | some v => .obj [("value", value v), ("as_str", optText v.asStr?),
      ("as_i64", (v.asInt?.map Json.int).getD .null), ("is_null", .bool v.isNull),
      ("display", .str v.display)]

/-- A fault: the name of its kind and its text. -/
def fault (kind message : String) : Json := .obj [("error", .str kind), ("message", .str message)]

def storageError (e : StorageError) : Json :=
  .obj [("error", .str ("StorageError::" ++ e.kind)), ("message", .str e.message),
    ("transient", .bool e.isTransient)]

def ruleError (e : RuleError) : Json := fault ("RuleError::" ++ e.kind) e.message

end Report

end GraphIngest
