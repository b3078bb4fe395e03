import GraphIngest.Json.Decode
import GraphIngest.Json.Typed
import GraphIngest.Record

/-!
# Serial forms of graph values

The JSON forms in which values, nodes, relationships, fragments and records cross a process or
worker boundary. A non-finite double is written as `null`; a number read back is an integer when
it fits 64 signed bits, else the nearest double. A record's supplies stay behind.
-/

namespace GraphIngest

open JsonDecode

namespace Value

/-- The value a JSON document stands for; an object stands for none. -/
def ofJson? : Json → Option Value
  | .null => some .null
  | .bool b => some (.bool b)
  | .num (.nat n) => some (if n < Nat.pow 2 63 then .int n else .float (Binary64.ofRatio false n 1))
  | .num (.neg i) => some (.int i)
  | .num (.float x) => some (.float x)
  | .str s => some (.str s)
  | .arr items => (ofJsonList items).map .array
  | .obj _ => none
where
  /-- The values of a list of documents, if every one stands for one. -/
  ofJsonList : List Json → Option (List Value)
    | [] => some []
    | j :: rest => do return (← ofJson? j) :: (← ofJsonList rest)

def toJson : Value → Json
  | .null => .null
  | .bool b => .bool b
  | .int i => Json.int i
  | .float x => .num (.float x)
  | .str s => .str s
  | .array items => .arr (toJsonList items)
where
  /-- The serial forms of a list of values. -/
  toJsonList : List Value → List Json
    | [] => []
    | v :: rest => toJson v :: toJsonList rest

end Value

namespace Props

def toJson (ps : Props) : Json := .obj (ps.entries.map fun (k, v) => (k, v.toJson))

end Props

def optText : Option String → Json
  | some s => .str s
  | none => .null

def optNat : Option Nat → Json
  | some n => .num (.nat n)
  | none => .null

namespace Node

def toJson (n : Node) : Json :=
  .obj [("handle", .str n.handle.text), ("identity", optNat n.identity),
    ("labels", .arr (n.labels.map .str)), ("properties", n.properties.toJson),
    ("primary_key", optText n.primaryKey), ("primary_label", optText n.primaryLabel)]

end Node

namespace RelKey

def toJson : RelKey → Json
  | .ghost => .obj [("kind", .str "ghost")]
  | .property k => .obj [("kind", .str "property"), ("key", .str k)]

end RelKey

namespace Relationship

def toJson (r : Relationship) : Json :=
  .obj [("identity", optNat r.identity), ("rel_type", .str r.relType), ("start", r.source.toJson),
    ("end", r.target.toJson), ("properties", r.properties.toJson),
    ("primary_key", (r.key.map RelKey.toJson).getD .null)]

end Relationship

namespace Fragment

def toJson (f : Fragment) : Json :=
  .obj [("nodes", .arr (f.nodes.map Node.toJson)), ("relationships", .arr (f.rels.map Relationship.toJson)),
    ("attributes", .arr (f.attributes.map fun a => .obj [("key", .str a.key), ("value", a.value.toJson)]))]

end Fragment

namespace Record

/-- The serial form of a record; supplies are left out. -/
def toJson (r : Record) : Json :=
  .obj [("record_type", .str r.recordType), ("fields", r.fields.toJson),
    ("identifying", .arr (r.identifying.map .str))]

end Record

/-! ## Reading serial forms from documents -/

namespace Serial

def value (j : Json) : Decode Value :=
  match Value.ofJson? j with
  | some v => pure v
  | none => throw "data did not match any variant of untagged enum PropertyValue"

/-- Properties: an object of values, a later key winning. -/
def props (j : Json) : Decode Props := do
  return Props.ofList (← strMap value j)

def handle (j : Json) : Decode Handle := do
  match j with
  | .str s =>
    match Handle.parse s with
    | .ok h => pure h
    | .error e => throw ("UUID parsing failed: " ++ e.message)
  | _ => wrongKind j "a formatted UUID string"

/-- A node. -/
def node (j : Json) : Decode Node := do
  let fields := ["handle", "identity", "labels", "properties", "primary_key", "primary_label"]
  let check (k : String) (v : Json) : Decode Unit := match k with
    | "handle" => discard (handle v)
    | "identity" => discard (option u64 v)
    | "labels" => discard (list string v)
    | "properties" => discard (props v)
    | _ => discard (option string v)
  record "Node" fields ["handle", "labels", "properties"] false check (fun found => do
    return {
      handle := ← handle (field found "handle")
      identity := ← option u64 (field found "identity")
      labels := labelSet (← list string (field found "labels"))
      properties := ← props (field found "properties")
      primaryKey := ← option string (field found "primary_key")
      primaryLabel := ← option string (field found "primary_label") }) j

/-- What a relationship key's object or array is called in faults. -/
def keyExpected : String := "adjacently tagged enum PrimaryKey"

/-- A relationship key's tag, read as a variant of an enumeration: its name as text, or an object
whose one member has the name as key and null as value. `true` names a property key, `false` a
ghost key. -/
def keyTag (j : Json) : Decode Bool := do
  let (name, content) ← match j with
    | .str s => pure (s, none)
    | .obj [(s, v)] => pure (s, some v)
    | .obj _ => throw (invalidValue "map" "map with a single key")
    | _ => throw (invalidType (unexpected j) "string or map")
  let property ← match name with
    | "property" => pure true
    | "ghost" => pure false
    | _ => throw (unknownVariant name ["property", "ghost"])
  match content with
  | some .null | none => pure property
  | some v => throw (invalidType (unexpected v) "unit")

/-- The content of a relationship key whose variant is known: the key of a property key, null for
a ghost key. -/
def keyContent (property : Bool) (j : Json) : Decode RelKey :=
  if property then do return .property (← string j)
  else
    match j with
    | .null => pure .ghost
    | _ => wrongKind j "unit variant PrimaryKey::Ghost"

/-- After a relationship key's tag and content: no further tag or content may follow. -/
def keyRest (k : RelKey) : List (String × Json) → Decode RelKey
  | [] => pure k
  | ("kind", _) :: _ => throw (duplicateField "kind")
  | _ => throw (duplicateField "key")

/-- A relationship key: an object with the tag `kind` and the content `key` (other members are
skipped; a ghost key needs no content), or an array of the two. The tag is read before the
content, whichever comes first. -/
def relKey (j : Json) : Decode RelKey :=
  match j with
  | .obj ms =>
    match ms.filter (fun m => m.1 == "kind" || m.1 == "key") with
    | [] => throw (missingField "kind")
    | ("kind", t) :: rest => do
      let property ← keyTag t
      match rest with
      | [] => if property then throw (missingField "key") else pure .ghost
      | ("kind", _) :: _ => throw (duplicateField "kind")
      | (_, c) :: more => keyRest (← keyContent property c) more
    | (_, c) :: rest =>
      match rest with
      | [] => throw (missingField "kind")
      | ("kind", t) :: more => do
        let property ← keyTag t
        keyRest (← keyContent property c) more
      | _ => throw (duplicateField "key")
  | .arr items =>
    match items with
    | [] => throw (invalidLength 0 keyExpected)
    | [t] => do
      discard (keyTag t)
      throw (invalidLength 1 keyExpected)
    | t :: c :: more => do
      let k ← keyContent (← keyTag t) c
      if more.isEmpty then pure k else throw (invalidLength items.length "fewer elements in array")
  | _ => wrongKind j keyExpected

def relationship (j : Json) : Decode Relationship := do
  let fields := ["identity", "rel_type", "start", "end", "properties", "primary_key"]
  let check (k : String) (v : Json) : Decode Unit := match k with
    | "identity" => discard (option u64 v)
    | "rel_type" => discard (string v)
    | "start" | "end" => discard (node v)
    | "properties" => discard (props v)
    | _ => discard (option relKey v)
  record "Relationship" fields ["rel_type", "start", "end", "properties"] false check
    (fun found => do
      return {
        identity := ← option u64 (field found "identity")
        relType := ← string (field found "rel_type")
        source := ← node (field found "start")
        target := ← node (field found "end")
        properties := ← props (field found "properties")
        key := ← option relKey (field found "primary_key") }) j

/-- An attribute. -/
def attr (j : Json) : Decode Attribute := do
  let check (k : String) (v : Json) : Decode Unit := match k with
    | "key" => discard (string v)
    | _ => discard (value v)
  record "Attribute" ["key", "value"] ["key", "value"] false check (fun found => do
    return { key := ← string (field found "key"), value := ← value (field found "value") }) j

def fragment (j : Json) : Decode Fragment := do
  let check (k : String) (v : Json) : Decode Unit := match k with
    | "nodes" => discard (list node v)
    | "relationships" => discard (list relationship v)
    | _ => discard (list attr v)
  record "Fragment" ["nodes", "relationships", "attributes"] ["nodes", "relationships", "attributes"]
    false check (fun found => do
      return {
        nodes := ← list node (field found "nodes")
        rels := ← list relationship (field found "relationships")
        attributes := ← list attr (field found "attributes") }) j

def recordOf (j : Json) : Decode Record := do
  let check (k : String) (v : Json) : Decode Unit := match k with
    | "record_type" => discard (string v)
    | "fields" => discard (props v)
    | _ => discard (list string v)
  JsonDecode.record "Record" ["record_type", "fields", "identifying"] ["record_type", "fields"] false
    check (fun found => do
      return {
        recordType := ← string (field found "record_type")
        fields := ← props (field found "fields")
        identifying := ← (match field found "identifying" with
          | .null => pure []
          | j => list string j) }) j

end Serial

/-! ## Reading serial forms from text -/

namespace Serial

open Typed in
/-- A value, read from text. -/
def readValue : Typed Value := do
  match Value.ofJson? (← content) with
  | some v => pure v
  | none => custom "data did not match any variant of untagged enum PropertyValue"

open Typed in
/-- Properties, read from text: an object of values, a later key winning. -/
def readProps : Typed Props := do return Props.ofList (← strMap readValue)

open Typed in
/-- A handle written as text, read from text. -/
def readHandle : Typed Handle := do
  let s ← str "a formatted UUID string"
  match Handle.parse s with
  | .ok h => pure h
  | .error e => fix (custom ("UUID parsing failed: " ++ e.message))

end Serial

end GraphIngest
