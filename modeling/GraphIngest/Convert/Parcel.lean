import GraphIngest.Json.Typed
import GraphIngest.Graph.Serial
import GraphIngest.Convert.Error

/-!
# Parcels

A parcel is the sealed form in which records or a fragment cross a worker boundary: the JSON
text `{"version":1,"payload":…}`. Opening a parcel first reads only its version (the payload is
checked to be well-formed JSON but not read), refuses any version but 1, and then reads the
payload. Supplies of records do not cross: they are not part of the sealed form.
-/

namespace GraphIngest

namespace Parcel

def version : Nat := 1

/-- The sealed form of a payload. -/
def wrap (payload : Json) : String :=
  (Json.obj [("version", .num (.nat version)), ("payload", payload)]).compact

def sealRecords (rs : List Record) : String := wrap (.arr (rs.map Record.toJson))

def sealFragment (f : Fragment) : String := wrap f.toJson

open Typed JsonDecode

def texts : Typed (List String) := seq (str)

def missing (f : String) : Typed α := custom (missingField f)

def record : Typed Record :=
  Typed.record "Record" ["record_type", "fields", "identifying"] ["identifying"]
    ((none, none, []) : Option String × Option Props × List String)
    (fun (t, fs, ids) k => match k with
      | "record_type" => do return (some (← str), fs, ids)
      | "fields" => do return (t, some (← Serial.readProps), ids)
      | _ => do return (t, fs, ← texts))
    (fun (t, fs, ids) => match t, fs with
      | none, _ => missing "record_type"
      | _, none => missing "fields"
      | some t, some fs => pure { recordType := t, fields := fs, identifying := ids })

/-- A node being read. -/
structure NodeDraft where
  handle : Option Handle := none
  identity : Option Nat := none
  labels : Option (List String) := none
  properties : Option Props := none
  primaryKey : Option String := none
  primaryLabel : Option String := none

/-- A node. -/
def node : Typed Node :=
  Typed.record "Node" ["handle", "identity", "labels", "properties", "primary_key", "primary_label"] []
    ({} : NodeDraft)
    (fun d k => match k with
      | "handle" => do return { d with handle := some (← Serial.readHandle) }
      | "identity" => do return { d with identity := ← option (natUpTo (Nat.pow 2 64 - 1) "u64") }
      | "labels" => do return { d with labels := some (← texts) }
      | "properties" => do return { d with properties := some (← Serial.readProps) }
      | "primary_key" => do return { d with primaryKey := ← option str }
      | _ => do return { d with primaryLabel := ← option str })
    (fun d => match d.handle, d.labels, d.properties with
      | none, _, _ => missing "handle"
      | _, none, _ => missing "labels"
      | _, _, none => missing "properties"
      | some h, some ls, some ps =>
        pure { handle := h, identity := d.identity, labels := labelSet ls, properties := ps,
               primaryKey := d.primaryKey, primaryLabel := d.primaryLabel })

/-- What a relationship key's object or array is called in faults. -/
def keyExpected : String := Serial.keyExpected

/-- The name of a relationship key's variant, as text: `true` for a property key, `false` for a
ghost key. -/
def variantName : Typed Bool := do
  match ← peekChar with
  | none => ahead "EOF while parsing a value"
  | some '"' =>
    eat
    let s ← lift JsonRead.string
    fix <| match s with
      | "property" => pure true
      | "ghost" => pure false
      | _ => custom (unknownVariant s ["property", "ghost"])
  | some _ => invalidTypeHere "variant identifier"

/-- A null, as the content of a variant named in an object. -/
def unitValue : Typed Unit := do
  match ← peekChar with
  | none => ahead "EOF while parsing a value"
  | some 'n' => eat; lift (JsonRead.expectWord ['u', 'l', 'l'])
  | some _ => invalidTypeHere "unit"

/-- A relationship key's tag: a variant name, or an object holding a variant name and null. -/
def tag : Typed Bool := do
  match ← peekChar with
  | none => ahead "EOF while parsing a value"
  | some '"' => variantName
  | some '{' =>
    enter
    let v ← variantName
    colon
    unitValue
    leave
    match ← peekChar with
    | some '}' => eat; pure v
    | some _ => lift (JsonRead.fail "expected value")
    | none => lift (JsonRead.fail "EOF while parsing an object")
  | some _ => ahead "expected value"

/-- The content of a ghost key: null. Anything else is read as far as a reader of any value reads
it before it is refused. -/
def ghostContent : Typed RelKey := do
  let expected := "unit variant PrimaryKey::Ghost"
  match ← peekChar with
  | none => ahead "EOF while parsing a value"
  | some 'n' => eat; lift (JsonRead.expectWord ['u', 'l', 'l']); pure .ghost
  | some '[' => enter; closing (custom (invalidType "sequence" expected)) endSeq
  | some '{' => enter; closing (custom (invalidType "map" expected)) endMap
  | some _ => invalidTypeHere expected

def keyContent (property : Bool) : Typed RelKey :=
  if property then do return .property (← str) else ghostContent

/-- The content of a relationship key read before its tag, once the tag is known. -/
def keyOfContent (property : Bool) (j : Json) : Typed RelKey :=
  if property then
    match j with
    | .str k => pure (.property k)
    | _ => custom (invalidType (unexpected j) "a string")
  else
    match j with
    | .null => pure .ghost
    | _ => custom (invalidType (unexpected j) "unit variant PrimaryKey::Ghost")

/-- The next key of a relationship key's object that is its tag (`true`) or its content
(`false`); other members are skipped. -/
def tagOrContent (first : Bool) : Nat → Typed (Option Bool)
  | 0 => pure none
  | fuel + 1 => do
    match ← nextKey first with
    | none => pure none
    | some "kind" => pure (some true)
    | some "key" => pure (some false)
    | some _ =>
      colon
      ignore
      tagOrContent false fuel

/-- After a relationship key's tag and content: no further tag or content may follow. -/
def noMoreKeys (k : RelKey) (fuel : Nat) : Typed RelKey := do
  match ← tagOrContent false fuel with
  | none => pure k
  | some true => custom (duplicateField "kind")
  | some false => custom (duplicateField "key")

/-- The members of a relationship key's object, its brace taken: the tag `kind` and the content
`key`, in either order. A ghost key needs no content. -/
def keyMembers : Typed RelKey := do
  let fuel := (← get).rest.length + 1
  match ← tagOrContent true fuel with
  | none => custom (missingField "kind")
  | some true =>
    colon
    let property ← tag
    match ← tagOrContent false fuel with
    | none => if property then custom (missingField "key") else pure .ghost
    | some true => custom (duplicateField "kind")
    | some false =>
      colon
      let k ← keyContent property
      noMoreKeys k fuel
  | some false =>
    colon
    let held ← content
    match ← tagOrContent false fuel with
    | none => custom (missingField "kind")
    | some false => custom (duplicateField "key")
    | some true =>
      colon
      let property ← tag
      let k ← keyOfContent property held
      noMoreKeys k fuel

/-- The items of a relationship key's array, its bracket taken: the tag, then the content. -/
def keyItems : Typed RelKey := do
  match ← nextElement true tag with
  | none => custom (invalidLength 0 keyExpected)
  | some property =>
    match ← nextElement false (keyContent property) with
    | none => custom (invalidLength 1 keyExpected)
    | some k => pure k

/-- A relationship key: an object with the tag `kind` and the content `key`, or an array of the
two. -/
def relKey : Typed RelKey := do
  match ← peekChar with
  | none => ahead "EOF while parsing a value"
  | some '{' =>
    enter
    let k ← closing keyMembers endMap
    leave
    pure k
  | some '[' =>
    enter
    let k ← closing keyItems endSeq
    leave
    pure k
  | some _ => invalidTypeHere keyExpected

/-- A relationship being read. -/
structure RelDraft where
  identity : Option Nat := none
  relType : Option String := none
  source : Option Node := none
  target : Option Node := none
  properties : Option Props := none
  key : Option RelKey := none

def relationship : Typed Relationship :=
  Typed.record "Relationship" ["identity", "rel_type", "start", "end", "properties", "primary_key"] []
    ({} : RelDraft)
    (fun d k => match k with
      | "identity" => do return { d with identity := ← option (natUpTo (Nat.pow 2 64 - 1) "u64") }
      | "rel_type" => do return { d with relType := some (← str) }
      | "start" => do return { d with source := some (← node) }
      | "end" => do return { d with target := some (← node) }
      | "properties" => do return { d with properties := some (← Serial.readProps) }
      | _ => do return { d with key := ← option relKey })
    (fun d => match d.relType, d.source, d.target, d.properties with
      | none, _, _, _ => missing "rel_type"
      | _, none, _, _ => missing "start"
      | _, _, none, _ => missing "end"
      | _, _, _, none => missing "properties"
      | some t, some s, some e, some ps =>
        pure { identity := d.identity, relType := t, source := s, target := e, properties := ps, key := d.key })

/-- An attribute. -/
def attr : Typed Attribute :=
  Typed.record "Attribute" ["key", "value"] [] ((none, none) : Option String × Option Value)
    (fun (k, v) f => match f with
      | "key" => do return (some (← str), v)
      | _ => do return (k, some (← Serial.readValue)))
    (fun (k, v) => match k, v with
      | none, _ => missing "key"
      | _, none => missing "value"
      | some k, some v => pure { key := k, value := v })

def fragment : Typed Fragment :=
  Typed.record "Fragment" ["nodes", "relationships", "attributes"] []
    ((none, none, none) : Option (List Node) × Option (List Relationship) × Option (List Attribute))
    (fun (n, r, a) k => match k with
      | "nodes" => do return (some (← seq node), r, a)
      | "relationships" => do return (n, some (← seq relationship), a)
      | _ => do return (n, r, some (← seq attr)))
    (fun (n, r, a) => match n, r, a with
      | none, _, _ => missing "nodes"
      | _, none, _ => missing "relationships"
      | _, _, none => missing "attributes"
      | some n, some r, some a => pure { nodes := n, rels := r, attributes := a })

def header : Typed Nat :=
  Typed.record "Header" ["version"] [] (none : Option Nat)
    (fun _ _ => do return some (← natUpTo (Nat.pow 2 32 - 1) "u32"))
    (fun v => match v with
      | some v => pure v
      | none => missing "version")

/-- The payload of a parcel. -/
def body (payload : Typed α) : Typed α :=
  Typed.record "Incoming" ["version", "payload"] [] ((none, none) : Option Nat × Option α)
    (fun (v, p) k => match k with
      | "version" => do return (some (← natUpTo (Nat.pow 2 32 - 1) "u32"), p)
      | _ => do return (v, some (← payload)))
    (fun (v, p) => match v, p with
      | none, _ => missing "version"
      | _, none => missing "payload"
      | some _, some p => pure p)

def unwrap (bytes : String) (payload : Typed α) : Except ConvertError α := do
  let v ← (Typed.whole header bytes).mapError (fun e => .codec e.message)
  if v != version then
    throw (.codec s!"parcel version {v} is not supported (expected {version})")
  (Typed.whole (body payload) bytes).mapError (fun e => .codec e.message)

def openRecords (bytes : String) : Except ConvertError (List Record) := unwrap bytes (seq record)

def openFragment (bytes : String) : Except ConvertError Fragment := unwrap bytes fragment

end Parcel

end GraphIngest
