import GraphIngest.Json.Basic
import GraphIngest.Json.Printable

/-!
# Typed reading of JSON documents

Reading typed values out of a JSON document tree, with the faults a typed reader reports. A
record is read from an object, fields in the order the object lists them, or from an array,
fields by position; values are checked in the order they come, and a missing field is reported
after all present ones were read.
-/

namespace GraphIngest.JsonDecode

/-- Reading a typed value; a fault is its text. -/
abbrev Decode := Except String

/-- The escaped form of a character inside a quoted text in a fault message. -/
def debugChar (c : Char) : String :=
  if c = '"' then "\\\""
  else if c = '\\' then "\\\\"
  else if c = '\n' then "\\n"
  else if c = '\r' then "\\r"
  else if c = '\t' then "\\t"
  else if c.toNat = 0 then "\\0"
  else if Printable.escaped c then
    "\\u\x7b" ++ String.ofList (Nat.toDigits 16 c.toNat) ++ "\x7d"
  else String.singleton c

/-- A text in double quotes, with quotes, backslashes and the characters that are not printable
escaped. -/
def debugText (s : String) : String := "\"" ++ String.join (s.toList.map debugChar) ++ "\""

/-- The text of a double in a fault message: positional, with `.0` added to a whole number. -/
def floatText (x : Float) : String :=
  let t := FloatText.plain x
  if Binary64.isFinite x && !(t.contains '.') then t ++ ".0" else t

/-- How a fault message names a document that is not what was wanted; a double is written as a
document would hold it. -/
def unexpected : Json → String
  | .null => "null"
  | .bool b => s!"boolean `{b}`"
  | .num (.nat n) => s!"integer `{n}`"
  | .num (.neg i) => s!"integer `{i}`"
  | .num (.float x) => "floating point `" ++ FloatText.json x ++ "`"
  | .str s => "string " ++ debugText s
  | .arr _ => "sequence"
  | .obj _ => "map"

/-- Names written as `` `a` ``, `` `a` or `b` ``, or `` one of `a`, `b`, `c` ``. -/
def oneOf (names : List String) : String :=
  match names with
  | [] => ""
  | [a] => "`" ++ a ++ "`"
  | [a, b] => "`" ++ a ++ "` or `" ++ b ++ "`"
  | _ => "one of " ++ ", ".intercalate (names.map (fun n => "`" ++ n ++ "`"))

def invalidType (got expected : String) : String := s!"invalid type: {got}, expected {expected}"

def invalidValue (got expected : String) : String := s!"invalid value: {got}, expected {expected}"

def invalidLength (n : Nat) (expected : String) : String := s!"invalid length {n}, expected {expected}"

def missingField (f : String) : String := s!"missing field `{f}`"

def duplicateField (f : String) : String := s!"duplicate field `{f}`"

def unknownField (f : String) (expected : List String) : String :=
  if expected.isEmpty then s!"unknown field `{f}`, there are no fields"
  else s!"unknown field `{f}`, expected {oneOf expected}"

def unknownVariant (v : String) (expected : List String) : String :=
  if expected.isEmpty then s!"unknown variant `{v}`, there are no variants"
  else s!"unknown variant `{v}`, expected {oneOf expected}"

def wrongKind (j : Json) (expected : String) : Decode α := throw (invalidType (unexpected j) expected)

def string (j : Json) : Decode String :=
  match j with
  | .str s => pure s
  | _ => wrongKind j "a string"

/-- A boolean. -/
def bool (j : Json) : Decode Bool :=
  match j with
  | .bool b => pure b
  | _ => wrongKind j "a boolean"

/-- A natural number at most `max`, named `name` in faults. -/
def natUpTo (max : Nat) (name : String) (j : Json) : Decode Nat :=
  match j with
  | .num (.nat n) => if n ≤ max then pure n else throw (invalidValue s!"integer `{n}`" name)
  | .num (.neg i) => throw (invalidValue s!"integer `{i}`" name)
  | _ => wrongKind j name

/-- A 64-bit natural number. -/
def u64 (j : Json) : Decode Nat := natUpTo (Nat.pow 2 64 - 1) "u64" j

/-- A 32-bit natural number. -/
def u32 (j : Json) : Decode Nat := natUpTo (Nat.pow 2 32 - 1) "u32" j

/-- A signed 64-bit integer. -/
def i64 (j : Json) : Decode Int :=
  match j with
  | .num (.nat n) => if n < Nat.pow 2 63 then pure n else throw (invalidValue s!"integer `{n}`" "i64")
  | .num (.neg i) => pure i
  | _ => wrongKind j "i64"

/-- An optional value: `null` is absent. -/
def option (f : Json → Decode α) (j : Json) : Decode (Option α) :=
  match j with
  | .null => pure none
  | _ => some <$> f j

/-- A list. -/
def list (f : Json → Decode α) (j : Json) : Decode (List α) :=
  match j with
  | .arr items => items.mapM f
  | _ => wrongKind j "a sequence"

/-- Inserts into a list sorted by key, replacing an equal key. -/
def insertSorted {β : Type} (m : String × β) : List (String × β) → List (String × β)
  | [] => [m]
  | x :: rest =>
    if m.1 < x.1 then m :: x :: rest
    else if m.1 = x.1 then m :: rest
    else x :: insertSorted m rest

/-- A map with text keys; a later entry of a key wins, and the result is sorted by key. -/
def strMap (f : Json → Decode α) (j : Json) : Decode (List (String × α)) :=
  match j with
  | .obj ms => do
    let vs ← ms.mapM (fun (k, v) => do return (k, ← f v))
    return vs.foldl (fun acc (k, v) => insertSorted (k, v) acc) []
  | _ => wrongKind j "a map"

/-- The fields of a record as found: for every declared field given, its document. Unknown
fields are refused when `deny` holds and skipped otherwise; a field given twice is refused.
Each given field is checked by `check` in the order given. -/
def fieldsOf (fields : List String) (deny : Bool) (check : String → Json → Decode Unit)
    (members : List (String × Json)) : Decode (List (String × Json)) := do
  let mut seen : List (String × Json) := []
  for (k, v) in members do
    if fields.contains k then
      if (seen.lookup k).isSome then throw (duplicateField k)
      check k v
      seen := seen ++ [(k, v)]
    else if deny then throw (unknownField k fields)
  return seen

/-- Reads a record from an object or an array. `required` are the fields without a default, in
declared order; `check` reads one field's document; `build` makes the record from the fields
found (every required one present). From an array the fields are taken by position, the first
`required.length` of them required. -/
def record (name : String) (fields : List String) (required : List String) (deny : Bool)
    (check : String → Json → Decode Unit) (build : List (String × Json) → Decode α)
    (j : Json) : Decode α :=
  match j with
  | .obj ms => do
    let found ← fieldsOf fields deny check ms
    for f in fields do
      if required.contains f && (found.lookup f).isNone then throw (missingField f)
    build found
  | .arr items => do
    let expected := s!"struct {name} with {fields.length} element" ++ (if fields.length == 1 then "" else "s")
    let mut found : List (String × Json) := []
    let mut i := 0
    for f in fields do
      match items[i]? with
      | some v =>
        check f v
        found := found ++ [(f, v)]
      | none => if required.contains f then throw (invalidLength i expected)
      i := i + 1
    if items.length > fields.length then throw (invalidLength items.length "fewer elements in array")
    build found
  | _ => wrongKind j ("struct " ++ name)

/-- The document of a field that `record` found, or `null`. -/
def field (found : List (String × Json)) (f : String) : Json := (found.lookup f).getD .null

end GraphIngest.JsonDecode
