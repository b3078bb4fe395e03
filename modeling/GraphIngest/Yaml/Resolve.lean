import GraphIngest.Yaml.Event
import GraphIngest.Json.Decode
import GraphIngest.Number.Text

/-!
# What a YAML scalar stands for

A plain scalar with no tag is resolved as a YAML 1.2 core value: null, a boolean, an integer, a
double, or else text. An integer is taken as an unsigned 64-bit one if it is one, else as a signed
64-bit one, else as a 128-bit one. A scalar tagged with one of the core schema's tags must spell a
value of that kind, whatever its style; with a local tag (`!name`) a plain scalar is resolved as if
untagged; any other scalar is text.

A reader that takes any value keeps a `Content`: what the scalar stands for, or the items and
entries of a collection, keys included.
-/

namespace GraphIngest.Yaml

open GraphIngest.JsonDecode

def boolTag : String := "tag:yaml.org,2002:bool"

def intTag : String := "tag:yaml.org,2002:int"

def floatTag : String := "tag:yaml.org,2002:float"

def nullTag : String := "tag:yaml.org,2002:null"

/-- The name a local tag (`!name`) gives, as an enumeration variant: the tag without its `!`, or
`!` for the tag `!` alone. Other tags give none. -/
def localTag : Option String → Option String
  | some t => match t.toList with
    | '!' :: [] => some "!"
    | '!' :: rest => some (String.ofList rest)
    | _ => none
  | none => none

/-- Whether a scalar spells null: `~` or `null` in three spellings. -/
def isNullWord (v : String) : Bool := v == "~" || v == "null" || v == "Null" || v == "NULL"

/-- Whether a plain scalar is null: empty, or a null spelling. -/
def isNullText (v : String) : Bool := v.isEmpty || isNullWord v

/-- The boolean a scalar spells, if any. -/
def boolOf? (v : String) : Option Bool :=
  if v == "true" || v == "True" || v == "TRUE" then some true
  else if v == "false" || v == "False" || v == "FALSE" then some false
  else none

/-- Digits after an optional sign, at least two, the first a zero: text, not a number. -/
def leadingZero (v : String) : Bool :=
  let cs := match v.toList with
    | '-' :: r => r
    | '+' :: r => r
    | r => r
  cs.length > 1 && cs.head? == some '0' && cs.all Char.isDigit

/-- The value of digits in a base, if all are digits of it and there is one. -/
def digitsIn (base : Nat) (cs : List Char) : Option Nat :=
  if cs.isEmpty then none
  else cs.foldlM (fun acc c =>
    let d := if c.isDigit then some (c.toNat - '0'.toNat)
      else if 'a' ≤ c ∧ c ≤ 'z' then some (c.toNat - 'a'.toNat + 10)
      else if 'A' ≤ c ∧ c ≤ 'Z' then some (c.toNat - 'A'.toNat + 10)
      else none
    match d with
    | some d => if d < base then some (acc * base + d) else none
    | none => none) 0

/-- A number in a base with an optional leading `+`, as a standard integer reader takes it. -/
def radixUnsigned (base : Nat) (cs : List Char) : Option Nat :=
  match cs with
  | '+' :: r => digitsIn base r
  | r => digitsIn base r

/-- A signed number in a base, as a standard integer reader takes it. -/
def radixSigned (base : Nat) (cs : List Char) : Option Int :=
  match cs with
  | '-' :: r => (digitsIn base r).map (fun n => -(n : Int))
  | '+' :: r => (digitsIn base r).map (fun n => (n : Int))
  | r => (digitsIn base r).map (fun n => (n : Int))

/-- A non-negative integer written in decimal, hex (`0x`), octal (`0o`) or binary (`0b`), with
an optional `+`; of any size. -/
def unsignedOf? (v : String) : Option Nat :=
  let cs := v.toList
  let body := match cs with
    | '+' :: r => r
    | r => r
  let prefixed (p : Char) (base : Nat) : Option (Option Nat) :=
    match body with
    | '0' :: q :: rest =>
      if q == p then
        match rest with
        | '+' :: _ => some none
        | '-' :: _ => some none
        | _ => (radixUnsigned base rest).map some
      else none
    | _ => none
  match prefixed 'x' 16 with
  | some r => r
  | none => match prefixed 'o' 8 with
    | some r => r
    | none => match prefixed 'b' 2 with
      | some r => r
      | none =>
        match body with
        | '+' :: _ => none
        | '-' :: _ => none
        | _ => if leadingZero v then none else radixUnsigned 10 body

/-- An integer written with a leading `-` in decimal, or `-0x`, `-0o`, `-0b`; of any size. -/
def negativeOf? (v : String) : Option Int :=
  let cs := v.toList
  let prefixed (p : Char) (base : Nat) : Option Int :=
    match cs with
    | '-' :: '0' :: q :: rest => if q == p then radixSigned base ('-' :: rest) else none
    | _ => none
  match prefixed 'x' 16 with
  | some i => some i
  | none => match prefixed 'o' 8 with
    | some i => some i
    | none => match prefixed 'b' 2 with
      | some i => some i
      | none => if leadingZero v then none else radixSigned 10 cs

/-- A finite double, or one of `.inf`, `-.inf`, `.nan` in their spellings. -/
def floatOf? (v : String) : Option Float :=
  let unpositive := match v.toList with
    | '+' :: r => String.ofList r
    | _ => v
  if unpositive.startsWith "+" || (v.startsWith "+" && unpositive.startsWith "-") then none
  else if unpositive == ".inf" || unpositive == ".Inf" || unpositive == ".INF" then some Binary64.infinity
  else if v == "-.inf" || v == "-.Inf" || v == "-.INF" then some (Binary64.negate Binary64.infinity)
  else if v == ".nan" || v == ".NaN" || v == ".NAN" then some Binary64.nan
  else match FloatText.read? unpositive with
    | some x => if Binary64.isFinite x then some x else none
    | none => none

/-- An integer as a scalar spells it: unsigned or signed 64-bit, or wider. -/
inductive Whole where
  | u64 (n : Nat)
  | i64 (i : Int)
  | wide (i : Int)

/-- The integer a scalar spells, trying the unsigned 64-bit, signed 64-bit, unsigned 128-bit and
signed 128-bit readings in turn. -/
def wholeOf? (v : String) : Option Whole :=
  let unsigned := unsignedOf? v
  let negative := negativeOf? v
  match unsigned with
  | some n => if n < Nat.pow 2 64 then some (.u64 n) else wider
  | none =>
    match negative with
    | some i => if -Int.pow 2 63 ≤ i && i < Int.pow 2 63 then some (.i64 i) else wider
    | none => none
where
  /-- The 128-bit readings. -/
  wider : Option Whole :=
    match unsignedOf? v with
    | some n => if n < Nat.pow 2 128 then some (.wide n) else negativeWide
    | none => negativeWide
  /-- The signed 128-bit reading. -/
  negativeWide : Option Whole :=
    match negativeOf? v with
    | some i => if -Int.pow 2 127 ≤ i && i < Int.pow 2 127 then some (.wide i) else none
    | none => none

def wideText (i : Int) : String := s!"integer `{i}` as " ++ (if i < 0 then "i128" else "u128")

/-- What an untagged plain scalar is. -/
inductive Plain where
  | null
  | bool (b : Bool)
  | whole (w : Whole)
  | float (x : Float)
  | text (s : String)

/-- Resolves an untagged plain scalar (see the module note). -/
def resolve (v : String) : Plain :=
  if isNullText v then .null
  else match boolOf? v with
    | some b => .bool b
    | none =>
      match wholeOf? v with
      | some w => .whole w
      | none =>
        if leadingZero v then .text v
        else match floatOf? v with
          | some x => .float x
          | none => .text v

def Plain.unexpected : Plain → String
  | .null => "unit value"
  | .bool b => s!"boolean `{b}`"
  | .whole (.u64 n) => s!"integer `{n}`"
  | .whole (.i64 i) => s!"integer `{i}`"
  | .whole (.wide i) => wideText i
  | .float x => "floating point `" ++ floatText x ++ "`"
  | .text s => "string " ++ debugText s

/-- The fault of reading a scalar with a reader of something else, `expected`: the scalar is
named as what it stands for, and a scalar whose core tag it does not spell is named as text of the
wrong value. -/
def scalarMismatch (v : String) (style : ScalarStyle) (tag : Option String) (expected : String) :
    String :=
  let wrong (what : Plain) := invalidType what.unexpected expected
  let untagged := if style == .plain then wrong (resolve v) else wrong (.text v)
  match tag with
  | none => untagged
  | some t =>
    if t == boolTag then
      match boolOf? v with
      | some b => wrong (.bool b)
      | none => invalidValue ("string " ++ debugText v) "a boolean"
    else if t == intTag then
      match wholeOf? v with
      | some w => wrong (.whole w)
      | none => invalidValue ("string " ++ debugText v) "an integer"
    else if t == floatTag then
      match floatOf? v with
      | some x => wrong (.float x)
      | none => invalidValue ("string " ++ debugText v) "a float"
    else if t == nullTag then
      if isNullWord v then wrong .null else invalidValue ("string " ++ debugText v) "null"
    else if t.startsWith "!" && style == .plain then untagged
    else wrong (.text v)

/-- Anything a node may stand for: no value at all (an empty document), null, a boolean, an
unsigned or a signed 64-bit integer, a double, a text, or the items of a sequence or the entries
of a mapping. -/
inductive Content where
  | nothing
  | unit
  | bool (b : Bool)
  | nat (n : Nat)
  | int (i : Int)
  | float (x : Float)
  | str (s : String)
  | seq (items : List Content)
  | map (entries : List (Content × Content))
  deriving Inhabited

/-- The content of a resolved scalar; a wider integer is none. -/
def Plain.content : Plain → Except String Content
  | .null => .ok .unit
  | .bool b => .ok (.bool b)
  | .whole (.u64 n) => .ok (.nat n)
  | .whole (.i64 i) => .ok (.int i)
  | .whole (.wide i) => .error (invalidType (wideText i) "any value")
  | .float x => .ok (.float x)
  | .text s => .ok (.str s)

/-- The content of a scalar without a local tag (see the module note). -/
def scalarContent (v : String) (style : ScalarStyle) (tag : Option String) : Except String Content :=
  let untagged := if style == .plain then (resolve v).content else .ok (.str v)
  match tag with
  | none => untagged
  | some t =>
    if t == boolTag then
      match boolOf? v with
      | some b => .ok (.bool b)
      | none => .error (invalidValue ("string " ++ debugText v) "a boolean")
    else if t == intTag then
      match wholeOf? v with
      | some w => (Plain.whole w).content
      | none => .error (invalidValue ("string " ++ debugText v) "an integer")
    else if t == floatTag then
      match floatOf? v with
      | some x => .ok (.float x)
      | none => .error (invalidValue ("string " ++ debugText v) "a float")
    else if t == nullTag then
      if isNullWord v then .ok .unit else .error (invalidValue ("string " ++ debugText v) "null")
    else if t.startsWith "!" && style == .plain then untagged
    else .ok (.str v)

namespace Content

/-! ## Reading content as a typed value

Content is read again when a value may have one of several shapes and each is tried in turn; a
shape that does not fit gives nothing. A text is only text content; a sequence only sequence
content; an optional value is absent when the content is null or nothing; a map with text keys is
only mapping content whose keys are all text. A record's keys name its fields by name or by
position (an unsigned integer); a key naming no field is skipped, any other key does not fit, and
a field given twice does not fit. A unit variant is its name as text, or a mapping of one entry
from its name (or position) to null. -/

/-- The text, if the content is text. -/
def text? : Content → Option String
  | .str s => some s
  | _ => none

/-- The items, if the content is a sequence. -/
def items? : Content → Option (List Content)
  | .seq xs => some xs
  | _ => none

/-- An optional value: absent for null or nothing, else what `read` makes of the content. -/
def optional (read : Content → Option α) : Content → Option (Option α)
  | .nothing => some none
  | .unit => some none
  | c => (read c).map some

/-- The name of the field or variant a key names: by name, or by position among `names`.
Gives `some none` for a name or position naming nothing, and `none` for a key of another kind. -/
def nameOf? (names : List String) : Content → Option (Option String)
  | .str s => some (if names.contains s then some s else none)
  | .nat n => some names[n]?
  | _ => none

/-- The fields of a record given in mapping content, each with its content, in the order given. -/
def fields? (names : List String) : Content → Option (List (String × Content))
  | .map entries =>
    entries.foldlM (fun found (k, v) => do
      match ← nameOf? names k with
      | none => pure found
      | some f => if (found.lookup f).isSome then none else pure (found ++ [(f, v)])) []
  | _ => none

/-- A unit variant among `names`: its name as text, or a mapping of one entry from its name or
position to null. -/
def unitVariant? (names : List String) : Content → Option String
  | .str s => if names.contains s then some s else none
  | .map [(k, .unit)] => match k with
    | .str s => if names.contains s then some s else none
    | .nat n => names[n]?
    | _ => none
  | _ => none

/-- A map with text keys, each value read by `read`; a later entry of a key wins, and the result
is sorted by key. -/
def strMap? (read : Content → Option α) : Content → Option (List (String × α))
  | .map entries =>
    entries.foldlM (fun acc (k, v) => do
      let key ← text? k
      let x ← read v
      pure (insertSorted (key, x) acc)) []
  | _ => none

end Content

end GraphIngest.Yaml
