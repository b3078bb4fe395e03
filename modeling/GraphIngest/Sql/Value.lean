import GraphIngest.Sql.NumberText
import GraphIngest.Number.Binary64

/-!
# Values of the database

A value is null, a 64-bit integer, a double, a text, or a blob of bytes. Each column has an
affinity, read off its declared type, that converts a value stored into it. Values are ordered
null first, then numbers by value (an integer and a double compared exactly), then texts by a
collation, then blobs by their bytes.
-/

namespace GraphIngest.Sql

/-- A value held by the database. -/
inductive SqlValue where
  | null
  | int (i : Int)
  | real (x : Float)
  | text (s : String)
  | blob (bytes : List UInt8)
  deriving Inhabited

/-- The affinity of a column or an expression: the kind of value it prefers. -/
inductive Affinity where
  | none
  | blob
  | text
  | numeric
  | integer
  | real
  deriving DecidableEq, Inhabited, Repr

/-- Whether an affinity turns text that reads as a number into one. -/
def Affinity.numericLike : Affinity → Bool
  | .numeric | .integer | .real => true
  | _ => false

def Affinity.isNumeric : Affinity → Bool
  | .numeric | .integer | .real => true
  | _ => false

/-- Whether an expression of this affinity has any affinity at all (a column without a declared
type has the blob affinity, which counts). -/
def Affinity.isSome : Affinity → Bool
  | .none => false
  | _ => true

/-- The affinity a declared type gives: scanning the type's letters (case aside), `INT` anywhere
makes it integer at once; otherwise the last of `CHAR`, `CLOB`, `TEXT` makes it text, `BLOB`
(unless text came first) makes it blob, `REAL`, `FLOA`, `DOUB` (when nothing else came first) make
it real; with none of them it is numeric, and without a type it is blob. -/
def Affinity.ofType (t : String) : Affinity :=
  if t.isEmpty then .blob else go (t.toList.map Char.toLower) [] .numeric
where
  /-- Scans the letters, keeping the last four. -/
  go : List Char → List Char → Affinity → Affinity
    | [], _, aff => aff
    | c :: rest, window, aff =>
      let window := (window ++ [c]).drop (window.length + 1 - min (window.length + 1) 4)
      let last3 := window.drop (window.length - min window.length 3)
      if last3 == ['i', 'n', 't'] then .integer
      else if window == ['c', 'h', 'a', 'r'] || window == ['c', 'l', 'o', 'b'] || window == ['t', 'e', 'x', 't'] then
        go rest window .text
      else if window == ['b', 'l', 'o', 'b'] && (aff == .numeric || aff == .real) then go rest window .blob
      else if (window == ['r', 'e', 'a', 'l'] || window == ['f', 'l', 'o', 'a'] || window == ['d', 'o', 'u', 'b'])
          && aff == .numeric then go rest window .real
      else go rest window aff

/-! ## Text and bytes -/

def isContinuation (b : UInt8) : Bool := b ≥ 0x80 && b ≤ 0xBF

/-- The first character of bytes read as UTF-8 and how many bytes it takes; none, with the
length of the ill-formed part (the longest start of a well-formed sequence, or one byte), when
the bytes do not start with a well-formed character. -/
def utf8Next : List UInt8 → Option Char × Nat
  | [] => (none, 0)
  | b :: rest =>
    if b < 0x80 then (some (Char.ofNat b.toNat), 1)
    else
      let (width, lowOk) : Nat × (UInt8 → Bool) :=
        if b ≥ 0xC2 && b ≤ 0xDF then (2, isContinuation)
        else if b == 0xE0 then (3, fun c => c ≥ 0xA0 && c ≤ 0xBF)
        else if b == 0xED then (3, fun c => c ≥ 0x80 && c ≤ 0x9F)
        else if b ≥ 0xE1 && b ≤ 0xEF then (3, isContinuation)
        else if b == 0xF0 then (4, fun c => c ≥ 0x90 && c ≤ 0xBF)
        else if b == 0xF4 then (4, fun c => c ≥ 0x80 && c ≤ 0x8F)
        else if b ≥ 0xF1 && b ≤ 0xF3 then (4, isContinuation)
        else (0, fun _ => false)
      if width == 0 then (none, 1)
      else
        match rest with
        | c1 :: rest1 =>
          if !lowOk c1 then (none, 1)
          else if width == 2 then (some (Char.ofNat ((b.toNat % 32) * 64 + c1.toNat % 64)), 2)
          else
            match rest1 with
            | c2 :: rest2 =>
              if !isContinuation c2 then (none, 2)
              else if width == 3 then
                (some (Char.ofNat ((b.toNat % 16) * 4096 + (c1.toNat % 64) * 64 + c2.toNat % 64)), 3)
              else
                match rest2 with
                | c3 :: _ =>
                  if !isContinuation c3 then (none, 3)
                  else (some (Char.ofNat ((b.toNat % 8) * 262144 + (c1.toNat % 64) * 4096 +
                    (c2.toNat % 64) * 64 + c3.toNat % 64)), 4)
                | [] => (none, 3)
            | [] => (none, 2)
        | [] => (none, 1)

/-- Reads bytes as UTF-8, each ill-formed part becoming what `bad` makes of its bytes. -/
def utf8Read (bad : List UInt8 → List Char) (bytes : List UInt8) : List Char :=
  go bytes.length bytes
where
  /-- One character at a time; the fuel is the number of bytes left. -/
  go : Nat → List UInt8 → List Char
    | 0, _ => []
    | _, [] => []
    | fuel + 1, bs =>
      match utf8Next bs with
      | (some c, n) => c :: go fuel (bs.drop n)
      | (none, n) => bad (bs.take (max n 1)) ++ go fuel (bs.drop (max n 1))

/-- The characters of bytes read as UTF-8, where each ill-formed part stands for one replacement
character. -/
def utf8Lossy (bytes : List UInt8) : String :=
  String.ofList (utf8Read (fun _ => ['�']) bytes)

/-- The character that stands in a text for a byte outside any well-formed UTF-8 sequence, so
that the text keeps its bytes: one of the last 256 code points. -/
def byteStandIn (b : UInt8) : Char := Char.ofNat (0x10FF00 + b.toNat)

def isStandIn (c : Char) : Bool := c.val ≥ 0x10FF00

/-- The byte a character stands in for, if it is a stand-in. -/
def standInByte? (c : Char) : Option UInt8 :=
  if c.val ≥ 0x10FF00 then some (c.val - 0x10FF00).toUInt8 else none

/-- The text of bytes read as UTF-8, the bytes of each ill-formed part kept by stand-ins. -/
def utf8Text (bytes : List UInt8) : String :=
  String.ofList (utf8Read (·.map byteStandIn) bytes)

/-- The bytes of a text: the UTF-8 of each character, and its byte for a stand-in. -/
def textBytes (s : String) : List UInt8 :=
  if s.any isStandIn then
    s.toList.flatMap fun c => match standInByte? c with
      | some b => [b]
      | none => (String.singleton c).toUTF8.toList
  else s.toUTF8.toList

/-- A text as it is shown: its bytes read as UTF-8, each ill-formed part as one replacement
character. -/
def shownText (s : String) : String :=
  if s.any isStandIn then utf8Lossy (textBytes s) else s

/-! ## Numbers out of values -/

/-- A double truncated into the 64-bit range, its ends holding everything beyond. -/
def realToInt (x : Float) : Int :=
  if x != x then minInt
  else if x ≤ Binary64.ofInt minInt then minInt
  else if x ≥ Binary64.ofInt maxInt then maxInt
  else Binary64.truncate x

/-- A double clamped into the 64-bit range a little inside its ends, then truncated. -/
def realToIntInside (x : Float) : Int :=
  if x < Binary64.ofInt (-9223372036854774784) then minInt
  else if x > Binary64.ofInt 9223372036854774784 then maxInt
  else Binary64.truncate x

/-- Whether a double stands for the integer exactly: zero, or a whole value of magnitude below
`2^51` whose double is the same. -/
def realSameAsInt (x : Float) (i : Int) : Bool :=
  x == 0.0 || (x.toBits == (Binary64.ofInt i).toBits && -2251799813685248 ≤ i && i < 2251799813685248)

def intToReal (i : Int) : Float := Binary64.ofInt i

/-- The text of a number, as text affinity writes it. -/
def numberText : SqlValue → Option String
  | .int i => some (toString i)
  | .real x => some (realText x)
  | _ => none

/-- The characters a value has as text: numbers written out, blobs read as UTF-8. -/
def SqlValue.textChars : SqlValue → List Char
  | .int i => (toString i).toList
  | .real x => (realText x).toList
  | .text s => s.toList
  | .blob b => (utf8Text b).toList
  | .null => []

/-- A value as a double: numbers converted, texts and blobs by their longest numeric prefix,
null as zero. -/
def SqlValue.toReal : SqlValue → Float
  | .null => 0.0
  | .int i => intToReal i
  | .real x => x
  | v => (readReal v.textChars).2

/-- A value as an integer: a double truncated, texts and blobs by their longest integer prefix,
null as zero. -/
def SqlValue.toInt : SqlValue → Int
  | .null => 0
  | .int i => i
  | .real x => realToInt x
  | v => (readInt v.textChars).2

/-- The number a value stands for in arithmetic: an integer when the text is one, else a double
(of the longest numeric prefix, zero when there is none). -/
def SqlValue.asNumber : SqlValue → SqlValue
  | .null => .null
  | .int i => .int i
  | .real x => .real x
  | v =>
    let cs := v.textChars
    let (rc, x) := readReal cs
    if rc ≤ 0 then
      let (irc, i) := readInt cs
      if rc == 0 && irc ≤ 1 then .int i else .real x
    else if rc == 1 then
      let (irc, i) := readInt cs
      if irc == 0 then .int i else .real x
    else .real x

/-- A double with a whole value strictly inside the 64-bit range becomes that integer. -/
def realAsInteger (x : Float) : SqlValue :=
  let i := realToInt x
  if Binary64.toInt? x == some i && minInt < i && i < maxInt then .int i else .real x

/-- Text that spells a number becomes that number (an integer when it is one), other values are
kept; `tryInt` also turns a double with a whole value into an integer. -/
def SqlValue.applyNumeric (v : SqlValue) (tryInt : Bool) : SqlValue :=
  match v with
  | .text s =>
    let cs := s.toList
    let (rc, x) := readReal cs
    if rc ≤ 0 then v
    else
      let also : Option Int :=
        if rc == 1 then
          let i := realToIntInside x
          if realSameAsInt x i then some i
          else
            let (irc, j) := readInt cs
            if irc == 0 then some j else none
        else none
      match also with
      | some i => .int i
      | none => if tryInt then realAsInteger x else .real x
  | v => v

def SqlValue.withAffinity (v : SqlValue) : Affinity → SqlValue
  | .text =>
    match v with
    | .int i => .text (toString i)
    | .real x => .text (realText x)
    | v => v
  | .numeric | .integer =>
    match v with
    | .real x => realAsInteger x
    | .text _ => v.applyNumeric true
    | v => v
  | .real =>
    match v with
    | .int i => .real (intToReal i)
    | .real x => .real (if x == 0.0 then 0.0 else x)
    | .text _ =>
      match v.applyNumeric true with
      | .int i => .real (intToReal i)
      | w => w
    | v => v
  | .blob | .none => v

/-- A value converted by `CAST` to a type of the affinity. -/
def SqlValue.cast (v : SqlValue) (aff : Affinity) : SqlValue :=
  match v with
  | .null => .null
  | _ =>
    match aff with
    | .text => .text (String.ofList v.textChars)
    | .blob | .none =>
      match v with
      | .blob b => .blob b
      | v => .blob (textBytes (String.ofList v.textChars))
    | .integer => .int v.toInt
    | .real => .real v.toReal
    | .numeric =>
      match v with
      | .int i => .int i
      | .real x => .real x
      | v =>
        let cs := v.textChars
        let (rc, x) := readReal cs
        let (irc, i) := readInt cs
        if (rc == 0 || rc == 1) && irc ≤ 1 then .int i
        else
          let j := realToIntInside x
          if realSameAsInt x j then .int j else .real x

/-- The truth of a value: null is unknown, numbers are true when not zero, texts and blobs by
their numeric prefix. -/
def SqlValue.truth : SqlValue → Option Bool
  | .null => none
  | .int i => some (i != 0)
  | v => some (v.toReal != 0.0)

/-- The name of a value's kind, as `typeof` gives it. -/
def SqlValue.typeName : SqlValue → String
  | .null => "null"
  | .int _ => "integer"
  | .real _ => "real"
  | .text _ => "text"
  | .blob _ => "blob"

/-- A truth as a value: 1, 0 or null. -/
def ofTruth : Option Bool → SqlValue
  | some true => .int 1
  | some false => .int 0
  | none => .null

/-! ## Order -/

/-- How texts are compared. -/
inductive Collation where
  | binary
  | nocase
  | rtrim
  deriving DecidableEq, Inhabited

/-- The collation of a name, if the database knows it. -/
def Collation.ofName? (name : String) : Option Collation :=
  let u := name.toUpper
  if u == "BINARY" then some .binary
  else if u == "NOCASE" then some .nocase
  else if u == "RTRIM" then some .rtrim
  else none

/-- Lexicographic order of two lists by an order of their items, a shorter prefix first. -/
def compareLists [Ord α] : List α → List α → Ordering
  | [], [] => .eq
  | [], _ :: _ => .lt
  | _ :: _, [] => .gt
  | a :: as, b :: bs =>
    match compare a b with
    | .eq => compareLists as bs
    | o => o

/-- Order of two texts under a collation: by code points (the order of their UTF-8 bytes), with
ASCII letters folded to lower case, or with trailing spaces ignored. -/
def Collation.compare (c : Collation) (a b : String) : Ordering :=
  match c with
  | .binary => compareLists a.toList b.toList
  | .nocase =>
    let fold (ch : Char) : Char := if 'A' ≤ ch && ch ≤ 'Z' then Char.ofNat (ch.toNat + 32) else ch
    compareLists (a.toList.map fold) (b.toList.map fold)
  | .rtrim =>
    let trim (s : String) : List Char := (s.toList.reverse.dropWhile (· == ' ')).reverse
    compareLists (trim a) (trim b)

/-- Exact order of an integer and a finite or infinite double. -/
def compareIntReal (i : Int) (x : Float) : Ordering :=
  if x != x then .gt
  else if !Binary64.isFinite x then (if x > 0.0 then .lt else .gt)
  else
    let (neg, num, den) := Binary64.toRatio x
    let lhs : Int := i * den
    let rhs : Int := if neg then -(num : Int) else num
    compare lhs rhs

def compareReals (x y : Float) : Ordering :=
  if x < y then .lt else if x > y then .gt else .eq

/-- Order of two values (see the module note). -/
def SqlValue.compareWith (coll : Collation) : SqlValue → SqlValue → Ordering
  | .null, .null => .eq
  | .null, _ => .lt
  | _, .null => .gt
  | .int i, .int j => compare i j
  | .int i, .real y => compareIntReal i y
  | .real x, .int j => (compareIntReal j x).swap
  | .real x, .real y => compareReals x y
  | .int _, _ => .lt
  | .real _, _ => .lt
  | _, .int _ => .gt
  | _, .real _ => .gt
  | .text a, .text b => coll.compare a b
  | .text _, .blob _ => .lt
  | .blob _, .text _ => .gt
  | .blob a, .blob b => compareLists a b

/-- Whether two values are the same under a collation (nulls are the same as each other). -/
def SqlValue.same (coll : Collation) (a b : SqlValue) : Bool := a.compareWith coll b == .eq

end GraphIngest.Sql
