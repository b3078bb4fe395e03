import GraphIngest.Sql.Value
import GraphIngest.Sql.Syntax
import GraphIngest.Sql.Fault
import GraphIngest.Sql.Json.Function
import GraphIngest.Sql.Format
import GraphIngest.Sql.Calendar

/-!
# Operators and built-in functions

Arithmetic works on integers while both operands are (or spell) integers and the result fits in
64 bits, and on doubles otherwise; dividing by zero, and a result that is not a number, give
null. Comparisons first convert their operands by the affinity the comparison takes from its
operands. The scalar functions take values and give a value or a fault; the aggregate functions
fold over the values of a group.
-/

namespace GraphIngest.Sql

/-- Whether an integer fits in 64 bits. -/
def fits (i : Int) : Bool := minInt ≤ i && i ≤ maxInt

/-- Integer arithmetic that reports an overflow as `none`. -/
def intArith (op : BinaryOp) (a b : Int) : Option SqlValue :=
  match op with
  | .add => if fits (a + b) then some (.int (a + b)) else none
  | .sub => if fits (a - b) then some (.int (a - b)) else none
  | .mul => if fits (a * b) then some (.int (a * b)) else none
  | .div =>
    if b == 0 then some .null
    else if a == minInt && b == -1 then none
    else some (.int (Int.tdiv a b))
  | .rem =>
    if b == 0 then some .null
    else some (.int (Int.tmod a (if b == -1 then 1 else b)))
  | _ => some .null

/-- Double arithmetic; a remainder is taken on the operands as integers. -/
def realArith (op : BinaryOp) (a b : SqlValue) : SqlValue :=
  let x := a.toReal
  let y := b.toReal
  let r : Option Float := match op with
    | .add => some (x + y)
    | .sub => some (x - y)
    | .mul => some (x * y)
    | .div => if y == 0.0 then none else some (x / y)
    | .rem =>
      let i := a.toInt
      let j := b.toInt
      if j == 0 then none else some (intToReal (Int.tmod i (if j == -1 then 1 else j)))
    | _ => none
  match r with
  | some v => if v != v then .null else .real v
  | none => .null

/-- The arithmetic operators `+`, `-`, `*`, `/`, `%` on two values. -/
def arith (op : BinaryOp) (a b : SqlValue) : SqlValue :=
  match a, b with
  | .null, _ => .null
  | _, .null => .null
  | _, _ =>
    match a.asNumber, b.asNumber with
    | .int i, .int j =>
      match intArith op i j with
      | some v => v
      | none => realArith op (.int i) (.int j)
    | _, _ => realArith op a b

/-- A 64-bit integer from any integer, wrapping around. -/
def wrap64 (i : Int) : Int :=
  let m := i % Int.pow 2 64
  if m ≥ Int.pow 2 63 then m - Int.pow 2 64 else m

/-- Shifts a 64-bit integer left (a negative count shifts right); counts of 64 or more give 0, or
-1 for a negative value shifted right. -/
def shiftLeft (a : Int) (n : Int) : Int :=
  if n ≥ 0 then
    if n ≥ 64 then 0 else wrap64 (a * Int.pow 2 n.toNat)
  else
    let k := -n
    if k ≥ 64 then (if a < 0 then -1 else 0) else Int.fdiv a (Int.pow 2 k.toNat)

/-- The bit operators `&`, `|`, `<<`, `>>` on two values. -/
def bitArith (op : BinaryOp) (a b : SqlValue) : SqlValue :=
  match a, b with
  | .null, _ => .null
  | _, .null => .null
  | _, _ =>
    let x := a.toInt
    let y := b.toInt
    let toBits (i : Int) : Nat := (i % Int.pow 2 64).toNat
    match op with
    | .bitAnd => .int (wrap64 (Nat.land (toBits x) (toBits y)))
    | .bitOr => .int (wrap64 (Nat.lor (toBits x) (toBits y)))
    | .shl => .int (shiftLeft x y)
    | .shr => .int (shiftLeft x (if y == minInt then maxInt else -y))
    | _ => .null

/-- `||`: the texts of both operands, null when either is null. -/
def concatValues (a b : SqlValue) : SqlValue :=
  match a, b with
  | .null, _ => .null
  | _, .null => .null
  | _, _ => .text (String.ofList (a.textChars ++ b.textChars))

/-- Unary minus: the number negated, as subtraction from zero. -/
def negate (v : SqlValue) : SqlValue := arith .sub (.int 0) v

/-- The conversion an operand of a comparison undergoes: under a numeric affinity, text that
spells a number becomes that number; under text affinity, a number becomes its text when the
other operand is text. -/
def compareConvert (aff : Affinity) (otherIsText : Bool) (v : SqlValue) : SqlValue :=
  if aff.isNumeric then
    match v with
    | .text _ => v.applyNumeric false
    | v => v
  else if aff == .text then
    match v with
    | .int _ | .real _ =>
      match v with
      | .text _ => v
      | _ => if otherIsText then .text (String.ofList v.textChars) else v
    | v => v
  else v

def SqlValue.isText : SqlValue → Bool
  | .text _ => true
  | _ => false

def SqlValue.isNull : SqlValue → Bool
  | .null => true
  | _ => false

def convertPair (aff : Affinity) (a b : SqlValue) : SqlValue × SqlValue :=
  let anyText := a.isText || b.isText
  if aff == .text && !anyText then (a, b)
  else (compareConvert aff anyText a, compareConvert aff anyText b)

/-- A comparison operator on two converted operands: null when either is null. -/
def compareValues (op : BinaryOp) (coll : Collation) (a b : SqlValue) : SqlValue :=
  match a, b with
  | .null, _ => .null
  | _, .null => .null
  | _, _ =>
    let o := a.compareWith coll b
    let r : Bool := match op with
      | .lt => o == .lt
      | .le => o != .gt
      | .gt => o == .gt
      | .ge => o != .lt
      | .eq => o == .eq
      | .ne => o != .eq
      | _ => false
    .int (if r then 1 else 0)

/-- The affinity a comparison takes from the affinities of its operands: numeric when both have
one and either is numeric, none when both have one and neither is numeric, otherwise the one
operand's affinity. -/
def comparisonAffinity (a b : Affinity) : Affinity :=
  if a.isSome && b.isSome then (if a.isNumeric || b.isNumeric then .numeric else .blob)
  else if a.isSome then a
  else b

/-! ## Patterns -/

def foldAscii (c : Char) : Char := if 'A' ≤ c && c ≤ 'Z' then Char.ofNat (c.toNat + 32) else c

/-- How a pattern is read: the wildcard for any run of characters and the one for a single
character, the character that escapes the next one (or, when `classes`, opens a class), and
whether ASCII letters match either case. -/
structure PatternRules where
  any : Option Char
  one : Option Char
  other : Option Char
  classes : Bool
  noCase : Bool

/-- What matching a pattern found: a match, no match, or no match for this start nor any later
one (which ends the search of a wildcard run around it). -/
inductive Matched where
  | yes
  | no
  | never
  deriving BEq

/-- Whether a character is in a class (the pattern after its `[`), and the pattern after the
class; none when the class is not closed. A `^` first inverts the class, a `]` first (after the
`^`) stands for itself, and `a-b` is a range unless the `-` is last or follows no character
(or a range). -/
def classMatch (c : Char) (pat : List Char) : Option (Bool × List Char) :=
  let (invert, pat) := match pat with
    | '^' :: r => (true, r)
    | r => (false, r)
  let (seen, pat) := match pat with
    | ']' :: r => (c == ']', r)
    | r => (false, r)
  go invert seen none pat
where
  /-- Reads the class on, `prior` being the character before that a `-` may start a range from. -/
  go (invert seen : Bool) (prior : Option Char) : List Char → Option (Bool × List Char)
    | [] => none
    | ']' :: rest => some (seen != invert, rest)
    | '-' :: d :: rest =>
      match prior with
      | some lo => if d != ']' then go invert (seen || (lo ≤ c && c ≤ d)) none rest
        else go invert (seen || c == '-') (some '-') (d :: rest)
      | none => go invert (seen || c == '-') (some '-') (d :: rest)
    | c2 :: rest => go invert (seen || c == c2) (some c2) rest

/-- Whether two characters are the same, ASCII case aside when the rules say so. -/
def PatternRules.same (r : PatternRules) (p c : Char) : Bool :=
  p == c || (r.noCase && p.toNat < 128 && c.toNat < 128 && foldAscii p == foldAscii c)

/-- Drops the wildcards after a run's first one, each single-character wildcard taking a
character of the text; none when the text runs out. -/
def PatternRules.skipWildcards (r : PatternRules) : List Char → List Char → Option (List Char × List Char)
  | [], text => some ([], text)
  | c :: rest, text =>
    if some c == r.any then r.skipWildcards rest text
    else if some c == r.one then
      match text with
      | [] => none
      | _ :: t => r.skipWildcards rest t
    else some (c :: rest, text)

/-- The first of the results that is not `no`, else `never`. -/
def firstFound (results : List (Unit → Matched)) : Matched :=
  match results.find? (fun f => f () != .no) with
  | some f => f ()
  | none => .never

def PatternRules.compare (r : PatternRules) : Nat → List Char → List Char → Matched
  | 0, _, _ => .no
  | fuel + 1, pat, text =>
    match pat with
    | [] => if text.isEmpty then .yes else .no
    | c :: prest =>
      if some c == r.any then
        match r.skipWildcards prest text with
        | none => .never
        | some ([], _) => .yes
        | some (c :: after, text) =>
          if some c == r.other && r.classes then
            -- a class right after the run: try it at each start
            firstFound ((List.range text.length).map fun k _ => r.compare fuel (c :: after) (text.drop k))
          else
            let (c, after) : Option Char × List Char :=
              if some c == r.other then (after.head?, after.drop 1) else (some c, after)
            match c with
            | none => .never
            | some c =>
              -- the next literal character: try each place of the text that holds it
              firstFound ((List.range text.length).filterMap fun k =>
                if r.same c (text.getD k ' ') && (c.toNat < 128 || text.getD k ' ' == c) then
                  some fun _ => r.compare fuel after (text.drop (k + 1))
                else none)
      else if some c == r.other then
        if r.classes then
          match text with
          | [] => .no
          | t :: trest =>
            match classMatch t prest with
            | some (true, after) => r.compare fuel after trest
            | _ => .no
        else
          match prest, text with
          | e :: prest', t :: trest => if r.same e t then r.compare fuel prest' trest else .no
          | _, _ => .no
      else
        match text with
        | [] => .no
        | t :: trest =>
          if r.same c t || some c == r.one then r.compare fuel prest trest else .no

/-- Whether a text matches a `LIKE` pattern; `esc` is the escape character, if any, and takes
the place of a wildcard that it equals. -/
def likeMatch (caseSensitive : Bool) (esc : Option Char) (pat text : List Char) : Bool :=
  let rules : PatternRules :=
    { any := if esc == some '%' then none else some '%',
      one := if esc == some '_' then none else some '_',
      other := esc, classes := false, noCase := !caseSensitive }
  rules.compare (pat.length + 1) pat text == .yes

/-- Whether a text matches a `GLOB` pattern. -/
def globMatch (pat text : List Char) : Bool :=
  let rules : PatternRules :=
    { any := some '*', one := some '?', other := some '[', classes := true, noCase := false }
  rules.compare (pat.length + 1) pat text == .yes

/-! ## Scalar functions -/

/-- The argument counts of the scalar functions: the least, and the most (none for any). -/
def scalarArity (name : String) : Option (Nat × Option Nat) :=
  match name with
  | "abs" | "hex" | "length" | "octet_length" | "lower" | "upper" | "quote" | "typeof"
  | "unicode" | "zeroblob" | "likely" | "unlikely" | "sign" | "soundex" | "randomblob" => some (1, some 1)
  | "ifnull" | "nullif" | "instr" | "likelihood" | "glob" => some (2, some 2)
  | "iif" | "replace" => some (3, some 3)
  | "like" => some (2, some 3)
  | "substr" | "substring" => some (2, some 3)
  | "trim" | "ltrim" | "rtrim" | "round" | "unhex" => some (1, some 2)
  | "coalesce" => some (2, none)
  | "char" => some (0, none)
  | "printf" | "format" => some (0, none)
  | "date" | "time" | "datetime" | "julianday" | "unixepoch" | "strftime" => some (0, none)
  | "timediff" => some (2, some 2)
  | "load_extension" => some (1, some 2)
  | "concat" => some (1, none)
  | "concat_ws" => some (2, none)
  | "max" | "min" => some (2, none)
  | "random" | "changes" | "total_changes" | "last_insert_rowid" | "sqlite_version"
  | "sqlite_source_id" | "fts5_source_id"
  | "current_time" | "current_date" | "current_timestamp" => some (0, some 0)
  | "subtype" | "fts5" | "rtreedepth" | "offsets" | "optimize" => some (1, some 1)
  | "sqlite_log" | "rtreenode" | "match" => some (2, some 2)
  | "fts3_tokenizer" | "matchinfo" => some (1, some 2)
  | "rtreecheck" | "highlight" | "bm25" | "snippet" => some (0, none)
  | _ => Json.arity name

def aggregateArity (name : String) : Option (Nat × Nat) :=
  match name with
  | "count" => some (0, 1)
  | "sum" | "total" | "avg" | "min" | "max" => some (1, 1)
  | "group_concat" => some (1, 2)
  | "string_agg" => some (2, 2)
  | "json_group_array" | "jsonb_group_array" => some (1, 1)
  | "json_group_object" | "jsonb_group_object" => some (2, 2)
  | _ => none

def isAggregateCall (name : String) (args : Nat) (star : Bool) : Bool :=
  match aggregateArity name with
  | some (lo, hi) => (star && name == "count") || (lo ≤ args && args ≤ hi)
  | none => false

def beforeNul (cs : List Char) : List Char := cs.takeWhile (· != '\x00')

/-- How many characters the database counts in bytes, up to the first NUL: a byte from 0xC0 up
takes the continuation bytes right after it along (`lead` says the byte before was one of them
or is taken along with it). -/
def countedChars : List UInt8 → Bool → Nat
  | [], _ => 0
  | b :: rest, lead =>
    if b == 0 then 0
    else if lead && isContinuation b then countedChars rest true
    else 1 + countedChars rest (b ≥ 0xC0)

/-- The code point the database reads at the start of bytes: a byte from 0xC0 up takes all the
continuation bytes after it, and a value that is no character (an overlong form, a surrogate,
U+FFFE or U+FFFF) reads as U+FFFD. -/
def firstCodePoint (b : UInt8) (rest : List UInt8) : Nat :=
  if b < 0xC0 then b.toNat
  else
    let lead := b.toNat - 0xC0
    let start := if lead < 32 then lead % 32 else if lead < 48 then lead % 16
      else if lead < 56 then lead % 8 else if lead < 60 then lead % 4
      else if lead < 62 then lead % 2 else 0
    let c := (rest.takeWhile isContinuation).foldl
      (fun c x => (c * 64 + x.toNat % 64) % 4294967296) start
    if c < 0x80 || (c / 2048) * 2048 == 0xD800 || (c / 2) * 2 == 0xFFFE then 0xFFFD else c

/-- The hex digits of bytes, upper case. -/
def hexText (bytes : List UInt8) : String :=
  let digit (n : Nat) : Char := if n < 10 then Char.ofNat (48 + n) else Char.ofNat (55 + n)
  String.ofList (bytes.flatMap fun b => [digit (b.toNat / 16), digit (b.toNat % 16)])

def SqlValue.bytes : SqlValue → List UInt8
  | .blob b => b
  | v => textBytes (String.ofList v.textChars)

/-- The UTF-8 bytes of a code point, written as the database writes them (out-of-range values
as U+FFFD). -/
def codePointBytes (x : Int) : List UInt8 :=
  let c : Nat := if x < 0 || x > 0x10ffff then 0xfffd else x.toNat
  if c < 0x80 then [c.toUInt8]
  else if c < 0x800 then [(0xC0 + c / 64).toUInt8, (0x80 + c % 64).toUInt8]
  else if c < 0x10000 then
    [(0xE0 + c / 4096).toUInt8, (0x80 + c / 64 % 64).toUInt8, (0x80 + c % 64).toUInt8]
  else
    [(0xF0 + c / 262144).toUInt8, (0x80 + c / 4096 % 64).toUInt8, (0x80 + c / 64 % 64).toUInt8,
      (0x80 + c % 64).toUInt8]

def trimChars (set : List Char) (left right : Bool) (cs : List Char) : List Char :=
  let cs := if left then cs.dropWhile (set.contains ·) else cs
  if right then (cs.reverse.dropWhile (set.contains ·)).reverse else cs

def replaceAll (pat rep : List Char) : Nat → List Char → List Char
  | 0, cs => cs
  | fuel + 1, cs =>
    match cs with
    | [] => []
    | c :: rest =>
      if pat.isPrefixOf cs then rep ++ replaceAll pat rep fuel (cs.drop pat.length)
      else c :: replaceAll pat rep fuel rest

/-- The position (from 1) of the first occurrence of a pattern, 0 when absent. -/
def findPosition [BEq α] (pat : List α) (cs : List α) : Nat :=
  match (List.range (cs.length + 1)).find? fun k => pat.isPrefixOf (cs.drop k) with
  | some k => if k + pat.length ≤ cs.length then k + 1 else 0
  | none => 0

/-- `substr`: the part of a text (by characters) or blob (by bytes) starting at `p1` (from 1;
negative counts from the end) of length `p2` (negative takes the characters before). -/
def substrOf {α : Type} (items : List α) (start : Int) (len : Option Int) : List α :=
  let total : Int := items.length
  let (p2, negP2) : Int × Bool := match len with
    | some l => if l < 0 then (-l, true) else (l, false)
    | none => (1000000000, false)
  let (p1, p2) : Int × Int :=
    if start < 0 then
      let p1 := start + total
      if p1 < 0 then (0, max 0 (p2 + p1)) else (p1, p2)
    else if start > 0 then (start - 1, p2)
    else if p2 > 0 then (0, p2 - 1) else (0, p2)
  let (p1, p2) : Int × Int :=
    if negP2 then
      let p1' := p1 - p2
      if p1' < 0 then (0, p2 + p1') else (p1', p2)
    else (p1, p2)
  (items.drop p1.toNat).take p2.toNat

/-- Rounds a double to `n` decimal places: values beyond `2^52` have none to round; with no places
the value is moved half a unit away from zero and truncated; otherwise it is written with `n`
places (`%!.nf`) and read back. -/
def roundTo (x : Float) (n : Nat) : Float :=
  if x < -4503599627370496.0 || x > 4503599627370496.0 then x
  else if n == 0 then
    intToReal (Binary64.truncate (if x < 0.0 then x - 0.5 else x + 0.5))
  else (readReal (Format.formatReal ("%!." ++ toString n ++ "f") x).toList).2

/-- The sound class of an ASCII letter for `soundex` (0 for vowels and the letters it skips). -/
def soundClass (b : UInt8) : Nat :=
  let c := Char.ofNat (b.toNat % 128)
  let u := if 'a' ≤ c && c ≤ 'z' then Char.ofNat (c.toNat - 32) else c
  if 'A' ≤ u && u ≤ 'Z' then
    [0, 1, 2, 3, 0, 1, 2, 0, 0, 2, 2, 4, 5, 5, 0, 1, 2, 6, 2, 3, 0, 1, 0, 2, 0, 2].getD (u.toNat - 65) 0
  else 0

def isAsciiLetter (b : UInt8) : Bool := (65 ≤ b && b ≤ 90) || (97 ≤ b && b ≤ 122)

/-- `soundex`: the first ASCII letter, upper case, then the classes of the letters after it (a
repeated class counts once unless a letter of class 0 stands between), four characters in all;
`?000` when there is no letter. Bytes beyond ASCII are classed by their low seven bits. -/
def soundex (bytes : List UInt8) : String :=
  match bytes.dropWhile (!isAsciiLetter ·) with
  | [] => "?000"
  | first :: rest =>
    let (codes, _) := rest.foldl (fun (acc : List Nat × Nat) b =>
      let (codes, prev) := acc
      let code := soundClass b
      if code == 0 then (codes, 0)
      else if code == prev then (codes, prev)
      else (codes ++ [code], code)) ([], soundClass first)
    let upper := if 97 ≤ first then first - 32 else first
    String.ofList (Char.ofNat upper.toNat :: ((codes.take 3).map fun d => Char.ofNat (48 + d)) ++
      List.replicate (3 - min 3 codes.length) '0')

def hexValue? (b : UInt8) : Option Nat :=
  if 48 ≤ b && b ≤ 57 then some (b.toNat - 48)
  else if 65 ≤ b && b ≤ 70 then some (b.toNat - 55)
  else if 97 ≤ b && b ≤ 102 then some (b.toNat - 87)
  else none

/-- `unhex`: the bytes of pairs of hex digits; characters of `pass` may stand between pairs, and
anything else gives none. -/
def unhexBytes (pass : List Char) : Nat → List Char → Option (List UInt8)
  | 0, _ => some []
  | _ + 1, [] => some []
  | fuel + 1, c :: rest =>
    let digit (c : Char) : Option Nat := if c.toNat < 128 then hexValue? c.toNat.toUInt8 else none
    match digit c with
    | some h =>
      match rest with
      | d :: more =>
        match digit d with
        | some l => (unhexBytes pass fuel more).map ((h * 16 + l).toUInt8 :: ·)
        | none => none
      | [] => none
    | none => if pass.contains c then unhexBytes pass fuel rest else none

/-- `quote`: the text of a value as a literal. -/
def quoteValue : SqlValue → String
  | .null => "NULL"
  | .int i => toString i
  | .real x =>
    -- fifteen digits when they read back as the same double, else twenty-one
    let short := Format.formatReal "%!0.15g" x
    if (readReal short.toList).2 == x then short else Format.formatReal "%!0.20e" x
  | .text s =>
    "'" ++ String.ofList ((beforeNul s.toList).flatMap fun c => if c == '\'' then ['\'', '\''] else [c]) ++ "'"
  | .blob b => "X'" ++ hexText b ++ "'"

/-- The scalar functions whose value may change from one call to the next with the same
arguments, or between connections: a definition that is evaluated again later may not use them. -/
def changingFunction (name : String) : Bool :=
  ["random", "randomblob", "changes", "total_changes", "last_insert_rowid", "sqlite_version",
    "sqlite_source_id", "current_date", "current_time", "current_timestamp", "load_extension",
    "fts3_tokenizer", "fts5", "highlight", "bm25", "snippet", "match", "matchinfo", "offsets",
    "optimize", "rtreecheck", "rtreedepth", "rtreenode"].contains name

def sourceId : String :=
  "2024-05-23 13:25:27 96c92aba00c8375bc32fafcdf12429c58bd8aabfcadab6683e35bbb9cdebf19e"

/-- The functions the full-text search modules declare only to be overloaded by their tables:
called anywhere else, they fail with the name given here. -/
def tableOnlyFunction? (name : String) : Option String :=
  match name with
  | "highlight" | "bm25" | "snippet" | "offsets" | "optimize" | "matchinfo" => some name
  | "match" => some "MATCH"
  | _ => none

def bigEndian (bytes : List UInt8) : Nat :=
  bytes.foldl (fun acc b => acc * 256 + b.toNat) 0

/-- The cells of an r-tree node (its bytes, with `dims` dimensions), as `rtreenode` shows
them: `{rowid lo hi ...}` for each, the bounds as 32-bit reals. None when the node is too short
for the cells its header counts. -/
def rtreeCells (dims : Nat) (node : List UInt8) : Option String :=
  let cellSize := 8 + 8 * dims
  let count := bigEndian ((node.drop 2).take 2)
  if node.length < 4 || node.length < count * cellSize then none
  else
    let cell (i : Nat) : String :=
      let bytes := (node.drop (4 + i * cellSize)).take cellSize
      let rowid : Int := Int.ofNat (bigEndian (bytes.take 8))
      let rowid := if rowid ≥ Int.ofNat (Nat.pow 2 63) then rowid - Int.ofNat (Nat.pow 2 64) else rowid
      let bound (j : Nat) : String :=
        let bits := bigEndian ((bytes.drop (8 + 4 * j)).take 4)
        Format.formatReal "%g" (Float32.ofBits bits.toUInt32).toFloat
      "\x7b" ++ " ".intercalate (toString rowid :: (List.range (2 * dims)).map bound) ++ "\x7d"
    some (" ".intercalate ((List.range count).map cell))

/-- Applies a scalar function to its arguments, `now` being the connection's clock (milliseconds
on the Julian day count). -/
def applyScalar (now : Int) (name : String) (args : List SqlValue) : Except SqlFault SqlValue :=
  let arg (i : Nat) : SqlValue := args.getD i .null
  match name with
  | "printf" | "format" => .ok (Format.format args)
  | "date" | "current_date" => .ok (Calendar.date now args)
  | "time" | "current_time" => .ok (Calendar.time now args)
  | "datetime" | "current_timestamp" => .ok (Calendar.datetime now args)
  | "julianday" => .ok (Calendar.julianday now args)
  | "unixepoch" => .ok (Calendar.unixepoch now args)
  | "strftime" => .ok (Calendar.strftime now args)
  | "timediff" => .ok (Calendar.timediff now (arg 0) (arg 1))
  | "abs" =>
    match arg 0 with
    | .null => .ok .null
    | .int i => if i == minInt then .error .integerOverflow else .ok (.int i.natAbs)
    | v => let x := v.toReal; .ok (.real (if x < 0.0 then -x else x))
  | "length" =>
    match arg 0 with
    | .null => .ok .null
    | .blob b => .ok (.int b.length)
    | v => .ok (.int (countedChars v.bytes false))
  | "octet_length" =>
    match arg 0 with
    | .null => .ok .null
    | v => .ok (.int v.bytes.length)
  | "lower" | "upper" =>
    match arg 0 with
    | .null => .ok .null
    | v =>
      let f (c : Char) : Char :=
        if name == "lower" then foldAscii c
        else if 'a' ≤ c && c ≤ 'z' then Char.ofNat (c.toNat - 32) else c
      .ok (.text (String.ofList (v.textChars.map f)))
  | "typeof" => .ok (.text (arg 0).typeName)
  | "hex" => .ok (.text (hexText (arg 0).bytes))
  | "quote" => .ok (.text (quoteValue (arg 0)))
  | "unicode" =>
    match arg 0 with
    | .null => .ok .null
    | v => match v.bytes with
      | [] | 0 :: _ => .ok .null
      | b :: rest => .ok (.int (firstCodePoint b rest))
  | "zeroblob" =>
    let n := (max 0 (arg 0).toInt).toNat
    if n > 1000000000 then .error .tooBig else .ok (.blob (List.replicate n 0))
  | "randomblob" =>
    let n := (max 1 (arg 0).toInt).toNat
    if n > 1000000000 then .error .tooBig
    else .ok (.blob ((List.range n).map fun i => (i * 167 + 89).toUInt8))
  | "random" => .ok (.int (-4160176834932715661))
  | "load_extension" => .error (.otherMessage "not authorized")
  | "soundex" =>
    let bytes := match arg 0 with
      | .null => []
      | v => (textBytes (String.ofList v.textChars)).takeWhile (· != 0)
    .ok (.text (soundex bytes))
  | "unhex" =>
    match arg 0, (if args.length > 1 then arg 1 else .text "") with
    | .null, _ => .ok .null
    | _, .null => .ok .null
    | x, p =>
      let cs := beforeNul x.textChars
      match unhexBytes (beforeNul p.textChars) (cs.length + 1) cs with
      | some bs => .ok (.blob bs)
      | none => .ok .null
  | "char" => .ok (.text (utf8Text (args.flatMap fun v => codePointBytes v.toInt)))
  | "coalesce" | "ifnull" => .ok ((args.find? (!·.isNull)).getD .null)
  | "nullif" =>
    if (arg 0).isNull || (arg 1).isNull then .ok (arg 0)
    else if (arg 0).same .binary (arg 1) then .ok .null else .ok (arg 0)
  | "iif" => .ok (if (arg 0).truth == some true then arg 1 else arg 2)
  | "likely" | "unlikely" | "likelihood" => .ok (arg 0)
  | "instr" =>
    match arg 0, arg 1 with
    | .null, _ => .ok .null
    | _, .null => .ok .null
    | .blob a, .blob b => .ok (.int (findPosition b a))
    | a, b => .ok (.int (findPosition b.textChars a.textChars))
  | "replace" =>
    match arg 0, arg 1, arg 2 with
    | .null, _, _ => .ok .null
    | _, .null, _ => .ok .null
    | x, p, r =>
      let pat := p.textChars
      -- a pattern that is empty or starts with a zero byte matches nothing; the value comes back
      -- as text
      if pat.isEmpty || pat.head? == some (Char.ofNat 0) then .ok (.text (String.ofList x.textChars))
      else match r with
        | .null => .ok .null
        | _ => .ok (.text (String.ofList (replaceAll pat r.textChars (x.textChars.length + 1) x.textChars)))
  | "trim" | "ltrim" | "rtrim" =>
    match arg 0 with
    | .null => .ok .null
    | v =>
      let set := if args.length > 1 then (match arg 1 with | .null => none | s => some s.textChars) else some [' ']
      match set with
      | none => .ok .null
      | some set =>
        .ok (.text (String.ofList (trimChars set (name != "rtrim") (name != "ltrim") v.textChars)))
  | "substr" | "substring" =>
    if (arg 1).isNull || (args.length > 2 && (arg 2).isNull) then .ok .null
    else
      let toInt32 (v : SqlValue) : Int :=
        let i := v.toInt
        let m := i % Int.pow 2 32
        if m ≥ Int.pow 2 31 then m - Int.pow 2 32 else m
      let start := toInt32 (arg 1)
      let len := if args.length > 2 then some (toInt32 (arg 2)) else none
      match arg 0 with
      | .null => .ok .null
      | .blob b => .ok (.blob (substrOf b start len))
      | v => .ok (.text (String.ofList (substrOf (beforeNul v.textChars) start len)))
  | "round" =>
    if args.length > 1 && (arg 1).isNull then .ok .null
    else
      match arg 0 with
      | .null => .ok .null
      | v =>
        let n := if args.length > 1 then max 0 (min 30 (Format.toInt32 (arg 1).toInt)) else 0
        .ok (.real (roundTo v.toReal n.toNat))
  | "sign" =>
    -- only numbers, and texts that are wholly a number, have a sign
    match (arg 0).applyNumeric false with
    | .int i => .ok (.int (if i > 0 then 1 else if i < 0 then -1 else 0))
    | .real x => .ok (if x > 0.0 then .int 1 else if x < 0.0 then .int (-1) else .int 0)
    | _ => .ok .null
  | "max" | "min" =>
    if args.any (·.isNull) then .ok .null
    else
      let pick (best v : SqlValue) : SqlValue :=
        let o := v.compareWith .binary best
        if (name == "max" && o == .gt) || (name == "min" && o == .lt) then v else best
      match args with
      | first :: rest => .ok (rest.foldl pick first)
      | [] => .ok .null
  | "concat" => .ok (.text (String.ofList (args.flatMap fun v => if v.isNull then [] else v.textChars)))
  | "concat_ws" =>
    match args with
    | .null :: _ => .ok .null
    | sep :: rest =>
      -- an empty value is left out with its separator
      let parts := (rest.map (·.textChars)).filter (!·.isEmpty)
      .ok (.text (String.ofList (parts.intersperse sep.textChars).flatten))
    | [] => .ok .null
  | "sqlite_version" => .ok (.text "3.46.0")
  | "sqlite_source_id" => .ok (.text sourceId)
  | "fts5_source_id" => .ok (.text ("fts5: " ++ sourceId))
  | "fts3_tokenizer" =>
    if args.length == 2 then .error (.otherMessage "fts3tokenize disabled")
    else
      let given := String.ofList (arg 0).textChars
      if ["simple", "porter", "unicode61"].contains given then .ok .null
      else .error (.otherMessage ("unknown tokenizer: " ++ String.ofList ((arg 0).textChars.takeWhile (· != Char.ofNat 0))))
  | "rtreedepth" =>
    match arg 0 with
    | .blob b => if b.length ≥ 2 then .ok (.int (bigEndian (b.take 2))) else .error (.otherMessage "Invalid argument to rtreedepth()")
    | _ => .error (.otherMessage "Invalid argument to rtreedepth()")
  | "rtreenode" =>
    -- the dimension count is taken as a byte
    let dims := ((arg 0).toInt % 256).toNat
    if dims < 1 || dims > 5 || (arg 1).isNull then .ok .null
    else
      match rtreeCells dims (arg 1).bytes with
      | some "" => .ok (.text "not an error")
      | some t => .ok (.text t)
      | none => .ok .null
  | _ =>
    match tableOnlyFunction? name with
    | some shown => .error (.otherMessage ("unable to use function " ++ shown ++ " in the requested context"))
    | none => .ok .null

/-! ## Aggregates -/

/-- The running state of a sum: the integer total while every value is an integer, else a
compensated double sum; the count of values; and whether the integer total overflowed. -/
structure SumState where
  intSum : Int := 0
  realSum : Float := 0.0
  error : Float := 0.0
  count : Nat := 0
  approximate : Bool := false
  overflow : Bool := false

def SumState.addReal (s : SumState) (r : Float) : SumState :=
  let t := s.realSum + r
  let absS := if s.realSum < 0.0 then -s.realSum else s.realSum
  let absR := if r < 0.0 then -r else r
  let err := if absS > absR then s.error + ((s.realSum - t) + r) else s.error + ((r - t) + s.realSum)
  { s with realSum := t, error := err }

/-- Adds an integer to the compensated sum, in two parts when it is large. -/
def SumState.addBigInt (s : SumState) (i : Int) : SumState :=
  if i ≤ -4503599627370496 || i ≥ 4503599627370496 then
    let small := Int.tmod i 16384
    (s.addReal (intToReal (i - small))).addReal (intToReal small)
  else s.addReal (intToReal i)

def SumState.start (s : SumState) : SumState :=
  let i := s.intSum
  if i ≤ -4503599627370496 || i ≥ 4503599627370496 then
    let small := Int.tmod i 16384
    { s with realSum := intToReal (i - small), error := intToReal small, approximate := true }
  else { s with realSum := intToReal i, error := 0.0, approximate := true }

/-- Adds one value to a sum; nulls are skipped. -/
def SumState.add (s : SumState) (v : SqlValue) : SumState :=
  let n := match v with
    | .text _ => v.applyNumeric false
    | .blob _ => .real v.toReal
    | v => v
  match n with
  | .null => s
  | _ =>
    let s := { s with count := s.count + 1 }
    if !s.approximate then
      match n with
      | .int i =>
        if fits (s.intSum + i) then { s with intSum := s.intSum + i }
        else ({ s with overflow := true }.start).addBigInt i
      | _ => s.start.addReal n.toReal
    else
      match n with
      | .int i => s.addBigInt i
      | _ => { s with overflow := false }.addReal n.toReal

def isOverflowed (x : Float) : Bool := x != x || !Binary64.isFinite x

/-- The compensated total. -/
def SumState.real (s : SumState) : Float :=
  if s.approximate then (if isOverflowed s.error then s.realSum else s.realSum + s.error)
  else intToReal s.intSum

/-- Applies an aggregate function to the argument values of a group (one list per row). -/
def applyAggregate (name : String) (star : Bool) (distinct : Bool) (rows : List (List SqlValue)) :
    Except SqlFault SqlValue :=
  let firsts := rows.map fun r => r.headD .null
  let firsts := if distinct then dedupe firsts else firsts
  match name with
  | "count" =>
    if star || rows.all (·.isEmpty) then .ok (.int rows.length)
    else .ok (.int (firsts.filter (!·.isNull)).length)
  | "sum" =>
    let s := firsts.foldl SumState.add {}
    if s.count == 0 then .ok .null
    else if s.approximate then (if s.overflow then .error .integerOverflow else .ok (.real s.real))
    else .ok (.int s.intSum)
  | "total" => .ok (.real (firsts.foldl SumState.add {}).real)
  | "avg" =>
    let s := firsts.foldl SumState.add {}
    if s.count == 0 then .ok .null else .ok (.real (s.real / intToReal s.count))
  | "min" | "max" =>
    let vals := firsts.filter (!·.isNull)
    match vals with
    | first :: rest =>
      .ok (rest.foldl (fun best v =>
        let o := v.compareWith .binary best
        if (name == "max" && o == .gt) || (name == "min" && o == .lt) then v else best) first)
    | [] => .ok .null
  | "group_concat" | "string_agg" =>
    -- each value after the first is preceded by the separator of its own row
    let sepOf (r : List SqlValue) : List Char := match r with
      | _ :: s :: _ => s.textChars
      | _ => [',']
    let rows := if distinct then firsts.map (fun v => [v]) else rows
    let kept := rows.filter fun r => !(r.headD .null).isNull
    match kept with
    | [] => .ok .null
    | first :: rest =>
      .ok (.text (String.ofList ((first.headD .null).textChars ++
        rest.flatMap fun r => sepOf r ++ (r.headD .null).textChars)))
  | _ => .ok .null
where
  /-- Values without repeats, the first of equal ones kept. -/
  dedupe (vs : List SqlValue) : List SqlValue :=
    vs.foldl (fun acc v => if acc.any (·.same .binary v) then acc else acc ++ [v]) []

end GraphIngest.Sql
