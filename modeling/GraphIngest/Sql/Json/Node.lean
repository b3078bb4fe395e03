import GraphIngest.Sql.Value

/-!
# JSON values as the database holds them

A JSON text is read into a `Node` tree that remembers how each number and string was written,
because that decides both how the value prints and how it reads back as SQL. The reader takes
JSON5 as well as plain JSON, and tells whether anything beyond plain JSON was used. Nesting deeper
than 1000 is malformed, and a text ends at its first NUL byte. Printing gives plain JSON without
blanks. Texts and bytes are kept as lists of byte values.
-/

namespace GraphIngest.Sql.Json

/-! ## Bytes -/

/-- The byte value of an ASCII character. -/
def ch (c : Char) : Nat := c.toNat

def asciiBytes (s : String) : List Nat := s.toList.map Char.toNat

/-- The UTF-8 bytes of a text. -/
def utf8 (s : String) : List Nat := s.toUTF8.toList.map (·.toNat)

/-- The text of UTF-8 bytes, malformed sequences replaced. -/
def ofBytes (bs : List Nat) : String := utf8Lossy (bs.map (·.toUInt8))

/-- The byte at a position, NUL past the end. -/
def byteAt (bs : List Nat) (i : Nat) : Nat := bs.getD i 0

def isDigit (b : Nat) : Bool := 48 ≤ b && b ≤ 57

def isHex (b : Nat) : Bool := isDigit b || (65 ≤ b && b ≤ 70) || (97 ≤ b && b ≤ 102)

def isAlpha (b : Nat) : Bool := (65 ≤ b && b ≤ 90) || (97 ≤ b && b ≤ 122)

def isAlnum (b : Nat) : Bool := isAlpha b || isDigit b

/-- The blanks of plain JSON: space, tab, line feed, carriage return. -/
def isSpace (b : Nat) : Bool := b == 32 || b == 9 || b == 10 || b == 13

/-- Whether a byte may start an unquoted member name: a letter, `_`, `$`, or a byte beyond
ASCII. -/
def idStart (b : Nat) : Bool := isAlpha b || b == 95 || b == 36 || b ≥ 128

def idPart (b : Nat) : Bool := idStart b || isDigit b

def lowerByte (b : Nat) : Nat := if 65 ≤ b && b ≤ 90 then b + 32 else b

/-- Whether bytes start with an ASCII word, case aside. -/
def startsNoCase (bs : List Nat) (word : String) : Bool :=
  let w := asciiBytes word
  (bs.take w.length).map lowerByte == w

def startsWith (bs : List Nat) (word : String) : Bool := (asciiBytes word).isPrefixOf bs

/-- Whether bytes start with `u` and four hex digits. -/
def isUnicodeEscape (bs : List Nat) : Bool :=
  byteAt bs 0 == ch 'u' && ((bs.drop 1).take 4).length == 4 && ((bs.drop 1).take 4).all isHex

def isLineSeparator (bs : List Nat) : Bool :=
  byteAt bs 0 == 0xe2 && byteAt bs 1 == 0x80 && (byteAt bs 2 == 0xa8 || byteAt bs 2 == 0xa9)

/-- The length of the bytes inside a block comment, up to and with its closing `*/`: the close
may share no byte with the opening. None when it is not closed. -/
def commentClose (body : List Nat) : Option Nat :=
  match body with
  | [] => none
  | _ :: rest =>
    let rec go (prev : Nat) : List Nat → Nat → Option Nat
      | [], _ => none
      | b :: more, n => if b == ch '/' && prev == ch '*' then some (n + 1) else go b more (n + 1)
    go (byteAt body 0) rest 1

/-- The length of the JSON5 blanks and comments at the start of bytes: the blanks of plain JSON,
vertical tab, form feed, no-break space, the Unicode spaces and separators JSON5 names, the byte
order mark, `/* … */` and `// …` to the end of the line. -/
def blankRun : Nat → List Nat → Nat
  | 0, _ => 0
  | fuel + 1, bs =>
    match bs with
    | [] => 0
    | b :: rest =>
      if b == 9 || b == 10 || b == 11 || b == 12 || b == 13 || b == 32 then 1 + blankRun fuel rest
      else if b == ch '/' then
        match rest with
        | 42 :: body =>
          if body.isEmpty then 0
          else match commentClose body with
            | some n => 2 + n + blankRun fuel (body.drop n)
            | none => 0
        | 47 :: body =>
          -- a line comment runs to a line break (which it takes), or to the end
          let rec lineEnd : List Nat → Nat → Nat
            | [], n => n
            | c :: more, n =>
              if c == 10 || c == 13 then n + 1
              else if isLineSeparator (c :: more) then n + 3
              else lineEnd more (n + 1)
          let n := lineEnd body 0
          2 + n + blankRun fuel (body.drop n)
        | _ => 0
      else if b == 0xc2 then
        if byteAt rest 0 == 0xa0 then 2 + blankRun fuel (rest.drop 1) else 0
      else if b == 0xe1 then
        if byteAt rest 0 == 0x9a && byteAt rest 1 == 0x80 then 3 + blankRun fuel (rest.drop 2) else 0
      else if b == 0xe2 then
        let c := byteAt rest 1
        if byteAt rest 0 == 0x80 && c ≥ 0x80 && (c ≤ 0x8a || c == 0xa8 || c == 0xa9 || c == 0xaf) then
          3 + blankRun fuel (rest.drop 2)
        else if byteAt rest 0 == 0x81 && c == 0x9f then 3 + blankRun fuel (rest.drop 2)
        else 0
      else if b == 0xe3 then
        if byteAt rest 0 == 0x80 && byteAt rest 1 == 0x80 then 3 + blankRun fuel (rest.drop 2) else 0
      else if b == 0xef then
        if byteAt rest 0 == 0xbb && byteAt rest 1 == 0xbf then 3 + blankRun fuel (rest.drop 2) else 0
      else 0

/-! ## Values -/

/-- How a string is written, which decides how it prints and how it reads back. -/
inductive TextForm where
  /-- Nothing to decode. -/
  | plain
  /-- Plain JSON escapes. -/
  | escaped
  /-- JSON5 escapes, or characters that must be escaped when printed. -/
  | extended
  /-- Text taken from SQL as it is, escaped when printed. -/
  | raw
  deriving DecidableEq, Inhabited

/-- How a number is written. -/
inductive NumberForm where
  | integer
  | hexInteger
  | real
  /-- A real with no digit before or after its point. -/
  | realExtended
  deriving DecidableEq, Inhabited

/-- A JSON value, numbers and strings as written (strings without their quotes). -/
inductive Node where
  | null
  | bool (b : Bool)
  | number (form : NumberForm) (text : List Nat)
  | string (form : TextForm) (bytes : List Nat)
  | array (items : List Node)
  | object (members : List (TextForm × List Nat × Node))
  deriving Inhabited

def maxDepth : Nat := 1000

/-! ## Reading text -/

/-- What the reader finds at a position: a value, one of `}`, `]`, `,`, `:` (left in place),
the end, or nothing it can read. -/
inductive Found where
  | value (n : Node)
  | mark (c : Nat)
  | finish
  | fault
  deriving Inhabited

/-- A reading step: what was found, the bytes after it, and whether JSON5 was used. -/
structure Read where
  found : Found
  rest : List Nat
  extended : Bool := false
  deriving Inhabited

/-- The body of a string whose opening quote `delim` was taken: its form, its bytes as written,
the bytes after the closing quote, and whether JSON5 was used. -/
def readString (delim : Nat) : Nat → List Nat → TextForm → Bool → List Nat →
    Option (TextForm × List Nat × List Nat × Bool)
  | 0, _, _, _, _ => none
  | _ + 1, [], _, _, _ => none
  | fuel + 1, c :: rest, form, ext, acc =>
    if c == delim then some (form, acc.reverse, rest, ext)
    else if c == ch '\\' then
      match rest with
      | [] => none
      | e :: more =>
        if e == ch '"' || e == ch '\\' || e == ch '/' || e == ch 'b' || e == ch 'f' || e == ch 'n' ||
            e == ch 'r' || e == ch 't' || (e == ch 'u' && isUnicodeEscape rest) then
          readString delim fuel more (if form == .plain then .escaped else form) ext (e :: c :: acc)
        else if e == ch '\'' || e == ch '0' || e == ch 'v' || e == 10 || isLineSeparator rest ||
            (e == ch 'x' && (more.take 2).length == 2 && (more.take 2).all isHex) then
          readString delim fuel more .extended true (e :: c :: acc)
        else if e == 13 then
          if byteAt more 0 == 10 then readString delim fuel (more.drop 1) .extended true (10 :: e :: c :: acc)
          else readString delim fuel more .extended true (e :: c :: acc)
        else none
    else if c ≤ 0x1f then readString delim fuel rest .extended true (c :: acc)
    else if c == ch '"' then readString delim fuel rest .extended ext (c :: acc)
    else readString delim fuel rest form ext (c :: acc)

/-- The digits and exponent of a decimal number after its first byte (`j` bytes in); `real` and
`ext` say whether a point or exponent, or JSON5, was seen. The length of the number and its
flags, or none when it is malformed. -/
def numberTail (bs : List Nat) : Nat → Nat → Bool → Bool → Bool → Option (Nat × Bool × Bool)
  | 0, _, _, _, _ => none
  | fuel + 1, j, real, ext, seenE =>
    let c := byteAt bs j
    let prev := byteAt bs (j - 1)
    -- a point with a digit before it may end the digits in JSON5
    let pointAfterDigit := prev == ch '.' && j ≥ 2 && isDigit (byteAt bs (j - 2))
    if isDigit c then numberTail bs fuel (j + 1) real ext seenE
    else if c == ch '.' then
      if real then none else numberTail bs fuel (j + 1) true ext seenE
    else if c == ch 'e' || c == ch 'E' then
      if prev < ch '0' && !pointAfterDigit then none
      else if seenE then none
      else
        let ext := ext || prev < ch '0'
        let j' := if byteAt bs (j + 1) == ch '+' || byteAt bs (j + 1) == ch '-' then j + 1 else j
        if !isDigit (byteAt bs (j' + 1)) then none
        else numberTail bs fuel (j' + 1) true ext true
    else if prev < ch '0' then
      if pointAfterDigit then some (j, real, true) else none
    else some (j, real, ext)

/-- A number at the start of bytes (a sign, a digit or a point first): the value, the bytes after
it, and whether it is JSON5. -/
def readNumber (bs : List Nat) : Option (Node × List Nat × Bool) :=
  let c0 := byteAt bs 0
  let c1 := byteAt bs 1
  let isX (b : Nat) : Bool := b == ch 'x' || b == ch 'X'
  let hexNumber (start : Nat) : Option (Node × List Nat × Bool) :=
    let run := ((bs.drop start).takeWhile isHex).length
    let text := bs.take (start + run)
    let text := if byteAt text 0 == ch '+' then text.drop 1 else text
    some (.number .hexInteger text, bs.drop (start + run), true)
  let decimal (j : Nat) (real ext : Bool) : Option (Node × List Nat × Bool) := do
    let (n, real, ext) ← numberTail bs (bs.length + 2) j real ext false
    let text := bs.take n
    let text := if byteAt text 0 == ch '+' then text.drop 1 else text
    let form : NumberForm := match real, ext with
      | true, true => .realExtended
      | true, false => .real
      | false, true => .hexInteger
      | false, false => .integer
    some (.number form text, bs.drop n, ext || c0 == ch '+')
  if c0 == ch '.' then decimal 1 true true
  else if c0 == ch '0' then
    if isX c1 && isHex (byteAt bs 2) then hexNumber 2
    else if isDigit c1 then none
    else decimal 1 false false
  else if c0 == ch '+' || c0 == ch '-' then
    if !isDigit c1 then
      if (c1 == ch 'i' || c1 == ch 'I') && startsNoCase (bs.drop 1) "inf" then
        let n := if startsNoCase (bs.drop 4) "inity" then 9 else 4
        some (.number .real (asciiBytes (if c0 == ch '-' then "-9e999" else "9e999")), bs.drop n, true)
      else if c1 == ch '.' then decimal 1 false true
      else none
    else if c1 == ch '0' then
      if isDigit (byteAt bs 2) then none
      else if isX (byteAt bs 2) && isHex (byteAt bs 3) then hexNumber 3
      else decimal 1 false false
    else decimal 1 false false
  else decimal 1 false false

/-- The names of infinity and of not-a-number a JSON5 text may hold, with the value each reads
as; the first that matches and is not followed by a letter or digit wins. -/
def specialNames : List (String × Node) :=
  [("inf", .number .real (asciiBytes "9e999")), ("infinity", .number .real (asciiBytes "9e999")),
    ("nan", .null), ("qnan", .null), ("snan", .null)]

/-- An unquoted member name at the start of bytes: its length and whether it holds `\u`
escapes. -/
def identifierLength : Nat → List Nat → Nat → Bool → Nat × Bool
  | 0, _, n, esc => (n, esc)
  | fuel + 1, bs, n, esc =>
    match bs with
    | b :: rest =>
      if idPart b && blankRun 2 bs == 0 then identifierLength fuel rest (n + 1) esc
      else if b == ch '\\' && isUnicodeEscape rest then identifierLength fuel rest (n + 1) true
      else (n, esc)
    | [] => (n, esc)

mutual

/-- Reads what stands at the start of bytes, blanks first; `depth` counts the arrays and objects
open around it. -/
def readValue : Nat → Nat → List Nat → Read
  | 0, _, bs => { found := .fault, rest := bs }
  | fuel + 1, depth, bs =>
    match bs with
    | [] => { found := .finish, rest := [] }
    | b :: rest =>
      let fault : Read := { found := .fault, rest := bs }
      if b == ch '{' then
        if depth + 1 > maxDepth then fault else readMembers fuel (depth + 1) rest [] false
      else if b == ch '[' then
        if depth + 1 > maxDepth then fault else readItems fuel (depth + 1) rest [] false
      else if b == ch '"' || b == ch '\'' then
        match readString b (rest.length + 1) rest .plain (b == ch '\'') [] with
        | some (form, body, after, ext) => { found := .value (.string form body), rest := after, extended := ext }
        | none => fault
      else if b == ch 't' then
        if startsWith bs "true" && !isAlnum (byteAt bs 4) then { found := .value (.bool true), rest := bs.drop 4 }
        else fault
      else if b == ch 'f' then
        if startsWith bs "false" && !isAlnum (byteAt bs 5) then { found := .value (.bool false), rest := bs.drop 5 }
        else fault
      else if b == ch '+' || b == ch '-' || isDigit b || (b == ch '.' && isDigit (byteAt rest 0)) then
        match readNumber bs with
        | some (n, after, ext) => { found := .value n, rest := after, extended := ext }
        | none => fault
      else if b == ch '}' || b == ch ']' || b == ch ',' || b == ch ':' then { found := .mark b, rest := bs }
      else if isSpace b then readValue fuel depth (rest.dropWhile isSpace)
      else if b == 11 || b == 12 || b == ch '/' || b == 0xc2 || b == 0xe1 || b == 0xe2 || b == 0xe3 || b == 0xef then
        let n := blankRun (bs.length + 1) bs
        if n > 0 then { readValue fuel depth (bs.drop n) with extended := true } else fault
      else if b == ch 'n' && startsWith bs "null" && !isAlnum (byteAt bs 4) then
        { found := .value .null, rest := bs.drop 4 }
      else
        match specialNames.find? fun (w, _) =>
            startsNoCase bs w && !isAlnum (byteAt bs (asciiBytes w).length) with
        | some (w, n) => { found := .value n, rest := bs.drop (asciiBytes w).length, extended := true }
        | none => fault

/-- Reads the items of an array from after its `[` or a comma. -/
def readItems : Nat → Nat → List Nat → List Node → Bool → Read
  | 0, _, bs, _, _ => { found := .fault, rest := bs }
  | fuel + 1, depth, bs, items, ext =>
    let r := readValue fuel depth bs
    let ext := ext || r.extended
    let done (after : List Nat) (ext : Bool) : Read :=
      { found := .value (.array items.reverse), rest := after, extended := ext }
    match r.found with
    | .mark 93 => done (r.rest.drop 1) (ext || !items.isEmpty)
    | .value v =>
      let items' := v :: items
      let close (after : List Nat) (ext : Bool) : Read :=
        { found := .value (.array items'.reverse), rest := after, extended := ext }
      let after := r.rest.dropWhile isSpace
      match after with
      | 44 :: more => readItems fuel depth more items' ext
      | 93 :: more => close more ext
      | _ =>
        let r2 := readValue fuel depth after
        match r2.found with
        | .mark 44 => readItems fuel depth (r2.rest.drop 1) items' (ext || r2.extended)
        | .mark 93 => close (r2.rest.drop 1) (ext || r2.extended)
        | _ => { found := .fault, rest := after }
    | _ => { found := .fault, rest := bs }

/-- Reads the members of an object from after its `{` or a comma. -/
def readMembers : Nat → Nat → List Nat → List (TextForm × List Nat × Node) → Bool → Read
  | 0, _, bs, _, _ => { found := .fault, rest := bs }
  | fuel + 1, depth, bs, members, ext =>
    let r := readValue fuel depth bs
    let fault : Read := { found := .fault, rest := bs }
    let key : Option (TextForm × List Nat × List Nat × Bool) :=
      match r.found with
      | .value (.string form body) => some (form, body, r.rest, r.extended)
      | .value _ => none
      | .mark 125 => none
      | _ =>
        let at_ := bs.drop (blankRun (bs.length + 1) bs)
        let first := byteAt at_ 0
        if idStart first || (first == ch '\\' && isUnicodeEscape (at_.drop 1)) then
          let (n, esc) := identifierLength (at_.length + 1) at_ 0 false
          some (if esc then .escaped else .plain, at_.take n, at_.drop n, true)
        else none
    match r.found, key with
    | .mark 125, _ =>
      { found := .value (.object members.reverse), rest := r.rest.drop 1,
        extended := ext || r.extended || !members.isEmpty }
    | _, none => fault
    | _, some (form, name, afterKey, keyExt) =>
      let ext := ext || keyExt
      let afterKey' := afterKey.dropWhile isSpace
      let valueStart : Option (List Nat × Bool) :=
        match afterKey' with
        | 58 :: more => some (more, false)
        | _ =>
          let r2 := readValue fuel depth afterKey'
          match r2.found with
          | .mark 58 => some (r2.rest.drop 1, r2.extended)
          | _ => none
      match valueStart with
      | none => fault
      | some (start, e2) =>
        let rv := readValue fuel depth start
        let ext := ext || e2 || rv.extended
        match rv.found with
        | .value v =>
          let members' := (form, name, v) :: members
          let close (after : List Nat) (ext : Bool) : Read :=
            { found := .value (.object members'.reverse), rest := after, extended := ext }
          let after := rv.rest.dropWhile isSpace
          match after with
          | 44 :: more => readMembers fuel depth more members' ext
          | 125 :: more => close more ext
          | _ =>
            let r3 := readValue fuel depth after
            match r3.found with
            | .mark 44 => readMembers fuel depth (r3.rest.drop 1) members' (ext || r3.extended)
            | .mark 125 => close (r3.rest.drop 1) (ext || r3.extended)
            | _ => fault
        | _ => fault

end

/-- Reads a whole JSON text (up to its first NUL byte): the value, and whether JSON5 was used;
none when the text is malformed. -/
def parse (bytes : List Nat) : Option (Node × Bool) :=
  let bs := bytes.takeWhile (· != 0)
  let r := readValue (2 * bs.length + 4) 0 bs
  match r.found with
  | .value v =>
    let rest := r.rest.dropWhile isSpace
    if rest.isEmpty then some (v, r.extended)
    else if (rest.drop (blankRun (rest.length + 1) rest)).isEmpty then some (v, true)
    else none
  | _ => none

/-! ## Printing -/

/-- The escape of a control character: a short one where JSON has it, else `\u00XX`. -/
def controlEscape (c : Nat) : List Nat :=
  let digits := "0123456789abcdef".toList.map Char.toNat
  if c == 8 then asciiBytes "\\b"
  else if c == 9 then asciiBytes "\\t"
  else if c == 10 then asciiBytes "\\n"
  else if c == 12 then asciiBytes "\\f"
  else if c == 13 then asciiBytes "\\r"
  else asciiBytes "\\u00" ++ [digits.getD (c / 16) 48, digits.getD (c % 16) 48]

/-- SQL text as a JSON string body: quotes and backslashes escaped, control characters
written as escapes. -/
def escapeText (bs : List Nat) : List Nat :=
  bs.flatMap fun c =>
    if c == ch '"' || c == ch '\\' then [ch '\\', c]
    else if c < 0x20 then controlEscape c
    else [c]

/-- A JSON5 string body as plain JSON: `"` and control characters escaped, `\'` and line
continuations dropped, `\x`, `\0` and `\v` written as `\u` escapes (`\v` as the tab's, as the
database does), other escapes kept. -/
def plainBody : Nat → List Nat → List Nat
  | 0, _ => []
  | _ + 1, [] => []
  | fuel + 1, c :: rest =>
    if c == ch '"' then ch '\\' :: c :: plainBody fuel rest
    else if c < 0x20 then controlEscape c ++ plainBody fuel rest
    else if c == ch '\\' then
      match rest with
      | [] => []
      | e :: more =>
        if e == ch '\'' then ch '\'' :: plainBody fuel more
        else if e == ch 'v' then asciiBytes "\\u0009" ++ plainBody fuel more
        else if e == ch 'x' then asciiBytes "\\u00" ++ more.take 2 ++ plainBody fuel (more.drop 2)
        else if e == ch '0' then asciiBytes "\\u0000" ++ plainBody fuel more
        else if e == 13 then plainBody fuel (if byteAt more 0 == 10 then more.drop 1 else more)
        else if e == 10 then plainBody fuel more
        else if e == 0xe2 then plainBody fuel (more.drop 2)
        else c :: e :: plainBody fuel more
    else c :: plainBody fuel rest

def stringText (form : TextForm) (bs : List Nat) : List Nat :=
  let body := match form with
    | .plain | .escaped => bs
    | .extended => plainBody (bs.length + 1) bs
    | .raw => escapeText bs
  ch '"' :: body ++ [ch '"']

/-- A hex integer in decimal, or `9.0e999` when its digits pass 64 bits. -/
def hexText (text : List Nat) : List Nat :=
  let (sign, digits) := if byteAt text 0 == ch '-' then ([ch '-'], text.drop 3) else ([], text.drop 2)
  let value (b : Nat) : Nat := if isDigit b then b - 48 else (lowerByte b) - 87
  let (u, overflow) := digits.foldl (fun (acc : Nat × Bool) b =>
    let (u, overflow) := acc
    if overflow then (u, overflow) else if u / Nat.pow 2 60 != 0 then (u, true) else (u * 16 + value b, overflow)) (0, false)
  sign ++ (if overflow then asciiBytes "9.0e999" else asciiBytes (toString u))

/-- A real with a missing digit beside its point, the digit supplied. -/
def realText (text : List Nat) : List Nat :=
  let (sign, body) := if byteAt text 0 == ch '-' then ([ch '-'], text.drop 1) else ([], text)
  let body := if byteAt body 0 == ch '.' then ch '0' :: body else body
  let rec fill : List Nat → List Nat
    | [] => []
    | c :: rest =>
      if c == ch '.' && !isDigit (byteAt rest 0) then c :: ch '0' :: fill rest else c :: fill rest
  sign ++ fill body

mutual

/-- The plain JSON text of a value, without blanks. -/
def Node.render : Node → List Nat
  | .null => asciiBytes "null"
  | .bool true => asciiBytes "true"
  | .bool false => asciiBytes "false"
  | .number .integer t => t
  | .number .real t => t
  | .number .hexInteger t => hexText t
  | .number .realExtended t => realText t
  | .string form bs => stringText form bs
  | .array items => ch '[' :: renderItems items ++ [ch ']']
  | .object members => ch '{' :: renderMembers members ++ [ch '}']

/-- The items of an array, separated by commas. -/
def renderItems : List Node → List Nat
  | [] => []
  | [n] => n.render
  | n :: rest => n.render ++ ch ',' :: renderItems rest

/-- The members of an object, separated by commas. -/
def renderMembers : List (TextForm × List Nat × Node) → List Nat
  | [] => []
  | [(f, k, v)] => stringText f k ++ ch ':' :: v.render
  | (f, k, v) :: rest => stringText f k ++ ch ':' :: v.render ++ ch ',' :: renderMembers rest

end

/-! ## Escapes -/

/-- The code point a malformed escape stands for: none that a text holds. -/
def badPoint : Nat := 0x110000

/-- A byte read as a hex digit, unchecked: its low four bits, letters shifted by nine. -/
def nibble (b : Nat) : Nat := (b + 9 * ((b / 64) % 2)) % 16

/-- Four bytes read as hex digits, unchecked. -/
def hex4 (bs : List Nat) : Nat := (bs.take 4).foldl (fun acc b => acc * 16 + nibble b) 0

/-- One character of UTF-8 bytes, read leniently: a leading byte takes the continuation bytes that
follow it (three at most), any other byte stands for itself. -/
def utf8Point : List Nat → Nat × List Nat
  | [] => (0, [])
  | b :: rest =>
    if b < 0xC0 then (b, rest)
    else
      let lead := if b < 0xE0 then b % 32 else if b < 0xF0 then b % 16 else if b < 0xF8 then b % 8
        else if b < 0xFC then b % 4 else if b < 0xFE then b % 2 else 0
      let more := (rest.take 3).takeWhile (fun c => c / 64 == 2)
      (more.foldl (fun acc c => acc * 64 + c % 64) lead, rest.drop more.length)

/-- How many bytes of backslashed line breaks start the bytes. -/
def breaksToSkip : Nat → List Nat → Nat
  | 0, _ => 0
  | fuel + 1, bs =>
    match bs with
    | 92 :: 10 :: rest => 2 + breaksToSkip fuel rest
    | 92 :: 13 :: 10 :: rest => 3 + breaksToSkip fuel rest
    | 92 :: 13 :: rest => 2 + breaksToSkip fuel rest
    | 92 :: 0xE2 :: 0x80 :: c :: rest => if c == 0xA8 || c == 0xA9 then 4 + breaksToSkip fuel rest else 0
    | _ => 0

/-- One escape, its backslash first: the code point it stands for and the bytes after it. -/
def unescape : Nat → List Nat → Nat × List Nat
  | 0, _ => (badPoint, [])
  | fuel + 1, bs =>
    match bs with
    | 92 :: e :: rest =>
      let n := bs.length
      if e == 117 then
        if n < 6 then (badPoint, [])
        else
          let v := hex4 rest
          let after := rest.drop 4
          match after with
          | 92 :: 117 :: low =>
            let lo := hex4 low
            if v / 1024 == 54 && n ≥ 12 && lo / 1024 == 55 then
              ((v % 1024) * 1024 + lo % 1024 + 0x10000, low.drop 4)
            else (v, after)
          | _ => (v, after)
      else if e == 98 then (8, rest)
      else if e == 102 then (12, rest)
      else if e == 110 then (10, rest)
      else if e == 114 then (13, rest)
      else if e == 116 then (9, rest)
      else if e == 118 then (11, rest)
      else if e == 48 then
        match rest with
        | d :: _ => (if 48 ≤ d && d ≤ 57 then badPoint else 0, rest)
        | [] => (0, rest)
      else if e == 39 || e == 34 || e == 47 || e == 92 then (e, rest)
      else if e == 120 then
        match rest with
        | h :: l :: more => (nibble h * 16 + nibble l, more)
        | _ => (badPoint, [])
      else if e == 0xE2 || e == 13 || e == 10 then
        let skip := breaksToSkip (n + 1) bs
        if skip == 0 then (badPoint, [])
        else if skip == n then (0, [])
        else
          match bs.drop skip with
          | 92 :: more => unescape fuel (92 :: more)
          | more => utf8Point more
      else (badPoint, rest)
    | _ => (badPoint, [])

def decode : Nat → List Nat → List Nat
  | 0, _ => []
  | _, [] => []
  | fuel + 1, b :: rest =>
    let (c, after) := if b == 92 then unescape (rest.length + 2) (b :: rest) else utf8Point (b :: rest)
    c :: decode fuel after

/-- The code points of UTF-8 bytes, read leniently. -/
def points : Nat → List Nat → List Nat
  | 0, _ => []
  | _, [] => []
  | fuel + 1, b :: rest =>
    let (c, after) := utf8Point (b :: rest)
    c :: points fuel after

/-- Whether a key and a member name, as written, name the same member; a raw side is taken as
written, the other has its escapes decoded, and then both are compared up to their first NUL. -/
def labelMatches (rawKey : Bool) (key : List Nat) (rawLabel : Bool) (label : List Nat) : Bool :=
  if rawKey && rawLabel then key == label
  else
    let chars (raw : Bool) (bs : List Nat) := if raw then points (bs.length + 1) bs else decode (bs.length + 1) bs
    (chars rawKey key).takeWhile (· != 0) == (chars rawLabel label).takeWhile (· != 0)

/-- Whether a string form is read as written, with nothing to decode. -/
def TextForm.isRaw : TextForm → Bool
  | .plain | .raw => true
  | _ => false

/-- The text of code points; those that are no character are dropped. -/
def textOfPoints (ps : List Nat) : String :=
  String.ofList (ps.filterMap fun p =>
    if p == badPoint then none
    else if p ≥ 0xD800 && p < 0xE000 then some '�'
    else some (Char.ofNat p))

/-! ## Values as SQL -/

/-- The integer of decimal or hex digits (after any sign): the outcome of reading it as a 64-bit
integer (`0` exact, `2` too big, `3` exactly `2^63`) and the value. -/
def integerOf (digits : List Nat) : Int × Int :=
  if byteAt digits 0 == ch '0' && (byteAt digits 1 == ch 'x' || byteAt digits 1 == ch 'X') then
    let hex := (digits.drop 2).dropWhile (· == ch '0')
    let u := hex.foldl (fun acc b => (acc * 16 + nibble b) % Nat.pow 2 64) 0
    let v : Int := if u ≥ Nat.pow 2 63 then (u : Int) - Int.pow 2 64 else u
    (if hex.length > 16 then 2 else 0, v)
  else readInt (digits.map fun b => Char.ofNat b)

/-- A value as SQL gives it back: null, 1 and 0 for true and false, an integer that fits in 64
bits (else the real its text reads as), a real, the decoded text of a string; an array or
object has its JSON text. None when a number cannot be read. -/
def Node.toSql : Node → Option SqlValue
  | .null => some .null
  | .bool b => some (.int (if b then 1 else 0))
  | .number .integer t | .number .hexInteger t =>
    let (negative, digits) := if byteAt t 0 == ch '-' then (true, t.drop 1) else (false, t)
    let (rc, v) := integerOf digits
    if rc == 0 then some (.int (if negative then -v else v))
    else if rc == 3 && negative then some (.int minInt)
    else realOf t
  | .number _ t => realOf t
  | .string form bs =>
    if form.isRaw then some (.text (ofBytes bs))
    else some (.text (textOfPoints (decode (bs.length + 1) bs)))
  | n => some (.text (ofBytes n.render))
where
  /-- The real a number's text reads as, when it is a number. -/
  realOf (t : List Nat) : Option SqlValue :=
    let (kind, x) := readReal (t.map fun b => Char.ofNat b)
    if kind ≤ 0 then none else some (.real x)

/-- The name of a value's kind, as `json_type` gives it. -/
def Node.typeName : Node → String
  | .null => "null"
  | .bool true => "true"
  | .bool false => "false"
  | .number .integer _ | .number .hexInteger _ => "integer"
  | .number _ _ => "real"
  | .string _ _ => "text"
  | .array _ => "array"
  | .object _ => "object"

end GraphIngest.Sql.Json
