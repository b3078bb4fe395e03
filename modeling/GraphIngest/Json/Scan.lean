import GraphIngest.Json.Basic

/-!
# Scanning JSON text

The lexical layer of the JSON reader: a cursor over the text that knows its byte offset, line
and line start, and the scanners for whitespace, literal words, strings and numbers. A fault
found by looking at the next character without taking it is reported one byte further on
(`failAhead`).

An integer without fraction or exponent is kept as a natural number if it fits 64 bits and as a
negative integer if it fits 64 signed bits. Other numbers become doubles the way a fast reader
does it: the digits, up to what fits 64 bits, are rounded to a double, then multiplied or divided
once by the double nearest to the power of ten.
-/

namespace GraphIngest

/-- A fault in JSON text or in what it holds, with its place; line 0 means no place yet. -/
structure JsonError where
  text : String
  line : Nat := 0
  column : Nat := 0
  deriving Inhabited

/-- The text of the fault, with its place when it has one. -/
def JsonError.message (e : JsonError) : String :=
  if e.line = 0 then e.text else s!"{e.text} at line {e.line} column {e.column}"

/-- A position in a JSON text. -/
structure Cursor where
  rest : List Char
  index : Nat := 0
  line : Nat := 1
  lineStart : Nat := 0
  depth : Nat := 128
  deriving Inhabited

/-- Reading from a JSON text. -/
abbrev JsonRead := StateT Cursor (Except JsonError)

namespace JsonRead

def start (s : String) : Cursor := { rest := s.toList }

/-- Fails at the cursor. -/
def fail (text : String) : JsonRead α := do
  let c ← get
  throw { text, line := c.line, column := c.index - c.lineStart }

/-- Fails one byte past the cursor (a fault seen by looking ahead). -/
def failAhead (text : String) : JsonRead α := do
  let c ← get
  match c.rest with
  | '\n' :: _ => throw { text, line := c.line + 1, column := 0 }
  | _ :: _ => throw { text, line := c.line, column := c.index + 1 - c.lineStart }
  | [] => throw { text, line := c.line, column := c.index - c.lineStart }

/-- Fails inside the character just taken, after its first byte (a reader of bytes that finds a
fault in a byte stops there). -/
def failInside (text : String) (ch : Char) : JsonRead α := do
  let c ← get
  throw { text, line := c.line, column := c.index - c.lineStart - (ch.utf8Size - 1) }

/-- Fails `extra` bytes past the cursor, on its line. -/
def failPast (text : String) (extra : Nat) : JsonRead α := do
  let c ← get
  throw { text, line := c.line, column := c.index + extra - c.lineStart }

def placed (e : JsonError) : JsonRead α := do
  if e.line = 0 then fail e.text else throw e

/-- The next character, not taken. -/
def peek : JsonRead (Option Char) := do return (← get).rest.head?

/-- Takes one character. -/
def eat : JsonRead Unit :=
  modify fun c =>
    match c.rest with
    | [] => c
    | ch :: rest =>
      let index := c.index + ch.utf8Size
      if ch = '\n' then { c with rest, index, line := c.line + 1, lineStart := index }
      else { c with rest, index }

/-- Takes and returns the next character. -/
def next : JsonRead (Option Char) := do
  let ch ← peek
  eat
  return ch

/-- Skips blanks (space, tab, line feed, carriage return) and looks at what follows. -/
def skipBlanks : JsonRead (Option Char) := do
  let c ← get
  let blanks := c.rest.takeWhile (fun ch => ch = ' ' ∨ ch = '\n' ∨ ch = '\t' ∨ ch = '\r')
  for _ in blanks do eat
  peek

def expectWord : List Char → JsonRead Unit
  | [] => pure ()
  | ch :: rest => do
    match ← next with
    | none => fail "EOF while parsing a value"
    | some got => if got = ch then expectWord rest else failInside "expected ident" got

def hexValue? (c : Char) : Option Nat :=
  if '0' ≤ c ∧ c ≤ '9' then some (c.toNat - '0'.toNat)
  else if 'a' ≤ c ∧ c ≤ 'f' then some (c.toNat - 'a'.toNat + 10)
  else if 'A' ≤ c ∧ c ≤ 'F' then some (c.toNat - 'A'.toNat + 10)
  else none

/-- Four hex digits of a `\u` escape. The four bytes are taken whatever they hold; a fault among
them is reported after the fourth. -/
def hexEscape : JsonRead Nat := do
  let c ← get
  let four := c.rest.take 4
  if (four.map Char.utf8Size).foldr (· + ·) 0 < 4 then
    for _ in four do eat
    fail "EOF while parsing a string"
  else
    match four.foldlM (fun acc ch => (hexValue? ch).map (acc * 16 + ·)) 0 with
    | some n =>
      for _ in four do eat
      return n
    | none =>
      -- the characters that lie wholly within the four bytes are taken
      let rec within : List Char → Nat → List Char → Nat × List Char
        | [], taken, acc => (taken, acc)
        | ch :: rest, taken, acc =>
          if taken + ch.utf8Size ≤ 4 then within rest (taken + ch.utf8Size) (ch :: acc) else (taken, acc)
      let (taken, whole) := within four 0 []
      for _ in whole do eat
      failPast "invalid escape" (4 - taken)

/-- The character of a `\u` escape, with a surrogate pair read as one. -/
def unicodeEscape : JsonRead Char := do
  let n ← hexEscape
  if 0xDC00 ≤ n ∧ n ≤ 0xDFFF then fail "lone leading surrogate in hex escape"
  else if n < 0xD800 ∨ n > 0xDBFF then return Char.ofNat n
  else
    match ← peek with
    | none => fail "EOF while parsing a string"
    | some '\\' =>
      eat
      match ← peek with
      | none => fail "EOF while parsing a string"
      | some 'u' =>
        eat
        let n2 ← hexEscape
        if n2 < 0xDC00 ∨ n2 > 0xDFFF then fail "lone leading surrogate in hex escape"
        else return Char.ofNat ((n - 0xD800) * 0x400 + (n2 - 0xDC00) + 0x10000)
      | some ch => eat; failInside "unexpected end of hex escape" ch
    | some ch => eat; failInside "unexpected end of hex escape" ch

/-- The body of a string whose opening quote is taken; `fuel` bounds the characters read. -/
def stringBody : Nat → List Char → JsonRead String
  | 0, acc => return String.ofList acc.reverse
  | fuel + 1, acc => do
    match ← next with
    | none => fail "EOF while parsing a string"
    | some '"' => return String.ofList acc.reverse
    | some '\\' =>
      match ← next with
      | none => fail "EOF while parsing a string"
      | some '"' => stringBody fuel ('"' :: acc)
      | some '\\' => stringBody fuel ('\\' :: acc)
      | some '/' => stringBody fuel ('/' :: acc)
      | some 'b' => stringBody fuel (Char.ofNat 8 :: acc)
      | some 'f' => stringBody fuel (Char.ofNat 12 :: acc)
      | some 'n' => stringBody fuel ('\n' :: acc)
      | some 'r' => stringBody fuel ('\r' :: acc)
      | some 't' => stringBody fuel ('\t' :: acc)
      | some 'u' => do
        let ch ← unicodeEscape
        stringBody fuel (ch :: acc)
      | some ch => failInside "invalid escape" ch
    | some ch =>
      if ch.toNat < 0x20 then fail "control character (\\u0000-\\u001F) found while parsing a string"
      else stringBody fuel (ch :: acc)

def string : JsonRead String := do
  let c ← get
  stringBody (c.rest.length + 1) []

def u64Max : Nat := Nat.pow 2 64 - 1

/-- The double nearest to `10^i`. -/
def pow10 (i : Nat) : Float := Binary64.ofRatio false (Nat.pow 10 i) 1

/-- The double of `significand · 10^exponent` as a fast reader computes it, `none` when out of
range. -/
def fromParts (positive : Bool) (significand : Nat) (exponent : Int) : Option Float :=
  let rec go : Nat → Float → Int → Option Float
    | 0, f, _ => some f
    | fuel + 1, f, e =>
      if e.natAbs ≤ 308 then
        if 0 ≤ e then
          let g := Binary64.mul f (pow10 e.toNat)
          if Binary64.isFinite g then some g else none
        else some (Binary64.div f (pow10 e.natAbs))
      else if Binary64.isZero f then some f
      else if 0 ≤ e then none
      else go fuel (Binary64.div f (pow10 308)) (e + 308)
  (go 8 (Binary64.ofRatio false significand 1) exponent).map
    (fun f => if positive then f else Binary64.negate f)

/-- Whether adding one more digit would pass the largest 64-bit natural number. -/
def overflows (significand digit : Nat) : Bool :=
  significand ≥ u64Max / 10 && (significand > u64Max / 10 || digit > u64Max % 10)

/-- Keeps `i` within 32 signed bits, as an exponent sum that saturates. -/
def clampExponent (i : Int) : Int := max (-Int.pow 2 31) (min (Int.pow 2 31 - 1) i)

/-- Digits of an exponent that passed the 32-bit range: the rest are skipped, and the value is a
zero, or out of range when the exponent is positive and the significand is not zero. -/
def exponentOverflow (positive zeroSignificand positiveExp : Bool) : JsonRead Float := do
  if !zeroSignificand && positiveExp then fail "number out of range"
  else
    let c ← get
    for _ in c.rest.takeWhile Char.isDigit do eat
    return (if positive then 0.0 else Binary64.negate 0.0)

def exponentDigits : Nat → Nat → JsonRead (Option Nat)
  | 0, e => return some e
  | fuel + 1, e => do
    match ← peek with
    | some ch =>
      if ch.isDigit then
        eat
        let e' := e * 10 + (ch.toNat - '0'.toNat)
        if e' > Nat.pow 2 31 - 1 then return none else exponentDigits fuel e'
      else return some e
    | none => return some e

/-- The double from the given value, checked for range. -/
def finish (positive : Bool) (significand : Nat) (exponent : Int) : JsonRead Float := do
  match fromParts positive significand exponent with
  | some f => return f
  | none => fail "number out of range"

/-- An exponent, its marker not yet taken. -/
def exponent (positive : Bool) (significand : Nat) (start : Int) : JsonRead Float := do
  eat
  let positiveExp ← do
    match ← peek with
    | some '+' => eat; pure true
    | some '-' => eat; pure false
    | _ => pure true
  match ← next with
  | none => fail "EOF while parsing a value"
  | some ch =>
    if !ch.isDigit then failInside "invalid number" ch
    else
      let c ← get
      match ← exponentDigits (c.rest.length + 1) (ch.toNat - '0'.toNat) with
      | none => exponentOverflow positive (significand == 0) positiveExp
      | some e =>
        let final := clampExponent (if positiveExp then start + e else start - e)
        finish positive significand final

/-- Digits after a significand that no longer fits; they are dropped. -/
def skipDigits : JsonRead Unit := do
  let c ← get
  for _ in c.rest.takeWhile Char.isDigit do eat

/-- Digits after the decimal point, the point not yet taken. -/
def fraction (positive : Bool) (significand : Nat) (before : Int) : JsonRead Float := do
  eat
  let c ← get
  let digits := c.rest.takeWhile Char.isDigit
  -- take digits while the significand fits
  let rec take : List Char → Nat → Nat → Nat × Nat × Bool
    | [], s, n => (s, n, false)
    | d :: ds, s, n =>
      let v := d.toNat - '0'.toNat
      if overflows s v then (s, n, true) else take ds (s * 10 + v) (n + 1)
  let (s, taken, overflowed) := take digits significand 0
  for _ in [0:taken] do eat
  if overflowed then
    skipDigits
    match ← peek with
    | some 'e' | some 'E' => exponent positive s (before - taken)
    | _ => finish positive s (before - taken)
  else if taken = 0 then
    match ← peek with
    | some _ => failAhead "invalid number"
    | none => fail "EOF while parsing a value"
  else
    match ← peek with
    | some 'e' | some 'E' => exponent positive s (before - taken)
    | _ => finish positive s (before - taken)

def afterInteger (positive : Bool) (significand : Nat) : JsonRead JsonNumber := do
  match ← peek with
  | some '.' => return .float (← fraction positive significand 0)
  | some 'e' | some 'E' => return .float (← exponent positive significand 0)
  | _ =>
    if positive then return .nat significand
    else if significand = 0 ∨ significand > Nat.pow 2 63 then
      return .float (Binary64.negate (Binary64.ofRatio false significand 1))
    else return .neg (-(significand : Int))

/-- Integer digits that no longer fit 64 bits: counted into the exponent. -/
def longInteger (positive : Bool) (significand : Nat) : JsonRead Float := do
  let c ← get
  let more := (c.rest.takeWhile Char.isDigit).length
  for _ in [0:more] do eat
  match ← peek with
  | some '.' => fraction positive significand more
  | some 'e' | some 'E' => exponent positive significand more
  | _ => finish positive significand more

/-- A number whose sign, if any, is taken. -/
def number (positive : Bool) : JsonRead JsonNumber := do
  match ← next with
  | none => fail "EOF while parsing a value"
  | some '0' =>
    match ← peek with
    | some ch => if ch.isDigit then failAhead "invalid number" else afterInteger positive 0
    | none => afterInteger positive 0
  | some ch =>
    if !ch.isDigit then failInside "invalid number" ch
    else
      let c ← get
      let digits := c.rest.takeWhile Char.isDigit
      let rec take : List Char → Nat → Nat → Nat × Nat × Bool
        | [], s, n => (s, n, false)
        | d :: ds, s, n =>
          let v := d.toNat - '0'.toNat
          if overflows s v then (s, n, true) else take ds (s * 10 + v) (n + 1)
      let (s, taken, overflowed) := take digits (ch.toNat - '0'.toNat) 0
      for _ in [0:taken] do eat
      if overflowed then return .float (← longInteger positive s)
      else afterInteger positive s

end JsonRead

end GraphIngest
