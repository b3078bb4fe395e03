import GraphIngest.Json.Scan

/-!
# Skipping JSON values

A value that a typed reader has no use for is skipped without being built: only its grammar is
checked. Numbers are not converted, a `\u` escape need not name a character, and nesting has no
limit: the skipper keeps a stack of the brackets still open instead of recursing. Its faults are
worded as the reader's, except where its grammar is looser or shorter.
-/

namespace GraphIngest

namespace JsonRead

/-- Digits, as many as follow. -/
def skipDigitRun : JsonRead Unit := do
  let c ← get
  for _ in c.rest.takeWhile Char.isDigit do eat

/-- A digit that must come next: at the end of the text the fault is at the cursor, otherwise
the character is taken and the fault is inside it. -/
def skipOneDigit : JsonRead Unit := do
  match ← peek with
  | none => fail "invalid number"
  | some ch => if ch.isDigit then eat else do eat; failInside "invalid number" ch

/-- An exponent, its marker not yet taken. -/
def skipExponent : JsonRead Unit := do
  eat
  match ← peek with
  | some '+' | some '-' => eat
  | _ => pure ()
  skipOneDigit
  skipDigitRun

/-- What may follow the integer digits of a skipped number: a fraction, an exponent or both. -/
def skipNumberTail : JsonRead Unit := do
  match ← peek with
  | some '.' =>
    eat
    match ← peek with
    | some ch => if ch.isDigit then skipDigitRun else failAhead "invalid number"
    | none => failAhead "invalid number"
    match ← peek with
    | some 'e' | some 'E' => skipExponent
    | _ => pure ()
  | some 'e' | some 'E' => skipExponent
  | _ => pure ()

/-- A number, its sign (if any) taken: checked against the grammar, never converted. -/
def skipNumber : JsonRead Unit := do
  match ← peek with
  | none => fail "invalid number"
  | some '0' =>
    eat
    match ← peek with
    | some ch => if ch.isDigit then failAhead "invalid number" else skipNumberTail
    | none => pure ()
  | some ch =>
    eat
    if ch.isDigit then
      skipDigitRun
      skipNumberTail
    else failInside "invalid number" ch

/-- The body of a skipped string, its opening quote taken; `fuel` bounds the characters read. -/
def skipStringBody : Nat → JsonRead Unit
  | 0 => pure ()
  | fuel + 1 => do
    match ← peek with
    | none => fail "EOF while parsing a string"
    | some '"' => eat
    | some '\\' =>
      eat
      match ← next with
      | none => fail "EOF while parsing a string"
      | some 'u' => discard hexEscape; skipStringBody fuel
      | some ch =>
        if ['"', '\\', '/', 'b', 'f', 'n', 'r', 't'].contains ch then skipStringBody fuel
        else failInside "invalid escape" ch
    | some ch =>
      if ch.toNat < 0x20 then fail "control character (\\u0000-\\u001F) found while parsing a string"
      else do eat; skipStringBody fuel

/-- A skipped string, its opening quote taken. -/
def skipString : JsonRead Unit := do
  let c ← get
  skipStringBody (c.rest.length + 1)

def closer (frame : Char) : Char := if frame = '[' then ']' else '}'

/-- After a value, or after an opening bracket when `opened`, inside the brackets `open`
(innermost first): takes closing brackets, then the comma before the next value. Gives the
brackets still open before the next value, or `none` when the outermost value is complete. -/
def skipClosers : Nat → List Char → Bool → JsonRead (Option (List Char))
  | 0, _, _ => pure none
  | _, [], _ => pure none
  | fuel + 1, frame :: outer, opened => do
    match ← skipBlanks with
    | some ch =>
      if ch = ',' ∧ !opened then
        eat
        pure (some (frame :: outer))
      else if ch = closer frame then
        eat
        skipClosers fuel outer false
      else if opened then pure (some (frame :: outer))
      else failAhead ("expected `,` or `" ++ String.singleton (closer frame) ++ "`")
    | none =>
      failAhead (if frame = '[' then "EOF while parsing a list" else "EOF while parsing an object")

/-- Before a member's value in a skipped object: its key and colon. -/
def skipMemberKey : JsonRead Unit := do
  match ← skipBlanks with
  | some '"' => eat; skipString
  | some _ => failAhead "key must be a string"
  | none => failAhead "EOF while parsing an object"
  match ← skipBlanks with
  | some ':' => eat
  | some _ => failAhead "expected `:`"
  | none => failAhead "EOF while parsing an object"

/-- The start of one value inside the brackets `open`: a scalar is taken whole, a bracket is
opened. Gives the bracket opened, if any. -/
def skipValueStart : JsonRead (Option Char) := do
  match ← skipBlanks with
  | none => failAhead "EOF while parsing a value"
  | some 'n' => eat; expectWord ['u', 'l', 'l']; pure none
  | some 't' => eat; expectWord ['r', 'u', 'e']; pure none
  | some 'f' => eat; expectWord ['a', 'l', 's', 'e']; pure none
  | some '-' => eat; skipNumber; pure none
  | some '"' => eat; skipString; pure none
  | some '[' => eat; pure (some '[')
  | some '{' => eat; pure (some '{')
  | some ch => if ch.isDigit then do skipNumber; pure none else failAhead "expected value"

/-- Skips values inside the brackets `open` until the outermost one is closed. -/
def skipValues : Nat → List Char → JsonRead Unit
  | 0, _ => pure ()
  | fuel + 1, stack => do
    let next ← match ← skipValueStart with
      | some frame => skipClosers (fuel + 1) (frame :: stack) true
      | none => skipClosers (fuel + 1) stack false
    match next with
    | none => pure ()
    | some stack' =>
      if stack'.head? = some '{' then skipMemberKey
      skipValues fuel stack'

/-- Skips one value, checking only its grammar. -/
def skipValue : JsonRead Unit := do
  let c ← get
  skipValues (c.rest.length + 1) []

end JsonRead

end GraphIngest
