import GraphIngest.Json.Read
import GraphIngest.Json.Skip
import GraphIngest.Json.Decode

/-!
# Typed reading of JSON text

Reading typed values straight from JSON text, the way a streaming reader does it: the text is
read only as far as the value being built needs. A fault in the text itself carries the place
where it was found; a fault in what the text holds gets the place where the reader stands once
the innermost enclosing value has been read as far as it can be. A value the reader has no use
for is only skipped.
-/

namespace GraphIngest

/-- Reading typed values from JSON text; on a fault the reader's position is kept. -/
abbrev Typed := EStateM JsonError Cursor

namespace Typed

open JsonDecode

/-- Runs a step of the text reader. -/
def lift (act : JsonRead α) : Typed α := fun c =>
  match act.run c with
  | .ok (a, c') => .ok a c'
  | .error e => .error e c

/-- A fault of what the text holds, to be placed later. -/
def custom (text : String) : Typed α := throw { text }

/-- Gives a fault without a place the reader's current place. -/
def fix (act : Typed α) : Typed α :=
  tryCatch act fun e => do
    if e.line == 0 then
      let c ← get
      throw { e with line := c.line, column := c.index - c.lineStart }
    else throw e

def peekChar : Typed (Option Char) := lift JsonRead.skipBlanks

/-- Takes one character. -/
def eat : Typed Unit := lift JsonRead.eat

def ahead (text : String) : Typed α := lift (JsonRead.failAhead text)

/-- The fault for a value of the wrong kind where the reader stands: the scalar there is read
(so the fault is placed after it); an array or object is not. -/
def invalidTypeHere (expected : String) : Typed α := do
  let got ← scalarHere
  fix (custom (invalidType got expected))
where
  /-- Reads the scalar where the reader stands and names it. -/
  scalarHere : Typed String := do
    match ← lift JsonRead.peek with
    | some 'n' => eat; lift (JsonRead.expectWord ['u', 'l', 'l']); pure "null"
    | some 't' => eat; lift (JsonRead.expectWord ['r', 'u', 'e']); pure "boolean `true`"
    | some 'f' => eat; lift (JsonRead.expectWord ['a', 'l', 's', 'e']); pure "boolean `false`"
    | some '-' => eat; return unexpected (.num (← lift (JsonRead.number false)))
    | some '"' => eat; return "string " ++ debugText (← lift JsonRead.string)
    | some '[' => pure "sequence"
    | some '{' => pure "map"
    | some c =>
      if c.isDigit then return unexpected (.num (← lift (JsonRead.number true)))
      else ahead "expected value"
    | none => ahead "expected value"

/-- Enters an array or object: one level deeper, refused past the nesting limit. -/
def enter : Typed Unit := do
  let c ← get
  if c.depth ≤ 1 then ahead "recursion limit exceeded"
  else
    set { c with depth := c.depth - 1 }
    eat

def leave : Typed Unit := modify fun c => { c with depth := c.depth + 1 }

/-- Runs `act`, then `close` (which runs even when `act` failed); the first fault wins, and a
fault without a place is placed after both. -/
def closing (act : Typed α) (close : Typed Unit) : Typed α := fun c =>
  match act c with
  | .ok a c' =>
    match close c' with
    | .ok _ c'' => .ok a c''
    | .error e c'' => .error e c''
  | .error e c' =>
    match close c' with
    | .ok _ c'' => (fix (throw e : Typed α)) c''
    | .error _ c'' => (fix (throw e : Typed α)) c''

def endSeq : Typed Unit := do
  match ← peekChar with
  | some ']' => eat
  | some ',' =>
    eat
    match ← peekChar with
    | some ']' => ahead "trailing comma"
    | _ => ahead "trailing characters"
  | some _ => ahead "trailing characters"
  | none => ahead "EOF while parsing a list"

def endMap : Typed Unit := do
  match ← peekChar with
  | some '}' => eat
  | some ',' => ahead "trailing comma"
  | some _ => ahead "trailing characters"
  | none => ahead "EOF while parsing an object"

/-- Whatever value follows, as a document. -/
def content : Typed Json := do
  let c ← get
  lift (JsonRead.value c.depth)

/-- Skips whatever value follows, checking only its grammar. -/
def ignore : Typed Unit := lift JsonRead.skipValue

/-- A text. -/
def str (expected : String := "a string") : Typed String := do
  match ← peekChar with
  | none => ahead "EOF while parsing a value"
  | some '"' => eat; lift JsonRead.string
  | some _ => invalidTypeHere expected

/-- A natural number at most `max`, named `name` in faults. -/
def natUpTo (max : Nat) (name : String) : Typed Nat := do
  match ← peekChar with
  | none => ahead "EOF while parsing a value"
  | some c =>
    if c == '-' || c.isDigit then
      if c == '-' then eat
      let n ← lift (JsonRead.number (c != '-'))
      fix <| match n with
        | .nat k => if k ≤ max then pure k else custom (invalidValue s!"integer `{k}`" name)
        | .neg i => custom (invalidValue s!"integer `{i}`" name)
        | .float x => custom (invalidType (unexpected (.num (.float x))) name)
    else invalidTypeHere name

/-- An optional value: `null` is absent. -/
def option (inner : Typed α) : Typed (Option α) := do
  match ← peekChar with
  | some 'n' => eat; lift (JsonRead.expectWord ['u', 'l', 'l']); pure none
  | _ => some <$> inner

/-- The next key of an object, or none at its end. -/
def nextKey (first : Bool) : Typed (Option String) := do
  let next ← match ← peekChar with
    | some '}' => pure none
    | some ',' => if first then ahead "key must be a string" else do eat; pure (some (← peekChar))
    | some b => if first then pure (some (some b)) else ahead "expected `,` or `\x7d`"
    | none => ahead "EOF while parsing an object"
  match next with
  | none => pure none
  | some (some '"') => eat; some <$> lift JsonRead.string
  | some (some '}') => ahead "trailing comma"
  | some (some _) => ahead "key must be a string"
  | some none => ahead "EOF while parsing a value"

def colon : Typed Unit := lift JsonRead.colon

/-- Reads the next element of an array with `item`, or none at its end. -/
def nextElement (first : Bool) (item : Typed α) : Typed (Option α) := do
  let next ← match ← peekChar with
    | some ']' => pure none
    | some ',' => if first then pure (some (some ',')) else do eat; pure (some (← peekChar))
    | some b => if first then pure (some (some b)) else ahead "expected `,` or `]`"
    | none => ahead "EOF while parsing a list"
  match next with
  | none => pure none
  | some (some ']') => ahead "trailing comma"
  | some (some _) => some <$> item
  | some none => ahead "EOF while parsing a value"

/-- The items of an array, its opening bracket taken. -/
def items (item : Typed α) : Nat → Bool → List α → Typed (List α)
  | 0, _, acc => pure acc.reverse
  | fuel + 1, first, acc => do
    match ← nextElement first item with
    | none => pure acc.reverse
    | some x => items item fuel false (x :: acc)

/-- An array of items. -/
def seq (item : Typed α) (expected : String := "a sequence") : Typed (List α) := do
  match ← peekChar with
  | none => ahead "EOF while parsing a value"
  | some '[' =>
    enter
    let c ← get
    let xs ← closing (items item (c.rest.length + 1) true []) endSeq
    leave
    pure xs
  | some _ => invalidTypeHere expected

/-- The members of an object with text keys, its opening brace taken; a later key wins. -/
def members (value : Typed α) : Nat → Bool → List (String × α) → Typed (List (String × α))
  | 0, _, acc => pure acc
  | fuel + 1, first, acc => do
    match ← nextKey first with
    | none => pure acc
    | some k =>
      colon
      let v ← value
      members value fuel false (insertSorted (k, v) acc)

/-- An object with text keys, sorted by key. -/
def strMap (value : Typed α) : Typed (List (String × α)) := do
  match ← peekChar with
  | none => ahead "EOF while parsing a value"
  | some '{' =>
    enter
    let c ← get
    let ms ← closing (members value (c.rest.length + 1) true []) endMap
    leave
    pure ms
  | some _ => invalidTypeHere "a map"

/-- The fields of a record given as an object: `field` reads a declared field's value into the
state; unknown fields are skipped; a field given twice is refused when its key is read. -/
def fields (names : List String) (field : σ → String → Typed σ) :
    Nat → Bool → List String → σ → Typed σ
  | 0, _, _, st => pure st
  | fuel + 1, first, seen, st => do
    match ← nextKey first with
    | none => pure st
    | some k =>
      if names.contains k then
        if seen.contains k then custom (duplicateField k)
        else
          colon
          let st ← field st k
          fields names field fuel false (k :: seen) st
      else
        colon
        ignore
        fields names field fuel false seen st

/-- The fields of a record given as an array, by position; a missing element is refused unless
its field may be left out. -/
def positional (name : String) (names : List String) (optional : List String)
    (field : σ → String → Typed σ) (st : σ) : Typed σ := do
  let expected := s!"struct {name} with {names.length} element" ++ (if names.length == 1 then "" else "s")
  let mut st := st
  let mut i := 0
  for k in names do
    match ← nextElement (i == 0) (field st k) with
    | some st' => st := st'
    | none =>
      if optional.contains k then pure ()
      else custom (invalidLength i expected)
    i := i + 1
  return st

/-- A record, from an object or an array: `finish` checks the state for missing fields and makes
the record. -/
def record (name : String) (names optional : List String) (init : σ)
    (field : σ → String → Typed σ) (finish : σ → Typed α) : Typed α := do
  match ← peekChar with
  | none => ahead "EOF while parsing a value"
  | some '{' =>
    enter
    let c ← get
    let r ← closing (do finish (← fields names field (c.rest.length + 1) true [] init)) endMap
    leave
    pure r
  | some '[' =>
    enter
    let r ← closing (do finish (← positional name names optional field init)) endSeq
    leave
    pure r
  | some _ => invalidTypeHere ("struct " ++ name)

/-- The whole text as one value: only blanks may follow. -/
def whole (act : Typed α) (text : String) : Except JsonError α :=
  match (do let a ← act; lift JsonRead.finishText; pure a).run (JsonRead.start text) with
  | .ok a _ => .ok a
  | .error e _ => .error e

end Typed

end GraphIngest
