import GraphIngest.Json.Scan

/-!
# Reading JSON documents

Reads a whole JSON text into a `Json` tree. Arrays and objects may nest 127 deep; one more level
is refused. After the value only blanks may follow. Faults are those of the scanner plus the
structural ones: a missing comma or closing bracket, a trailing comma, a key that is not a
string, a missing colon, and characters after the value.
-/

namespace GraphIngest

namespace JsonRead

/-- After the items of an array: its closing bracket. -/
def closeArray : JsonRead Unit := do
  match ← skipBlanks with
  | some ']' => eat
  | some ',' =>
    eat
    match ← skipBlanks with
    | some ']' => failAhead "trailing comma"
    | _ => failAhead "trailing characters"
  | some _ => failAhead "trailing characters"
  | none => failAhead "EOF while parsing a list"

/-- After the members of an object: its closing brace. -/
def closeObject : JsonRead Unit := do
  match ← skipBlanks with
  | some '}' => eat
  | some ',' => failAhead "trailing comma"
  | some _ => failAhead "trailing characters"
  | none => failAhead "EOF while parsing an object"

def finishText : JsonRead Unit := do
  match ← skipBlanks with
  | none => pure ()
  | some _ => failAhead "trailing characters"

/-- The start of a member: its key, given what the reader looks at. -/
def memberKey : Option Char → JsonRead String
  | some '"' => do eat; string
  | some '}' => failAhead "trailing comma"
  | some _ => failAhead "key must be a string"
  | none => failAhead "EOF while parsing a value"

def colon : JsonRead Unit := do
  match ← skipBlanks with
  | some ':' => eat
  | some _ => failAhead "expected `:`"
  | none => failAhead "EOF while parsing an object"

/-- Before the next item or member: takes the comma that must separate it from the previous one
and looks at what follows; `close` is the closing bracket's text in the fault. -/
def separator (first : Bool) (b : Char) (close : String) : JsonRead (Option Char) := do
  if b == ',' && !first then
    eat
    skipBlanks
  else if first then pure (some b)
  else failAhead ("expected `,` or `" ++ close ++ "`")

mutual

/-- One value; `d` bounds the nesting still allowed. -/
def value (d : Nat) : JsonRead Json := do
  match ← skipBlanks with
  | none => failAhead "EOF while parsing a value"
  | some 'n' => eat; expectWord ['u', 'l', 'l']; return .null
  | some 't' => eat; expectWord ['r', 'u', 'e']; return .bool true
  | some 'f' => eat; expectWord ['a', 'l', 's', 'e']; return .bool false
  | some '-' => eat; return .num (← number false)
  | some '"' => eat; return .str (← string)
  | some '[' =>
    match d with
    | 0 => failAhead "recursion limit exceeded"
    | d' + 1 =>
      if d' = 0 then failAhead "recursion limit exceeded"
      else
        eat
        let c ← get
        let items ← elements d' (c.rest.length + 1) true []
        closeArray
        return .arr items
  | some '{' =>
    match d with
    | 0 => failAhead "recursion limit exceeded"
    | d' + 1 =>
      if d' = 0 then failAhead "recursion limit exceeded"
      else
        eat
        let c ← get
        let ms ← members d' (c.rest.length + 1) true []
        closeObject
        return .obj ms
  | some ch =>
    if ch.isDigit then return .num (← number true)
    else failAhead "expected value"
termination_by (d, 0, 0)

def elements (d : Nat) : Nat → Bool → List Json → JsonRead (List Json)
  | 0, _, acc => return acc.reverse
  | fuel + 1, first, acc => do
    match ← skipBlanks with
    | some ']' => return acc.reverse
    | none => failAhead "EOF while parsing a list"
    | some b =>
      match ← separator first b "]" with
      | some ']' => failAhead "trailing comma"
      | none => failAhead "EOF while parsing a value"
      | some _ =>
        let v ← value d
        elements d fuel false (v :: acc)
termination_by fuel => (d, 1, fuel)

def members (d : Nat) : Nat → Bool → List (String × Json) → JsonRead (List (String × Json))
  | 0, _, acc => return acc.reverse
  | fuel + 1, first, acc => do
    match ← skipBlanks with
    | some '}' => return acc.reverse
    | none => failAhead "EOF while parsing an object"
    | some b =>
      let k ← memberKey (← separator first b "\x7d")
      colon
      let v ← value d
      members d fuel false ((k, v) :: acc)
termination_by fuel => (d, 1, fuel)

end

end JsonRead

namespace Json

def parse (s : String) : Except JsonError Json :=
  (do let v ← JsonRead.value 128; JsonRead.finishText; pure v).run' (JsonRead.start s)

end Json

end GraphIngest
