import GraphIngest.Number.Text

/-!
# JSON documents

A JSON document as a tree. A number keeps the kind it was read as: a natural number that fits 64
bits, a negative integer that fits 64 signed bits, or a double; an object keeps its members in the
order given. The compact writer escapes a quote, a backslash and every control character, uses the
short escapes `\b \f \n \r \t` where they exist and `\u00XX` otherwise, and writes everything else
as it is.
-/

namespace GraphIngest

/-- A JSON number, as it was read. -/
inductive JsonNumber where
  | nat (n : Nat)
  | neg (i : Int)
  | float (x : Float)
  deriving Inhabited

/-- A JSON document. -/
inductive Json where
  | null
  | bool (b : Bool)
  | num (n : JsonNumber)
  | str (s : String)
  | arr (items : List Json)
  | obj (members : List (String × Json))
  deriving Inhabited

/-- The text of a number. -/
def JsonNumber.text : JsonNumber → String
  | .nat n => toString n
  | .neg i => toString i
  | .float x => FloatText.json x

namespace Json

/-- An integer as a JSON number. -/
def int (i : Int) : Json := if i < 0 then .num (.neg i) else .num (.nat i.toNat)

/-- The hex digit of a value below 16, lower case. -/
def hexDigit (n : Nat) : Char :=
  if n < 10 then Char.ofNat ('0'.toNat + n) else Char.ofNat ('a'.toNat + n - 10)

def escapeChar (c : Char) : String :=
  if c = '"' then "\\\""
  else if c = '\\' then "\\\\"
  else if c = '\n' then "\\n"
  else if c = '\r' then "\\r"
  else if c = '\t' then "\\t"
  else if c.toNat = 8 then "\\b"
  else if c.toNat = 12 then "\\f"
  else if c.toNat < 32 then
    "\\u00" ++ String.singleton (hexDigit (c.toNat / 16)) ++ String.singleton (hexDigit (c.toNat % 16))
  else String.singleton c

def quote (s : String) : String := "\"" ++ String.join (s.toList.map escapeChar) ++ "\""

/-- The compact text of a document, members in the order held. -/
def compact : Json → String
  | .null => "null"
  | .bool b => if b then "true" else "false"
  | .num n => n.text
  | .str s => quote s
  | .arr items => "[" ++ compactList items ++ "]"
  | .obj members => "\x7b" ++ compactMembers members ++ "\x7d"
where
  /-- The items, comma separated. -/
  compactList : List Json → String
    | [] => ""
    | [x] => compact x
    | x :: xs => compact x ++ "," ++ compactList xs
  /-- The members, comma separated. -/
  compactMembers : List (String × Json) → String
    | [] => ""
    | [(k, v)] => quote k ++ ":" ++ compact v
    | (k, v) :: rest => quote k ++ ":" ++ compact v ++ "," ++ compactMembers rest

def insertMember (m : String × Json) : List (String × Json) → List (String × Json)
  | [] => [m]
  | x :: rest => if m.1 ≤ x.1 then m :: x :: rest else x :: insertMember m rest

def sortKeys : Json → Json
  | .arr items => .arr (sortList items)
  | .obj members => .obj (sortMembers members)
  | j => j
where
  /-- Sorts the keys inside every item. -/
  sortList : List Json → List Json
    | [] => []
    | x :: xs => sortKeys x :: sortList xs
  /-- Sorts the members, and the keys inside every value. -/
  sortMembers : List (String × Json) → List (String × Json)
    | [] => []
    | (k, v) :: rest => insertMember (k, sortKeys v) (sortMembers rest)

/-- The member of an object under `k`. -/
def field? (j : Json) (k : String) : Option Json :=
  match j with
  | .obj members => members.lookup k
  | _ => none

/-- The text, if the document is a string. -/
def getStr? : Json → Option String
  | .str s => some s
  | _ => none

/-- The boolean, if the document is one. -/
def getBool? : Json → Option Bool
  | .bool b => some b
  | _ => none

/-- The integer, if the document is an integer number. -/
def getInt? : Json → Option Int
  | .num (.nat n) => some n
  | .num (.neg i) => some i
  | _ => none

/-- The natural number, if the document is one. -/
def getNat? : Json → Option Nat
  | .num (.nat n) => some n
  | _ => none

/-- The items, if the document is an array. -/
def getArr? : Json → Option (List Json)
  | .arr items => some items
  | _ => none

/-- The members, if the document is an object. -/
def getObj? : Json → Option (List (String × Json))
  | .obj members => some members
  | _ => none

end Json

end GraphIngest
