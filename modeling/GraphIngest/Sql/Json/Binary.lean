import GraphIngest.Sql.Json.Node

/-!
# The binary form of JSON values

A JSON value kept in a blob is a tree of elements. Each element starts with a header byte whose
low four bits give its kind and whose high four bits give the size of its payload, or how many
bytes after it hold the size. A blob is taken as a JSON value only when its first element fills
it exactly.
-/

namespace GraphIngest.Sql.Json

/-- The kind number of a string form. -/
def TextForm.code : TextForm → Nat
  | .plain => 7
  | .escaped => 8
  | .extended => 9
  | .raw => 10

/-- The kind number of a number form. -/
def NumberForm.code : NumberForm → Nat
  | .integer => 3
  | .hexInteger => 4
  | .real => 5
  | .realExtended => 6

/-- The header of an element of a kind with a payload of a size. -/
def header (kind size : Nat) : List Nat :=
  if size ≤ 11 then [kind + 16 * size]
  else if size ≤ 0xff then [kind + 0xc0, size]
  else if size ≤ 0xffff then [kind + 0xd0, size / 256, size % 256]
  else [kind + 0xe0, size / 16777216 % 256, size / 65536 % 256, size / 256 % 256, size % 256]

/-- An element: its header, then its payload. -/
def element (kind : Nat) (payload : List Nat) : List Nat := header kind payload.length ++ payload

mutual

def Node.toBinary : Node → List Nat
  | .null => [0]
  | .bool true => [1]
  | .bool false => [2]
  | .number form text => element form.code text
  | .string form bs => element form.code bs
  | .array items => element 11 (itemsBinary items)
  | .object members => element 12 (membersBinary members)

/-- The binary forms of items, one after another. -/
def itemsBinary : List Node → List Nat
  | [] => []
  | n :: rest => n.toBinary ++ itemsBinary rest

/-- The binary forms of members, each name before its value. -/
def membersBinary : List (TextForm × List Nat × Node) → List Nat
  | [] => []
  | (f, k, v) :: rest => element f.code k ++ v.toBinary ++ membersBinary rest

end

/-- The kind, the header length and the payload size of the element at the start of bytes;
none when the header is cut short or the payload runs past the end. -/
def headerOf (bs : List Nat) : Option (Nat × Nat × Nat) :=
  match bs with
  | [] => none
  | b :: rest =>
    let kind := b % 16
    let x := b / 16
    let big (k : Nat) : Nat := (rest.take k).foldl (fun acc d => acc * 256 + d) 0
    let (n, size) : Nat × Option Nat :=
      if x ≤ 11 then (1, some x)
      else if x == 12 then (2, if rest.length ≥ 1 then some (big 1) else none)
      else if x == 13 then (3, if rest.length ≥ 2 then some (big 2) else none)
      else if x == 14 then (5, if rest.length ≥ 4 then some (big 4) else none)
      else (9, if rest.length ≥ 8 && (rest.take 4).all (· == 0) then some (big 8) else none)
    match size with
    | some s => if n + s ≤ bs.length then some (kind, n, s) else none
    | none => none

/-- Whether a blob may hold a JSON value: its first element is of a known kind, fills the blob
exactly, and has no payload when it is null, true or false. -/
def looksBinary (bs : List Nat) : Bool :=
  match headerOf bs with
  | some (kind, n, s) => kind ≤ 12 && n + s == bs.length && (kind > 2 || s == 0)
  | none => false

def textFormOf (kind : Nat) : Option TextForm :=
  if kind == 7 then some .plain
  else if kind == 8 then some .escaped
  else if kind == 9 then some .extended
  else if kind == 10 then some .raw
  else none

mutual

/-- The value of the elements of a blob, in order; none when one is malformed. -/
def elementsOf : Nat → List Nat → Option (List Node)
  | 0, _ => none
  | _, [] => some []
  | fuel + 1, bs => do
    let (n, rest) ← elementOf fuel bs
    let more ← elementsOf fuel rest
    return n :: more

/-- The value of the element at the start of bytes, and the bytes after it. -/
def elementOf : Nat → List Nat → Option (Node × List Nat)
  | 0, _ => none
  | fuel + 1, bs => do
    let (kind, n, s) ← headerOf bs
    let payload := (bs.drop n).take s
    let after := bs.drop (n + s)
    let node ← if kind == 0 then some Node.null
      else if kind == 1 then some (.bool true)
      else if kind == 2 then some (.bool false)
      else if kind == 3 then some (.number .integer payload)
      else if kind == 4 then some (.number .hexInteger payload)
      else if kind == 5 then some (.number .real payload)
      else if kind == 6 then some (.number .realExtended payload)
      else if kind ≤ 10 then (textFormOf kind).map (Node.string · payload)
      else if kind == 11 then (elementsOf fuel payload).map Node.array
      else if kind == 12 then do
        let parts ← elementsOf fuel payload
        (pairsOf parts).map Node.object
      else none
    return (node, after)

/-- Names and values taken alternately; each name must be a string. -/
def pairsOf : List Node → Option (List (TextForm × List Nat × Node))
  | [] => some []
  | [_] => none
  | .string f k :: v :: rest => (pairsOf rest).map ((f, k, v) :: ·)
  | _ :: _ :: _ => none

end

/-- The value a blob holds in binary form; none when it is malformed. -/
def ofBinary (bs : List Nat) : Option Node :=
  match elementOf (bs.length + 1) bs with
  | some (n, []) => some n
  | _ => none

end GraphIngest.Sql.Json
