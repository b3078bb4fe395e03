import GraphIngest.Sql.Json.Function

/-!
# Walking a JSON value as rows

`json_each` gives one row for each item of an array or member of an object (one row for the
value itself when it is neither), and `json_tree` one row for the value and one for everything
inside it, each container before what it holds. A second argument, a path, walks from the value
found there instead.
-/

namespace GraphIngest.Sql.Json

/-- One row of `json_each` or `json_tree`, before it becomes SQL values. -/
structure EachRow where
  key : SqlValue
  node : Node
  id : Nat
  parent : Option Nat
  fullkey : List Nat
  path : List Nat
  deriving Inhabited

/-- The size of the header of an array or object in binary form. -/
def Node.headerSize : Node → Nat
  | .array items => (header 11 (itemsBinary items).length).length
  | .object members => (header 12 (membersBinary members).length).length
  | _ => 1

def Node.binarySize (n : Node) : Nat := n.toBinary.length

/-- The size of a member in binary form: its name, then its value. -/
def memberSize (m : TextForm × List Nat × Node) : Nat :=
  (element m.1.code m.2.1).length + m.2.2.binarySize

/-- The path step to a member: `.name` when the name is a letter followed by letters and digits,
else the name in double quotes (as it is held, escapes and all). -/
def memberStep (label : List Nat) : List Nat :=
  let plain := match label with
    | b :: rest => isAlpha b && rest.all isAlnum
    | [] => false
  if plain then ch '.' :: label else ch '.' :: ch '"' :: label ++ [ch '"']

def itemStep (k : Nat) : List Nat := ch '[' :: asciiBytes (toString k) ++ [ch ']']

/-- The key of a member: its name as SQL text. -/
def memberKey (form : TextForm) (label : List Nat) : SqlValue :=
  ((Node.string form label).toSql).getD .null

mutual

/-- The rows of `json_tree` for a value (standing at `offset`, its row at `id`) and all it
holds. -/
def treeRows (n : Node) (key : SqlValue) (id offset : Nat) (parent : Option Nat)
    (fullkey path : List Nat) : List EachRow :=
  { key, node := n, id, parent, fullkey, path } ::
    match n with
    | .array items => itemTree items 0 (offset + n.headerSize) id fullkey
    | .object members => memberTree members (offset + n.headerSize) id fullkey
    | _ => []

/-- The rows of `json_tree` for the items of an array from the `k`-th on. -/
def itemTree : List Node → Nat → Nat → Nat → List Nat → List EachRow
  | [], _, _, _, _ => []
  | n :: rest, k, offset, parent, path =>
    treeRows n (.int k) offset offset (some parent) (path ++ itemStep k) path ++
      itemTree rest (k + 1) (offset + n.binarySize) parent path

/-- The rows of `json_tree` for the members of an object; a member's row stands where its name
does. -/
def memberTree : List (TextForm × List Nat × Node) → Nat → Nat → List Nat → List EachRow
  | [], _, _, _ => []
  | (f, label, v) :: rest, offset, parent, path =>
    treeRows v (memberKey f label) offset (offset + (element f.code label).length) (some parent)
        (path ++ memberStep label) path ++
      memberTree rest (offset + memberSize (f, label, v)) parent path

end

/-- The rows of `json_each` for what an array or object holds, which starts at `offset`. -/
def childRows (n : Node) (offset : Nat) (path : List Nat) : List EachRow :=
  match n with
  | .array items =>
    let (_, _, rows) := items.foldl (fun (k, at_, rows) item =>
        (k + 1, at_ + item.binarySize,
          rows ++ [{ key := .int (k : Int), node := item, id := at_, parent := none,
                     fullkey := path ++ itemStep k, path : EachRow }]))
      ((0 : Nat), offset, [])
    rows
  | .object members =>
    let (_, rows) := members.foldl (fun (at_, rows) (f, label, v) =>
        (at_ + memberSize (f, label, v),
          rows ++ [{ key := memberKey f label, node := v, id := at_, parent := none,
                     fullkey := path ++ memberStep label, path : EachRow }]))
      (offset, [])
    rows
  | _ => []

/-- What following a path gives, with where the value found stands in the binary form of the
document, and where its name stands when it is a member. -/
inductive Located where
  | found (n : Node) (offset : Nat) (label : Option Nat)
  | missing
  | badPath
  deriving Inhabited

/-- Follows a path (the bytes after its `$`) into a value standing at `offset`, as `find` does,
keeping track of where each value stands. -/
def locate : Nat → Node → Nat → Option Nat → List Nat → Located
  | 0, _, _, _, _ => .missing
  | _, n, offset, label, [] => .found n offset label
  | fuel + 1, n, offset, _, 46 :: rest =>
    match nameStep rest with
    | none => .badPath
    | some (raw, name, after) =>
      match n with
      | .object members =>
        match memberIndex raw name members with
        | some i =>
          match members[i]? with
          | some (f, k, v) =>
            let at_ := offset + n.headerSize + ((members.take i).map memberSize).sum
            locate fuel v (at_ + (element f.code k).length) (some at_) after
          | none => .missing
        | none => .missing
      | _ => .missing
  | fuel + 1, n, offset, _, 91 :: rest =>
    match n with
    | .array items =>
      match indexStep items.length rest with
      | .at_ k after =>
        match items[k]? with
        | some v =>
          locate fuel v (offset + n.headerSize + ((items.take k).map Node.binarySize).sum) none after
        | none => .missing
      | .before => .missing
      | .malformed => .badPath
    | _ => .missing
  | _, _, _, _, _ => .badPath

/-- Where the path of the first row of `json_tree` under a root path ends, the value found there
standing at `id`: the last `.` or `[` before index `n` at which the path so far finds a container
whose first item or member is that value. Failing that, the path is cut right after its `$`, so
the first row's key is all the rest. -/
def rootCut (doc : Node) (id : Nat) (root : List Nat) : Nat → Nat
  | 0 => 1
  | 1 => 1
  | n + 1 =>
    let b := byteAt root n
    let heads := match locate (n + 1) doc 0 none ((root.take n).drop 1) with
      | .found c offset _ => offset + c.headerSize == id
      | _ => false
    if (b == ch '.' || b == ch '[') && heads then n else rootCut doc id root n

/-- The key the rest of a root path after its cut names: the number after `[`, the text after
`."` but its last byte, or the text after `.`. -/
def stepKey (step : List Nat) : SqlValue :=
  match step with
  | 91 :: rest => .int ((rest.takeWhile isDigit).foldl (fun acc d => acc * 10 + (d - 48)) 0 : Nat)
  | 46 :: 34 :: rest => .text (ofBytes rest.dropLast)
  | 46 :: rest => .text (ofBytes rest)
  | _ => .null

/-- The names of the columns of `json_each` and `json_tree`; the last two are hidden. -/
def eachColumnNames : List String :=
  ["key", "value", "type", "atom", "id", "parent", "fullkey", "path", "json", "root"]

/-- The values of a row, in column order. -/
def EachRow.values (r : EachRow) (document root : SqlValue) : List SqlValue :=
  let value := (r.node.toSql).getD .null
  let atom := match r.node with
    | .array _ | .object _ => .null
    | _ => value
  [r.key, value, .text r.node.typeName, atom, .int r.id, (r.parent.map fun p => SqlValue.int p).getD .null,
    .text (ofBytes r.fullkey), .text (ofBytes r.path), document, root]

/-- The rows of `json_each` (or of `json_tree`, when `tree`) over a document and an optional path
(`$` when there is none), each with its row id: none for a null document or path, or a path that
finds nothing. -/
def eachRows (tree : Bool) (args : List Tagged) : Except SqlFault (List (Int × List SqlValue)) := do
  let some docArg := args.head? | return []
  let some doc ← document docArg.value | return []
  let rootArg : SqlValue := match args with
    | [_, r] => r.value
    | _ => .text "$"
  let some root := cText rootArg | return []
  let (n, offset, id) ← match root with
    | [36] => pure (doc, 0, 0)
    | 36 :: path =>
      match locate (path.length + 1) doc 0 none path with
      | .found n offset label => pure (n, offset, label.getD offset)
      | .missing => return []
      | .badPath => throw (badPath root)
    | _ => throw (badPath root)
  let rows := if tree then
      let cut := rootCut doc id root root.length
      let key := if root.length == 1 then SqlValue.null else stepKey (root.drop cut)
      treeRows n key id offset none root (root.take cut)
    else
      match n with
      | .array _ | .object _ => childRows n (offset + n.headerSize) root
      | _ => [{ key := .null, node := n, id, parent := none, fullkey := root, path := root }]
  let document := docArg.value
  pure ((List.range rows.length).zip rows |>.map fun (i, r) => ((i : Int), r.values document rootArg))

end GraphIngest.Sql.Json
