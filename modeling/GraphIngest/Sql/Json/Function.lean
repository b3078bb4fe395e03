import GraphIngest.Sql.Json.Path
import GraphIngest.Sql.Json.Binary
import GraphIngest.Sql.Format
import GraphIngest.Sql.Fault

/-!
# The JSON functions of SQL

The functions read their first argument as a JSON document: text is read as JSON5, a blob that is
a binary JSON value is taken as it is, and null gives null. A JSON function's result is *JSON
text*, which another JSON function takes as JSON rather than as a string: `Tagged` carries that
mark beside the value. `->` gives JSON text, while `->>` gives the SQL value.
-/

namespace GraphIngest.Sql.Json

/-- A value with the mark of JSON text. -/
structure Tagged where
  value : SqlValue := .null
  json : Bool := false
  deriving Inhabited

/-- The bytes of a value read as text, up to its first NUL byte; none for null. -/
def cText : SqlValue → Option (List Nat)
  | .null => none
  | .blob b => some ((b.map (·.toNat)).takeWhile (· != 0))
  | v => some ((utf8 (String.ofList v.textChars)).takeWhile (· != 0))

/-- All the bytes of a value read as text; none for null. -/
def fullText : SqlValue → Option (List Nat)
  | .null => none
  | .blob b => some (b.map (·.toNat))
  | v => some (utf8 (String.ofList v.textChars))

def malformed : SqlFault := .otherMessage "malformed JSON"

def badPath (path : List Nat) : SqlFault :=
  .otherMessage ("bad JSON path: '" ++
    (ofBytes path).foldl (fun acc c => if c == '\'' then acc ++ "''" else acc.push c) "" ++ "'")

/-- A document argument as a value; none for null. -/
def document (v : SqlValue) : Except SqlFault (Option Node) :=
  match v with
  | .null => .ok none
  | .blob b =>
    let bs := b.map (·.toNat)
    if looksBinary bs then
      match ofBinary bs with
      | some n => .ok (some n)
      | none => .error malformed
    else textDocument bs
  | v => textDocument ((fullText v).getD [])
where
  /-- A document read from text. -/
  textDocument (bs : List Nat) : Except SqlFault (Option Node) :=
    if bs.isEmpty then .error malformed
    else match parse bs with
      | some (n, _) => .ok (some n)
      | none => .error malformed

/-- A value put into a document (by the set and insert functions). -/
def valueNode (t : Tagged) : Except SqlFault Node :=
  match t.value with
  | .null => .ok .null
  | .int i => .ok (.number .integer (asciiBytes (toString i)))
  | .real x =>
    let z := Sql.realText x
    if z.startsWith "I" then .ok (.number .real (asciiBytes "9e999"))
    else if z.startsWith "-I" then .ok (.number .real (asciiBytes "-9e999"))
    else .ok (.number .real (utf8 z))
  | .text s =>
    if t.json then
      match parse (utf8 s) with
      | some (n, _) => .ok n
      | none => .error malformed
    else .ok (.string .raw (utf8 s))
  | .blob b =>
    let bs := b.map (·.toNat)
    if looksBinary bs then
      match ofBinary bs with
      | some n => .ok n
      | none => .error malformed
    else .error (.otherMessage "JSON cannot hold BLOB values")

/-- The JSON text of a value (for the functions that build arrays and objects). -/
def valueText (t : Tagged) : Except SqlFault (List Nat) :=
  match t.value with
  | .null => .ok (asciiBytes "null")
  | .int i => .ok (asciiBytes (toString i))
  | .real x => .ok (utf8 (Format.formatReal "%!0.15g" x))
  | .text s => .ok (if t.json then utf8 s else stringText .raw (utf8 s))
  | .blob b =>
    let bs := b.map (·.toNat)
    if looksBinary bs then
      match ofBinary bs with
      | some n => .ok n.render
      | none => .error malformed
    else .error (.otherMessage "JSON cannot hold BLOB values")

def jsonResult (bs : List Nat) : Tagged := { value := .text (ofBytes bs), json := true }

/-- A document as the result of a function: JSON text, or its binary form. -/
def nodeResult (binary : Bool) (n : Node) : Tagged :=
  if binary then { value := .blob (n.toBinary.map (·.toUInt8)) } else jsonResult n.render

/-- Built JSON text as the result of a function: the text, or the binary form of what it reads
as. -/
def textResult (binary : Bool) (bs : List Nat) : Except SqlFault Tagged :=
  if binary then
    match parse bs with
    | some (n, _) => .ok (nodeResult true n)
    | none => .error malformed
  else .ok (jsonResult bs)

/-- The path an argument of `->` or `->>` stands for, without its `$`. -/
def arrowPath (v : SqlValue) (text : List Nat) : Option (List Nat) :=
  match text with
  | 36 :: rest => some rest
  | _ =>
    match v with
    | .int _ => some (ch '[' :: text ++ [ch ']'])
    | _ =>
      if text.all (fun b => isAlnum b || b == 95) then some (ch '.' :: text)
      else if text.head? == some (ch '[') && text.length ≥ 3 && text.getLast? == some (ch ']') then some text
      else some (asciiBytes ".\"" ++ text ++ [ch '"'])

/-- The SQL value of a value found, marked as JSON text when it is an array or object. -/
def sqlResult (n : Node) : Except SqlFault Tagged :=
  match n.toSql with
  | some v =>
    match n with
    | .array _ | .object _ => .ok { value := v, json := true }
    | _ => .ok { value := v }
  | none => .error malformed

/-- `json_extract`, `->` and `->>`: the value at a path; with several paths, the JSON array of
the values found (null for each that finds nothing). `arrow` is none for `json_extract`, else
whether the JSON text is wanted. -/
def extract (arrow : Option Bool) (binary : Bool) (args : List Tagged) : Except SqlFault Tagged := do
  match args with
  | [] | [_] => return {}
  | d :: paths =>
    let some doc ← document d.value | return {}
    let mut found : List (Option Node) := []
    for p in paths do
      let some text := cText p.value | return {}
      let path ← match arrow, text with
        | none, 36 :: rest => pure rest
        | some _, _ =>
          match arrowPath p.value text with
          | some path => pure path
          | none => throw (badPath text)
        | none, _ => throw (badPath text)
      match find (path.length + 1) doc path with
      | .found n => found := found ++ [some n]
      | .missing => found := found ++ [none]
      | .badPath => throw (badPath text)
    match found with
    | [one] =>
      match one, arrow with
      | none, _ => return {}
      | some n, some true => return nodeResult binary n
      | some n, some false => return { value := (← sqlResult n).value }
      | some n, none => if binary then return nodeResult true n else sqlResult n
    | _ =>
      let items := found.map fun n => (n.map Node.render).getD (asciiBytes "null")
      textResult binary (ch '[' :: (items.intersperse [ch ',']).flatten ++ [ch ']'])

/-- `json_set`, `json_insert`, `json_replace`: the document with each value put at its path
(a null path skipped, `$` itself the whole document). -/
def putAll (edit : Edit) (name : String) (binary : Bool) (args : List Tagged) : Except SqlFault Tagged := do
  match args with
  | [] => return {}
  | d :: pairs =>
    if pairs.length % 2 == 1 then
      throw (.otherMessage ("json_" ++ name ++ "() needs an odd number of arguments"))
    let some doc ← document d.value | return {}
    let mut doc := doc
    let pairsList := (List.range (pairs.length / 2)).map fun i => (pairs.getD (2 * i) {}, pairs.getD (2 * i + 1) {})
    for (p, v) in pairsList do
      let some text := cText p.value | continue
      let rest ← match text with
        | 36 :: rest => pure rest
        | _ => throw (badPath text)
      let value ← valueNode v
      if rest.isEmpty then
        if edit != .insert then doc := value
      else
        match editAt (rest.length + 1) edit value doc rest with
        | .done n => doc := n
        | .removed => pure ()
        | .missing => pure ()
        | .badPath => throw (badPath text)
    return nodeResult binary doc

/-- `json_remove` (and `json` with one argument): the document without the values at the paths;
a null path, or `$` itself, gives null. -/
def removeAll (binary : Bool) (args : List Tagged) : Except SqlFault Tagged := do
  match args with
  | [] => return {}
  | d :: paths =>
    let some doc ← document d.value | return {}
    let mut doc := doc
    for p in paths do
      let some text := cText p.value | return {}
      let rest ← match text with
        | 36 :: rest => pure rest
        | _ => throw (badPath text)
      if rest.isEmpty then return {}
      match editAt (rest.length + 1) .delete .null doc rest with
      | .done n => doc := n
      | .removed => pure ()
      | .missing => pure ()
      | .badPath => throw (badPath text)
    return nodeResult binary doc

/-- The value at an optional path argument of a document, for `json_type` and
`json_array_length`: none when nothing is found or the path is null. -/
def focus (doc : Node) (path : Option Tagged) : Except SqlFault (Option Node) :=
  match path with
  | none => .ok (some doc)
  | some p =>
    match cText p.value with
    | none => .ok none
    | some text =>
      match text with
      | 36 :: rest =>
        match find (rest.length + 1) doc rest with
        | .found n => .ok (some n)
        | .missing => .ok none
        | .badPath => .error (badPath text)
      | _ => .error (badPath text)

/-- `json_valid`: whether a value is well-formed JSON by the flags (1 plain JSON text, 2 JSON5
text, 4 a binary value at a glance, 8 a binary value checked through). -/
def valid (args : List Tagged) : Except SqlFault Tagged := do
  let flags : Int := match args with
    | [_, f] => f.value.toInt
    | _ => 1
  if flags < 1 || flags > 15 then
    throw (.otherMessage "FLAGS parameter to json_valid() must be between 1 and 15")
  let flags := flags.toNat
  let v := (args.headD {}).value
  let textValid (bs : List Nat) : Bool :=
    if flags % 4 == 0 || bs.isEmpty then false
    else match parse bs with
      | some (_, ext) => flags / 2 % 2 == 1 || !ext
      | none => false
  match v with
  | .null => return {}
  | .blob b =>
    let bs := b.map (·.toNat)
    if looksBinary bs then
      if flags / 4 % 2 == 1 then return { value := .int 1 }
      else if flags / 8 % 2 == 1 then return { value := .int (if (ofBinary bs).isSome then 1 else 0) }
      else return { value := .int 0 }
    else return { value := .int (if textValid bs then 1 else 0) }
  | v => return { value := .int (if textValid ((fullText v).getD []) then 1 else 0) }

/-- The scalar JSON functions and their argument counts (the least, and the most if any). -/
def arity (name : String) : Option (Nat × Option Nat) :=
  match name with
  | "json" | "jsonb" | "json_quote" | "json_error_position" => some (1, some 1)
  | "json_array" | "jsonb_array" | "json_object" | "jsonb_object" | "json_extract" | "jsonb_extract"
  | "json_insert" | "jsonb_insert" | "json_replace" | "jsonb_replace" | "json_set" | "jsonb_set"
  | "json_remove" | "jsonb_remove" => some (0, none)
  | "json_array_length" | "json_type" | "json_valid" | "json_pretty" => some (1, some 2)
  | "json_patch" | "jsonb_patch" | "->" | "->>" => some (2, some 2)
  | _ => none

def apply (name : String) (args : List Tagged) : Except SqlFault Tagged := do
  let arg (i : Nat) : Tagged := args.getD i {}
  match name with
  | "json" | "jsonb" => removeAll (name == "jsonb") [arg 0]
  | "json_array" | "jsonb_array" =>
    let items ← args.mapM valueText
    textResult (name == "jsonb_array") (ch '[' :: (items.intersperse [ch ',']).flatten ++ [ch ']'])
  | "json_object" | "jsonb_object" =>
    if args.length % 2 == 1 then throw (.otherMessage "json_object() requires an even number of arguments")
    let mut parts : List (List Nat) := []
    for i in List.range (args.length / 2) do
      let k := arg (2 * i)
      match k.value with
      | .text s =>
        let v ← valueText (arg (2 * i + 1))
        parts := parts ++ [stringText .raw (utf8 s) ++ ch ':' :: v]
      | _ => throw (.otherMessage "json_object() labels must be TEXT")
    textResult (name == "jsonb_object") (ch '{' :: (parts.intersperse [ch ',']).flatten ++ [ch '}'])
  | "json_quote" => return jsonResult (← valueText (arg 0))
  | "json_extract" | "jsonb_extract" => extract none (name == "jsonb_extract") args
  | "->" => extract (some true) false args
  | "->>" => extract (some false) false args
  | "json_set" | "jsonb_set" => putAll .set "set" (name == "jsonb_set") args
  | "json_insert" | "jsonb_insert" => putAll .insert "insert" (name == "jsonb_insert") args
  | "json_replace" | "jsonb_replace" => putAll .replace "replace" (name == "jsonb_replace") args
  | "json_remove" | "jsonb_remove" => removeAll (name == "jsonb_remove") args
  | "json_patch" | "jsonb_patch" =>
    let some target ← document (arg 0).value | return {}
    let some patch ← document (arg 1).value | return {}
    return nodeResult (name == "jsonb_patch") (mergePatch (target.render.length + patch.render.length + 2) target patch)
  | "json_type" =>
    let some doc ← document (arg 0).value | return {}
    let some n ← focus doc (if args.length > 1 then some (arg 1) else none) | return {}
    return { value := .text n.typeName }
  | "json_array_length" =>
    let some doc ← document (arg 0).value | return {}
    let some n ← focus doc (if args.length > 1 then some (arg 1) else none) | return {}
    match n with
    | .array items => return { value := .int items.length }
    | _ => return { value := .int 0 }
  | "json_valid" => valid args
  | "json_pretty" =>
    let some doc ← document (arg 0).value | return {}
    let unit := if args.length > 1 then (cText (arg 1).value).getD (asciiBytes "    ") else asciiBytes "    "
    return { value := .text (ofBytes (doc.pretty unit 0)) }
  | _ => return {}

def givesJson (name : String) : Bool :=
  (arity name).isSome || name == "json_group_array" || name == "json_group_object"

/-- The JSON aggregate functions: `json_group_array` gathers the values of a group into an
array, `json_group_object` its names and values into an object (a null name skipped). -/
def aggregate (name : String) (rows : List (List Tagged)) : Except SqlFault Tagged := do
  let binary := name.startsWith "jsonb"
  if name.endsWith "group_array" then
    let items ← rows.mapM fun r => valueText (r.headD {})
    textResult binary (ch '[' :: (items.intersperse [ch ',']).flatten ++ [ch ']'])
  else
    let parts ← rows.filterMapM fun r =>
      match r with
      | k :: v :: _ =>
        match cText k.value with
        | some key => do
          let text ← valueText v
          pure (some (stringText .raw key ++ ch ':' :: text))
        | none => pure none
      | _ => pure none
    textResult binary (ch '{' :: (parts.intersperse [ch ',']).flatten ++ [ch '}'])

end GraphIngest.Sql.Json
