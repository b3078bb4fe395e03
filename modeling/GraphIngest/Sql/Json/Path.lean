import GraphIngest.Sql.Json.Node

/-!
# Paths into JSON values, and edits along them

A path is written after a `$` as steps: `.name`, `."name"`, `[n]`, `[#]` (one past the last
item) and `[#-n]`. Steps are read only as the walk gets to them, so a malformed step after one
that finds nothing is no fault. A name step on something other than an object, or an index step
on something other than an array, finds nothing.

Edits follow a path to its end. Inserting and setting also create what is missing: a member
appended to its object, or an item appended to its array when the index is one past its last
item, and any further steps build nested objects and arrays around the value.

Merging a patch into a value follows RFC 7396: a patch that is not an object replaces the value;
otherwise each of its members replaces or merges into the first member of that name, a null
removes it, and new members are appended.
-/

namespace GraphIngest.Sql.Json

/-- What following a path gives. -/
inductive Lookup where
  | found (n : Node)
  | missing
  | badPath
  deriving Inhabited

/-- The name of a name step (the bytes after its dot): whether it is taken as written, the name,
and the path after it; none when it is malformed. -/
def nameStep (bs : List Nat) : Option (Bool × List Nat × List Nat) :=
  match bs with
  | 34 :: rest =>
    let name := rest.takeWhile (· != 34)
    match rest.drop name.length with
    | [] => none
    | _ :: after => some (!name.contains 92, name, after)
  | _ =>
    let name := bs.takeWhile fun b => b != 46 && b != 91
    if name.isEmpty then none else some (true, name, bs.drop name.length)

/-- The number the digits at the start of bytes spell, and the bytes after them. -/
def digitsValue (bs : List Nat) : Nat × List Nat :=
  let ds := bs.takeWhile isDigit
  (ds.foldl (fun acc d => acc * 10 + (d - 48)) 0, bs.drop ds.length)

/-- Where an index step (the bytes after its `[`) points in an array of `count` items. -/
inductive Slot where
  | at_ (k : Nat) (after : List Nat)
  | before
  | malformed

/-- The slot an index step names; `[#-n]` with `n` past the count lies before the start. -/
def indexStep (count : Nat) (bs : List Nat) : Slot :=
  let (n, after) := digitsValue bs
  if !(bs.head?.map isDigit).getD false then
    if bs.head? == some 35 then
      let rest := bs.drop 1
      if rest.head? == some 45 && isDigit (byteAt rest 1) then
        let (m, after) := digitsValue (rest.drop 1)
        if m > count then .before
        else match after with
          | 93 :: more => .at_ (count - m) more
          | _ => .malformed
      else match rest with
        | 93 :: more => .at_ count more
        | _ => .malformed
    else .malformed
  else match after with
    | 93 :: more => .at_ n more
    | _ => .malformed

def memberIndex (raw : Bool) (name : List Nat) (members : List (TextForm × List Nat × Node)) :
    Option Nat :=
  members.findIdx? fun (f, k, _) => labelMatches raw name f.isRaw k

/-- Follows a path (the bytes after its `$`) into a value. -/
def find : Nat → Node → List Nat → Lookup
  | 0, _, _ => .missing
  | _, n, [] => .found n
  | fuel + 1, n, 46 :: rest =>
    match nameStep rest with
    | none => .badPath
    | some (raw, name, after) =>
      match n with
      | .object members =>
        match memberIndex raw name members with
        | some i =>
          match members[i]? with
          | some (_, _, v) => find fuel v after
          | none => .missing
        | none => .missing
      | _ => .missing
  | fuel + 1, n, 91 :: rest =>
    match n with
    | .array items =>
      match indexStep items.length rest with
      | .at_ k after =>
        match items[k]? with
        | some v => find fuel v after
        | none => .missing
      | .before => .missing
      | .malformed => .badPath
    | _ => .missing
  | _, _, _ => .badPath

/-- What an edit does at the end of its path. -/
inductive Edit where
  | delete
  | replace
  | insert
  | set
  deriving DecidableEq

def Edit.creates : Edit → Bool
  | .insert | .set => true
  | _ => false

/-- What an edit along a path gives: the changed value, the value removed, nothing found, or a
malformed path. -/
inductive Edited where
  | done (n : Node)
  | removed
  | missing
  | badPath
  deriving Inhabited

/-- Edits a value along a path (the bytes after its `$`), putting `v` at its end. A missing
part is built from the value itself at the end, else from an empty object or array (as the next
step asks) edited along the rest. -/
def editAt : Nat → Edit → Node → Node → List Nat → Edited
  | 0, _, _, _, _ => .missing
  | _, e, v, n, [] =>
    match e with
    | .delete => .removed
    | .insert => .done n
    | _ => .done v
  | fuel + 1, e, v, n, 46 :: rest =>
    match nameStep rest with
    | none => .badPath
    | some (raw, name, after) =>
      match n with
      | .object members =>
        match memberIndex raw name members with
        | some i =>
          match members[i]? with
          | some (f, k, old) =>
            match editAt fuel e v old after with
            | .done new => .done (.object (members.set i (f, k, new)))
            | .removed => .done (.object (members.eraseIdx i))
            | other => other
          | none => .missing
        | none =>
          if e.creates then
            let built := match after with
              | [] => Edited.done v
              | b :: _ => editAt fuel e v (if b == 46 then .object [] else .array []) after
            match built with
            | .done new => .done (.object (members ++ [(if raw then .raw else .extended, name, new)]))
            | other => other
          else .missing
      | _ => .missing
  | fuel + 1, e, v, n, 91 :: rest =>
    match n with
    | .array items =>
      match indexStep items.length rest with
      | .at_ k after =>
        match items[k]? with
        | some old =>
          match editAt fuel e v old after with
          | .done new => .done (.array (items.set k new))
          | .removed => .done (.array (items.eraseIdx k))
          | other => other
        | none =>
          if k == items.length && e.creates then
            let built := match after with
              | [] => Edited.done v
              | b :: _ => editAt fuel e v (if b == 46 then .object [] else .array []) after
            match built with
            | .done new => .done (.array (items ++ [new]))
            | other => other
          else .missing
      | .before => .missing
      | .malformed => .badPath
    | _ => .missing
  | _, _, _, _, _ => .badPath

/-- Merges a patch into a value (RFC 7396, see the module note). -/
def mergePatch : Nat → Node → Node → Node
  | 0, target, _ => target
  | fuel + 1, target, patch =>
    match patch with
    | .object changes =>
      let members := match target with
        | .object ms => ms
        | _ => []
      .object (changes.foldl (fun ms (pf, pk, pv) =>
        match ms.findIdx? (fun (tf, tk, _) => labelMatches pf.isRaw pk tf.isRaw tk) with
        | some i =>
          match pv, ms[i]? with
          | .null, _ => ms.eraseIdx i
          | _, some (tf, tk, tv) => ms.set i (tf, tk, mergePatch fuel tv pv)
          | _, none => ms
        | none =>
          match pv with
          | .null => ms
          | .object _ => ms ++ [(pf, pk, mergePatch fuel .null pv)]
          | _ => ms ++ [(pf, pk, pv)]) members)
    | _ => patch

/-! ## Printing with indentation -/

mutual

/-- The JSON text of a value laid out over lines: each item or member on a line of its own,
indented by `unit` once per level of nesting. -/
def Node.pretty (unit : List Nat) (level : Nat) : Node → List Nat
  | .array [] => asciiBytes "[]"
  | .object [] => asciiBytes "\x7b\x7d"
  | .array items =>
    asciiBytes "[\n" ++ prettyItems unit (level + 1) items ++ [10] ++
      (List.replicate level unit).flatten ++ [ch ']']
  | .object members =>
    asciiBytes "\x7b\n" ++ prettyMembers unit (level + 1) members ++ [10] ++
      (List.replicate level unit).flatten ++ [ch '}']
  | n => n.render

/-- The items of an array, one per line. -/
def prettyItems (unit : List Nat) (level : Nat) : List Node → List Nat
  | [] => []
  | [n] => (List.replicate level unit).flatten ++ n.pretty unit level
  | n :: rest =>
    (List.replicate level unit).flatten ++ n.pretty unit level ++ asciiBytes ",\n" ++
      prettyItems unit level rest

/-- The members of an object, one per line. -/
def prettyMembers (unit : List Nat) (level : Nat) : List (TextForm × List Nat × Node) → List Nat
  | [] => []
  | [(f, k, v)] => (List.replicate level unit).flatten ++ stringText f k ++ asciiBytes ": " ++ v.pretty unit level
  | (f, k, v) :: rest =>
    (List.replicate level unit).flatten ++ stringText f k ++ asciiBytes ": " ++ v.pretty unit level ++
      asciiBytes ",\n" ++ prettyMembers unit level rest

end

end GraphIngest.Sql.Json
