import GraphIngest.Yaml.Resolve

/-!
# Typed reading of YAML documents

Reading typed values from the events of a YAML document. An alias is read as the node it names;
following aliases is limited to a hundred times the number of events, and collections may nest
128 deep.

Faults name the place of the value at fault: the path from the document's root
(`entities.P.nodes[0]`) and the mark of the event where the value at that path starts. A fault
gets its place from the innermost reader of a whole node around it, so a fault found while reading
a record or a collection as a whole carries the mark where the collection starts.

Booleans and integers are read from plain scalars; any other scalar is refused and named as what
it stands for.
-/

namespace GraphIngest.Yaml

open GraphIngest.JsonDecode

/-- The path from the root of a document to a value. -/
inductive Path where
  | root
  | seq (parent : Path) (index : Nat)
  | map (parent : Path) (key : String)
  | unknown (parent : Path)
  deriving Inhabited

namespace Path

/-- The path written as in fault messages; the root alone is `.`. -/
def text : Path → String
  | .root => "."
  | .seq p i => p.text ++ "[" ++ toString i ++ "]"
  | .map p k => parentText p ++ k
  | .unknown p => parentText p ++ "?"
where
  /-- The parent's text followed by a dot, or nothing for the root. -/
  parentText : Path → String
    | .root => ""
    | p => p.text ++ "."

end Path

/-- A fault found while reading a typed value from YAML. -/
inductive Fault where
  | custom (text : String) (place : Option (Mark × String))
  | malformed (f : SyntaxFault)
  | endOfStream
  | recursionLimit (m : Mark)
  | repetitionLimit
  | moreDocuments
  deriving Inhabited

namespace Fault

/-- The text of a fault: the path (unless it is the root), the message, and the mark unless it
is the start of the text. -/
def message : Fault → String
  | .custom t none => t
  | .custom t (some (m, path)) =>
    (if path == "." then "" else path ++ ": ") ++ t ++ (if m.isStart then "" else " at " ++ m.text)
  | .malformed f => f.message
  | .endOfStream => "EOF while parsing a value"
  | .recursionLimit m => "recursion limit exceeded" ++ (if m.isStart then "" else " at " ++ m.text)
  | .repetitionLimit => "repetition limit exceeded"
  | .moreDocuments => "deserializing from YAML containing more than one document is not supported"

def place (f : Fault) (m : Mark) (p : Path) : Fault :=
  match f with
  | .custom t none => .custom t (some (m, p.text))
  | f => f

end Fault

/-- Where reading stands: the next event, how many aliases were followed, and how many more
collections may be entered. -/
structure Progress where
  event : Nat := 0
  jumps : Nat := 0
  depth : Nat := 128
  deriving Inhabited

/-- Reading typed values from the events of a document. -/
abbrev Dec := ReaderT Stream (StateT Progress (Except Fault))

namespace Dec

/-- Fails with a message that gets its place from the enclosing node. -/
def fail (text : String) : Dec α := throw (.custom text none)

def check (r : Except String α) : Dec α :=
  match r with
  | .ok a => pure a
  | .error t => fail t

/-- What is wrong when the events run out: the syntax fault that stopped reading, if any. -/
def exhausted : Dec α := do
  match (← read).fault with
  | some f => throw (.malformed f)
  | none => throw .endOfStream

/-- The next event, not taken. -/
def peek : Dec (Event × Mark) := do
  let s ← read
  match s.events[(← get).event]? with
  | some e => return e
  | none => exhausted

/-- Takes the next event. -/
def next : Dec (Event × Mark) := do
  let e ← peek
  modify fun r => { r with event := r.event + 1 }
  return e

/-- Runs a reader and places its faults without a place at `m` and `p`. -/
def placed (m : Mark) (p : Path) (act : Dec α) : Dec α :=
  tryCatch act (fun f => throw (f.place m p))

/-- Reads with `act` from the event an alias names, then goes on after the alias. -/
def jump (target : Nat) (act : Dec α) : Dec α := do
  let s ← read
  let r ← get
  let jumps := r.jumps + 1
  if jumps > s.events.size * 100 then throw .repetitionLimit
  set { r with event := target, jumps }
  let a ← act
  modify fun r' => { r' with event := r.event }
  return a

/-- Reads one node: takes its first event, following an alias to the node it names, and reads
the node with `body` from that event and its mark. Faults without a place get the mark of that
event and the path `p`. -/
def node (p : Path) (body : Event → Mark → Dec α) : Dec α := do
  let (e, m) ← next
  match e with
  | .alias target =>
    placed m p (jump target do
      let (e', m') ← next
      placed m' p (body e' m'))
  | _ => placed m p (body e m)

def mismatch (e : Event) (expected : String) : Dec α :=
  match e with
  | .scalar v style tag => fail (scalarMismatch v style tag expected)
  | .seqStart _ => fail (invalidType "sequence" expected)
  | .mapStart _ => fail (invalidType "map" expected)
  | _ => throw .endOfStream

/-- Whether a scalar may be read as a value of the core tag `t` directly: a plain one, or a
literal block scalar tagged `t`. -/
def direct (t : String) (style : ScalarStyle) (tag : Option String) : Bool :=
  style == .plain || (style == .literal && tag == some t)

/-- Whether an event stands for an empty collection: no document, or an empty plain scalar. -/
def isEmptyNode : Event → Bool
  | .void => true
  | .scalar v .plain _ => v.isEmpty
  | _ => false

/-- Enters a collection starting at `m`, one level deeper. -/
def nested (m : Mark) (act : Dec α) : Dec α := do
  let r ← get
  if r.depth == 0 then throw (.recursionLimit m)
  set { r with depth := r.depth - 1 }
  let a ← act
  modify fun r' => { r' with depth := r.depth }
  return a

/-- Skips one whole node; an alias counts as a node. -/
def skipNode : Dec Unit := do
  let s ← read
  let rec go : Nat → Nat → Dec Unit
    | 0, _ => pure ()
    | fuel + 1, depth => do
      let (e, _) ← next
      match e with
      | .mapStart _ | .seqStart _ => go fuel (depth + 1)
      | .mapEnd | .seqEnd => if depth ≤ 1 then pure () else go fuel (depth - 1)
      | _ => if depth == 0 then pure () else go fuel depth
  go (s.events.size + 1) 0

/-- A scalar's text, given to `k`; anything else is refused as not `expected`. -/
def text (expected : String) (p : Path) (k : String → Dec α) : Dec α :=
  node p fun e _ =>
    match e with
    | .scalar v _ _ => k v
    | e => mismatch e expected

/-- A text: any scalar's text. -/
def string (p : Path) : Dec String := text "a string" p pure

/-- A boolean, spelled by a scalar that may be read directly. -/
def bool (p : Path) : Dec Bool :=
  node p fun e _ =>
    match e with
    | .scalar v style tag =>
      match (if direct boolTag style tag then boolOf? v else none) with
      | some b => pure b
      | none => mismatch e "a boolean"
    | e => mismatch e "a boolean"

/-- A natural number of 64 bits at most `max`, named `name` in faults, spelled by a scalar that
may be read directly. -/
def natUpTo (max : Nat) (name : String) (p : Path) : Dec Nat :=
  node p fun e _ =>
    match e with
    | .scalar v style tag =>
      match (if direct intTag style tag then unsignedOf? v else none) with
      | some n =>
        if n ≥ Nat.pow 2 64 then mismatch e name
        else if n ≤ max then pure n
        else fail (invalidValue s!"integer `{n}`" name)
      | none => mismatch e name
    | e => mismatch e name

/-- An optional value, its first event not an alias: absent when it is a plain null (with the
core null tag, one spelling null, else a fault) or nothing at all. -/
def optionHere (inner : Dec α) : Dec (Option α) := do
  let (e, _) ← peek
  let absent : Dec (Option α) := do
    modify fun r => { r with event := r.event + 1 }
    pure none
  match e with
  | .scalar v style tag =>
    if style != .plain then some <$> inner
    else match tag with
      | some t =>
        if t == nullTag then
          if isNullWord v then absent else fail (invalidValue ("string " ++ debugText v) "null")
        else some <$> inner
      | none => if isNullText v then absent else some <$> inner
  | .void => absent
  | _ => some <$> inner

/-- An optional value (see `optionHere`); an alias is followed first. -/
def option (inner : Dec α) : Dec (Option α) := do
  let (e, _) ← peek
  match e with
  | .alias target =>
    modify fun r => { r with event := r.event + 1 }
    jump target (optionHere inner)
  | _ => optionHere inner

/-- A sequence, each item read by `item` at its index; an empty plain scalar is an empty
sequence. -/
def seq (p : Path) (item : Path → Dec α) : Dec (List α) :=
  node p fun e m =>
    match e with
    | .seqStart _ => nested m do
      let s ← read
      let rec go : Nat → Nat → List α → Dec (List α)
        | 0, _, acc => pure acc.reverse
        | fuel + 1, i, acc => do
          let (e', _) ← peek
          match e' with
          | .seqEnd | .void => do
            discard next
            pure acc.reverse
          | _ => do
            let x ← item (.seq p i)
            go fuel (i + 1) (x :: acc)
      go (s.events.size + 1) 0 []
    | e => if isEmptyNode e then pure [] else mismatch e "a sequence"

/-- The path of the value after a key whose first event is `k`: the key's text for a scalar,
unknown otherwise. -/
def valuePath (p : Path) (k : Event) : Path :=
  match k with
  | .scalar key _ _ => .map p key
  | _ => .unknown p

/-- The entries of a mapping whose start is taken, up to and with its end: `entry` reads one,
from its key, given the event that starts the key. -/
def entries (entry : σ → Event → Dec σ) (init : σ) : Dec σ := do
  let s ← read
  let rec go : Nat → σ → Dec σ
    | 0, st => pure st
    | fuel + 1, st => do
      let (k, _) ← peek
      match k with
      | .mapEnd | .void => do
        discard next
        pure st
      | _ => do
        let st ← entry st k
        go fuel st
  go (s.events.size + 1) init

/-- A map with text keys, each value read by `value` at its path; a later entry of a key wins,
and the result is sorted by key. An empty plain scalar is an empty map. -/
def strMap (p : Path) (value : Path → Dec α) : Dec (List (String × α)) :=
  node p fun e m =>
    match e with
    | .mapStart _ => nested m do
      entries (fun acc k => do
        let key ← string p
        let v ← value (valuePath p k)
        pure (insertSorted (key, v) acc)) []
    | e => if isEmptyNode e then pure [] else mismatch e "a map"

/-- Reads a record from a mapping. `fields` are its declared fields; an unknown one is refused
(at the key, with the record's path) when `deny` holds and skipped otherwise; a field given twice
is refused. `field` reads a declared field's value at its path and folds it into the state;
`finish` makes the record from the state, raising a missing field. An empty plain scalar is a
record with no fields given. -/
def record (name : String) (fields : List String) (deny : Bool) (p : Path) (init : σ)
    (field : σ → String → Path → Dec σ) (finish : σ → Dec α) : Dec α :=
  node p fun e m =>
    match e with
    | .mapStart _ => do
      let (_, st) ← nested m do
        entries (fun (seen, st) k => do
          let key ← text "field identifier" p fun key =>
            if fields.contains key then pure (some key)
            else if deny then fail (unknownField key fields)
            else pure none
          match key with
          | some key =>
            if seen.contains key then fail (duplicateField key)
            else do
              let st ← field st key (valuePath p k)
              pure (key :: seen, st)
          | none => do
            skipNode
            pure (seen, st)) (([] : List String), init)
      finish st
    | e => if isEmptyNode e then finish init else mismatch e ("struct " ++ name)

/-- The unit value of a variant chosen by a tag: the tagged node must be a plain null. -/
def taggedUnit (p : Path) : Dec Unit :=
  node p fun e _ =>
    match e with
    | .scalar v style _ =>
      if style == .plain && isNullText v then pure ()
      else fail (invalidValue ("string " ++ debugText v) "null")
    | .void => pure ()
    | e => mismatch e "unit"

/-- One of the named unit variants of an enumeration, the node's first event not an alias: a
scalar naming it, or a local tag naming it on a null node. A collection without a local tag is
refused. A tag naming no variant is a fault placed by the enclosing node. -/
def variantHere (variants : List String) (p : Path) : Dec String := do
  let (e, m) ← peek
  let tagged (name : String) : Dec String :=
    if variants.contains name then do
      taggedUnit p
      pure name
    else fail (unknownVariant name variants)
  let untaggedCollection (what : String) : Dec String :=
    placed m p (fail (invalidType what "a YAML tag starting with '!'"))
  match e with
  | .scalar _ _ tag =>
    match localTag tag with
    | some name => tagged name
    | none =>
      placed m p (text "variant identifier" p fun v =>
        if variants.contains v then pure v else fail (unknownVariant v variants))
  | .mapStart tag =>
    match localTag tag with
    | some name => tagged name
    | none => untaggedCollection "map"
  | .seqStart tag =>
    match localTag tag with
    | some name => tagged name
    | none => untaggedCollection "sequence"
  | _ => throw .endOfStream

/-- One of the named unit variants of an enumeration (see `variantHere`); an alias is followed
first. -/
def variant (variants : List String) (p : Path) : Dec String := do
  let (e, m) ← peek
  match e with
  | .alias target =>
    modify fun r => { r with event := r.event + 1 }
    placed m p (jump target (variantHere variants p))
  | _ => variantHere variants p

mutual

/-- Any value, as content (see `Content`). A node with a local tag is refused: it would name an
enumeration's variant. -/
def contentAt : Nat → Path → Dec Content
  | 0, _ => pure .unit
  | fuel + 1, p =>
    node p fun e m =>
      let enumInput : Dec Content := fail "untagged and internally tagged enums do not support enum input"
      match e with
      | .scalar v style tag =>
        if (localTag tag).isSome then enumInput else check (scalarContent v style tag)
      | .seqStart tag =>
        if (localTag tag).isSome then enumInput
        else nested m (contentItems fuel p 0 [])
      | .mapStart tag =>
        if (localTag tag).isSome then enumInput
        else nested m (contentEntries fuel p [])
      | .void => pure .nothing
      | _ => throw .endOfStream

/-- The items of a sequence read as any value, its start taken, up to and with its end. -/
def contentItems : Nat → Path → Nat → List Content → Dec Content
  | 0, _, _, acc => pure (.seq acc.reverse)
  | fuel + 1, p, i, acc => do
    let (e, _) ← peek
    match e with
    | .seqEnd | .void => do
      discard next
      pure (.seq acc.reverse)
    | _ => do
      let x ← contentAt fuel (.seq p i)
      contentItems fuel p (i + 1) (x :: acc)

/-- The entries of a mapping read as any value, its start taken, up to and with its end; keys
are read with the mapping's path. -/
def contentEntries : Nat → Path → List (Content × Content) → Dec Content
  | 0, _, acc => pure (.map acc.reverse)
  | fuel + 1, p, acc => do
    let (e, _) ← peek
    match e with
    | .mapEnd | .void => do
      discard next
      pure (.map acc.reverse)
    | _ => do
      let k ← contentAt fuel p
      let v ← contentAt fuel (valuePath p e)
      contentEntries fuel p ((k, v) :: acc)

end

/-- Any value at a path, as content. -/
def content (p : Path) : Dec Content := do
  let s ← read
  contentAt (2 * s.events.size + 2) p

/-- Reads the whole document with `top`; a syntax fault after what was read, or a second
document, is still a fault. -/
def document (s : Stream) (top : Dec α) : Except Fault α :=
  match (top.run s).run {} with
  | .error f => .error f
  | .ok (a, _) =>
    match s.fault with
    | some f => .error (.malformed f)
    | none => if s.moreDocuments then .error .moreDocuments else .ok a

end Dec

end GraphIngest.Yaml
