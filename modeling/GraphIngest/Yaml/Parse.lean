import GraphIngest.Yaml.Scan

/-!
# Parsing YAML tokens into events

The parser reads the tokens of the scanner with a state machine and gives the events of the text
one at a time. A state is what the parser expects next; entering a collection pushes the state to
return to, and the start mark of the collection for its faults. Where the grammar allows a node to
be left out the parser gives an empty plain scalar, placed where the missing node would have
started. Tags are resolved against the document's `%TAG` directives and the two standard handles.

A loader then keeps the events of the first document: anchors are replaced by the position of the
event where the anchored node starts, so that an alias points at it; an alias to an anchor not
defined before it is a fault.
-/

namespace GraphIngest.Yaml

/-- What the parser expects next. -/
inductive ParseState where
  | streamStart
  | implicitDocumentStart
  | documentStart
  | documentContent
  | documentEnd
  | blockNode
  | blockSequenceFirstEntry
  | blockSequenceEntry
  | indentlessSequenceEntry
  | blockMappingFirstKey
  | blockMappingKey
  | blockMappingValue
  | flowSequenceFirstEntry
  | flowSequenceEntry
  | flowSequenceEntryMappingKey
  | flowSequenceEntryMappingValue
  | flowSequenceEntryMappingEnd
  | flowMappingFirstKey
  | flowMappingKey
  | flowMappingValue
  | flowMappingEmptyValue
  | finished
  deriving Inhabited, DecidableEq

/-- An event as the parser gives it: anchors and aliases by name. -/
inductive ParseEvent where
  | streamStart
  | streamEnd
  | documentStart
  | documentEnd
  | alias (name : String)
  | scalar (anchor tag : Option String) (value : String) (style : ScalarStyle)
  | seqStart (anchor tag : Option String)
  | seqEnd
  | mapStart (anchor tag : Option String)
  | mapEnd
  deriving Inhabited

/-- The parser: the scanner, the current state, the states to return to, the start marks of the
open collections, and the tag handles of the current document in the order they were declared. -/
structure Parser where
  scanner : Scanner
  state : ParseState := .streamStart
  states : List ParseState := []
  marks : List Mark := []
  tagDirectives : List (String × String) := []
  deriving Inhabited

/-- Parsing; a fault keeps the parser where it was found. -/
abbrev Parse := EStateM SyntaxFault Parser

namespace Parse

/-- Runs a scanning step on the parser's scanner. -/
def scan (x : Scan α) : Parse α := fun p =>
  match x p.scanner with
  | .ok a s => .ok a { p with scanner := s }
  | .error e s => .error e { p with scanner := s }

/-- The next token, not taken; the scanner fetches as far as it must to settle it. -/
def peek : Parse Located := do
  if !(← get).scanner.available then
    scan (Scan.fetchMore ((← get).scanner.rest.length + 4))
  let s := (← get).scanner
  match s.queue with
  | t :: _ => return t
  | [] => return { token := .streamEnd, start := s.mark, stop := s.mark }

def skipToken : Parse Unit := modify fun p =>
  { p with scanner := { p.scanner with queue := p.scanner.queue.drop 1, taken := p.scanner.taken + 1,
                                       available := false } }

def setState (st : ParseState) : Parse Unit := modify fun p => { p with state := st }

def pushState (st : ParseState) : Parse Unit := modify fun p => { p with states := st :: p.states }

def popState : Parse Unit := modify fun p =>
  match p.states with
  | st :: rest => { p with state := st, states := rest }
  | [] => { p with state := .finished }

def pushMark (m : Mark) : Parse Unit := modify fun p => { p with marks := m :: p.marks }

/-- Forgets and gives where the innermost open collection starts. -/
def popMark : Parse Mark := do
  let p ← get
  match p.marks with
  | m :: rest => set { p with marks := rest }; return m
  | [] => return {}

/-- Fails at `mark`, with what was being parsed and where that started. -/
def failIn (context : String) (contextMark : Mark) (problem : String) (mark : Mark) : Parse α :=
  throw { problem, mark, context := some (context, contextMark) }

/-- An empty plain scalar at `m`, standing for a node left out. -/
def empty (m : Mark) : Parse (ParseEvent × Mark) := return (.scalar none none "" .plain, m)

/-- Whether a token is a directive, a document marker or the end of the stream. -/
def isBoundary : Token → Bool
  | .versionDirective .. | .tagDirective .. | .documentStart | .documentEnd | .streamEnd => true
  | _ => false

/-- Declares a tag handle; a handle declared twice is a fault unless `quiet`, which keeps the
first declaration. -/
def declareHandle (handle expansion : String) (quiet : Bool) (m : Mark) : Parse Unit := do
  let p ← get
  if p.tagDirectives.any (·.1 == handle) then
    if quiet then return
    throw { problem := "found duplicate %TAG directive", mark := m }
  set { p with tagDirectives := p.tagDirectives ++ [(handle, expansion)] }

/-- Reads the directives before a document, then adds the standard tag handles. -/
def directives : Parse Unit := do
  let rec go : Nat → Bool → Parse Unit
    | 0, _ => pure ()
    | fuel + 1, seenVersion => do
      let t ← peek
      match t.token with
      | .versionDirective major minor =>
        if seenVersion then throw { problem := "found duplicate %YAML directive", mark := t.start }
        if major != 1 || (minor != 1 && minor != 2) then
          throw { problem := "found incompatible YAML document", mark := t.start }
        skipToken
        go fuel true
      | .tagDirective handle expansion =>
        declareHandle handle expansion false t.start
        skipToken
        go fuel seenVersion
      | _ => pure ()
  go ((← get).scanner.rest.length + 2) false
  let t ← peek
  declareHandle "!" "!" true t.start
  declareHandle "!!" "tag:yaml.org,2002:" true t.start

def skipDocumentEnds : Nat → Parse Located
  | 0 => peek
  | fuel + 1 => do
    let t ← peek
    match t.token with
    | .documentEnd => skipToken; skipDocumentEnds fuel
    | _ => return t

/-- The start of a document, or the end of the stream. The first document may start without
`---`; a later one, or one with directives, needs it. -/
def documentStart (implicit : Bool) : Parse (ParseEvent × Mark) := do
  let t ← if implicit then peek else skipDocumentEnds ((← get).scanner.rest.length + 2)
  let startsDocument := match t.token with
    | .versionDirective .. | .tagDirective .. | .documentStart | .streamEnd => true
    | _ => false
  if implicit && !startsDocument then
    directives
    pushState .documentEnd
    setState .blockNode
    return (.documentStart, t.start)
  match t.token with
  | .streamEnd =>
    setState .finished
    skipToken
    return (.streamEnd, t.start)
  | _ =>
    directives
    let t' ← peek
    match t'.token with
    | .documentStart =>
      pushState .documentEnd
      setState .documentContent
      skipToken
      return (.documentStart, t.start)
    | _ => throw { problem := "did not find expected <document start>", mark := t'.start }

/-- The end of a document, with or without `...`; its tag handles are forgotten. -/
def documentEnd : Parse (ParseEvent × Mark) := do
  let t ← peek
  match t.token with
  | .documentEnd => skipToken
  | _ => pure ()
  modify fun p => { p with tagDirectives := [], state := .documentStart }
  return (.documentEnd, t.start)

/-- A node: an alias, or properties (an anchor and a tag, in either order) followed by a scalar,
the start of a collection, or nothing. In block context a collection may be a block one, and
where `indentless` holds, a sequence whose `-` entries stand at its parent's indentation. -/
def node (block indentless : Bool) : Parse (ParseEvent × Mark) := do
  let first ← peek
  match first.token with
  | .alias name =>
    popState
    skipToken
    return (.alias name, first.start)
  | _ =>
    let start := first.start
    let mut t := first
    let mut anchor : Option String := none
    let mut tag : Option (String × String) := none
    let mut tagMark := first.start
    match t.token with
    | .anchor name =>
      anchor := some name
      skipToken
      t ← peek
      match t.token with
      | .tag handle suffix =>
        tag := some (handle, suffix)
        tagMark := t.start
        skipToken
        t ← peek
      | _ => pure ()
    | .tag handle suffix =>
      tag := some (handle, suffix)
      tagMark := t.start
      skipToken
      t ← peek
      match t.token with
      | .anchor name =>
        anchor := some name
        skipToken
        t ← peek
      | _ => pure ()
    | _ => pure ()
    let resolved ← match tag with
      | none => pure none
      | some (handle, suffix) =>
        if handle.isEmpty then pure (some suffix)
        else match (← get).tagDirectives.find? (·.1 == handle) with
          | some (_, expansion) => pure (some (expansion ++ suffix))
          | none => failIn "while parsing a node" start "found undefined tag handle" tagMark
    match t.token with
    | .blockEntry =>
      if block && indentless then
        setState .indentlessSequenceEntry
        return (.seqStart anchor resolved, start)
    | .scalar value style =>
      popState
      skipToken
      return (.scalar anchor resolved value style, start)
    | .flowSequenceStart =>
      setState .flowSequenceFirstEntry
      return (.seqStart anchor resolved, start)
    | .flowMappingStart =>
      setState .flowMappingFirstKey
      return (.mapStart anchor resolved, start)
    | .blockSequenceStart =>
      if block then
        setState .blockSequenceFirstEntry
        return (.seqStart anchor resolved, start)
    | .blockMappingStart =>
      if block then
        setState .blockMappingFirstKey
        return (.mapStart anchor resolved, start)
    | _ => pure ()
    if anchor.isSome || tag.isSome then
      popState
      return (.scalar anchor resolved "" .plain, start)
    failIn (if block then "while parsing a block node" else "while parsing a flow node") start
      "did not find expected node content" t.start

/-- The content of an explicit document: a node, or an empty scalar if the document is empty. -/
def documentContent : Parse (ParseEvent × Mark) := do
  let t ← peek
  if isBoundary t.token then
    popState
    empty t.start
  else node true false

/-- An entry of a block sequence, or its end. -/
def blockSequenceEntry (first : Bool) : Parse (ParseEvent × Mark) := do
  if first then
    pushMark (← peek).start
    skipToken
  let t ← peek
  match t.token with
  | .blockEntry =>
    skipToken
    let t' ← peek
    match t'.token with
    | .blockEntry | .blockEnd =>
      setState .blockSequenceEntry
      empty t.stop
    | _ =>
      pushState .blockSequenceEntry
      node true false
  | .blockEnd =>
    popState
    discard popMark
    skipToken
    return (.seqEnd, t.start)
  | _ =>
    failIn "while parsing a block collection" (← popMark) "did not find expected '-' indicator" t.start

/-- An entry of a sequence whose entries stand at its parent's indentation, or its end. -/
def indentlessSequenceEntry : Parse (ParseEvent × Mark) := do
  let t ← peek
  match t.token with
  | .blockEntry =>
    skipToken
    let t' ← peek
    match t'.token with
    | .blockEntry | .key | .value | .blockEnd =>
      setState .indentlessSequenceEntry
      empty t.stop
    | _ =>
      pushState .indentlessSequenceEntry
      node true false
  | _ =>
    popState
    return (.seqEnd, t.start)

/-- A key of a block mapping, or its end. -/
def blockMappingKey (first : Bool) : Parse (ParseEvent × Mark) := do
  if first then
    pushMark (← peek).start
    skipToken
  let t ← peek
  match t.token with
  | .key =>
    skipToken
    let t' ← peek
    match t'.token with
    | .key | .value | .blockEnd =>
      setState .blockMappingValue
      empty t.stop
    | _ =>
      pushState .blockMappingValue
      node true true
  | .blockEnd =>
    popState
    discard popMark
    skipToken
    return (.mapEnd, t.start)
  | _ =>
    failIn "while parsing a block mapping" (← popMark) "did not find expected key" t.start

/-- A value of a block mapping; a key without one has an empty value. -/
def blockMappingValue : Parse (ParseEvent × Mark) := do
  let t ← peek
  match t.token with
  | .value =>
    skipToken
    let t' ← peek
    match t'.token with
    | .key | .value | .blockEnd =>
      setState .blockMappingKey
      empty t.stop
    | _ =>
      pushState .blockMappingKey
      node true true
  | _ =>
    setState .blockMappingKey
    empty t.start

/-- An entry of a flow sequence, or its end; a `? key` entry is a mapping of one pair. -/
def flowSequenceEntry (first : Bool) : Parse (ParseEvent × Mark) := do
  if first then
    pushMark (← peek).start
    skipToken
  let mut t ← peek
  match t.token with
  | .flowSequenceEnd => pure ()
  | _ =>
    if !first then
      match t.token with
      | .flowEntry =>
        skipToken
        t ← peek
      | _ =>
        failIn "while parsing a flow sequence" (← popMark) "did not find expected ',' or ']'" t.start
    match t.token with
    | .key =>
      setState .flowSequenceEntryMappingKey
      skipToken
      return (.mapStart none none, t.start)
    | .flowSequenceEnd => pure ()
    | _ =>
      pushState .flowSequenceEntry
      return ← node false false
  popState
  discard popMark
  skipToken
  return (.seqEnd, t.start)

/-- The key of a one-pair mapping in a flow sequence. When it is left out, the token after it is
taken as well. -/
def flowSequenceEntryMappingKey : Parse (ParseEvent × Mark) := do
  let t ← peek
  match t.token with
  | .value | .flowEntry | .flowSequenceEnd =>
    skipToken
    setState .flowSequenceEntryMappingValue
    empty t.stop
  | _ =>
    pushState .flowSequenceEntryMappingValue
    node false false

def flowSequenceEntryMappingValue : Parse (ParseEvent × Mark) := do
  let t ← peek
  match t.token with
  | .value =>
    skipToken
    let t' ← peek
    match t'.token with
    | .flowEntry | .flowSequenceEnd =>
      setState .flowSequenceEntryMappingEnd
      empty t'.start
    | _ =>
      pushState .flowSequenceEntryMappingEnd
      node false false
  | _ =>
    setState .flowSequenceEntryMappingEnd
    empty t.start

def flowSequenceEntryMappingEnd : Parse (ParseEvent × Mark) := do
  let t ← peek
  setState .flowSequenceEntry
  return (.mapEnd, t.start)

/-- A key of a flow mapping, or its end. -/
def flowMappingKey (first : Bool) : Parse (ParseEvent × Mark) := do
  if first then
    pushMark (← peek).start
    skipToken
  let mut t ← peek
  match t.token with
  | .flowMappingEnd => pure ()
  | _ =>
    if !first then
      match t.token with
      | .flowEntry =>
        skipToken
        t ← peek
      | _ =>
        failIn "while parsing a flow mapping" (← popMark) "did not find expected ',' or '\x7d'" t.start
    match t.token with
    | .key =>
      skipToken
      let t' ← peek
      match t'.token with
      | .value | .flowEntry | .flowMappingEnd =>
        setState .flowMappingValue
        return ← empty t'.start
      | _ =>
        pushState .flowMappingValue
        return ← node false false
    | .flowMappingEnd => pure ()
    | _ =>
      pushState .flowMappingEmptyValue
      return ← node false false
  popState
  discard popMark
  skipToken
  return (.mapEnd, t.start)

/-- A value of a flow mapping; a key without one has an empty value. -/
def flowMappingValue (isEmpty : Bool) : Parse (ParseEvent × Mark) := do
  let t ← peek
  if isEmpty then
    setState .flowMappingKey
    return ← empty t.start
  match t.token with
  | .value =>
    skipToken
    let t' ← peek
    match t'.token with
    | .flowEntry | .flowMappingEnd =>
      setState .flowMappingKey
      empty t'.start
    | _ =>
      pushState .flowMappingKey
      node false false
  | _ =>
    setState .flowMappingKey
    empty t.start

/-- The next event. -/
def next : Parse (ParseEvent × Mark) := do
  match (← get).state with
  | .streamStart =>
    let t ← peek
    setState .implicitDocumentStart
    skipToken
    return (.streamStart, t.start)
  | .implicitDocumentStart => documentStart true
  | .documentStart => documentStart false
  | .documentContent => documentContent
  | .documentEnd => documentEnd
  | .blockNode => node true false
  | .blockSequenceFirstEntry => blockSequenceEntry true
  | .blockSequenceEntry => blockSequenceEntry false
  | .indentlessSequenceEntry => indentlessSequenceEntry
  | .blockMappingFirstKey => blockMappingKey true
  | .blockMappingKey => blockMappingKey false
  | .blockMappingValue => blockMappingValue
  | .flowSequenceFirstEntry => flowSequenceEntry true
  | .flowSequenceEntry => flowSequenceEntry false
  | .flowSequenceEntryMappingKey => flowSequenceEntryMappingKey
  | .flowSequenceEntryMappingValue => flowSequenceEntryMappingValue
  | .flowSequenceEntryMappingEnd => flowSequenceEntryMappingEnd
  | .flowMappingFirstKey => flowMappingKey true
  | .flowMappingKey => flowMappingKey false
  | .flowMappingValue => flowMappingValue false
  | .flowMappingEmptyValue => flowMappingValue true
  | .finished => return (.streamEnd, (← get).scanner.mark)

end Parse

/-- The events of a document being loaded, and the anchors defined so far with the position of
the event each names (the latest definition of a name first). -/
structure Loader where
  events : Array (Event × Mark) := #[]
  anchors : List (String × Nat) := []
  deriving Inhabited

namespace Loader

/-- Appends an event, first defining its anchor, if any, as its position. -/
def push (l : Loader) (anchor : Option String) (e : Event) (m : Mark) : Loader :=
  let anchors := match anchor with
    | some name => (name, l.events.size) :: l.anchors
    | none => l.anchors
  { events := l.events.push (e, m), anchors }

end Loader

/-- How loading the first document ended. -/
inductive Ending where
  | documentEnd (rest : Parser)
  | streamEnd (mark : Mark)
  | fault (f : SyntaxFault)

/-- Loads the events of the first document, up to its end, the end of the stream or a fault. -/
def loadDocument : Nat → Parser → Loader → Loader × Ending
  | 0, p, l => (l, .streamEnd p.scanner.mark)
  | fuel + 1, p, l =>
    match Parse.next p with
    | .error f _ => (l, .fault f)
    | .ok (e, m) p =>
      match e with
      | .streamStart | .documentStart => loadDocument fuel p l
      | .documentEnd => (l, .documentEnd p)
      | .streamEnd => (l, .streamEnd m)
      | .alias name =>
        match l.anchors.lookup name with
        | some target => loadDocument fuel p (l.push none (.alias target) m)
        | none => (l, .fault { problem := "unknown anchor", mark := m })
      | .scalar anchor tag value style => loadDocument fuel p (l.push anchor (.scalar value style tag) m)
      | .seqStart anchor tag => loadDocument fuel p (l.push anchor (.seqStart tag) m)
      | .seqEnd => loadDocument fuel p (l.push none .seqEnd m)
      | .mapStart anchor tag => loadDocument fuel p (l.push anchor (.mapStart tag) m)
      | .mapEnd => loadDocument fuel p (l.push none .mapEnd m)

/-- Reads a YAML text into the events of its first document (see the module note). A character
a YAML text may not hold stops reading before any event. -/
def read (text : String) : Stream :=
  match Chars.firstRefused text with
  | some (_, offset) =>
    { events := #[], fault := some { problem := "control characters are not allowed", mark := {}, offset } }
  | none =>
    let parser : Parser := { scanner := { rest := text.toList } }
    match loadDocument (8 * (text.length + 8)) parser {} with
    | (l, .fault f) => { events := l.events, fault := some f }
    | (l, .streamEnd m) => { events := if l.events.isEmpty then #[(.void, m)] else l.events }
    | (l, .documentEnd p) =>
      let more := match Parse.next p with
        | .ok (.streamEnd, _) _ => false
        | _ => true
      { events := l.events, moreDocuments := more }

end GraphIngest.Yaml
