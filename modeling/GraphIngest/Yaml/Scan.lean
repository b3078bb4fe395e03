import GraphIngest.Yaml.Token

/-!
# Scanning YAML text into tokens

The scanner cuts a YAML text into tokens, one fetch at a time, as the reader asks for them. It
keeps a stack of indentation columns, opens a block collection when an entry or key stands right
of the current column, and closes one for each column left when a line starts further left.

A key needs no `?` when it is a *simple key*: a node on one line, under 1024 characters, directly
followed by `:`. The scanner remembers where one may start, per flow level, and at the `:`
inserts the `key` token (and in block context the collection start) before the node's tokens. A
remembered place goes stale when its line ends, and a stale required key is a fault; so the
scanner fetches ahead while a remembered key might claim the next token.
-/

namespace GraphIngest.Yaml

open Chars

/-- A place where a simple key may start. -/
structure SimpleKey where
  possible : Bool := false
  required : Bool := false
  tokenNumber : Nat := 0
  mark : Mark := {}
  deriving Inhabited

/-- The scanner: the characters left, the tokens fetched and not yet taken, the indentation
columns, the flow depth, and the places where a simple key may have started, one for each flow
level (innermost first). -/
structure Scanner where
  rest : List Char
  mark : Mark := {}
  queue : List Located := []
  taken : Nat := 0
  indent : Int := -1
  indents : List Int := []
  flowLevel : Nat := 0
  simpleKeyAllowed : Bool := false
  simpleKeys : List SimpleKey := []
  started : Bool := false
  available : Bool := false
  deriving Inhabited

/-- Scanning; a fault keeps the scanner where it was found. -/
abbrev Scan := EStateM SyntaxFault Scanner

/-- Text being folded from a scalar's lines: the text so far, the first line break not yet
written, the breaks after it, the blanks not yet written, and whether the current line started
after a break. -/
structure Folding where
  text : String := ""
  leadingBreak : String := ""
  trailingBreaks : String := ""
  whitespaces : String := ""
  leadingBlanks : Bool := false
  deriving Inhabited

namespace Folding

/-- Before more text on a line: writes the blanks that were kept, or folds the line breaks that
came before (one break alone becomes a space, `n` line feeds become `n - 1`, and a line or
paragraph separator is kept). -/
def join (f : Folding) : Folding :=
  if f.leadingBlanks then
    let f := { f with leadingBlanks := false }
    if f.leadingBreak.startsWith "\n" then
      if f.trailingBreaks.isEmpty then { f with text := f.text.push ' ', leadingBreak := "" }
      else { f with text := f.text ++ f.trailingBreaks, trailingBreaks := "", leadingBreak := "" }
    else
      { f with text := f.text ++ f.leadingBreak ++ f.trailingBreaks, leadingBreak := "",
               trailingBreaks := "" }
  else if f.whitespaces.isEmpty then f
  else { f with text := f.text ++ f.whitespaces, whitespaces := "" }

end Folding

namespace Scan

/-- The character `n` places ahead. -/
def at? (n : Nat) : Scan (Option Char) := do return (← get).rest[n]?

/-- The next character. -/
def cur : Scan (Option Char) := at? 0

/-- The mark of the next character. -/
def here : Scan Mark := do return (← get).mark

/-- Fails at the current mark; `context` names what was being scanned and where it started. -/
def fail (context : Option (String × Mark)) (problem : String) : Scan α := do
  throw { problem, mark := (← get).mark, context }

/-- Takes one character that is not a line break. -/
def skip : Scan Unit := modify fun s =>
  match s.rest with
  | [] => s
  | _ :: r => { s with rest := r, mark := { s.mark with index := s.mark.index + 1,
                                                         column := s.mark.column + 1 } }

def readChar : Scan Char := do
  let c := (← cur).getD ' '
  skip
  return c

/-- Takes a line break (a carriage return and line feed count as one) and gives it as a scalar
keeps it: a line feed, or a line or paragraph separator as it is. -/
def takeBreak : Scan String := do
  let s ← get
  let m := s.mark
  match s.rest with
  | '\r' :: '\n' :: r =>
    set { s with rest := r, mark := { index := m.index + 2, line := m.line + 1, column := 0 } }
    return "\n"
  | c :: r =>
    if isBreak c then
      set { s with rest := r, mark := { index := m.index + 1, line := m.line + 1, column := 0 } }
      return (if c == '\u2028' || c == '\u2029' then String.singleton c else "\n")
    else return ""
  | [] => return ""

/-- Takes the characters satisfying `p`, which holds of no line break, and returns them. -/
def takeWhile (p : Char → Bool) : Scan String := do
  let s ← get
  let run := s.rest.takeWhile p
  let n := run.length
  set { s with rest := s.rest.drop n,
               mark := { s.mark with index := s.mark.index + n, column := s.mark.column + n } }
  return String.ofList run

/-- Skips the characters satisfying `p`, which holds of no line break. -/
def skipWhile (p : Char → Bool) : Scan Unit := discard (takeWhile p)

/-- Whether the text at the cursor is a document marker `---` or `...` followed by a blank, a
break or the end. -/
def atDocumentMarker : Scan Bool := do
  let s ← get
  match s.rest with
  | a :: b :: c :: more =>
    return s.mark.column == 0 && ((a == '-' && b == '-' && c == '-') || (a == '.' && b == '.' && c == '.')) &&
      blankZ more.head?
  | _ => return false

def enqueue (t : Token) (start stop : Mark) : Scan Unit :=
  modify fun s => { s with queue := s.queue ++ [{ token := t, start, stop }] }

/-! ## Simple keys, flow levels and indentation -/

/-- Forgets the remembered simple keys that can no longer be keys: their line has ended or they
started 1024 characters back. A required one is a fault. -/
def staleKeys : Scan Unit := do
  let s ← get
  let m := s.mark
  let stale (k : SimpleKey) : Bool :=
    k.possible && (k.mark.line < m.line || k.mark.index + 1024 < m.index)
  match s.simpleKeys.reverse.find? (fun k => stale k && k.required) with
  | some k => throw { problem := "could not find expected ':'", mark := m,
                      context := some ("while scanning a simple key", k.mark) }
  | none =>
    set { s with simpleKeys := s.simpleKeys.map (fun k => if stale k then { k with possible := false } else k) }

/-- Forgets the simple key remembered at the current flow level; a required one is a fault. -/
def removeKey : Scan Unit := do
  let s ← get
  match s.simpleKeys with
  | k :: ks =>
    if k.possible && k.required then
      throw { problem := "could not find expected ':'", mark := s.mark,
              context := some ("while scanning a simple key", k.mark) }
    set { s with simpleKeys := { k with possible := false } :: ks }
  | [] => pure ()

/-- Remembers that a simple key may start here, if one may. -/
def saveKey : Scan Unit := do
  let s ← get
  if s.simpleKeyAllowed then
    let key : SimpleKey :=
      { possible := true, required := s.flowLevel == 0 && s.indent == (s.mark.column : Int),
        tokenNumber := s.taken + s.queue.length, mark := s.mark }
    removeKey
    modify fun s => { s with simpleKeys := match s.simpleKeys with
      | _ :: ks => key :: ks
      | [] => [key] }

def increaseFlow : Scan Unit :=
  modify fun s => { s with simpleKeys := {} :: s.simpleKeys, flowLevel := s.flowLevel + 1 }

def decreaseFlow : Scan Unit :=
  modify fun s =>
    if s.flowLevel > 0 then { s with flowLevel := s.flowLevel - 1, simpleKeys := s.simpleKeys.tail }
    else s

/-- In block context, opens a collection at `column` if it stands further right than the current
indentation: the start token is appended, or inserted before the token numbered `number`. -/
def rollIndent (column : Int) (number : Option Nat) (t : Token) (m : Mark) : Scan Unit := do
  let s ← get
  if s.flowLevel == 0 && s.indent < column then
    let loc : Located := { token := t, start := m, stop := m }
    let queue := match number with
      | none => s.queue ++ [loc]
      | some n =>
        let i := n - s.taken
        s.queue.take i ++ loc :: s.queue.drop i
    set { s with indents := s.indent :: s.indents, indent := column, queue }

/-- In block context, closes the collections indented further right than `column`. -/
def unrollIndent (column : Int) : Scan Unit := do
  let s ← get
  if s.flowLevel == 0 then
    let rec go : List Int → Int → List Located → Int × List Int × List Located
      | i :: is, indent, acc =>
        if indent > column then go is i (acc ++ [{ token := .blockEnd, start := s.mark, stop := s.mark }])
        else (indent, i :: is, acc)
      | [], indent, acc =>
        if indent > column then (-1, [], acc ++ [{ token := .blockEnd, start := s.mark, stop := s.mark }])
        else (indent, [], acc)
    let (indent, indents, ends) := go s.indents s.indent []
    set { s with indent, indents, queue := s.queue ++ ends }

/-! ## Scalars -/

/-- Scans a number of a `%YAML` directive: at most nine digits. -/
def versionNumber (start : Mark) : Scan Nat := do
  let ctx := some ("while scanning a %YAML directive", start)
  let s ← get
  let digits := s.rest.takeWhile Char.isDigit
  if digits.length > 9 then
    for _ in [0:9] do skip
    fail ctx "found extremely long version number"
  else if digits.isEmpty then fail ctx "did not find expected version number"
  else
    skipWhile Char.isDigit
    return digits.foldl (fun n c => n * 10 + (c.toNat - '0'.toNat)) 0

/-- Scans a tag handle: `!`, `!!` or `!word!`; outside a directive a lone `!word` is also taken
(it is then the start of a tag's suffix). -/
def tagHandle (directive : Bool) (start : Mark) : Scan String := do
  if (← cur) != some '!' then
    fail (some (if directive then "while scanning a tag directive" else "while scanning a tag", start))
      "did not find expected '!'"
  skip
  let word ← takeWhile isWord
  if (← cur) == some '!' then
    skip
    return "!" ++ word ++ "!"
  else if directive && !word.isEmpty then
    fail (some ("while parsing a tag directive", start)) "did not find expected '!'"
  else return "!" ++ word

/-- The characters a tag may hold; inside `!<...>` and in a `%TAG` directive also `,`, `[`, `]`. -/
def uriChar (wide : Bool) (c : Char) : Bool :=
  isWord c || ";/?:@&=+$.%!~*'()".toList.contains c || (wide && (c == ',' || c == '[' || c == ']'))

/-- The number of bytes of a UTF-8 sequence its leading byte announces, zero if none. -/
def utf8Width (b : Nat) : Nat :=
  if b < 0x80 then 1 else if b / 32 == 6 then 2 else if b / 16 == 14 then 3 else if b / 8 == 30 then 4 else 0

/-- Scans `%hh` escapes of one UTF-8 character in a tag. -/
def uriEscapes (directive : Bool) (start : Mark) : Scan (List UInt8) := do
  let ctx := some (if directive then "while parsing a %TAG directive" else "while parsing a tag", start)
  let s ← get
  let rec go : Nat → Nat → List UInt8 → Scan (List UInt8)
    | 0, _, acc => pure acc.reverse
    | fuel + 1, width, acc => do
      let c0 ← at? 0
      let c1 ← at? 1
      let c2 ← at? 2
      match c0, c1.bind hexValue?, c2.bind hexValue? with
      | some '%', some h, some l =>
        let octet := h * 16 + l
        let width ← if width == 0 then do
            let w := utf8Width octet
            if w == 0 then fail ctx "found an incorrect leading UTF-8 octet" else pure w
          else if octet / 64 != 2 then fail ctx "found an incorrect trailing UTF-8 octet"
          else pure width
        skip; skip; skip
        if width == 1 then pure (octet.toUInt8 :: acc).reverse
        else go fuel (width - 1) (octet.toUInt8 :: acc)
      | _, _, _ => fail ctx "did not find URI escaped octet"
  go (s.rest.length + 1) 0 []

/-- Scans the URI part of a tag; `head` is a scanned handle whose characters after its `!` start
the URI. -/
def tagUri (wide directive : Bool) (head : String) (start : Mark) : Scan String := do
  let s ← get
  let rec go : Nat → List UInt8 → Nat → Scan (List UInt8 × Nat)
    | 0, acc, n => pure (acc, n)
    | fuel + 1, acc, n => do
      match ← cur with
      | some '%' =>
        let bytes ← uriEscapes directive start
        go fuel (acc ++ bytes) (n + 1)
      | some c =>
        if uriChar wide c then
          skip
          go fuel (acc ++ (String.singleton c).toUTF8.toList) (n + 1)
        else pure (acc, n)
      | none => pure (acc, n)
  let headBytes := (String.ofList (head.toList.drop 1)).toUTF8.toList
  let (bytes, n) ← go (s.rest.length + 1) headBytes head.length
  if n == 0 then
    fail (some (if directive then "while parsing a %TAG directive" else "while parsing a tag", start))
      "did not find expected tag URI"
  return (String.fromUTF8? (ByteArray.mk bytes.toArray)).getD "�"

/-- Scans a directive line: `%YAML major.minor` or `%TAG handle prefix`. -/
def directive : Scan Located := do
  let start ← here
  let ctx := some ("while scanning a directive", start)
  skip
  let name ← takeWhile isWord
  if name.isEmpty then fail ctx "could not find expected directive name"
  if !blankZ (← cur) then fail ctx "found unexpected non-alphabetical character"
  let token ← if name == "YAML" then do
      skipWhile isBlank
      let major ← versionNumber start
      if (← cur) != some '.' then
        fail (some ("while scanning a %YAML directive", start)) "did not find expected digit or '.' character"
      skip
      let minor ← versionNumber start
      pure (Token.versionDirective major minor)
    else if name == "TAG" then do
      let tctx := some ("while scanning a %TAG directive", start)
      skipWhile isBlank
      let handle ← tagHandle true start
      if !blank (← cur) then fail tctx "did not find expected whitespace"
      skipWhile isBlank
      let expansion ← tagUri true true "" start
      if !blankZ (← cur) then fail tctx "did not find expected whitespace or line break"
      pure (Token.tagDirective handle expansion)
    else fail ctx "found unknown directive name"
  let stop ← here
  skipWhile isBlank
  if (← cur) == some '#' then skipWhile (fun c => !isBreak c)
  if !breakZ (← cur) then fail ctx "did not find expected comment or line break"
  discard takeBreak
  return { token, start, stop }

/-- Scans an anchor `&name` or an alias `*name`. -/
def anchorOrAlias (isAnchor : Bool) : Scan Located := do
  let start ← here
  skip
  let name ← takeWhile isWord
  let stop ← here
  let c ← cur
  let ends := blankZ c || (match c with
    | some c => "?:,]\x7d%@`".toList.contains c
    | none => false)
  if name.isEmpty || !ends then
    fail (some (if isAnchor then "while scanning an anchor" else "while scanning an alias", start))
      "did not find expected alphabetic or numeric character"
  return { token := if isAnchor then .anchor name else .alias name, start, stop }

/-- Scans a tag: `!<uri>`, `!handle!suffix`, `!suffix` or `!` alone. -/
def tag : Scan Located := do
  let start ← here
  let ctx := some ("while scanning a tag", start)
  let (handle, suffix) ← if (← at? 1) == some '<' then do
      skip; skip
      let suffix ← tagUri true false "" start
      if (← cur) != some '>' then fail ctx "did not find the expected '>'"
      skip
      pure ("", suffix)
    else do
      let handle ← tagHandle false start
      if handle.length > 1 && handle.startsWith "!" && handle.endsWith "!" then
        pure (handle, ← tagUri false false "" start)
      else
        let suffix ← tagUri false false handle start
        if suffix.isEmpty then pure ("", "!") else pure ("!", suffix)
  let c ← cur
  if !blankZ c && !((← get).flowLevel > 0 && c == some ',') then
    fail ctx "did not find expected whitespace or line break"
  return { token := .tag handle suffix, start, stop := ← here }

/-- Skips the spaces that indent a block scalar's line, up to its indentation once that is known. -/
def indentSpaces (indent : Nat) : Nat → Scan Unit
  | 0 => pure ()
  | k + 1 => do
    if (indent == 0 || (← here).column < indent) && (← cur) == some ' ' then
      skip
      indentSpaces indent k

/-- Skips the indentation and empty lines before a block scalar's next line, keeping the breaks;
with no indentation given yet, it is found from the most indented of these lines (at least one
more than the enclosing block, at least one). Gives the indentation and the breaks. -/
def blockBreaks (indent : Nat) (start : Mark) : Scan (Nat × String) := do
  let s ← get
  let rec go : Nat → Nat → String → Scan (Nat × String)
    | 0, most, breaks => pure (most, breaks)
    | fuel + 1, most, breaks => do
      indentSpaces indent ((← get).rest.length + 1)
      let most := max most (← here).column
      if (indent == 0 || (← here).column < indent) && (← cur) == some '\t' then
        fail (some ("while scanning a block scalar", start))
          "found a tab character where an indentation space is expected"
      match ← cur with
      | some c =>
        if isBreak c then
          let b ← takeBreak
          go fuel most (breaks ++ b)
        else pure (most, breaks)
      | none => pure (most, breaks)
  let (most, breaks) ← go (s.rest.length + 1) 0 ""
  if indent != 0 then return (indent, breaks)
  let enclosing := (← get).indent
  let least := (enclosing + 1).toNat
  return (max 1 (max most least), breaks)

/-- Scans a literal (`|`) or folded (`>`) block scalar. -/
def blockScalar (literal : Bool) : Scan Located := do
  let start ← here
  let ctx := some ("while scanning a block scalar", start)
  skip
  -- the header: chomping and indentation indicators, in either order
  let mut chomping : Int := 0
  let mut increment : Nat := 0
  match ← cur with
  | some '+' | some '-' =>
    chomping := if (← cur) == some '+' then 1 else -1
    skip
    match ← cur with
    | some c =>
      if c.isDigit then
        if c == '0' then fail ctx "found an indentation indicator equal to 0"
        increment := c.toNat - '0'.toNat
        skip
    | none => pure ()
  | some c =>
    if c.isDigit then
      if c == '0' then fail ctx "found an indentation indicator equal to 0"
      increment := c.toNat - '0'.toNat
      skip
      match ← cur with
      | some '+' => chomping := 1; skip
      | some '-' => chomping := -1; skip
      | _ => pure ()
  | none => pure ()
  skipWhile isBlank
  if (← cur) == some '#' then skipWhile (fun c => !isBreak c)
  if !breakZ (← cur) then fail ctx "did not find expected comment or line break"
  discard takeBreak
  let enclosing := (← get).indent
  let indent := if increment > 0 then (if enclosing >= 0 then enclosing.toNat + increment else increment) else 0
  let (indent, breaks) ← blockBreaks indent start
  -- the content lines
  let s ← get
  let rec lines : Nat → String → String → String → Bool → Scan (String × String × String)
    | 0, text, leading, trailing, _ => pure (text, leading, trailing)
    | fuel + 1, text, leading, trailing, leadingBlank => do
      let c ← cur
      if (← here).column != indent || c.isNone then return (text, leading, trailing)
      let trailingBlank := blank c
      let text :=
        if !literal && leading.startsWith "\n" && !leadingBlank && !trailingBlank then
          (if trailing.isEmpty then text.push ' ' else text)
        else text ++ leading
      let text := text ++ trailing
      let leadingBlank := blank c
      let line ← takeWhile (fun c => !isBreak c)
      let text := text ++ line
      let leading ← takeBreak
      let (_, trailing) ← blockBreaks indent start
      lines fuel text leading trailing leadingBlank
  let (text, leading, trailing) ← lines (s.rest.length + 1) "" "" breaks false
  let text := if chomping != -1 then text ++ leading else text
  let text := if chomping == 1 then text ++ trailing else text
  return { token := .scalar text (if literal then .literal else .folded), start, stop := ← here }

/-- The character of a double-quoted escape `\c` that stands for one character. -/
def escapeChar? : Char → Option Char
  | '0' => some (Char.ofNat 0)
  | 'a' => some (Char.ofNat 7)
  | 'b' => some (Char.ofNat 8)
  | 't' => some '\t'
  | '\t' => some '\t'
  | 'n' => some '\n'
  | 'v' => some (Char.ofNat 11)
  | 'f' => some (Char.ofNat 12)
  | 'r' => some '\r'
  | 'e' => some (Char.ofNat 27)
  | ' ' => some ' '
  | '"' => some '"'
  | '/' => some '/'
  | '\'' => some '\''
  | '\\' => some '\\'
  | 'N' => some '\u0085'
  | '_' => some '\u00A0'
  | 'L' => some '\u2028'
  | 'P' => some '\u2029'
  | _ => none

/-- The characters of a quoted scalar up to a blank, a break, the end or the closing quote. -/
def quotedChars (single : Bool) (start : Mark) : Nat → Folding → Scan Folding
  | 0, f => pure f
  | fuel + 1, f => do
    let ctx := some ("while parsing a quoted scalar", start)
    let c0 ← at? 0
    let c1 ← at? 1
    match c0 with
    | none => pure f
    | some c =>
      if isBlank c || isBreak c then pure f
      else if single && c == '\'' && c1 == some '\'' then
        skip; skip
        quotedChars single start fuel { f with text := f.text.push '\'' }
      else if c == (if single then '\'' else '"') then pure f
      else if !single && c == '\\' && breakZ c1 && c1.isSome then
        skip
        discard takeBreak
        pure { f with leadingBlanks := true }
      else if !single && c == '\\' then
        let e := c1.getD (Char.ofNat 0)
        let code := if e == 'x' then 2 else if e == 'u' then 4 else if e == 'U' then 8 else 0
        if code == 0 then
          match escapeChar? e with
          | some ch =>
            skip; skip
            quotedChars single start fuel { f with text := f.text.push ch }
          | none => fail ctx "found unknown escape character"
        else
          skip; skip
          let s ← get
          let digits := s.rest.take code
          let value := digits.foldlM (fun acc d => (hexValue? d).map (acc * 16 + ·)) 0
          match value with
          | none =>
            -- the scanner stops at the first character that is not a hex digit
            fail ctx "did not find expected hexdecimal number"
          | some v =>
            if digits.length < code then fail ctx "did not find expected hexdecimal number"
            else if (0xD800 ≤ v && v ≤ 0xDFFF) || v > 0x10FFFF then
              fail ctx "found invalid Unicode character escape code"
            else
              for _ in [0:code] do skip
              quotedChars single start fuel { f with text := f.text.push (Char.ofNat v) }
      else
        let ch ← readChar
        quotedChars single start fuel { f with text := f.text.push ch }

def quotedBlanks : Nat → Folding → Scan Folding
  | 0, f => pure f
  | fuel + 1, f => do
    match ← cur with
    | some c =>
      if isBlank c then
        if !f.leadingBlanks then
          let ch ← readChar
          quotedBlanks fuel { f with whitespaces := f.whitespaces.push ch }
        else
          skip
          quotedBlanks fuel f
      else if isBreak c then
        let b ← takeBreak
        if !f.leadingBlanks then
          quotedBlanks fuel { f with whitespaces := "", leadingBreak := b, leadingBlanks := true }
        else quotedBlanks fuel { f with trailingBreaks := f.trailingBreaks ++ b }
      else pure f
    | none => pure f

def quoted (single : Bool) : Scan Located := do
  let start ← here
  let ctx := some ("while scanning a quoted scalar", start)
  skip
  let s ← get
  let rec go : Nat → Folding → Scan Folding
    | 0, f => pure f
    | fuel + 1, f => do
      if ← atDocumentMarker then fail ctx "found unexpected document indicator"
      if (← cur).isNone then fail ctx "found unexpected end of stream"
      let f ← quotedChars single start ((← get).rest.length + 1) { f with leadingBlanks := false }
      if (← cur) == some (if single then '\'' else '"') then return f
      let f ← quotedBlanks ((← get).rest.length + 1) f
      -- a line that went on after breaks, or blanks, are written before the next run
      go fuel f.join
  let f ← go (s.rest.length + 1) {}
  skip
  return { token := .scalar f.text (if single then .singleQuoted else .doubleQuoted), start,
           stop := ← here }

/-- The characters of a plain scalar's line up to a blank, a break or an indicator that ends it. -/
def plainChars (start : Mark) : Nat → Folding → Mark → Scan (Folding × Mark)
  | 0, f, stop => pure (f, stop)
  | fuel + 1, f, stop => do
    let c0 ← at? 0
    let c1 ← at? 1
    let flow := (← get).flowLevel > 0
    match c0 with
    | none => pure (f, stop)
    | some c =>
      if isBlank c || isBreak c then return (f, stop)
      if flow && c == ':' && (match c1 with
          | some d => ",?[]\x7b\x7d".toList.contains d
          | none => false) then
        fail (some ("while scanning a plain scalar", start)) "found unexpected ':'"
      if (c == ':' && blankZ c1) || (flow && ",[]\x7b\x7d".toList.contains c) then return (f, stop)
      let f := f.join
      let ch ← readChar
      plainChars start fuel { f with text := f.text.push ch } (← here)

def plainBlanks (indent : Int) (start : Mark) : Nat → Folding → Scan Folding
  | 0, f => pure f
  | fuel + 1, f => do
    match ← cur with
    | some c =>
      if isBlank c then
        if f.leadingBlanks && ((← here).column : Int) < indent && c == '\t' then
          fail (some ("while scanning a plain scalar", start))
            "found a tab character that violates indentation"
        if !f.leadingBlanks then
          let ch ← readChar
          plainBlanks indent start fuel { f with whitespaces := f.whitespaces.push ch }
        else
          skip
          plainBlanks indent start fuel f
      else if isBreak c then
        let b ← takeBreak
        if !f.leadingBlanks then
          plainBlanks indent start fuel { f with whitespaces := "", leadingBreak := b, leadingBlanks := true }
        else plainBlanks indent start fuel { f with trailingBreaks := f.trailingBreaks ++ b }
      else pure f
    | none => pure f

def plain : Scan Located := do
  let start ← here
  let indent := (← get).indent + 1
  let s ← get
  let rec go : Nat → Folding → Mark → Scan (Folding × Mark)
    | 0, f, stop => pure (f, stop)
    | fuel + 1, f, stop => do
      if ← atDocumentMarker then return (f, stop)
      if (← cur) == some '#' then return (f, stop)
      let (f, stop) ← plainChars start ((← get).rest.length + 1) f stop
      if !(blank (← cur) || (match ← cur with
          | some c => isBreak c
          | none => false)) then
        return (f, stop)
      let f ← plainBlanks indent start ((← get).rest.length + 1) f
      let sc ← get
      if sc.flowLevel == 0 && (sc.mark.column : Int) < indent then return (f, stop)
      go fuel f stop
  let (f, stop) ← go (s.rest.length + 1) {} start
  if f.leadingBlanks then modify fun s => { s with simpleKeyAllowed := true }
  return { token := .scalar f.text .plain, start, stop }

/-! ## Fetching tokens -/

/-- Skips blanks, comments and line breaks up to the next token. A tab may not indent a line in
block context; after a line break in block context a simple key may start. A byte order mark is
skipped at the start of a line. -/
def toNextToken : Nat → Scan Unit
  | 0 => pure ()
  | fuel + 1 => do
    if (← here).column == 0 && (← cur) == some '\uFEFF' then skip
    let s ← get
    let tabs := s.flowLevel > 0 || !s.simpleKeyAllowed
    skipWhile (fun c => c == ' ' || (tabs && c == '\t'))
    if (← cur) == some '#' then skipWhile (fun c => !isBreak c)
    match ← cur with
    | some c =>
      if isBreak c then
        discard takeBreak
        if (← get).flowLevel == 0 then modify fun s => { s with simpleKeyAllowed := true }
        toNextToken fuel
    | none => pure ()

/-- The first token: the stream start. -/
def fetchStreamStart : Scan Unit := do
  modify fun s => { s with indent := -1, simpleKeys := [{}], simpleKeyAllowed := true, started := true }
  let m ← here
  enqueue .streamStart m m

/-- The last token: the stream end, on a line of its own, after closing every block. -/
def fetchStreamEnd : Scan Unit := do
  modify fun s =>
    if s.mark.column != 0 then { s with mark := { s.mark with column := 0, line := s.mark.line + 1 } }
    else s
  unrollIndent (-1)
  removeKey
  modify fun s => { s with simpleKeyAllowed := false }
  let m ← here
  enqueue .streamEnd m m

/-- A directive, after closing every block. -/
def fetchDirective : Scan Unit := do
  unrollIndent (-1)
  removeKey
  modify fun s => { s with simpleKeyAllowed := false }
  let t ← directive
  enqueue t.token t.start t.stop

/-- A document start or end marker, after closing every block. -/
def fetchDocumentMarker (t : Token) : Scan Unit := do
  unrollIndent (-1)
  removeKey
  modify fun s => { s with simpleKeyAllowed := false }
  let start ← here
  skip; skip; skip
  enqueue t start (← here)

/-- `[` or `{`: it may start a simple key, and one may follow it. -/
def fetchFlowStart (t : Token) : Scan Unit := do
  saveKey
  increaseFlow
  modify fun s => { s with simpleKeyAllowed := true }
  let start ← here
  skip
  enqueue t start (← here)

/-- `]` or `}`. -/
def fetchFlowEnd (t : Token) : Scan Unit := do
  removeKey
  decreaseFlow
  modify fun s => { s with simpleKeyAllowed := false }
  let start ← here
  skip
  enqueue t start (← here)

/-- `,` in a flow collection. -/
def fetchFlowEntry : Scan Unit := do
  removeKey
  modify fun s => { s with simpleKeyAllowed := true }
  let start ← here
  skip
  enqueue .flowEntry start (← here)

/-- `-` starting a block sequence entry. -/
def fetchBlockEntry : Scan Unit := do
  let s ← get
  if s.flowLevel == 0 then
    if !s.simpleKeyAllowed then
      throw { problem := "block sequence entries are not allowed in this context", mark := s.mark }
    rollIndent s.mark.column none .blockSequenceStart s.mark
  removeKey
  modify fun s => { s with simpleKeyAllowed := true }
  let start ← here
  skip
  enqueue .blockEntry start (← here)

/-- `?` starting a complex key. -/
def fetchKey : Scan Unit := do
  let s ← get
  if s.flowLevel == 0 then
    if !s.simpleKeyAllowed then
      throw { problem := "mapping keys are not allowed in this context", mark := s.mark }
    rollIndent s.mark.column none .blockMappingStart s.mark
  removeKey
  modify fun s => { s with simpleKeyAllowed := s.flowLevel == 0 }
  let start ← here
  skip
  enqueue .key start (← here)

/-- `:`: after a remembered simple key, the `key` token (and in block context the mapping start)
is inserted where the key started. -/
def fetchValue : Scan Unit := do
  let s ← get
  match s.simpleKeys with
  | k :: ks =>
    if k.possible then
      let i := k.tokenNumber - s.taken
      let keyTok : Located := { token := .key, start := k.mark, stop := k.mark }
      set { s with queue := s.queue.take i ++ keyTok :: s.queue.drop i }
      rollIndent k.mark.column (some k.tokenNumber) .blockMappingStart k.mark
      modify fun s => { s with simpleKeys := { k with possible := false } :: ks, simpleKeyAllowed := false }
    else
      if s.flowLevel == 0 then
        if !s.simpleKeyAllowed then
          throw { problem := "mapping values are not allowed in this context", mark := s.mark }
        rollIndent s.mark.column none .blockMappingStart s.mark
      modify fun s => { s with simpleKeyAllowed := s.flowLevel == 0 }
  | [] => pure ()
  let start ← here
  skip
  enqueue .value start (← here)

/-- An anchor or alias: it may start a simple key, and none may follow it. -/
def fetchAnchor (isAnchor : Bool) : Scan Unit := do
  saveKey
  modify fun s => { s with simpleKeyAllowed := false }
  let t ← anchorOrAlias isAnchor
  enqueue t.token t.start t.stop

/-- A tag: it may start a simple key, and none may follow it. -/
def fetchTag : Scan Unit := do
  saveKey
  modify fun s => { s with simpleKeyAllowed := false }
  let t ← tag
  enqueue t.token t.start t.stop

/-- A block scalar; a simple key may follow it. -/
def fetchBlockScalar (literal : Bool) : Scan Unit := do
  removeKey
  modify fun s => { s with simpleKeyAllowed := true }
  let t ← blockScalar literal
  enqueue t.token t.start t.stop

/-- A quoted scalar: it may start a simple key, and none may follow it. -/
def fetchQuoted (single : Bool) : Scan Unit := do
  saveKey
  modify fun s => { s with simpleKeyAllowed := false }
  let t ← quoted single
  enqueue t.token t.start t.stop

/-- A plain scalar: it may start a simple key, and none may follow it on its line. -/
def fetchPlain : Scan Unit := do
  saveKey
  modify fun s => { s with simpleKeyAllowed := false }
  let t ← plain
  enqueue t.token t.start t.stop

/-- Fetches the next token (or, at the start, the stream start). -/
def fetchNextToken : Scan Unit := do
  if !(← get).started then fetchStreamStart
  else
    toNextToken ((← get).rest.length + 1)
    staleKeys
    unrollIndent (← here).column
    let s ← get
    let flow := s.flowLevel > 0
    let c1 ← at? 1
    match s.rest with
    | [] => fetchStreamEnd
    | c :: _ =>
      if s.mark.column == 0 && c == '%' then fetchDirective
      else if ← atDocumentMarker then
        fetchDocumentMarker (if c == '-' then .documentStart else .documentEnd)
      else if c == '[' then fetchFlowStart .flowSequenceStart
      else if c == '{' then fetchFlowStart .flowMappingStart
      else if c == ']' then fetchFlowEnd .flowSequenceEnd
      else if c == '}' then fetchFlowEnd .flowMappingEnd
      else if c == ',' then fetchFlowEntry
      else if c == '-' && blankZ c1 then fetchBlockEntry
      else if c == '?' && (flow || blankZ c1) then fetchKey
      else if c == ':' && (flow || blankZ c1) then fetchValue
      else if c == '*' then fetchAnchor false
      else if c == '&' then fetchAnchor true
      else if c == '!' then fetchTag
      else if c == '|' && !flow then fetchBlockScalar true
      else if c == '>' && !flow then fetchBlockScalar false
      else if c == '\'' then fetchQuoted true
      else if c == '"' then fetchQuoted false
      else if plainStart c c1 flow then fetchPlain
      else fail (some ("while scanning for the next token", s.mark)) "found character that cannot start any token"

/-- Fetches tokens until the next one is settled: none is waiting, or a remembered simple key
might still turn the next one into a key. -/
def fetchMore : Nat → Scan Unit
  | 0 => pure ()
  | fuel + 1 => do
    let need ← do
      if (← get).queue.isEmpty then pure true
      else
        staleKeys
        let s ← get
        pure (s.simpleKeys.any (fun k => k.possible && k.tokenNumber == s.taken))
    if need then
      fetchNextToken
      fetchMore fuel
    else modify fun s => { s with available := true }

end Scan

end GraphIngest.Yaml
