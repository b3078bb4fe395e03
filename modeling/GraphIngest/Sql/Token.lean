import GraphIngest.Sql.NumberText

/-!
# Tokens of a statement

A script is cut into tokens one at a time, blanks and comments skipped. Anything that is not a
token (an unterminated quote, a malformed blob, a number running into a word) is an illegal
token, which the reader reports when it reaches it. Every token keeps its text as written and its
byte offset in the script, so that a fault can quote the token and say where it stands.
-/

namespace GraphIngest.Sql

/-- The kinds of token. -/
inductive TokenKind where
  | word
  | quoted
  | string
  | integer
  | float
  | blob
  | variable
  | punct
  | illegal
  deriving DecidableEq, Inhabited, Repr

/-- A token: its kind, its text as written, and the byte offset where it starts. -/
structure Token where
  kind : TokenKind
  text : String
  offset : Nat
  deriving Inhabited

def isWordChar (c : Char) : Bool :=
  ('a' ≤ c && c ≤ 'z') || ('A' ≤ c && c ≤ 'Z') || isDigit c || c == '_' || c == '$' || c.toNat ≥ 128

def isWordStart (c : Char) : Bool :=
  ('a' ≤ c && c ≤ 'z') || ('A' ≤ c && c ≤ 'Z') || c == '_' || c.toNat ≥ 128

def isHexDigit (c : Char) : Bool :=
  isDigit c || ('a' ≤ c && c ≤ 'f') || ('A' ≤ c && c ≤ 'F')

/-- The blanks that start a blank run (a vertical tab may only continue one). -/
def isBlankStart (c : Char) : Bool := c == ' ' || c == '\t' || c == '\n' || c == '\x0c' || c == '\r'

def byteLength (cs : List Char) : Nat := cs.foldl (fun n c => n + c.utf8Size) 0

/-- The characters up to and including the closing quote, where a doubled quote continues; `none`
when the quote is not closed. -/
def quotedSpan (q : Char) : List Char → List Char → Option (List Char)
  | _, [] => none
  | acc, c :: rest =>
    if c == q then
      match rest with
      | d :: more => if d == q then quotedSpan q (d :: c :: acc) more else some (c :: acc).reverse
      | [] => some (c :: acc).reverse
    else quotedSpan q (c :: acc) rest

/-- Digits, with `_` separators, of a class; the characters taken and whether a separator was
among them. -/
def digitRun (isD : Char → Bool) (cs : List Char) : List Char × Bool :=
  let run := cs.takeWhile fun c => isD c || c == '_'
  (run, run.contains '_')

/-- The characters of a number at the start of `cs`: its kind (integer, float, illegal when a word
runs into it) and its length in characters. -/
def numberSpan (cs : List Char) : TokenKind × Nat :=
  let (kind, n) : TokenKind × Nat :=
    match cs with
    | '0' :: x :: h :: _ =>
      if (x == 'x' || x == 'X') && isHexDigit h then
        let (run, _) := digitRun isHexDigit (cs.drop 2)
        (.integer, 2 + run.length)
      else decimalSpan
    | _ => decimalSpan
  let tail := (cs.drop n).takeWhile isWordChar
  if tail.isEmpty then (kind, n) else (.illegal, n + tail.length)
where
  /-- Digits, then an optional fraction and exponent. -/
  decimalSpan : TokenKind × Nat :=
    let (whole, _) := digitRun isDigit cs
    let rest := cs.drop whole.length
    let (kind, n, rest) : TokenKind × Nat × List Char :=
      match rest with
      | '.' :: r =>
        let (frac, _) := digitRun isDigit r
        (.float, whole.length + 1 + frac.length, r.drop frac.length)
      | r => (.integer, whole.length, r)
    match rest with
    | e :: r =>
      if e == 'e' || e == 'E' then
        match r with
        | d :: _ =>
          if isDigit d then
            let (exp, _) := digitRun isDigit r
            (.float, n + 1 + exp.length)
          else if d == '+' || d == '-' then
            match r.drop 1 with
            | d2 :: _ =>
              if isDigit d2 then
                let (exp, _) := digitRun isDigit (r.drop 1)
                (.float, n + 2 + exp.length)
              else (kind, n)
            | [] => (kind, n)
          else (kind, n)
        | [] => (kind, n)
      else (kind, n)
    | [] => (kind, n)

/-- The next token at the start of `cs` (not blank): its kind and length in characters. -/
def tokenSpan (cs : List Char) : TokenKind × Nat :=
  match cs with
  | [] => (.illegal, 0)
  | c :: rest =>
    if c == '\'' || c == '"' || c == '`' then
      match quotedSpan c [] rest with
      | some span => (if c == '\'' then .string else .quoted, 1 + span.length)
      | none => (.illegal, 1 + rest.length)
    else if c == '[' then
      match rest.findIdx? (· == ']') with
      | some i => (.quoted, i + 2)
      | none => (.illegal, 1 + rest.length)
    else if (c == 'x' || c == 'X') && rest.head? == some '\'' then
      let body := (rest.drop 1).takeWhile isHexDigit
      let after := (rest.drop 1).drop body.length
      if after.head? == some '\'' && body.length % 2 == 0 then (.blob, 3 + body.length)
      else
        let upto := after.takeWhile (· != '\'')
        let closed := (after.drop upto.length).isEmpty
        (.illegal, 2 + body.length + upto.length + (if closed then 0 else 1))
    else if isDigit c || (c == '.' && (rest.head?.map isDigit).getD false) then
      numberSpan cs
    else if isWordStart c then (.word, 1 + (rest.takeWhile isWordChar).length)
    else if c == '?' then (.variable, 1 + (rest.takeWhile isDigit).length)
    else if c == '$' || c == '@' || c == ':' || c == '#' then
      let name := rest.takeWhile isWordChar
      (if name.isEmpty then .illegal else .variable, 1 + name.length)
    else
      match c, rest with
      | '-', '>' :: '>' :: _ => (.punct, 3)
      | '-', '>' :: _ => (.punct, 2)
      | '<', d :: _ => if d == '=' || d == '>' || d == '<' then (.punct, 2) else (.punct, 1)
      | '>', d :: _ => if d == '=' || d == '>' then (.punct, 2) else (.punct, 1)
      | '=', '=' :: _ => (.punct, 2)
      | '!', '=' :: _ => (.punct, 2)
      | '!', _ => (.illegal, 1)
      | '|', '|' :: _ => (.punct, 2)
      | _, _ =>
        if "(),;+-*/%=<>&|~.".contains c then (.punct, 1) else (.illegal, 1)

/-- The characters after the blanks and comments at the start of `cs`, and how many bytes they
took. -/
def skipBlank (fuel : Nat) (cs : List Char) (n : Nat) : List Char × Nat :=
  match fuel, cs with
  | 0, _ => (cs, n)
  | fuel + 1, c :: rest =>
    if isBlankStart c then
      let run := rest.takeWhile isBlank
      skipBlank fuel (rest.drop run.length) (n + 1 + run.length)
    else if c == '-' && rest.head? == some '-' then
      let line := rest.takeWhile (· != '\n')
      let after := rest.drop line.length
      -- the line break ends the comment and is a blank of its own
      skipBlank fuel after (n + 1 + byteLength line)
    else if c == '/' && rest.head? == some '*' then
      let body := rest.drop 1
      let close := closeComment body []
      match close with
      | some (inside, after) => skipBlank fuel after (n + 2 + byteLength inside + 2)
      | none => ([], n + 1 + byteLength rest)
    else if c == '\uFEFF' then skipBlank fuel rest (n + 3)
    else (cs, n)
  | _, [] => ([], n)
where
  /-- The comment's characters up to `*/`, and what follows it. -/
  closeComment : List Char → List Char → Option (List Char × List Char)
    | '*' :: '/' :: after, acc => some (acc.reverse, after)
    | c :: rest, acc => closeComment rest (c :: acc)
    | [], _ => none

/-- The tokens of a script, blanks and comments left out. -/
def tokenize (script : String) : List Token :=
  go script.length script.toList 0 []
where
  /-- One token at a time; the fuel is the number of characters left. -/
  go : Nat → List Char → Nat → List Token → List Token
    | 0, _, _, acc => acc.reverse
    | fuel + 1, cs, offset, acc =>
      let (cs, skipped) := skipBlank (cs.length + 1) cs 0
      let offset := offset + skipped
      match cs with
      | [] => acc.reverse
      | _ =>
        let (kind, n) := tokenSpan cs
        let n := max n 1
        let text := cs.take n
        go fuel (cs.drop n) (offset + byteLength text)
          ({ kind, text := String.ofList text, offset } :: acc)

def reservedWords : List String :=
  ["ADD", "ALL", "ALTER", "AND", "AS", "AUTOINCREMENT", "BETWEEN", "CASE", "CHECK", "COLLATE",
    "COMMIT", "CONSTRAINT", "CREATE", "DEFAULT", "DEFERRABLE", "DELETE", "DISTINCT", "DROP",
    "ELSE", "ESCAPE", "EXCEPT", "EXISTS", "FOREIGN", "FROM", "GROUP", "HAVING", "IN", "INDEX",
    "INSERT", "INTERSECT", "INTO", "IS", "ISNULL", "JOIN", "LIMIT", "NOT", "NOTHING", "NOTNULL",
    "NULL", "ON", "OR", "ORDER", "PRIMARY", "REFERENCES", "RETURNING", "SELECT", "SET", "TABLE",
    "THEN", "TO", "TRANSACTION", "UNION", "UNIQUE", "UPDATE", "USING", "VALUES", "WHEN", "WHERE"]

/-- Characters up to the closing quote `q`, a doubled quote standing for one. -/
def unquote (q : Char) : List Char → List Char → List Char
  | c :: d :: rest, acc =>
    if c == q then
      if d == q then unquote q rest (c :: acc) else acc.reverse
    else unquote q (d :: rest) (c :: acc)
  | [c], acc => if c == q then acc.reverse else (c :: acc).reverse
  | [], acc => acc.reverse

/-- The text of a name token: quotes removed and doubled quotes undone. -/
def dequote (text : String) : String :=
  match text.toList with
  | q :: rest =>
    if q == '[' then String.ofList (rest.takeWhile (· != ']'))
    else if q == '"' || q == '\'' || q == '`' then String.ofList (unquote q rest [])
    else text
  | [] => text

namespace Token

/-- Whether the token is the keyword (case aside). -/
def isKeyword (t : Token) (kw : String) : Bool := t.kind == .word && t.text.toUpper == kw

def isPunct (t : Token) (p : String) : Bool := t.kind == .punct && t.text == p

def isReserved (t : Token) : Bool := t.kind == .word && reservedWords.contains t.text.toUpper

/-- The name a token stands for, if it can stand for one: a word that is not reserved, a quoted
name, or a string. -/
def name? (t : Token) : Option String :=
  match t.kind with
  | .word => if t.isReserved then none else some t.text
  | .quoted => some (dequote t.text)
  | .string => some (dequote t.text)
  | _ => none

/-- The name a token stands for where a string is not a name. -/
def plainName? (t : Token) : Option String :=
  match t.kind with
  | .string => none
  | _ => t.name?

end Token

end GraphIngest.Sql
