import GraphIngest.Sql.Syntax
import GraphIngest.Sql.Fault
import GraphIngest.Sql.Value

/-!
# Reading statements

A recursive reader over the tokens of a script, one statement at a time. Binary operators group
to the left; prefix `NOT` takes everything from the equality family up. A token that does not fit
is a syntax fault near it, and running out of tokens where more are needed is incomplete input.
Every recursion takes fuel, which is more than the number of tokens: each step of a chain of calls
takes a token or nests.
-/

namespace GraphIngest.Sql

/-- The state of the reader: the tokens left, the bytes of the script, where the statement
starts, where the last token taken ends, and the parameters numbered so far (the largest number,
and the names given to numbers). -/
structure Reader where
  tokens : List Token
  source : ByteArray
  base : Nat
  lastEnd : Nat
  lastParam : Nat := 0
  named : List (String × Nat) := []

/-- A reading step. -/
abbrev Parse := StateT Reader (Except SqlFault)

namespace Parse

/-- The offset of a token within its statement. -/
def rel (t : Token) : Parse Nat := return t.offset - (← get).base

/-- The next token, if any; an illegal token is a fault as soon as it is reached. -/
def peek : Parse (Option Token) := do
  let s ← get
  match s.tokens with
  | t :: _ =>
    if t.kind == .illegal then throw (.unrecognized t.text (some (t.offset - s.base)))
    else return some t
  | [] => return none

/-- The token after the next, if any. -/
def peek2 : Parse (Option Token) := do
  let s ← get
  match s.tokens with
  | _ :: t :: _ =>
    if t.kind == .illegal then throw (.unrecognized t.text (some (t.offset - s.base)))
    else return some t
  | _ => return none

/-- The number of a parameter: `?N` is `N`; a bare `?` takes the number after the largest so
far; a named parameter keeps the number its name first took. -/
def paramNumber (text : String) : Parse Nat := do
  let s ← get
  let digits := (text.drop 1).toString
  if text.startsWith "?" then
    let n := if digits.isEmpty then s.lastParam + 1 else digits.toNat?.getD 0
    set { s with lastParam := max s.lastParam n }
    return n
  else
    match s.named.lookup text with
    | some n => return n
    | none =>
      let n := s.lastParam + 1
      set { s with lastParam := n, named := (text, n) :: s.named }
      return n

def advance : Parse Unit :=
  modify fun s => match s.tokens with
    | t :: rest => { s with tokens := rest, lastEnd := t.offset + t.text.utf8ByteSize }
    | [] => s

/-- A syntax fault at the next token, or incomplete input at the end. -/
def fail : Parse α := do
  match ← peek with
  | some t => throw (.misplaced t.text (← rel t))
  | none => throw .incomplete

/-- Whether the next token is the keyword. -/
def atKw (kw : String) : Parse Bool := do
  match ← peek with
  | some t => return t.isKeyword kw
  | none => return false

def atPunct (p : String) : Parse Bool := do
  match ← peek with
  | some t => return t.isPunct p
  | none => return false

def acceptKw (kw : String) : Parse Bool := do
  if ← atKw kw then advance; return true else return false

def acceptPunct (p : String) : Parse Bool := do
  if ← atPunct p then advance; return true else return false

/-- Takes the keyword, which must come next. -/
def kw (k : String) : Parse Unit := do
  if ← acceptKw k then return () else fail

/-- Takes the punctuation, which must come next. -/
def punct (p : String) : Parse Unit := do
  if ← acceptPunct p then return () else fail

/-- Takes a name (a word that is not reserved, a quoted name, or a string) and its token. -/
def name : Parse (String × Token) := do
  match ← peek with
  | some t =>
    match t.name? with
    | some n => advance; return (n, t)
    | none => fail
  | none => fail

/-- Takes a name, possibly behind a schema name and a dot. -/
def qualifiedName : Parse (String × Token) := do
  let (n, t) ← name
  if ← atPunct "." then
    advance
    name
  else return (n, t)

/-- Takes a name, possibly behind a schema name and a dot: the schema name with its token, the
name and its token. -/
def schemaName : Parse (Option (String × Token) × String × Token) := do
  let (n, t) ← name
  if ← atPunct "." then
    advance
    let (m, u) ← name
    return (some (n, t), m, u)
  else return (none, n, t)

/-- The text of the script between two byte offsets, blanks trimmed at both ends. -/
def spanText (start stop : Nat) : Parse String := do
  let s ← get
  let bytes := (s.source.extract start stop).toList
  let text := (utf8Lossy bytes).toList
  let trimmed := ((text.dropWhile isBlank).reverse.dropWhile isBlank).reverse
  return String.ofList trimmed

/-- The bytes of a blob literal `x'…'`. -/
def blobBytes (text : String) : List UInt8 :=
  let hex := ((text.toList.drop 2).takeWhile (· != '\''))
  let value (c : Char) : Nat :=
    if isDigit c then digitOf c else if 'a' ≤ c && c ≤ 'f' then c.toNat - 87 else c.toNat - 55
  pairs (hex.map value)
where
  /-- Two hex digits a byte. -/
  pairs : List Nat → List UInt8
    | a :: b :: rest => (a * 16 + b).toUInt8 :: pairs rest
    | _ => []

/-- The text of a number with `_` separators taken out; a separator not between two digits is
an unrecognized token, named by the text as far as it was rewritten. -/
def numberWithoutSeparators (text : String) : Except SqlFault String :=
  let cs := text.toList
  let hex := cs.take 2 == ['0', 'x'] || cs.take 2 == ['0', 'X']
  let isD (c : Char) : Bool := if hex then isHexDigit c else isDigit c
  let (out, fault) := go cs isD [] none cs.length cs []
  match fault with
  | some f => .error (.unrecognized f none)
  | none => .ok (String.ofList out)
where
  /-- Copies the characters, dropping separators and recording the last misplaced one; the
  text named is the copy so far over the rest of the original. -/
  go (original : List Char) (isD : Char → Bool) (out : List Char) (fault : Option String) :
      Nat → List Char → List Char → List Char × Option String
    | 0, _, _ => (out, fault)
    | _, [], _ => (out, fault)
    | fuel + 1, c :: rest, before =>
      if c == '_' then
        let ok := (before.head?.map isD).getD false && (rest.head?.map isD).getD false
        let fault := if ok then fault else some (String.ofList (out ++ original.drop out.length))
        go original isD out fault fuel rest (c :: before)
      else go original isD (out ++ [c]) fault fuel rest (c :: before)

/-- The level of a binary operator token, and the operator. -/
def binaryOf (t : Token) : Option (Nat × BinaryOp) :=
  if t.kind == .word then
    let u := t.text.toUpper
    if u == "OR" then some (1, .or) else if u == "AND" then some (2, .and) else none
  else if t.kind == .punct then
    match t.text with
    | "=" | "==" => some (4, .eq)
    | "!=" | "<>" => some (4, .ne)
    | "<" => some (5, .lt)
    | "<=" => some (5, .le)
    | ">" => some (5, .gt)
    | ">=" => some (5, .ge)
    | "&" => some (6, .bitAnd)
    | "|" => some (6, .bitOr)
    | "<<" => some (6, .shl)
    | ">>" => some (6, .shr)
    | "+" => some (7, .add)
    | "-" => some (7, .sub)
    | "*" => some (8, .mul)
    | "/" => some (8, .div)
    | "%" => some (8, .rem)
    | "||" => some (9, .concat)
    | _ => none
  else none

/-- The join the words before `JOIN` name, and whether it is natural: `LEFT`, `RIGHT` and `FULL`
(each may be followed by `OUTER`), `INNER`, `CROSS`, and `NATURAL` before any of them. None for
words that name no join (an unknown word, `OUTER` alone, or `INNER` with an outer join). -/
def joinType (words : List String) : Option (JoinKind × Bool) :=
  let flags := words.map fun w =>
    match w with
    | "NATURAL" => some (true, false, false, false, false, false)
    | "LEFT" => some (false, true, false, true, false, false)
    | "OUTER" => some (false, false, false, true, false, false)
    | "RIGHT" => some (false, false, true, true, false, false)
    | "FULL" => some (false, true, true, true, false, false)
    | "INNER" => some (false, false, false, false, true, false)
    | "CROSS" => some (false, false, false, false, true, true)
    | _ => none
  match flags.mapM id with
  | none => none
  | some fs =>
    let any (f : Bool × Bool × Bool × Bool × Bool × Bool → Bool) : Bool := fs.any f
    let natural := any (·.1)
    let left := any (·.2.1)
    let right := any (·.2.2.1)
    let outer := any (·.2.2.2.1)
    let inner := any (·.2.2.2.2.1)
    let cross := any (·.2.2.2.2.2)
    if (inner && outer) || (outer && !left && !right) then none
    else
      let kind : JoinKind :=
        if left && right then .full else if left then .left else if right then .right
        else if cross then .cross else .inner
      some (kind, natural)

def startsQuery (t : Token) : Bool :=
  t.isKeyword "SELECT" || t.isKeyword "WITH" || t.isKeyword "VALUES"

/-- The words that end a result column or a table without being its alias. -/
def joinWords : List String := ["LEFT", "RIGHT", "FULL", "INNER", "CROSS", "NATURAL", "OUTER"]

/-- The next tokens, as many as are left of the count. -/
def peekMany (count : Nat) : Parse (List Token) := return (← get).tokens.take count

/-- Whether a `WINDOW` clause comes next: the word is a keyword only before a name and `AS`. -/
def atWindowClause : Parse Bool := do
  match ← peekMany 3 with
  | [w, n, a] => return w.isKeyword "WINDOW" && n.name?.isSome && a.isKeyword "AS"
  | _ => return false

/-- Whether an `OVER` clause comes next (after a call): the word is a keyword only before `(` or
a name. -/
def atOverClause : Parse Bool := do
  match ← peekMany 2 with
  | [o, n] => return o.isKeyword "OVER" && (n.isPunct "(" || n.name?.isSome)
  | _ => return false

/-- Whether a `FILTER` clause comes next (after a call): the word is a keyword only before `(`. -/
def atFilterClause : Parse Bool := do
  match ← peekMany 2 with
  | [f, p] => return f.isKeyword "FILTER" && p.isPunct "("
  | _ => return false

/-- A bare alias: a word that is neither reserved nor a join word, a quoted name, or a string. -/
def bareAlias : Parse (Option String) := do
  if ← atWindowClause then return none
  match ← peek with
  | some t =>
    if t.kind == .word && (t.isReserved || joinWords.contains t.text.toUpper) then return none
    else if t.kind == .word || t.kind == .quoted || t.kind == .string then
      advance; return t.name?
    else return none
  | none => return none

/-- An optional alias: `AS name`, or a bare alias. -/
def label : Parse (Option String) := do
  if ← acceptKw "AS" then return some (← name).1
  else bareAlias

/-- A type name: words and strings, then an optional parenthesised size or two; its text. -/
def typeName : Parse String := do
  let start := (← get).tokens.head?.map (·.offset)
  let stop ← words
  match start, stop with
  | some a, some _ =>
    if ← atPunct "(" then
      advance
      signed
      if ← acceptPunct "," then signed
      punct ")"
      spanText a (← get).lastEnd
    else spanText a (← get).lastEnd
  | _, _ => return ""
where
  /-- The words of the type; the end of the last one. -/
  words : Parse (Option Nat) := do
    let mut last := none
    for _ in [0:64] do
      match ← peek with
      | some t =>
        if (t.kind == .word && !t.isReserved) || t.kind == .string || t.kind == .quoted then
          advance
          last := some (← get).lastEnd
        else break
      | none => break
    return last
  /-- A number with an optional sign. -/
  signed : Parse Unit := do
    discard (acceptPunct "+" <||> acceptPunct "-")
    match ← peek with
    | some t => if t.kind == .integer || t.kind == .float then advance else fail
    | none => fail

/-- A conflict resolution after `OR` or `ON CONFLICT`. -/
def resolution : Parse Conflict := do
  if ← acceptKw "ROLLBACK" then return .rollback
  else if ← acceptKw "ABORT" then return .abort
  else if ← acceptKw "FAIL" then return .fail
  else if ← acceptKw "IGNORE" then return .ignore
  else if ← acceptKw "REPLACE" then return .replace
  else fail

/-- An optional `ON CONFLICT` clause. -/
def onConflict : Parse (Option Conflict) := do
  if ← atKw "ON" then
    advance
    kw "CONFLICT"
    return some (← resolution)
  else return none

def keyAction : Parse KeyAction := do
  if ← acceptKw "SET" then
    if ← acceptKw "NULL" then return .setNull
    else kw "DEFAULT"; return .setDefault
  else if ← acceptKw "CASCADE" then return .cascade
  else if ← acceptKw "RESTRICT" then return .restrict
  else kw "NO"; kw "ACTION"; return .noAction

/-- Names in parentheses, separated by commas. -/
def nameList : Parse (List (String × Token)) := do
  punct "("
  let mut names := [← name]
  for _ in [0:100000] do
    if ← acceptPunct "," then names := names ++ [← name] else break
  punct ")"
  return names

/-- The rest of a `REFERENCES` clause: the parent, its columns, and the actions. -/
def references : Parse ForeignKey := do
  let (parent, _) ← name
  let cols ← if ← atPunct "(" then (do return (← nameList).map (·.1)) else pure []
  let mut key : ForeignKey := { parent, parentColumns := cols }
  for _ in [0:100] do
    if ← atKw "ON" then
      advance
      if ← acceptKw "DELETE" then key := { key with onDelete := ← keyAction }
      else kw "UPDATE"; key := { key with onUpdate := ← keyAction }
    else if ← acceptKw "MATCH" then discard name
    else if ← atKw "NOT" then
      match ← peek2 with
      | some t => if t.isKeyword "DEFERRABLE" then advance; advance; deferral else break
      | none => break
    else if ← acceptKw "DEFERRABLE" then deferral
    else break
  return key
where
  /-- An optional `INITIALLY DEFERRED` or `INITIALLY IMMEDIATE`. -/
  deferral : Parse Unit := do
    if ← acceptKw "INITIALLY" then
      if ← acceptKw "DEFERRED" then return () else kw "IMMEDIATE"

def liftFault (r : Except SqlFault α) : Parse α :=
  match r with
  | .ok a => pure a
  | .error e => throw e

mutual

/-- An expression. -/
def expr (fuel : Nat) : Parse Expr :=
  match fuel with
  | 0 => throw .tooDeep
  | fuel + 1 => level fuel 1

/-- An expression whose operators bind at least as tight as `min`. -/
def level (fuel : Nat) (min : Nat) : Parse Expr :=
  match fuel with
  | 0 => throw .tooDeep
  | fuel + 1 => do
    let lhs ← unary fuel
    operators fuel min lhs

/-- The operators after a left operand, as long as they bind at least as tight as `min`. -/
def operators (fuel : Nat) (min : Nat) (lhs : Expr) : Parse Expr :=
  match fuel with
  | 0 => throw .tooDeep
  | fuel + 1 => do
    match ← peek with
    | none => return lhs
    | some t =>
      if t.kind == .punct && (t.text == "->" || t.text == "->>") then
        -- the JSON operators bind as tightly as concatenation and call their functions
        if 9 < min then return lhs
        else
          advance
          let rhs ← level fuel 10
          operators fuel min (.call t.text [lhs, rhs] false false t.offset)
      else
      match binaryOf t with
      | some (lvl, op) =>
        if lvl < min then return lhs
        else
          advance
          let rhs ← level fuel (lvl + 1)
          operators fuel min (if op == .and then lhs.conjunction rhs else .binary op lhs rhs)
      | none =>
        if min ≤ 4 && t.kind == .word then
          let u := t.text.toUpper
          if u == "IS" then
            advance
            let neg ← acceptKw "NOT"
            let neg ← if ← acceptKw "DISTINCT" then (do kw "FROM"; pure (!neg)) else pure neg
            let rhs ← level fuel 5
            operators fuel min (.is neg lhs rhs)
          else if u == "ISNULL" then advance; operators fuel min (.isNull false lhs)
          else if u == "NOTNULL" then advance; operators fuel min (.isNull true lhs)
          else if u == "NOT" then
            match ← peek2 with
            | some t2 =>
              if t2.isKeyword "NULL" then advance; advance; operators fuel min (.isNull true lhs)
              else if t2.isKeyword "IN" || t2.isKeyword "LIKE" || t2.isKeyword "GLOB" ||
                  t2.isKeyword "BETWEEN" || t2.isKeyword "REGEXP" || t2.isKeyword "MATCH" then
                advance
                let e ← membership fuel true lhs
                operators fuel min e
              else return lhs
            | none => return lhs
          else if u == "IN" || u == "LIKE" || u == "GLOB" || u == "BETWEEN" || u == "REGEXP" || u == "MATCH" then
            let e ← membership fuel false lhs
            operators fuel min e
          else if u == "COLLATE" && min ≤ 10 then
            advance
            let (c, _) ← name
            operators fuel min (.collate lhs c)
          else return lhs
        else if min ≤ 10 && t.isKeyword "COLLATE" then
          advance
          let (c, _) ← name
          operators fuel min (.collate lhs c)
        else return lhs

/-- `IN`, `LIKE`, `GLOB`, `REGEXP`, `MATCH` or `BETWEEN` after a left operand (and an optional
`NOT`). -/
def membership (fuel : Nat) (negated : Bool) (lhs : Expr) : Parse Expr :=
  match fuel with
  | 0 => throw .tooDeep
  | fuel + 1 => do
    if ← acceptKw "IN" then
      if ← acceptPunct "(" then
        if ← acceptPunct ")" then return .inList negated lhs []
        else
          match ← peek with
          | some t =>
            if startsQuery t then
              let q ← query fuel
              punct ")"
              return .inQuery negated lhs q
            else
              let items ← exprList fuel
              punct ")"
              return .inList negated lhs items
          | none => fail
      else
        let (schema, table, t) ← schemaName
        let q := Query.mk [] (.single (.select false [.star]
          (some (.table (schema.map (·.1)) table none (← rel t))) none [] none [])) [] none none
        return .inQuery negated lhs q
    else if ← atKw "BETWEEN" then
      advance
      let lo ← level fuel 5
      kw "AND"
      let hi ← level fuel 5
      return .between negated lhs lo hi
    else
      let some op ← peek | fail
      advance
      let rhs ← level fuel 5
      let esc ← if ← acceptKw "ESCAPE" then (do return some (← level fuel 6)) else pure none
      if op.isKeyword "LIKE" || op.isKeyword "GLOB" then
        return .like (op.isKeyword "GLOB") negated lhs rhs esc
      else
        -- `REGEXP` and `MATCH` call the function of that name, the pattern first
        let call := Expr.call op.text (rhs :: lhs :: esc.toList) false false (← rel op)
        return if negated then .unary .not call else call

def unary (fuel : Nat) : Parse Expr :=
  match fuel with
  | 0 => throw .tooDeep
  | fuel + 1 => do
    match ← peek with
    | some t =>
      if t.isKeyword "NOT" then advance; return .unary .not (← level fuel 3)
      else if t.isPunct "-" then advance; return .unary .neg (← unary fuel)
      else if t.isPunct "+" then advance; return .unary .plus (← unary fuel)
      else if t.isPunct "~" then advance; return .unary .bitNot (← unary fuel)
      else primary fuel
    | none => fail

/-- A literal, a name, a call, a parenthesised expression or query, `CAST`, `CASE` or `EXISTS`. -/
def primary (fuel : Nat) : Parse Expr :=
  match fuel with
  | 0 => throw .tooDeep
  | fuel + 1 => do
    let some t ← peek | fail
    match t.kind with
    | .integer =>
      advance
      return .integer (← liftFault (numberWithoutSeparators t.text)) (← rel t)
    | .float =>
      advance
      return .float (← liftFault (numberWithoutSeparators t.text))
    | .string => advance; return .string (dequote t.text)
    | .blob => advance; return .blob (blobBytes t.text)
    | .variable => advance; return .param (← paramNumber t.text) (← rel t)
    | .punct =>
      if t.text == "(" then
        advance
        match ← peek with
        | some t2 =>
          if startsQuery t2 then
            let q ← query fuel
            punct ")"
            return .scalar q
          else
            let items ← exprList fuel
            punct ")"
            match items with
            | [e] => return e
            | _ => return .vector items
        | none => fail
      else fail
    | .quoted => identifier fuel t
    | .word =>
      let u := t.text.toUpper
      if u == "NULL" then advance; return .null
      else if u == "CURRENT_TIME" || u == "CURRENT_DATE" || u == "CURRENT_TIMESTAMP" then
        advance; return .call u.toLower [] false false (← rel t)
      else if u == "CASE" then advance; caseArms fuel
      else if u == "EXISTS" then
        advance
        punct "("
        let q ← query fuel
        punct ")"
        return .exists q
      else if u == "RAISE" && ((← peek2).map (·.isPunct "(")).getD false then
        advance; advance
        let off ← rel t
        if ← acceptKw "IGNORE" then
          punct ")"
          return .raise .ignore "" off
        else
          let action ← if ← acceptKw "ROLLBACK" then pure RaiseAction.rollback
            else if ← acceptKw "ABORT" then pure RaiseAction.abort
            else (do kw "FAIL"; pure RaiseAction.fail)
          punct ","
          let (m, _) ← name
          punct ")"
          return .raise action m off
      else if u == "CAST" && ((← peek2).map (·.isPunct "(")).getD false then
        advance; advance
        let e ← expr fuel
        kw "AS"
        let ty ← typeName
        punct ")"
        return .cast e ty
      else if t.isReserved then fail
      else identifier fuel t
    | _ => fail

/-- A column reference or a function call starting with a name token. -/
def identifier (fuel : Nat) (t : Token) : Parse Expr :=
  match fuel with
  | 0 => throw .tooDeep
  | fuel + 1 => do
    advance
    let n := (t.name?).getD t.text
    let off ← rel t
    if ← acceptPunct "(" then
      if ← acceptPunct ")" then windowClauses fuel (.call n [] false false off)
      else if ← acceptPunct "*" then
        punct ")"
        windowClauses fuel (.call n [] false true off)
      else
        let distinct ← acceptKw "DISTINCT"
        if !distinct then discard (acceptKw "ALL")
        let args ← exprList fuel
        let orderBy ← if ← acceptKw "ORDER" then (do kw "BY"; orderTerms fuel) else pure []
        punct ")"
        let call := Expr.call n args distinct false off
        windowClauses fuel (if orderBy.isEmpty then call else .sortedCall call orderBy)
    else if ← atPunct "." then
      advance
      let (second, _) ← name
      if ← acceptPunct "." then
        let (third, _) ← name
        return .column (some second) third false off
      else return .column (some n) second false off
    else return .column none n (t.kind == .quoted && t.text.startsWith "\"") off

/-- The arms of a `CASE`, after the keyword. -/
def caseArms (fuel : Nat) : Parse Expr :=
  match fuel with
  | 0 => throw .tooDeep
  | fuel + 1 => do
    let base ← if ← atKw "WHEN" then pure none else (do return some (← expr fuel))
    let arms ← whenArms fuel
    if arms.isEmpty then fail
    let otherwise ← if ← acceptKw "ELSE" then (do return some (← expr fuel)) else pure none
    kw "END"
    return .case base arms otherwise

/-- The `FILTER` and `OVER` clauses after a function call, if any. `DISTINCT` does not go with a
window. -/
def windowClauses (fuel : Nat) (call : Expr) : Parse Expr :=
  match fuel with
  | 0 => throw .tooDeep
  | fuel + 1 => do
    let filter ← if ← atFilterClause then
        (do
          advance
          punct "("
          kw "WHERE"
          let e ← expr fuel
          punct ")"
          pure (some e))
      else pure none
    let overClause ← if ← atOverClause then
        (do
          advance
          if ← acceptPunct "(" then
            let w ← windowSpec fuel
            punct ")"
            pure (some w)
          else
            let (n, _) ← name
            pure (some (Window.mk (some n) true [] [] none n)))
      else pure none
    match overClause, call with
    | some _, .sortedCall (.call n _ _ _ off) _ => throw (.orderOnScalar n off)
    | some _, .call _ _ true _ _ => throw (.otherMessage "DISTINCT is not supported for window functions")
    | _, _ => pure ()
    if filter.isNone && overClause.isNone then return call
    return .windowed call filter overClause

/-- The inside of a window's parentheses: the window it builds on, its partition, order and
frame. -/
def windowSpec (fuel : Nat) : Parse Window :=
  match fuel with
  | 0 => throw .tooDeep
  | fuel + 1 => do
    let start := ((← get).tokens.head?.map (·.offset)).getD 0
    let base ← match ← peek with
      | some t =>
        if (t.kind == .word || t.kind == .quoted) && !(["PARTITION", "ORDER", "RANGE", "ROWS",
            "GROUPS"].contains t.text.toUpper) && !t.isPunct ")" then
          (do let (n, _) ← name; pure (some n))
        else pure none
      | none => pure none
    let partition ← if ← acceptKw "PARTITION" then (do kw "BY"; exprList fuel) else pure []
    let orderBy ← if ← acceptKw "ORDER" then (do kw "BY"; orderTerms fuel) else pure []
    let frame ← frameSpec fuel
    let text ← spanText start (← get).lastEnd
    return .mk base false partition orderBy frame text

/-- The frame of a window, if one is given. -/
def frameSpec (fuel : Nat) : Parse (Option FrameSpec) :=
  match fuel with
  | 0 => throw .tooDeep
  | fuel + 1 => do
    let unit ← if ← acceptKw "ROWS" then pure (some FrameUnit.rows)
      else if ← acceptKw "RANGE" then pure (some FrameUnit.range)
      else if ← acceptKw "GROUPS" then pure (some FrameUnit.groups)
      else pure none
    let some unit := unit | return none
    let (start, finish) ← if ← acceptKw "BETWEEN" then do
        let s ← frameBound fuel true
        kw "AND"
        let e ← frameBound fuel false
        pure (s, e)
      else do
        let s ← frameBound fuel true
        pure (s, FrameBound.currentRow)
    let bad := match start, finish with
      | .currentRow, .preceding _ => true
      | .following _, .preceding _ | .following _, .currentRow => true
      | _, _ => false
    let exclude ← if ← acceptKw "EXCLUDE" then
        if ← acceptKw "NO" then (do kw "OTHERS"; pure FrameExclude.noOthers)
        else if ← acceptKw "CURRENT" then (do kw "ROW"; pure FrameExclude.currentRow)
        else if ← acceptKw "GROUP" then pure FrameExclude.group
        else (do kw "TIES"; pure FrameExclude.ties)
      else pure FrameExclude.noOthers
    if bad then throw (.otherMessage "unsupported frame specification")
    return some (.mk unit start finish exclude)

/-- A bound of a frame: `UNBOUNDED PRECEDING` may only start one, `UNBOUNDED FOLLOWING` only end
one. -/
def frameBound (fuel : Nat) (first : Bool) : Parse FrameBound :=
  match fuel with
  | 0 => throw .tooDeep
  | fuel + 1 => do
    if ← acceptKw "UNBOUNDED" then
      if first then (do kw "PRECEDING"; return .unboundedPreceding)
      else (do kw "FOLLOWING"; return .unboundedFollowing)
    else if ← atKw "CURRENT" then
      advance
      kw "ROW"
      return .currentRow
    else
      let e ← expr fuel
      if ← acceptKw "PRECEDING" then return .preceding e
      else (do kw "FOLLOWING"; return .following e)

/-- The windows a `WINDOW` clause names, after `WINDOW`. -/
def windowDefs (fuel : Nat) : Parse (List (String × Window)) :=
  match fuel with
  | 0 => throw .tooDeep
  | fuel + 1 => do
    let (n, _) ← name
    kw "AS"
    punct "("
    let w ← windowSpec fuel
    punct ")"
    if ← acceptPunct "," then return (n, w) :: (← windowDefs fuel) else return [(n, w)]

/-- `WHEN … THEN …` arms. -/
def whenArms (fuel : Nat) : Parse (List (Expr × Expr)) :=
  match fuel with
  | 0 => throw .tooDeep
  | fuel + 1 => do
    if ← acceptKw "WHEN" then
      let c ← expr fuel
      kw "THEN"
      let v ← expr fuel
      return (c, v) :: (← whenArms fuel)
    else return []

/-- Expressions separated by commas, at least one. -/
def exprList (fuel : Nat) : Parse (List Expr) :=
  match fuel with
  | 0 => throw .tooDeep
  | fuel + 1 => do
    let e ← expr fuel
    if ← acceptPunct "," then return e :: (← exprList fuel) else return [e]

def query (fuel : Nat) : Parse Query :=
  match fuel with
  | 0 => throw .tooDeep
  | fuel + 1 => do
    let ctes ← withClause fuel
    let first ← core fuel
    let body ← compound fuel (.single first)
    -- ORDER BY and LIMIT belong to a select: after a VALUES list they are not read
    let last := match body with
      | .single c => c
      | .op _ _ c => c
    match last with
    | .values _ => return .mk ctes body [] none none
    | .select .. =>
      let orderBy ← if ← acceptKw "ORDER" then (do kw "BY"; orderTerms fuel) else pure []
      let (limit, offset) ← limitClause fuel
      return .mk ctes body orderBy limit offset

/-- An optional `WITH` clause. -/
def withClause (fuel : Nat) : Parse (List Cte) :=
  match fuel with
  | 0 => throw .tooDeep
  | fuel + 1 => do
    if ← acceptKw "WITH" then
      let recursive ← acceptKw "RECURSIVE"
      cteList fuel recursive
    else return []

def cteList (fuel : Nat) (recursive : Bool) : Parse (List Cte) :=
  match fuel with
  | 0 => throw .tooDeep
  | fuel + 1 => do
    let (n, _) ← name
    let cols ← if ← atPunct "(" then (do return (← nameList).map (·.1)) else pure []
    kw "AS"
    if ← acceptKw "NOT" then kw "MATERIALIZED" else discard (acceptKw "MATERIALIZED")
    punct "("
    let q ← query fuel
    punct ")"
    let c := Cte.mk n cols recursive q
    if ← acceptPunct "," then return c :: (← cteList fuel recursive) else return [c]

def compound (fuel : Nat) (acc : Compound) : Parse Compound :=
  match fuel with
  | 0 => throw .tooDeep
  | fuel + 1 => do
    let op? : Option SetOp ←
      if ← acceptKw "UNION" then
        if ← acceptKw "ALL" then pure (some .unionAll) else pure (some .union)
      else if ← acceptKw "INTERSECT" then pure (some .intersect)
      else if ← acceptKw "EXCEPT" then pure (some .except)
      else pure none
    match op? with
    | some op => compound fuel (.op op acc (← core fuel))
    | none => return acc

/-- One select, or `VALUES`. -/
def core (fuel : Nat) : Parse Core :=
  match fuel with
  | 0 => throw .tooDeep
  | fuel + 1 => do
    if ← acceptKw "VALUES" then return .values (← valueRows fuel)
    kw "SELECT"
    let distinct ← acceptKw "DISTINCT"
    if !distinct then discard (acceptKw "ALL")
    let cols ← resultColumns fuel
    let source ← if ← acceptKw "FROM" then (do return some (← sourceList fuel)) else pure none
    let filter ← if ← acceptKw "WHERE" then (do return some (← expr fuel)) else pure none
    let groupBy ← if ← acceptKw "GROUP" then (do kw "BY"; exprList fuel) else pure []
    let having ← if ← acceptKw "HAVING" then (do return some (← expr fuel)) else pure none
    let windows ← if ← atWindowClause then (do advance; windowDefs fuel) else pure []
    return .select distinct cols source filter groupBy having windows

/-- Rows of `VALUES`: parenthesised lists separated by commas. -/
def valueRows (fuel : Nat) : Parse (List (List Expr)) :=
  match fuel with
  | 0 => throw .tooDeep
  | fuel + 1 => do
    punct "("
    let row ← exprList fuel
    punct ")"
    if ← acceptPunct "," then return row :: (← valueRows fuel) else return [row]

def resultColumns (fuel : Nat) : Parse (List ResultColumn) :=
  match fuel with
  | 0 => throw .tooDeep
  | fuel + 1 => do
    let c ← resultColumn fuel
    if ← acceptPunct "," then return c :: (← resultColumns fuel) else return [c]

def resultColumn (fuel : Nat) : Parse ResultColumn :=
  match fuel with
  | 0 => throw .tooDeep
  | fuel + 1 => do
    if ← acceptPunct "*" then return .star
    match ← peek, ← peek2 with
    | some t, some dot =>
      if dot.isPunct "." && (t.kind == .word || t.kind == .quoted) then
        let s ← get
        match s.tokens with
        | _ :: _ :: star :: _ =>
          if star.isPunct "*" then
            advance; advance; advance
            return .tableStar ((t.name?).getD t.text)
        | _ => pure ()
    | _, _ => pure ()
    let start := ((← get).tokens.head?.map (·.offset)).getD 0
    let e ← expr fuel
    let span ← spanText start (← get).lastEnd
    let a ← label
    let n := match a, e with
      | some a, _ => a
      | none, .column _ c _ _ => c
      | none, _ => span
    return .expr e n

/-- Tables joined, after `FROM`. -/
def sourceList (fuel : Nat) : Parse Relation :=
  match fuel with
  | 0 => throw .tooDeep
  | fuel + 1 => do
    let first ← sourceItem fuel
    joins fuel first

def joins (fuel : Nat) (left : Relation) : Parse Relation :=
  match fuel with
  | 0 => throw .tooDeep
  | fuel + 1 => do
    let op? : Option (JoinKind × Bool) ←
      if ← acceptPunct "," then pure (some (.cross, false))
      else if ← acceptKw "JOIN" then pure (some (.inner, false))
      else match ← peek with
        | some t =>
          if t.kind == .word && joinWords.contains t.text.toUpper then do
            advance
            let mut words := [t]
            for _ in [0:2] do
              if ← atKw "JOIN" then break
              match ← peek with
              | some w =>
                if (w.name?).isSome || w.kind == .word then advance; words := words ++ [w]
                else fail
              | none => fail
            kw "JOIN"
            match joinType (words.map fun w => w.text.toUpper) with
            | some op => pure (some op)
            | none => throw (.unknownJoinType (" ".intercalate (words.map (·.text))) (← rel t))
          else pure none
        | none => pure none
    match op? with
    | none => return left
    | some (kind, natural) =>
      let right ← sourceItem fuel
      let (on, usingCols) ←
        if ← acceptKw "ON" then (do return (some (← expr fuel), []))
        else if ← acceptKw "USING" then (do return (none, (← nameList).map (·.1)))
        else pure (none, [])
      joins fuel (.join kind natural left right on usingCols)

/-- One table, subquery or parenthesised join, with its alias. -/
def sourceItem (fuel : Nat) : Parse Relation :=
  match fuel with
  | 0 => throw .tooDeep
  | fuel + 1 => do
    if ← acceptPunct "(" then
      match ← peek with
      | some t =>
        if startsQuery t then
          let q ← query fuel
          punct ")"
          return .query q (← label)
        else
          let s ← sourceList fuel
          punct ")"
          return s
      | none => fail
    else
      let (schema, n, t) ← schemaName
      if ← acceptPunct "(" then
        let args ← if ← atPunct ")" then pure [] else exprList fuel
        punct ")"
        return .call n args (← label) (← rel t)
      let a ← label
      if ← acceptKw "INDEXED" then
        kw "BY"
        discard name
      else if ← atKw "NOT" then
        advance
        kw "INDEXED"
      return .table (schema.map (·.1)) n a (← rel t)

/-- Terms of an order, separated by commas. -/
def orderTerms (fuel : Nat) : Parse (List OrderTerm) :=
  match fuel with
  | 0 => throw .tooDeep
  | fuel + 1 => do
    let e ← expr fuel
    let desc ← if ← acceptKw "DESC" then pure true else (do let _ ← acceptKw "ASC"; pure false)
    let nulls ← if ← acceptKw "NULLS" then
        (if ← acceptKw "FIRST" then pure (some true) else (do kw "LAST"; pure (some false)))
      else pure none
    let o := OrderTerm.mk e desc nulls
    if ← acceptPunct "," then return o :: (← orderTerms fuel) else return [o]

/-- An optional `LIMIT` with its offset. -/
def limitClause (fuel : Nat) : Parse (Option Expr × Option Expr) :=
  match fuel with
  | 0 => throw .tooDeep
  | fuel + 1 => do
    if ← acceptKw "LIMIT" then
      let a ← expr fuel
      if ← acceptKw "OFFSET" then return (some a, some (← expr fuel))
      else if ← acceptPunct "," then
        let b ← expr fuel
        return (some b, some a)
      else return (some a, none)
    else return (none, none)

end

end Parse

end GraphIngest.Sql
