import GraphIngest.Sql.Window
import GraphIngest.Sql.Plan
import GraphIngest.Sql.Json.Each

/-!
# Evaluating expressions and queries

One mutual family, bounded by a fuel argument that every call spends one unit of, evaluates
expressions against a frame and runs queries. A select reads its FROM clause into frames, keeps
the frames its WHERE clause holds for, and maps each frame, or each group when it aggregates, to
a result row; sorting (stable) and LIMIT come last. A common table reading itself in the last
select of a union is built with a queue, one row at a time.
-/

namespace GraphIngest.Sql

def hexDigitValue (c : Char) : Nat :=
  if '0' ≤ c && c ≤ '9' then c.toNat - 48
  else if 'a' ≤ c && c ≤ 'f' then c.toNat - 87
  else c.toNat - 55

/-- The value of an integer literal, negated when a minus sign stands right before it. A decimal
literal too big for 64 bits becomes a double; a hex literal with more than sixteen significant
digits is a fault. -/
def integerLiteral (text : String) (negated : Bool) (offset : Nat) : Except SqlFault SqlValue :=
  let cs := text.toList
  let decimal : Except SqlFault SqlValue :=
    let n : Nat := cs.foldl (fun acc c => acc * 10 + digitOf c) 0
    if negated then
      (if n ≤ Nat.pow 2 63 then .ok (.int (-(n : Int))) else .ok (.real (-(readReal cs).2)))
    else if (n : Int) ≤ maxInt then .ok (.int n) else .ok (.real (readReal cs).2)
  match cs with
  | '0' :: x :: hex =>
    if x == 'x' || x == 'X' then
      let sig := hex.dropWhile (· == '0')
      let i := wrap64 (sig.foldl (fun acc c => acc * 16 + hexDigitValue c) 0)
      if sig.length > 16 || (negated && i == minInt) then
        .error (.hexTooBig ((if negated then "-" else "") ++ text) offset)
      else .ok (.int (if negated then -i else i))
    else decimal
  | _ => decimal

/-- `LIKE` or `GLOB` of a pattern and a text, with an optional escape. -/
def likeValue (glob caseSensitive : Bool) (pattern text : SqlValue) (esc : Option SqlValue) :
    Except SqlFault SqlValue :=
  let escape : Except SqlFault (Option (Option Char)) :=
    match esc with
    | none => .ok (some none)
    | some .null => .ok none
    | some v =>
      match beforeNul v.textChars with
      | [c] => .ok (some (some c))
      | _ => .error (.otherMessage "ESCAPE expression must be a single character")
  match escape with
  | .error err => .error err
  | .ok none => .ok .null
  | .ok (some e) =>
    match pattern, text with
    | .null, _ => .ok .null
    | _, .null => .ok .null
    | _, _ =>
      let pat := beforeNul pattern.textChars
      let txt := beforeNul text.textChars
      let hit := if glob then globMatch pat txt else likeMatch caseSensitive e pat txt
      .ok (.int (if hit then 1 else 0))

/-- `AND` of two truth values. -/
def andValues (a b : SqlValue) : SqlValue :=
  match a.truth, b.truth with
  | some false, _ => .int 0
  | _, some false => .int 0
  | some true, some true => .int 1
  | _, _ => .null

/-- `OR` of two truth values. -/
def orValues (a b : SqlValue) : SqlValue :=
  match a.truth, b.truth with
  | some true, _ => .int 1
  | _, some true => .int 1
  | some false, some false => .int 0
  | _, _ => .null

/-- `NOT` of a truth value. -/
def notValue (v : SqlValue) : SqlValue := ofTruth (v.truth.map (!·))

/-- Whether a value is among values, as `IN` decides: false for no values, null when nothing
matched but a null was involved. -/
def inResult (negated : Bool) (aff : Affinity) (coll : Collation) (v : SqlValue) (vals : List SqlValue) :
    SqlValue :=
  if vals.isEmpty then .int (if negated then 1 else 0)
  else if v.isNull then .null
  else
    let results := vals.map fun w =>
      let (x, y) := convertPair aff v w
      compareValues .eq coll x y
    let r :=
      if results.any (fun r => r.truth == some true) then .int 1
      else if results.any (·.isNull) then .null
      else .int 0
    if negated then notValue r else r

/-- The strict form of an ordering comparison, as row values use it on their first difference. -/
def strictOp : BinaryOp → BinaryOp
  | .le => .lt
  | .ge => .gt
  | op => op

/-- Folds the comparisons of the elements of two row values: `eqs` compares each pair for
equality and `stricts` by the strict form of the operator. -/
def rowCompare (op : BinaryOp) : List SqlValue → List SqlValue → SqlValue
  | [], _ =>
    match op with
    | .eq | .le | .ge => .int 1
    | _ => .int 0
  | e :: es, s :: ss =>
    match e.truth with
    | some true => rowCompare op es ss
    | none => .null
    | some false =>
      match op with
      | .eq => .int 0
      | .ne => .int 1
      | _ => s
  | _ :: _, [] => .null

/-- Equality of row values: false when a pair differs, else null when a pair has a null. -/
def rowEquality (negated : Bool) (eqs : List SqlValue) : SqlValue :=
  let r :=
    if eqs.any (fun e => e.truth == some false) then .int 0
    else if eqs.any (·.isNull) then .null
    else .int 1
  if negated then notValue r else r

/-- A result column after `*` is expanded: a column of a source, or an expression. -/
inductive Item where
  | slot (scope : Nat) (column : Nat) (info : ColumnInfo)
  | expr (e : Expr) (name : String)
  deriving Inhabited

/-- The name of a result column. -/
def Item.name : Item → String
  | .slot _ _ info => info.name
  | .expr _ n => n

/-- Whether a column a `*` brings in from one of several sources is ambiguous: among the
sources of the same name and schema, two have a column of its name, the later not matching it
by name in its join. -/
def starClash (scopes : List Scope) (s : Scope) (name : String) : Bool :=
  let holders := scopes.filter fun o =>
    sameName o.name s.name && o.schema.map (·.toLower) == s.schema.map (·.toLower) &&
      o.columns.any (sameName ·.name name)
  match holders with
  | _ :: later => later.any fun o => !o.usingCols.any (sameName · name)
  | [] => false

/-- The fault of an ambiguous column a `*` brings in, named with its source's schema (`*` for a
subquery or a common table) and name. -/
def starFault (s : Scope) (name : String) : SqlFault :=
  .ambiguousColumn (s.schema.getD "*" ++ "." ++ s.name ++ "." ++ name) none

/-- The result columns of a select over sources, `*` expanded. A bare `*` leaves out hidden
columns and the columns a join matches by name on its right side; on the left side of a right or
full join, such a column stands for what its name finds. `t.*` brings in every source named `t`.
Over several sources, a column also found in another source of the same name is ambiguous. -/
def expandColumns (scopes : List Scope) (cols : List ResultColumn) : Except SqlFault (List Item) :=
  let several := scopes.length > 1
  let slotsOf (i : Nat) (s : Scope) : Except SqlFault (List Item) :=
    ((List.range s.columns.length).filterMap fun j =>
      let c := s.columns.getD j default
      if c.hidden then none else some (j, c)).mapM fun (j, c) =>
        if several && starClash scopes s c.name then .error (starFault s c.name)
        else .ok (Item.slot i j c)
  let starOf (i : Nat) (s : Scope) : Except SqlFault (List Item) :=
    ((List.range s.columns.length).filterMap fun j =>
      let c := s.columns.getD j default
      if c.hidden || i > 0 && s.usingCols.any (sameName · c.name) then none else some (j, c)).mapM
      fun (j, c) =>
        if several && starClash scopes s c.name then .error (starFault s c.name)
        else if s.beforeRight && (scopes.drop (i + 1)).any (·.usingCols.any (sameName · c.name)) then
          .ok (.expr (.column none c.name false 0) c.name)
        else .ok (.slot i j c)
  let indexed := (List.range scopes.length).zip scopes
  cols.foldlM (fun acc c =>
    match c with
    | .star =>
      if scopes.isEmpty then .error (.otherMessage "no tables specified")
      else do
        let items ← indexed.mapM fun (i, s) => starOf i s
        .ok (acc ++ items.flatten)
    | .tableStar t =>
      match indexed.filter (sameName ·.2.name t) with
      | [] => .error (.otherMessage ("no such table: " ++ t))
      | found => do
        let items ← found.mapM fun (i, s) => slotsOf i s
        .ok (acc ++ items.flatten)
    | .expr e n => .ok (acc ++ [.expr e n])) []

/-- The columns a natural join matches: those of the right side that a source on the left has. -/
def sharedColumns (left right : List Scope) : List String :=
  let names := right.flatMap fun s => (s.columns.filter (!·.hidden)).map (·.name)
  let shared := names.filter fun n => left.any fun s => s.columns.any fun c => !c.hidden && sameName c.name n
  shared.foldl (fun acc n => if acc.any (sameName · n) then acc else acc ++ [n]) []

/-- The first source among scopes with a column of a name: its position and the column. -/
def columnPlace (scopes : List Scope) (name : String) : Option (Nat × ColumnInfo) :=
  match scopes.findIdx? fun s => s.columns.any (sameName ·.name name) with
  | some i => ((scopes.getD i default).columns.find? (sameName ·.name name)).map fun c => (i, c)
  | none => none

/-- A frame with its sources seen through new scopes (one per source, in order). -/
def retag (scopes : List Scope) (f : Frame) : Frame :=
  (f.zip scopes).map fun (b, s) => { b with scope := s }

/-- A result with the sort keys of each row. -/
structure Keyed where
  columns : List ColumnInfo
  keys : List SortKey := []
  rows : List (List SqlValue × List SqlValue)
  deriving Inhabited

/-- A limit or offset as an integer: integers, whole doubles and texts spelling integers; other
values are a datatype mismatch. -/
def limitInt (v : SqlValue) : Except SqlFault Int :=
  match v with
  | .int i => .ok i
  | .real x =>
    match realAsInteger x with
    | .int i => .ok i
    | _ => .error .datatypeMismatch
  | .text _ =>
    match v.applyNumeric true with
    | .int i => .ok i
    | _ => .error .datatypeMismatch
  | _ => .error .datatypeMismatch

/-- The rows a limit and offset keep: a negative limit keeps all. -/
def applyLimit {α : Type} (limit offset : Option Int) (rows : List α) : List α :=
  let rows := match offset with
    | some o => if o > 0 then rows.drop o.toNat else rows
    | none => rows
  match limit with
  | some l => if l ≥ 0 then rows.take l.toNat else rows
  | none => rows

/-- The common table of a name, with the common tables defined before it. -/
def findCte (name : String) : List Cte → Option (Cte × List Cte)
  | [] => none
  | c :: rest =>
    match c with
    | .mk n _ _ _ => if sameName n name then some (c, rest) else findCte name rest

/-- Renames the columns of rows to a common table's or view's column names, if it gives them, and
makes the names unique. -/
def renameColumns (table : String) (names : List String) (rows : Rows) : Except SqlFault Rows :=
  if names.isEmpty then .ok rows.uniquelyNamed
  else if names.length != rows.columns.length then
    .error (.otherMessage ("table " ++ table ++ " has " ++ toString rows.columns.length ++
      " values for " ++ toString names.length ++ " columns"))
  else
    let renamed : Rows := { rows with columns := (rows.columns.zip names).map fun (c, n) => { c with name := n } }
    .ok renamed.uniquelyNamed

/-- The source `json_each` or `json_tree` gives, under its label or its name: its columns (the
document and the root path hidden) and row ids. -/
def eachScope (name : String) (label : Option String) : Scope :=
  { name := label.getD name, hasRowid := true, schema := some "main",
    columns := Json.eachColumnNames.map fun n => { name := n, hidden := n == "json" || n == "root" } }

/-- A table-valued function takes at most two arguments: the document and the root path. -/
def callArity (tree : Bool) (count : Nat) : Except SqlFault Unit :=
  if count > 2 then
    .error (.otherMessage ("too many arguments on " ++ (if tree then "json_tree" else "json_each") ++
      "() - max 2"))
  else .ok ()

/-- The schema of a source named in a FROM clause: none for a common table, `temp` for a
temporary table, else `main`. -/
def sourceSchema (env : Env) (schema : Option String) (name : String) : Option String :=
  match schema with
  | some s => (schemaTemporary? s).map fun temporary => if temporary then "temp" else "main"
  | none =>
    if (env.working.find? (sameName ·.1 name)).isSome || (findCte name env.ctes).isSome then none
    else
      match env.contents.table? name with
      | some t => some (if t.temporary then "temp" else "main")
      | none => some "main"

/-- Which table-valued function a call names: `json_tree` (`true`) or `json_each` (`false`). A
common table, table or view of the name is not a function; any other name is no table at all. -/
def tableFunction (env : Env) (name : String) : Except SqlFault Bool :=
  if (findCte name env.ctes).isSome || (env.contents.table? name).isSome ||
      (env.contents.view? name).isSome then
    .error (.otherMessage ("'" ++ name ++ "' is not a function"))
  else if sameName name "json_each" then .ok false
  else if sameName name "json_tree" then .ok true
  else .error (.noSuchTable name)

/-- The term of an order or grouping without its `COLLATE`, and the collation it names. -/
def stripCollate : Expr → Expr × Option String
  | .collate e n => ((stripCollate e).1, some n)
  | e => (e, none)

def collationNamed (name : String) : Except SqlFault Collation :=
  match Collation.ofName? name with
  | some c => .ok c
  | none => .error (.otherMessage ("no such collation sequence: " ++ name))

/-- The result column an ORDER BY or GROUP BY term names: by position or by name. -/
def termColumn (kind : String) (index : Nat) (items : List String) (e : Expr) :
    Except SqlFault (Option Nat) :=
  match (stripCollate e).1 with
  | .integer text _ =>
    match text.toNat? with
    | some k =>
      if 1 ≤ k && k ≤ items.length then .ok (some (k - 1))
      else .error (.otherMessage (ordinal (index + 1) ++ " " ++ kind ++
        " BY term out of range - should be between 1 and " ++ toString items.length))
    | none => .ok none
  | .column none name _ _ =>
    if kind == "ORDER" then .ok (items.findIdx? (sameName · name)) else .ok none
  | _ => .ok none

/-- Groups keyed frames by equal keys, the groups in key order. -/
def groupFrames (colls : List Collation) (keyed : List (List SqlValue × Frame)) : List (List Frame) :=
  let keys := colls.map fun c => ({ collation := c } : SortKey)
  let sorted := keyed.mergeSort fun a b => compareKeys keys a.1 b.1 != .gt
  let groups := sorted.foldl (fun (acc : List (List SqlValue × List Frame)) (k, f) =>
    match acc with
    | (k', fs) :: rest => if sameRow colls k k' then (k', f :: fs) :: rest else (k, [f]) :: acc
    | [] => [(k, [f])]) []
  (groups.map fun (_, fs) => fs.reverse).reverse

/-- Whether the second argument of `likelihood` is as it must be: a decimal literal with a
fraction or exponent, at most 1. -/
def likelihoodLiteral : Expr → Bool
  | .float text => (readReal text.toList).2 ≤ 1.0
  | _ => false

/-- `rtreecheck([schema,] table)`: `ok` for an r-tree, whose boxes always nest as they should.
For another table or view, a report when it has too few columns to be an r-tree, else the failure
to read the r-tree's own tables. -/
def rtreeCheck (c : Contents) (args : List SqlValue) : Except SqlFault SqlValue := do
  let (schema, table) ← match args with
    | [t] => pure (SqlValue.text "main", t)
    | [s, t] => pure (s, t)
    | _ => throw (.otherMessage "wrong number of arguments to function rtreecheck()")
  let logic : SqlFault := .otherMessage "SQL logic error"
  if schema.isNull || table.isNull then throw logic
  let name := String.ofList table.textChars
  let some temporary := schemaTemporary? (String.ofList schema.textChars) | throw logic
  let columns ← match c.tables.find? (fun t => sameName t.name name && t.temporary == temporary) with
    | some t => if t.virtual matches some (.rtree _ _) then return .text "ok" else pure t.columns.length
    | none =>
      match (if temporary then none else c.views.find? (sameName ·.name name)) with
      | some v => pure v.columns.length
      | none => throw logic
  if columns < 3 then pure (.text "Schema corrupt or not an rtree") else throw logic

/-- Whether a test takes an expression as settled without evaluating anything, and which way:
an integer literal that fits in 31 bits, or `TRUE` or `FALSE` where no column has that name. -/
def settledTruth (env : Env) (e : Expr) : Except SqlFault (Option Bool) :=
  match e with
  | .integer _ _ => pure (e.smallInteger?.map (· != 0))
  | .column none name false off => do
    if sameName name "true" || sameName name "false" then
      match ← env.find none name off with
      | .missing => pure (some (sameName name "true"))
      | _ => pure none
    else pure none
  | _ => pure none

/-- An `AND` or `OR` as a test sees it: when a side is settled, the side that decides the whole
(`x AND 1` is `x`, `x OR 1` is `1`, `0 OR x` is `x`), each side seen the same way first. -/
def testedForm (env : Env) : Nat → Expr → Except SqlFault Expr
  | 0, e => pure e
  | fuel + 1, e =>
    match e with
    | .binary op a b =>
      if op == .and || op == .or then do
        let r ← testedForm env fuel b
        let l ← testedForm env fuel a
        let lt ← settledTruth env l
        let rt ← settledTruth env r
        if lt == some true || rt == some false then pure (if op == .and then r else l)
        else if rt == some true || lt == some false then pure (if op == .and then l else r)
        else pure e
      else pure e
    | _ => pure e

mutual

/-- The value of an expression. -/
def eval : Nat → Env → Expr → Except SqlFault SqlValue
  | 0, _, _ => .error .tooDeep
  | fuel + 1, env, e =>
    match e with
    | .null => pure .null
    | .param i off =>
      match env.definition with
      | some d => throw (.prohibited "parameters" d.plural (some off))
      | none => pure (env.params.getD (i - 1) .null)
    | .integer text off => integerLiteral text false off
    | .float text => pure (.real (readReal text.toList).2)
    | .string s => pure (.text s)
    | .blob b => pure (.blob b)
    | .column table name quoted off => do
      match ← env.find table name off with
      | .value v _ =>
        match env.definition, table with
        | some d, some _ =>
          if d == .generated || d == .indexed then
            throw (.prohibited "the \".\" operator" d.plural (some off))
          else pure v
        | _, _ => pure v
      | .alias a => eval fuel { env with aliases := [] } a
      | .missing =>
        if table.isNone && quoted then pure (.text name)
        else if table.isNone && !quoted && sameName name "true" then pure (.int 1)
        else if table.isNone && !quoted && sameName name "false" then pure (.int 0)
        else throw (.noSuchColumn (qualifiedName table name) (some off))
    | .unary op a =>
      match op, a with
      | .neg, .integer text off => integerLiteral text true off
      | .neg, .float text => pure (.real (-(readReal text.toList).2))
      | _, _ => do
        let v ← eval fuel env a
        match op with
        | .neg => pure (negate v)
        | .plus => pure v
        | .bitNot => pure (if v.isNull then .null else .int (-(v.toInt) - 1))
        | .not => pure (notValue v)
    | .binary op a b =>
      match op with
      -- as a value, both sides are evaluated; only a test stops early
      | .and => do
        let x ← eval fuel env a
        let y ← eval fuel env b
        pure (andValues x y)
      | .or => do
        let x ← eval fuel env a
        let y ← eval fuel env b
        pure (orValues x y)
      | .lt | .le | .gt | .ge | .eq | .ne => compare fuel env op a b
      | .concat => do
        let x ← eval fuel env a
        let y ← eval fuel env b
        pure (concatValues x y)
      | .bitAnd | .bitOr | .shl | .shr => do
        let x ← eval fuel env a
        let y ← eval fuel env b
        pure (bitArith op x y)
      | _ => do
        let x ← eval fuel env a
        let y ← eval fuel env b
        pure (arith op x y)
    | .is negated a b => isValue fuel env negated a b
    | .isNull negated a => do
      let v ← eval fuel env a
      pure (.int (if v.isNull != negated then 1 else 0))
    | .between negated a lo hi => do
      let x ← compare fuel env .ge a lo
      let y ← compare fuel env .le a hi
      let r := andValues x y
      pure (if negated then notValue r else r)
    | .inList negated a items => do
      let v ← eval fuel env a
      let aff ← affinityOf fuel env a
      let (coll, _) ← collationOf fuel env a
      let vals ← items.mapM (eval fuel env)
      pure (inResult negated aff (coll.getD .binary) v vals)
    | .inQuery negated a q => do
      if let some d := env.definition then
        throw (.prohibited "subqueries" d.plural (a.leftOffset? 10000))
      let v ← eval fuel env a
      let rows ← runQuery fuel env.enter q
      if rows.columns.length != 1 then throw (.subqueryColumns 1 rows.columns.length)
      let lhs ← affinityOf fuel env a
      let col := rows.columns.headD default
      let aff := comparisonAffinity col.affinity lhs
      let (coll, _) ← collationOf fuel env a
      pure (inResult negated aff (coll.getD col.collation) v (rows.rows.map (·.headD .null)))
    | .like glob negated a b esc => do
      let text ← eval fuel env a
      let pattern ← eval fuel env b
      let escape ← match esc with
        | some x => do
          let v ← eval fuel env x
          pure (some v)
        | none => pure none
      let r ← match likeValue glob env.caseSensitiveLike pattern text escape with
        | .ok r => pure r
        | .error err => if env.probe then pure .null else throw err
      pure (if negated then notValue r else r)
    | .cast a ty => do
      let v ← eval fuel env a
      pure (v.cast (Affinity.ofType ty))
    | .collate a name => do
      let _ ← collationNamed name
      eval fuel env a
    | .call name args distinct star off => do
      let r ← callFunction fuel env name args distinct star off
      pure r.value
    | .case base arms otherwise => caseValue fuel env base arms otherwise
    | .exists q => do
      if let some d := env.definition then throw (.prohibited "subqueries" d.plural none)
      let rows ← runQuery fuel env.enter q
      pure (.int (if rows.rows.isEmpty then 0 else 1))
    | .scalar q => do
      if let some d := env.definition then throw (.prohibited "subqueries" d.plural none)
      let rows ← runQuery fuel env.enter q
      if rows.columns.length != 1 then throw (.subqueryColumns 1 rows.columns.length)
      pure ((rows.rows.head?.bind (·.head?)).getD .null)
    | .vector _ => throw .rowValueMisused
    | .raise action message _ =>
      if !env.inTrigger then throw (.otherMessage "RAISE() may only be used within a trigger-program")
      else if env.probe then pure .null
      else throw (.raised action message)
    | .windowed c filter spec =>
      let inner := match c with
        | .sortedCall x _ => x
        | x => x
      match inner with
      | .call name args _ star off => do
        checkCall name args.length star spec.isSome filter.isSome off
        match spec, filter with
        | none, some cond =>
          match env.group with
          | some frames => do
            let kept ← frames.filterM fun f => do
              let rejected ← failsTest fuel { env with frame := f, group := none, windowed := none } true cond
              pure (env.probe || !rejected)
            eval fuel { env with group := some kept } c
          | none => eval fuel env c
        | none, none => eval fuel env c
        | some _, _ =>
          match env.windowed with
          | none => throw (.misuseOfWindow name off)
          | some vals => pure ((vals.lookup off).getD .null)
      | _ => eval fuel env c
    | .sortedCall c orderBy =>
      match c with
      | .call name args _ star off => do
        let lname := name.map foldAscii
        if !isAggregateCall lname args.length star then
          checkCall name args.length star false false off
          throw (.orderOnScalar name off)
        match env.group with
        | some frames =>
          if lname == "min" || lname == "max" then eval fuel env c
          else do
            let keys ← orderBy.mapM fun
              | .mk x desc nullsFirst => do
                let coll ← match (stripCollate x).2 with
                  | some n => collationNamed n
                  | none => do
                    let (cl, _) ← collationOf fuel { env with group := none } x
                    pure (cl.getD .binary)
                pure ({ descending := desc, nullsFirst := nullsFirst, collation := coll } : SortKey)
            let keyed ← frames.mapM fun f => do
              let ks ← orderBy.mapM fun
                | .mk x _ _ => eval fuel { env with frame := f, group := none, windowed := none } x
              pure (f, ks)
            let sorted := keyed.mergeSort fun a b => compareKeys keys a.2 b.2 != .gt
            eval fuel { env with group := some (sorted.map (·.1)) } c
        | none => eval fuel env c
      | _ => eval fuel env c

/-- A comparison operator on two expressions (row values element by element). -/
def compare : Nat → Env → BinaryOp → Expr → Expr → Except SqlFault SqlValue
  | 0, _, _, _, _ => .error .tooDeep
  | fuel + 1, env, op, a, b =>
    match a, b with
    | .vector xs, .vector ys => do
      if xs.length != ys.length then throw .rowValueMisused
      let eqs ← (xs.zip ys).mapM fun (x, y) => compare fuel env .eq x y
      match op with
      | .eq => pure (rowEquality false eqs)
      | .ne => pure (rowEquality true eqs)
      | _ => do
        let stricts ← (xs.zip ys).mapM fun (x, y) => compare fuel env (strictOp op) x y
        pure (rowCompare op eqs stricts)
    | .vector _, _ => throw .rowValueMisused
    | _, .vector _ => throw .rowValueMisused
    | _, _ => do
      let x ← eval fuel env a
      let y ← eval fuel env b
      let affA ← affinityOf fuel env a
      let affB ← affinityOf fuel env b
      let coll ← pairCollation fuel env a b
      let (x, y) := convertPair (comparisonAffinity affA affB) x y
      pure (compareValues op coll x y)

/-- `IS` and `IS NOT`: equality where two nulls are the same; `IS TRUE` and `IS FALSE` test the
truth of the left side. -/
def isValue : Nat → Env → Bool → Expr → Expr → Except SqlFault SqlValue
  | 0, _, _, _, _ => .error .tooDeep
  | fuel + 1, env, negated, a, b => do
    let truthTest : Option Bool ← match b with
      | .column none name false off =>
        if sameName name "true" || sameName name "false" then do
          match ← env.find none name off with
          | .missing => pure (some (sameName name "true"))
          | _ => pure none
        else pure none
      | _ => pure none
    match truthTest with
    | some wanted => do
      let x ← eval fuel env a
      pure (.int (if (x.truth == some wanted) != negated then 1 else 0))
    | none => do
      let x ← eval fuel env a
      let y ← eval fuel env b
      let affA ← affinityOf fuel env a
      let affB ← affinityOf fuel env b
      let coll ← pairCollation fuel env a b
      let (x, y) := convertPair (comparisonAffinity affA affB) x y
      let same := match x, y with
        | .null, .null => true
        | .null, _ => false
        | _, .null => false
        | x, y => x.compareWith coll y == .eq
      pure (.int (if same != negated then 1 else 0))

/-- Whether testing a condition for falsehood rejects it: it is false, or null when
`nullFails`. The condition's parts are evaluated only as far as the test needs them: an `AND`
stops at its first failing side, an `OR` at its first passing one, a `BETWEEN` is its two
comparisons joined by `AND`, and a side a literal settles is not evaluated at all. -/
def failsTest : Nat → Env → Bool → Expr → Except SqlFault Bool
  | 0, _, _, _ => .error .tooDeep
  | fuel + 1, env, nullFails, e => do
    if env.probe then
      let _ ← eval fuel env e
      return false
    match ← testedForm env fuel e with
    | .binary .and a b =>
      if ← failsTest fuel env nullFails a then pure true else failsTest fuel env nullFails b
    | .binary .or a b =>
      if ← passesTest fuel env (!nullFails) a then pure false else failsTest fuel env nullFails b
    | .unary .not a => passesTest fuel env nullFails a
    | .between negated x lo hi =>
      let both := Expr.binary .and (.binary .ge x lo) (.binary .le x hi)
      if negated then passesTest fuel env nullFails both else failsTest fuel env nullFails both
    | d => do
      let v ← eval fuel env d
      pure (v.truth == some false || (nullFails && v.truth.isNone))

/-- Whether testing a condition for truth accepts it: it is true, or null when `nullPasses`,
its parts evaluated as `failsTest` evaluates them. -/
def passesTest : Nat → Env → Bool → Expr → Except SqlFault Bool
  | 0, _, _, _ => .error .tooDeep
  | fuel + 1, env, nullPasses, e => do
    if env.probe then
      let _ ← eval fuel env e
      return true
    match ← testedForm env fuel e with
    | .binary .and a b =>
      if ← failsTest fuel env (!nullPasses) a then pure false else passesTest fuel env nullPasses b
    | .binary .or a b =>
      if ← passesTest fuel env nullPasses a then pure true else passesTest fuel env nullPasses b
    | .unary .not a => failsTest fuel env nullPasses a
    | .between negated x lo hi =>
      let both := Expr.binary .and (.binary .ge x lo) (.binary .le x hi)
      if negated then failsTest fuel env nullPasses both else passesTest fuel env nullPasses both
    | d => do
      let v ← eval fuel env d
      pure (v.truth == some true || (nullPasses && v.truth.isNone))

/-- The value of a `CASE` expression: the first arm whose condition holds (or whose value equals
the base). -/
def caseValue : Nat → Env → Option Expr → List (Expr × Expr) → Option Expr → Except SqlFault SqlValue
  | 0, _, _, _, _ => .error .tooDeep
  | fuel + 1, env, base, arms, otherwise =>
    match arms with
    | [] =>
      match otherwise with
      | some x => eval fuel env x
      | none => pure .null
    | (w, t) :: rest => do
      let hit ← match base with
        | some b => do
          let v ← compare fuel env .eq b w
          pure (v.truth == some true)
        | none => do pure !(← failsTest fuel env true w)
      if hit && !env.probe then eval fuel env t
      else do
        if env.probe then
          let _ ← eval fuel env t
        caseValue fuel env base rest otherwise

/-- The affinity an expression carries: a column's, a cast's type, a subquery's first column's. -/
def affinityOf : Nat → Env → Expr → Except SqlFault Affinity
  | 0, _, _ => pure .none
  | fuel + 1, env, e =>
    match e with
    | .column table name _ off => do
      match ← env.find table name off with
      | .value _ info => pure info.affinity
      | .alias a => affinityOf fuel { env with aliases := [] } a
      | .missing => pure .none
    | .cast _ ty => pure (Affinity.ofType ty)
    | .collate a _ => affinityOf fuel env a
    | .scalar q => do
      let rows ← runQuery fuel { env.enter with probe := true } q
      pure ((rows.columns.head?.map (·.affinity)).getD .none)
    | _ => pure .none

/-- The kinds of value an expression may give, read from its form (a mask: 1 numbers, 2 text,
4 blobs). -/
def dataKinds : Nat → Env → Expr → Except SqlFault Nat
  | 0, _, _ => pure 7
  | fuel + 1, env, e =>
    match e with
    | .collate a _ | .unary .plus a => dataKinds fuel env a
    | .null => pure 0
    | .string _ => pure 2
    | .blob _ => pure 4
    | .binary .concat _ _ => pure 6
    | .param _ _ | .call _ _ _ _ _ | .windowed _ _ _ | .sortedCall _ _ => pure 7
    | .column _ _ _ _ | .scalar _ | .cast _ _ | .vector _ => do
      let aff ← affinityOf fuel env e
      pure (if aff.numericLike then 5 else if aff == .text then 6 else 7)
    | .case _ arms other => do
      let ks ← arms.mapM fun (_, t) => dataKinds fuel env t
      let ko ← match other with
        | some o => dataKinds fuel env o
        | none => pure 0
      pure (ks.foldl (· ||| ·) ko)
    | _ => pure 1

/-- The collation an expression carries, and whether a `COLLATE` gave it. -/
def collationOf : Nat → Env → Expr → Except SqlFault (Option Collation × Bool)
  | 0, _, _ => pure (none, false)
  | fuel + 1, env, e =>
    match e with
    | .collate _ name => do
      let c ← collationNamed name
      pure (some c, true)
    | .column table name _ off => do
      match ← env.find table name off with
      | .value _ info => pure (some info.collation, false)
      | .alias a => collationOf fuel { env with aliases := [] } a
      | .missing => pure (none, false)
    | .cast a _ => collationOf fuel env a
    | .unary .plus a => collationOf fuel env a
    | .binary _ a b | .is _ a b => do
      let (ca, ea) ← collationOf fuel env a
      if ea then pure (ca, true)
      else do
        let (cb, eb) ← collationOf fuel env b
        if eb then pure (cb, true) else pure (none, false)
    | _ => pure (none, false)

def pairCollation : Nat → Env → Expr → Expr → Except SqlFault Collation
  | 0, _, _, _ => pure .binary
  | fuel + 1, env, a, b => do
    let (ca, ea) ← collationOf fuel env a
    let (cb, eb) ← collationOf fuel env b
    if ea then pure (ca.getD .binary)
    else if eb then pure (cb.getD .binary)
    else pure ((ca <|> cb).getD .binary)

/-- A function call: an aggregate over the current group, or a scalar function. -/
def callFunction : Nat → Env → String → List Expr → Bool → Bool → Nat → Except SqlFault Json.Tagged
  | 0, _, _, _, _, _, _ => .error .tooDeep
  | fuel + 1, env, name, args, distinct, star, off =>
    let lname := name.map foldAscii
    let n := args.length
    let plain (v : SqlValue) : Json.Tagged := { value := v }
    if isAggregateCall lname n star then
      match env.group with
      | none => throw (.misuseOfAggregate name off)
      | some frames =>
        if distinct && n != 1 then throw (.otherMessage "DISTINCT aggregates must have exactly one argument")
        else if Json.givesJson lname then do
          let rows ← frames.mapM fun f =>
            args.mapM (evalTagged fuel { env with frame := f, group := none, windowed := none })
          let rows := if distinct then
              rows.foldl (fun kept r =>
                if kept.any (fun k => (k.headD {}).value.same .binary (r.headD {}).value) then kept
                else kept ++ [r]) []
            else rows
          match Json.aggregate lname rows with
          | .ok v => pure v
          | .error err => if env.probe then pure {} else throw err
        else do
          let rows ← frames.mapM fun f =>
            args.mapM (eval fuel { env with frame := f, group := none, windowed := none })
          match applyAggregate lname star distinct rows with
          | .ok v => pure (plain v)
          | .error err => if env.probe then pure {} else throw err
    else
      match scalarArity lname with
      | none =>
        match windowArity lname with
        | some (lo, hi) =>
          if lo ≤ n && n ≤ hi then throw (.misuseOfWindow name off)
          else throw (.wrongArgumentCount name off)
        | none =>
          if (aggregateArity lname).isSome then throw (.wrongArgumentCount name off)
          else throw (.noSuchFunction name off)
      | some (lo, hi) =>
        let tooMany := match hi with
          | some h => n > h
          | none => false
        if n < lo || tooMany || star then throw (.wrongArgumentCount name off)
        else if lname == "likelihood" && !likelihoodLiteral (args.getD 1 .null) then
          throw (.badLikelihood name off)
        else if (env.definition.any (· != .check)) && changingFunction lname then
          throw (.prohibited "non-deterministic functions" ((env.definition.map (·.plural)).getD "")
            (some off))
        else
          match lname with
          | "coalesce" | "ifnull" => plain <$> firstNonNull fuel env args
          | "subtype" => do
            -- JSON text carries the subtype `J`
            let t ← evalTagged fuel env (args.getD 0 .null)
            pure (plain (.int (if t.json then 74 else 0)))
          | "rtreecheck" => do
            let vs ← args.mapM (eval fuel env)
            if env.probe then pure (plain .null) else plain <$> rtreeCheck env.contents vs
          | "iif" => plain <$> caseValue fuel env none [(args.getD 0 .null, args.getD 1 .null)] (some (args.getD 2 .null))
          | "last_insert_rowid" => pure (plain (.int env.lastRowid))
          | "changes" => pure (plain (.int env.changes))
          | "total_changes" => pure (plain (.int env.totalChanges))
          | _ =>
            if Json.givesJson lname then do
              let vs ← args.mapM (evalTagged fuel env)
              match Json.apply lname vs with
              | .ok v => pure v
              | .error err => if env.probe then pure {} else throw err
            else do
              let vs ← args.mapM (eval fuel env)
              let r := match lname with
                | "like" => likeValue false env.caseSensitiveLike (vs.getD 0 .null) (vs.getD 1 .null) vs[2]?
                | "glob" => likeValue true false (vs.getD 0 .null) (vs.getD 1 .null) none
                | _ =>
                  match env.definition with
                  | some d =>
                    if Calendar.readsClock lname vs then
                      .error (.otherMessage ("non-deterministic use of " ++ lname ++ "() in " ++ d.single))
                    else applyScalar env.clock lname vs
                  | none => applyScalar env.clock lname vs
              match r with
              | .ok v => pure (plain v)
              | .error err => if env.probe then pure {} else throw err

/-- The value of an expression with the mark of JSON text, which only the result of a JSON
function carries. -/
def evalTagged : Nat → Env → Expr → Except SqlFault Json.Tagged
  | 0, _, _ => .error .tooDeep
  | fuel + 1, env, e =>
    match e with
    | .call name args distinct star off => callFunction fuel env name args distinct star off
    | _ => do
      let v ← eval fuel env e
      pure { value := v }

/-- The first argument that is not null (all of them visited in a probe). -/
def firstNonNull : Nat → Env → List Expr → Except SqlFault SqlValue
  | 0, _, _ => .error .tooDeep
  | fuel + 1, env, args =>
    match args with
    | [] => pure .null
    | a :: rest => do
      let v ← eval fuel env a
      if !v.isNull && !env.probe then pure v
      else do
        let w ← firstNonNull fuel env rest
        pure (if v.isNull then w else v)

def runQuery : Nat → Env → Query → Except SqlFault Rows
  | 0, _, _ => .error .tooDeep
  | fuel + 1, env, .mk ctes body orderBy limit offset => do
    let env := { env with ctes := ctes.reverse ++ env.ctes }
    let k ← runBody fuel env body orderBy false
    let rows := if orderBy.isEmpty || env.probe then k.rows else sortKeyed k.keys k.rows
    let lim ← limitValue fuel env limit
    let off ← limitValue fuel env offset
    let rows := rows.map (·.1)
    pure { columns := k.columns, rows := if env.probe then rows else applyLimit lim off rows }

def limitValue : Nat → Env → Option Expr → Except SqlFault (Option Int)
  | 0, _, _ => .error .tooDeep
  | fuel + 1, env, e =>
    match e with
    | none => pure none
    | some x => do
      let v ← eval fuel { env with frame := [], aliases := [], group := none } x
      if env.probe then pure none
      else do
        let i ← limitInt v
        pure (some i)

/-- The rows of selects combined by set operators; ORDER BY terms of a compound name its result
columns. Under an order, each step merges its two sides sorted by the order's terms, followed,
when the step or one above it drops repeats (all but UNION ALL), by every other column in turn
(`spread`). -/
def runBody : Nat → Env → Compound → List OrderTerm → Bool → Except SqlFault Keyed
  | 0, _, _, _, _ => .error .tooDeep
  | fuel + 1, env, body, orderBy, spread =>
    match body with
    | .single core => runCore fuel env core orderBy
    | .op kind left right => do
      let spread := spread || kind != .unionAll
      let l ← match left with
        | .single core => runCore fuel env core []
        | _ => runBody fuel env left orderBy spread
      let r ← runCore fuel env right []
      if l.columns.length != r.columns.length then throw (.selectColumnCount kind.words)
      let names := l.columns.map (·.name)
      -- a column whose first select gives it text or numeric affinity loses it when a later
      -- select may give numbers or text there, respectively
      let columns := (l.columns.zip (List.range l.columns.length)).map fun (c, i) =>
        let other := r.columns.getD i default
        let k := other.kinds
        let c := { c with setCollation := c.setCollation <|> other.setCollation }
        if (c.affinity == .text && k &&& 1 != 0) || (c.affinity.numericLike && k &&& 2 != 0) then
          { c with affinity := .blob }
        else c
      let colls := columns.map (·.setCollation.getD .binary)
      let picks ← ((List.range orderBy.length).zip orderBy).mapM fun (i, t) =>
        match t with
        | .mk e desc nullsFirst => do
          match ← termColumn "ORDER" i names e with
          | some c => do
            let coll ← match (stripCollate e).2 with
              | some n => collationNamed n
              | none => pure (colls.getD c .binary)
            pure (c, ({ descending := desc, nullsFirst := nullsFirst, collation := coll } : SortKey))
          | none => throw (.otherMessage (ordinal (i + 1) ++
              " ORDER BY term does not match any column in the result set"))
      let leftRows := l.rows.map (·.1)
      let rightRows := r.rows.map (·.1)
      let rows :=
        if env.probe then leftRows
        else if orderBy.isEmpty then combineRows kind colls leftRows rightRows
        else
          let rest := (List.range names.length).filter fun c => !picks.any (·.1 == c)
          let key := picks ++ if spread then rest.map fun c => (c, { collation := colls.getD c .binary }) else []
          let project (row : List SqlValue) : List SqlValue := key.map fun (c, _) => row.getD c .null
          let cmp (a b : List SqlValue) : Ordering := compareKeys (key.map (·.2)) (project a) (project b)
          let sorted (rows : List (List SqlValue)) := rows.mergeSort fun a b => cmp a b != .gt
          let merged := mergeRuns kind cmp (sorted leftRows) (sorted rightRows)
          if kind == .unionAll then merged else dropRepeats colls merged
      pure { columns := columns, keys := picks.map (·.2),
             rows := rows.map fun row => (row, picks.map fun (c, _) => row.getD c .null) }

/-- The rows of one select or VALUES list, with the keys of the ORDER BY terms. -/
def runCore : Nat → Env → Core → List OrderTerm → Except SqlFault Keyed
  | 0, _, _, _ => .error .tooDeep
  | fuel + 1, env, core, orderBy =>
    match core with
    | .values rows => do
      let width := (rows.headD []).length
      if rows.any (·.length != width) then throw .rowSizes
      let kinds ← (List.range width).mapM fun i =>
        rows.foldlM (fun k r => do
          pure (k ||| (← dataKinds fuel { env with frame := [], aliases := [] } (r.getD i .null)))) 0
      let columns : List ColumnInfo :=
        (List.range width).map fun i => { name := "column" ++ toString (i + 1), kinds := kinds.getD i 7 }
      let scope : Scope := { name := "", columns := columns }
      let items := (List.range width).map fun i => Item.slot 0 i (columns.getD i default)
      let vals ← rows.mapM fun r => r.mapM (eval fuel { env with frame := [], aliases := [] })
      let keys ← sortKeys fuel { env with frame := nullFrame [scope] } items orderBy
      let keyed ← vals.mapM fun row => do
        let ks ← orderKeys fuel { env with frame := [{ scope := scope, values := row }] } items row orderBy
        pure (row, ks)
      pure { columns := columns, keys := keys, rows := keyed }
    | .select distinct cols source filter groupBy having windows => do
      let (scopes, frames) ← match source with
        | none => pure ([], [[]])
        | some r => relationFrames fuel { env with frame := [], aliases := [], group := none } r
      let items ← expandColumns scopes cols
      let aliases := items.filterMap fun
        | .expr e n => some (n, e)
        | .slot _ _ _ => none
      let blank : Env := { env with frame := nullFrame scopes, aliases := [] }
      let columns ← items.mapM fun
        | .slot _ _ info =>
          pure { info with kinds := if info.affinity.numericLike then 5 else if info.affinity == .text then 6 else 7,
                           setCollation := some info.collation }
        | .expr e n => do
          let aff ← affinityOf fuel blank e
          let (coll, _) ← collationOf fuel blank e
          let kinds ← dataKinds fuel blank e
          pure ({ name := n, affinity := aff, collation := coll.getD .binary, kinds,
                  setCollation := coll } : ColumnInfo)
      let itemExprs := items.filterMap fun
        | .expr e _ => some e
        | .slot _ _ _ => none
      let orderExprs := orderBy.map fun | .mk e _ _ => e
      -- a select that reads only columns an index holds walks the index
      let plain := orderBy.isEmpty && groupBy.isEmpty && (itemExprs.flatMap (windowCalls 10000)).isEmpty
      let frames := if env.probe then frames else
        match walkedIndex? env source items filter having plain with
        | some (t, idx) =>
          let entry (f : Frame) : Int × List SqlValue :=
            match f with
            | b :: _ => (b.rowid, b.values)
            | [] => (0, [])
          frames.mergeSort fun f g => t.indexLe idx (entry f) (entry g)
        | none => frames
      let grouped := !groupBy.isEmpty || itemExprs.any (hasAggregate 10000)
      let aggregate := grouped || (having.toList ++ orderExprs).any (hasAggregate 10000)
      if env.probe then do
        -- names are checked in the order of the result columns, HAVING and WHERE
        let f := nullFrame scopes
        let genv : Env := { env with frame := f, group := if aggregate then some [f] else none, aliases := aliases }
        let _ ← items.mapM (evalItem fuel { genv with aliases := [], windowed := some [] })
        if having.isSome && !grouped then throw (.otherMessage "HAVING clause on a non-aggregate query")
        let _ ← having.mapM (eval fuel genv)
      let frames ← if env.probe then do
          if let some w := filter then
            let _ ← frames.mapM fun f => eval fuel { env with frame := f, aliases := aliases } w
          pure frames
        else do
          -- the terms that do not depend on the row (those of the inner joins' ON conditions
          -- too) are tested first, once, even over no rows; each row is then tested by the other
          -- terms, in order, up to the first that fails
          let fixedTerm := (!dependsOnRow scopes aliases 10000 ·)
          let (fixed, varying) := (filter.toList.flatMap (andTerms 10000)).partition fixedTerm
          let onFixed := ((source.toList.flatMap (innerConditions 10000)).flatMap (andTerms 10000)).filter fixedTerm
          let holds (f : Frame) (terms : List Expr) : Except SqlFault Bool :=
            terms.foldlM (fun ok t => if !ok then pure false else do
              pure !(← failsTest fuel { env with frame := f, aliases := aliases } true t)) true
          if ← holds (nullFrame scopes) (fixed ++ onFixed) then frames.filterM (holds · varying)
          else pure []
      let keys ← sortKeys fuel { blank with aliases := aliases } items orderBy
      let rows ← if aggregate then do
          let groups ← groupsOf fuel { env with aliases := aliases } items frames groupBy
          let groups := if groupBy.isEmpty then [frames] else groups
          let extreme := soleExtreme 10000 (itemExprs ++ having.toList ++ orderExprs)
          let out ← groups.mapM fun g => do
            let rep ← representative fuel env scopes extreme g
            let genv : Env := { env with frame := rep, group := some g, aliases := aliases }
            let keep ← match having with
              | none => pure true
              | some h => do
                let rejected ← failsTest fuel genv true h
                pure (env.probe || !rejected)
            pure (if keep then [genv] else [])
          pure out.flatten
        else do
          if having.isSome then throw (.otherMessage "HAVING clause on a non-aggregate query")
          pure (frames.map fun f => ({ env with frame := f, aliases := aliases } : Env))
      -- window functions: computed over all the rows, which then come in the first window's order
      let calls := (itemExprs ++ orderExprs).flatMap (windowCalls 10000)
      let rows ← if calls.isEmpty then pure rows else do
        let (vals, order) ← windowValues fuel env windows calls rows
        let contexts := rows.toArray
        let vals := vals.toArray
        pure (order.map fun i => { contexts.getD i default with windowed := some (vals.getD i []) })
      let rows ← rows.mapM fun c => do
        let row ← items.mapM (evalItem fuel { c with aliases := [] })
        let ks ← orderKeys fuel c items row orderBy
        pure (row, ks)
      let rows := if distinct then distinctRows (columns.map (·.collation)) rows else rows
      pure { columns := columns, keys := keys, rows := rows }

/-- The values of the window calls of a select at each of its rows (by the offset of each call),
and the order the rows come in: that of the first call's window. Calls over alike windows are
computed together; the groups are computed last first, each sorting (stably) the rows in the order
the one after it left them. -/
def windowValues : Nat → Env → List (String × Window) → List Expr → List Env →
    Except SqlFault (List (List (Nat × SqlValue)) × List Nat)
  | 0, _, _, _, _ => .error .tooDeep
  | fuel + 1, env, defs, calls, contexts => do
    let defs ← resolveDefinitions defs
    let blank : Env := { env with frame := (contexts.headD env).frame, aliases := [], windowed := none }
    let prepared ← calls.filterMapM fun e => do
      match e with
      | .windowed (.call name args _ star off) filter (some w) => do
        let lname := name.map foldAscii
        let w ← resolveWindow defs w
        let .mk _ _ partition orderBy frame _ := w
        if filter.isSome && (windowArity lname).isSome then
          throw (.otherMessage "FILTER clause may only be used with aggregate window functions")
        let offsets := match frame with
          | some (.mk .range s f _) =>
            (match s with | .preceding _ | .following _ => true | _ => false) ||
              (match f with | .preceding _ | .following _ => true | _ => false)
          | _ => false
        if offsets && orderBy.length != 1 && !placeFunction lname then
          throw (.otherMessage "RANGE with offset PRECEDING/FOLLOWING requires one ORDER BY expression")
        let colls ← partition.mapM fun p => do
          let (c, _) ← collationOf fuel blank p
          pure (c.getD .binary)
        let keys ← orderBy.mapM fun
          | .mk x desc nullsFirst => do
            let coll ← match (stripCollate x).2 with
              | some n => collationNamed n
              | none => do
                let (c, _) ← collationOf fuel blank x
                pure (c.getD .binary)
            pure ({ descending := desc, nullsFirst := nullsFirst, collation := coll } : SortKey)
        let (unit, start, finish, exclude) ← match frame with
          | none => pure (FrameUnit.range, FrameEdge.unboundedPreceding, FrameEdge.currentRow,
              FrameExclude.noOthers)
          | some (.mk unit s f x) => do
            let s ← frameEdge fuel env s
            let f ← frameEdge fuel env f
            pure (unit, s, f, x)
        let call : WindowCall :=
          { name := lname, star, partition := colls, order := keys, unit, start, finish, exclude }
        let rows ← windowRows fuel contexts partition orderBy args filter
        pure (some (windowIdentity lname w, off, call, rows))
      | _ => pure none
    let everyRow := List.range contexts.length
    if env.probe then return (contexts.map fun _ => [], everyRow)
    let identities := prepared.foldl (fun acc (i, _) => if acc.contains i then acc else acc ++ [i]) []
    let (vals, order) ← identities.reverse.foldlM (fun (vals, sequence) identity => do
        let members := prepared.filter (·.1 == identity)
        let results ← members.mapM fun (_, off, call, rows) => do
          let (vs, sorted) ← call.values rows sequence
          pure (vs.map (fun (i, v) => (i, off, v)), sorted)
        let vals := results.foldl (fun vals (vs, _) =>
          vs.foldl (fun vals (i, off, v) => vals.modify i ((off, v) :: ·)) vals) vals
        pure (vals, (results.head?.map (·.2)).getD sequence))
      (Array.replicate contexts.length ([] : List (Nat × SqlValue)), everyRow)
    pure (vals.toList, order)

/-- A bound of a frame with its offset evaluated; an offset that is not constant is null. -/
def frameEdge : Nat → Env → FrameBound → Except SqlFault FrameEdge
  | 0, _, _ => .error .tooDeep
  | fuel + 1, env, b =>
    let offset (e : Expr) : Except SqlFault SqlValue :=
      if constantOffset 10000 e then
        eval fuel { env with frame := [], outer := [], group := none, aliases := [], windowed := none } e
      else pure .null
    match b with
    | .unboundedPreceding => pure .unboundedPreceding
    | .preceding e => do pure (.preceding (← offset e))
    | .currentRow => pure .currentRow
    | .following e => do pure (.following (← offset e))
    | .unboundedFollowing => pure .unboundedFollowing

/-- What each row brings to a window call, evaluated where the row's result columns are but
without window values (a window call may not stand inside another). -/
def windowRows : Nat → List Env → List Expr → List OrderTerm → List Expr → Option Expr →
    Except SqlFault (Array WindowRow)
  | 0, _, _, _, _, _ => .error .tooDeep
  | fuel + 1, contexts, partition, orderBy, args, filter => do
    let rows ← contexts.mapM fun c => do
      let c := { c with aliases := [], windowed := none }
      let p ← partition.mapM (eval fuel c)
      let o ← orderBy.mapM fun | .mk e _ _ => eval fuel c e
      let a ← args.mapM (evalTagged fuel c)
      let counted ← match filter with
        | none => pure true
        | some f => do pure !(← failsTest fuel c true f)
      pure ({ partition := p, order := o, args := a, counted } : WindowRow)
    pure rows.toArray

def evalItem : Nat → Env → Item → Except SqlFault SqlValue
  | 0, _, _ => .error .tooDeep
  | fuel + 1, env, item =>
    match item with
    | .slot s c _ => pure (((env.frame.getD s default).values).getD c .null)
    | .expr e _ => eval fuel env e

/-- The sort keys of ORDER BY terms: direction, null placement and collation. -/
def sortKeys : Nat → Env → List Item → List OrderTerm → Except SqlFault (List SortKey)
  | 0, _, _, _ => .error .tooDeep
  | fuel + 1, env, items, orderBy =>
    ((List.range orderBy.length).zip orderBy).mapM fun (i, t) =>
      match t with
      | .mk e desc nullsFirst => do
        let coll ← match (stripCollate e).2 with
          | some n => collationNamed n
          | none => do
            match ← termColumn "ORDER" i (items.map (·.name)) e with
            | some c =>
              match items.getD c default with
              | .slot _ _ info => pure info.collation
              | .expr x _ => do
                let (coll, _) ← collationOf fuel env x
                pure (coll.getD .binary)
            | none => do
              let (coll, _) ← collationOf fuel env e
              pure (coll.getD .binary)
        pure ({ descending := desc, nullsFirst := nullsFirst, collation := coll } : SortKey)

def orderKeys : Nat → Env → List Item → List SqlValue → List OrderTerm → Except SqlFault (List SqlValue)
  | 0, _, _, _, _ => .error .tooDeep
  | fuel + 1, env, items, row, orderBy =>
    ((List.range orderBy.length).zip orderBy).mapM fun (i, t) =>
      match t with
      | .mk e _ _ => do
        match ← termColumn "ORDER" i (items.map (·.name)) e with
        | some c => pure (row.getD c .null)
        | none => eval fuel env e

def groupsOf : Nat → Env → List Item → List Frame → List Expr → Except SqlFault (List (List Frame))
  | 0, _, _, _, _ => .error .tooDeep
  | fuel + 1, env, items, frames, groupBy =>
    if groupBy.isEmpty then pure [frames]
    else do
      let terms := (List.range groupBy.length).zip groupBy
      let keyed ← frames.mapM fun f => do
        let ks ← terms.mapM fun (i, g) => do
          match ← termColumn "GROUP" i (items.map (·.name)) g with
          | some c => evalItem fuel { env with frame := f } (items.getD c default)
          | none => eval fuel { env with frame := f } g
        pure (ks, f)
      let colls ← groupBy.mapM fun g => do
        let (c, _) ← collationOf fuel { env with frame := frames.headD [] } g
        pure (c.getD .binary)
      pure (if env.probe then [frames] else groupFrames colls keyed)

/-- The frame the bare columns of a group show: the row the sole `min` or `max` picked, else the
last row, else (no rows) a row of nulls. -/
def representative : Nat → Env → List Scope → List (String × Expr) → List Frame → Except SqlFault Frame
  | 0, _, _, _, _ => .error .tooDeep
  | fuel + 1, env, scopes, extreme, group =>
    match group.getLast? with
    | none => pure (nullFrame scopes)
    | some last =>
      match extreme with
      | [(m, arg)] =>
        if m == "min" || m == "max" then do
          let vals ← group.mapM fun f => do
            let v ← eval fuel { env with frame := f, group := none } arg
            pure (v, f)
          let pick := vals.foldl (fun (best : Option (SqlValue × Frame)) (v, f) =>
            if v.isNull then best
            else match best with
              | none => some (v, f)
              | some (b, bf) =>
                let o := v.compareWith .binary b
                if (m == "max" && o == .gt) || (m == "min" && o == .lt) then some (v, f) else some (b, bf)) none
          pure ((pick.map (·.2)).getD last)
        else pure last
      | _ => pure last

/-- The table and index a select walks in place of the table's rows, when it reads one table with
no order, groups or windows of its own, only through columns some index holds
(`Table.coveringIndex?`), and its filter names no column by which rows might be looked up
instead. -/
def walkedIndex? (env : Env) (source : Option Relation) (items : List Item) (filter having : Option Expr)
    (plain : Bool) : Option (Table × Index) := do
  let some (.table none name label _) := source | none
  if !plain || env.working.any (sameName ·.1 name) || (findCte name env.ctes).isSome then none
  let t ← env.contents.table? name
  if !t.hasRowid || t.virtual.isSome || t.columns.any (·.generated.isSome) then none
  let label := label.getD name
  let mine (q : Option String) : Bool := q.all (sameName · label)
  let columnsOf (n : String) : Option (List String) :=
    (env.contents.table? n).map fun u => u.columns.map (·.name)
  let refs (e : Expr) : List Nat := (e.deepRefs columnsOf 10000).filterMap fun (q, n) =>
    if mine q then t.columnIndex? n else none
  let used := items.flatMap (fun | .slot _ i _ => [i] | .expr e _ => refs e) ++
    (filter.toList ++ having.toList).flatMap refs
  let indexes := env.contents.indexesOf t.name
  let idx ← t.coveringIndex? indexes used
  let named := (filter.toList.flatMap (Expr.columnRefs 10000)).filter (mine ·.1)
  let lookup := named.any fun (_, n) =>
    t.isRowidName n || (t.columnIndex? n).any fun i =>
      t.rowidColumn == some i || indexes.any fun x => x.name != idx.name && x.columns.head? == some i
  let irregular := indexes.any fun x => x.expressions.isSome || x.filter.isSome
  if lookup || (irregular && !named.isEmpty) then none
  pure (t, idx)

def relationFrames : Nat → Env → Relation → Except SqlFault (List Scope × List Frame)
  | 0, _, _ => .error .tooDeep
  | fuel + 1, env, rel =>
    match rel with
    | .table schema name label _ => do
      let (columns, hasRowid, rows) ← match schema with
        | none => namedSource fuel env name
        | some s => schemaSource fuel env s name
      let scope : Scope := { name := label.getD name, columns := columns, hasRowid := hasRowid,
                             schema := sourceSchema env schema name }
      if env.probe then pure ([scope], [nullFrame [scope]])
      else pure ([scope], rows.map fun (rid, vs) => [{ scope := scope, values := vs, rowid := rid }])
    | .query q label => do
      let rows := (← runQuery fuel env q).uniquelyNamed
      let scope : Scope := { name := label.getD "", columns := rows.columns }
      if env.probe then pure ([scope], [nullFrame [scope]])
      else pure ([scope], rows.rows.map fun vs => [{ scope := scope, values := vs }])
    | .call name args label _ => do
      let tree ← tableFunction env name
      let scope := eachScope name label
      let vals ← args.mapM (evalTagged fuel env)
      if env.probe then pure ([scope], [nullFrame [scope]])
      else do
        -- the arguments are counted once names are resolved
        callArity tree args.length
        let rows ← Json.eachRows tree vals
        pure ([scope], rows.map fun (rid, vs) => [{ scope := scope, values := vs, rowid := rid }])
    | .join kind natural left right on usingCols => do
      let (ls, lf) ← relationFrames fuel env left
      -- a function on the right is called again for each row on the left, whose columns its
      -- arguments may name
      let (rs, rf) ← match right with
        | .call name args label _ => do
          if !env.probe then callArity (← tableFunction env name) args.length
          -- what a right or full join may keep unmatched: the rows the function gives with the
          -- columns on the left null
          if (kind == .right || kind == .full) && !env.probe then do
            let (_, fs) ← relationFrames fuel { env with frame := nullFrame ls } right
            pure ([eachScope name label], fs)
          else pure ([eachScope name label], [])
        | _ => relationFrames fuel env right
      let shared ← if natural then
          if on.isSome || !usingCols.isEmpty then
            throw (.otherMessage "a NATURAL join may not have an ON or USING clause")
          else pure (sharedColumns ls rs)
        else pure usingCols
      let pairs ← shared.mapM fun col =>
        match columnPlace ls col, columnPlace rs col with
        | some l, some (i, r) => pure (l, (ls.length + i, r))
        | _, _ => throw (.otherMessage ("cannot join using column " ++ col ++
            " - column not present in both tables"))
      let ls := if kind == .right || kind == .full then ls.map fun s => { s with beforeRight := true }
        else ls
      let rs := rs.map fun s => { s with usingCols := shared, joinKind := kind }
      let lf := lf.map (retag ls)
      let rf := rf.map (retag rs)
      let found ← lf.mapM fun l => do
        let here ← match right with
          | .call _ _ _ _ => do
            let (_, fs) ← relationFrames fuel { env with frame := l } right
            pure (fs.map (retag rs))
          | _ => pure rf
        let hits ← (List.range here.length).filterM fun k =>
          joinHolds fuel env (l ++ here.getD k []) on pairs
        pure (l, here, hits)
      let kept := found.flatMap fun (l, here, hits) =>
        if (kind == .left || kind == .full) && hits.isEmpty then [l ++ nullFrame rs]
        else hits.map fun k => l ++ here.getD k []
      let matched := found.flatMap (·.2.2)
      let unmatched := if kind == .right || kind == .full then
          ((List.range rf.length).filter fun k => !matched.contains k).map fun k =>
            nullFrame ls ++ rf.getD k []
        else []
      pure (ls ++ rs, kept ++ unmatched)

/-- Whether a joined frame meets the join's ON condition and its columns matched by name (each
the position of the left column and of the right one in the frame). -/
def joinHolds : Nat → Env → Frame → Option Expr → List ((Nat × ColumnInfo) × (Nat × ColumnInfo)) →
    Except SqlFault Bool
  | 0, _, _, _, _ => .error .tooDeep
  | fuel + 1, env, frame, on, pairs => do
    let onHolds ← match on with
      | none => pure true
      | some c => do pure !(← failsTest fuel { env with frame := frame } true c)
    let sameHolds := pairs.all fun ((i, cl), (j, cr)) =>
      let x := (frame.getD i default).column? cl.name |>.map (·.1) |>.getD .null
      let y := (frame.getD j default).column? cr.name |>.map (·.1) |>.getD .null
      let (x, y) := convertPair (comparisonAffinity cl.affinity cr.affinity) x y
      (compareValues .eq cl.collation x y).truth == some true
    pure (env.probe || (onHolds && sameHolds))

/-- The columns, row-id flag and rows of a named source: a recursive table being built, a common
table, a table, or a view. -/
def namedSource : Nat → Env → String → Except SqlFault (List ColumnInfo × Bool × List (Int × List SqlValue))
  | 0, _, _ => .error .tooDeep
  | fuel + 1, env, name =>
    match env.working.find? (sameName ·.1 name) with
    | some (_, rows) => pure (rows.columns, false, rows.rows.map fun r => (0, r))
    | none =>
      match findCte name env.ctes with
      | some (cte, rest) => do
        let rows ← cteRows fuel { env with ctes := rest } cte
        pure (rows.columns, false, rows.rows.map fun r => (0, r))
      | none =>
        match env.contents.table? name with
        | some t => pure (t.columnInfos, t.hasRowid, t.rows)
        | none =>
          match env.contents.view? name with
          | some v => do
            let rows ← runQuery fuel { contents := env.contents, probe := env.probe, clock := env.clock } v.q
            let rows ← renameColumns v.name v.columns rows
            pure (rows.columns, false, rows.rows.map fun r => (0, r))
          | none =>
            -- named without arguments, a table-valued function reads a null document
            if sameName name "json_each" || sameName name "json_tree" then
              pure ((eachScope name none).columns, true, [])
            -- in a trigger, names are taken in the main schema
            else throw (.noSuchTable (if env.inTrigger then "main." ++ name else name))

/-- The columns, row-id flag and rows of a table named with its schema (or a view of the main
schema). -/
def schemaSource : Nat → Env → String → String →
    Except SqlFault (List ColumnInfo × Bool × List (Int × List SqlValue))
  | 0, _, _, _ => .error .tooDeep
  | fuel + 1, env, schema, name =>
    match schemaTemporary? schema with
    | none => throw (.noSuchTable (schema ++ "." ++ name))
    | some temporary =>
      match env.contents.tableIn? temporary name with
      | some t => pure (t.columnInfos, t.hasRowid, t.rows)
      | none =>
        match env.contents.view? name with
        | some v =>
          if temporary then throw (.noSuchTable (schema ++ "." ++ name)) else do
          let rows ← runQuery fuel { contents := env.contents, probe := env.probe, clock := env.clock } v.q
          let rows ← renameColumns v.name v.columns rows
          pure (rows.columns, false, rows.rows.map fun r => (0, r))
        | none => throw (.noSuchTable (schema ++ "." ++ name))

/-- The rows of a common table; one whose last select of a union reads the table itself is built
by recursion. -/
def cteRows : Nat → Env → Cte → Except SqlFault Rows
  | 0, _, _ => .error .tooDeep
  | fuel + 1, env, .mk name columns _ q =>
    match q with
    | .mk ctes (.op kind left right) orderBy limit offset =>
      if (kind == .union || kind == .unionAll) &&
          mentionsTable name 10000 (.mk [] (.single right) [] none none) then do
        let env := { env with ctes := ctes.reverse ++ env.ctes }
        let init ← runBody fuel env left [] false
        let start ← renameColumns name columns { columns := init.columns, rows := init.rows.map (·.1) }
        let r0 := if kind == .union then (distinctRows [] (start.rows.map fun r => (r, ()))).map (·.1) else start.rows
        let lim ← limitValue fuel env limit
        let off ← limitValue fuel env offset
        if env.probe then do
          -- a probe visits the recursive select once, over the initial rows
          let _ ← runCore fuel { env with working := (name, start) :: env.working } right []
          pure start
        else do
          let out ← recursiveRows fuel env name start.columns kind right orderBy r0 r0 [] lim (off.getD 0)
          pure { columns := start.columns, rows := out }
      else do
        let rows ← runQuery fuel env q
        renameColumns name columns rows
    | _ => do
      let rows ← runQuery fuel env q
      renameColumns name columns rows

/-- Builds a recursive table: takes the next row of the queue (the least by the ORDER BY terms,
else the oldest), emits it (after the offset is used up), and queues the rows the recursive select
makes from it alone; a union queues only rows never queued before. Stops when the queue is empty
or the limit is reached. -/
def recursiveRows : Nat → Env → String → List ColumnInfo → SetOp → Core → List OrderTerm →
    List (List SqlValue) → List (List SqlValue) → List (List SqlValue) → Option Int → Int →
    Except SqlFault (List (List SqlValue))
  | 0, _, _, _, _, _, _, _, _, out, _, _ => pure out.reverse
  | fuel + 1, env, name, columns, kind, step, orderBy, queue, seen, out, lim, off =>
    if lim == some 0 || queue.isEmpty then pure out.reverse
    else do
      let scope : Scope := { name := name, columns := columns }
      let (row, rest) ← if orderBy.isEmpty then pure (queue.headD [], queue.drop 1)
        else do
          let items := (List.range columns.length).map fun i => Item.slot 0 i (columns.getD i default)
          let keys ← sortKeys fuel { env with frame := nullFrame [scope] } items orderBy
          let keyed ← queue.mapM fun r => do
            let ks ← orderKeys fuel { env with frame := [{ scope := scope, values := r }] } items r orderBy
            pure (r, ks)
          let sorted := sortKeyed keys keyed
          let first := (sorted.headD ([], [])).1
          let idx := (queue.findIdx? (sameRow [] · first)).getD 0
          pure (first, queue.eraseIdx idx)
      let (out, lim, off) :=
        if off > 0 then (out, lim, off - 1) else (row :: out, lim.map (· - 1), off)
      let made ← runCore fuel { env with working := (name, { columns := columns, rows := [row] }) :: env.working } step []
      let made := made.rows.map (·.1)
      let (made, seen) :=
        if kind == .union then
          let fresh := made.foldl (fun acc r =>
            if (seen ++ acc).any (sameRow [] r) then acc else acc ++ [r]) []
          (fresh, seen ++ fresh)
        else (made, seen)
      recursiveRows fuel env name columns kind step orderBy (rest ++ made) seen out lim off

end

/-- The fuel a statement's evaluation is given: far more than any nesting of expressions and
queries or any recursion of a common table needs. -/
def evalFuel : Nat := 1000000

end GraphIngest.Sql
