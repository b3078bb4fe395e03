import GraphIngest.Sql.Function
import GraphIngest.Sql.Schema

/-!
# Rows, frames and the evaluation environment

A query produces `Rows`: named columns and value lists. While a select runs, each row of its FROM
clause is a `Frame`: for every source in scope, the source's columns with this row's values and
row id. A column name is looked up in the current frame, then in the frames of the enclosing
queries, innermost first. The environment carries what an expression may read besides its frame.

In a *probe* run the evaluator visits every expression once, over one row of nulls per source and
without short cuts, so that faults of names and calls come out even when a table is empty.
-/

namespace GraphIngest.Sql

/-- A column of a query result. A hidden column is found by its name but left out of `*` and of
the columns a natural join matches. -/
structure ColumnInfo where
  name : String
  affinity : Affinity := .none
  collation : Collation := .binary
  hidden : Bool := false
  /-- The kinds of value the column's expression may give, as a mask: 1 numbers, 2 text, 4
  blobs. -/
  kinds : Nat := 7
  /-- The collation set operators compare the column by: that of the first select whose
  expression there gives one (a column, or an explicit `COLLATE`). -/
  setCollation : Option Collation := none
  deriving Inhabited

/-- The result of a query: its columns and rows. -/
structure Rows where
  columns : List ColumnInfo := []
  rows : List (List SqlValue) := []
  deriving Inhabited

/-- A column name without a count `:N` at its end (the digits stop short of the first
character; a bare `:` ending goes too). -/
def uncounted (name : String) : String :=
  let cs := name.toList
  let digits := min (cs.reverse.takeWhile Char.isDigit).length (cs.length - 1)
  let kept := cs.take (cs.length - digits)
  if kept.getLast? == some ':' then String.ofList kept.dropLast else name

/-- The first of `base:k`, `base:(k+1)`, … that no taken name is (without regard to case). -/
def countedName (taken : List String) (base : String) : Nat → Nat → String
  | 0, k => base ++ ":" ++ toString k
  | fuel + 1, k =>
    let candidate := base ++ ":" ++ toString k
    if taken.any (sameName · candidate) then countedName taken base fuel (k + 1) else candidate

/-- The names of the columns of a table made from a query: `true` and `false` become `columnN`
(N counting from 1), and a name already taken (without regard to case) is counted, `:1`, `:2`, …
taking the place of any count it ended in, up to the first that is free. -/
def uniqueNames (names : List String) : List String :=
  let (taken, _) := names.foldl (fun (taken, i) n =>
    let n := if sameName n "true" || sameName n "false" then "column" ++ toString (i + 1) else n
    let n := if taken.any (sameName · n) then countedName taken (uncounted n) taken.length 1 else n
    (taken ++ [n], i + 1)) (([] : List String), 0)
  taken

/-- Rows with their columns renamed as a table made from them names them. -/
def Rows.uniquelyNamed (r : Rows) : Rows :=
  let names := uniqueNames (r.columns.map (·.name))
  { r with columns := (r.columns.zip names).map fun (c, n) => { c with name := n } }

/-- A source of a FROM clause as names see it: the name that qualifies its columns, the columns,
and whether it has row ids. -/
structure Scope where
  name : String
  columns : List ColumnInfo
  hasRowid : Bool := false
  /-- Whether only names qualified by the scope's name find its columns. -/
  qualifiedOnly : Bool := false
  /-- The columns the join that brought the source in matches by name (`USING`, or those a
  natural join shares with the sources before), and the kind of that join. -/
  usingCols : List String := []
  joinKind : JoinKind := .inner
  /-- Whether a right or full join comes after the source. -/
  beforeRight : Bool := false
  /-- The schema of a table, view or table-valued function; none for a subquery or a common
  table. -/
  schema : Option String := none
  deriving Inhabited

/-- A source with the values of one row. -/
structure Bound where
  scope : Scope
  values : List SqlValue
  rowid : Int := 0
  deriving Inhabited

/-- One row of a FROM clause: a bound row per source, in FROM order. -/
abbrev Frame := List Bound

def Table.columnInfos (t : Table) : List ColumnInfo :=
  t.columns.map fun c => { name := c.name, affinity := c.affinity, collation := c.collation }

def nullFrame (scopes : List Scope) : Frame :=
  scopes.map fun s => { scope := s, values := s.columns.map fun _ => .null }

def isRowidWord (name : String) : Bool :=
  sameName name "rowid" || sameName name "oid" || sameName name "_rowid_"

/-- The first column of a name in a bound source, with its value. -/
def Bound.column? (b : Bound) (name : String) : Option (SqlValue × ColumnInfo) :=
  ((b.scope.columns.zip b.values).find? (sameName ·.1.name name)).map fun (c, v) => (v, c)

/-- The values a column reference finds in one frame, with their columns: the column of that
name in each source the qualifier allows, else the row id when exactly one source is allowed and
it has row ids. An unqualified name of a column a join matches by name finds it once: in the
leftmost source for an inner or left join, in the rightmost for a right join, and as the first of
them that is not null for a full join. -/
def frameLookup (f : Frame) (table : Option String) (name : String) : List (SqlValue × ColumnInfo) :=
  let allowed := f.filter fun b => match table with
    | some t => sameName b.scope.name t
    | none => !b.scope.qualifiedOnly
  let direct := allowed.foldl (fun acc b =>
    match b.column? name with
    | none => acc
    | some (v, c) =>
      if table.isSome || acc.isEmpty || !b.scope.usingCols.any (sameName · name) then acc ++ [(v, c)]
      else match b.scope.joinKind with
        | .right => [(v, c)]
        | .full =>
          let first := ((acc.map (·.1) ++ [v]).find? (!·.isNull)).getD .null
          [(first, { c with affinity := .none, collation := .binary })]
        | _ => acc) []
  if !direct.isEmpty then direct
  else if isRowidWord name then
    match allowed with
    | [b] => if b.scope.hasRowid then [(.int b.rowid, { name := name, affinity := .integer })] else []
    | _ => []
  else []

/-- The part of a table's or an index's definition an expression stands in, which limits what
it may hold: no subqueries or parameters in any; in generated columns and index expressions
no qualified names, no row id, and no functions whose value may change between calls (nor in
a partial index's condition). -/
inductive Definition where
  | check
  | generated
  | indexed
  | partialIndex
  deriving DecidableEq, Inhabited

/-- How a fault names the kind of definition, in the plural. -/
def Definition.plural : Definition → String
  | .check => "CHECK constraints"
  | .generated => "generated columns"
  | .indexed => "index expressions"
  | .partialIndex => "partial index WHERE clauses"

/-- How the fault of a date function reading the clock names the kind of definition. -/
def Definition.single : Definition → String
  | .check => "a CHECK constraint"
  | .generated => "a generated column"
  | .indexed | .partialIndex => "an index"

/-- What the evaluator reads besides the expression. -/
structure Env where
  contents : Contents
  /-- Common tables in scope, the innermost first. -/
  ctes : List Cte := []
  /-- The rows of recursive tables being built. -/
  working : List (String × Rows) := []
  frame : Frame := []
  /-- The frames of the enclosing queries, innermost first. -/
  outer : List Frame := []
  /-- Result-column aliases a clause may use. -/
  aliases : List (String × Expr) := []
  /-- The frames of the current group, in an aggregate query. -/
  group : Option (List Frame) := none
  probe : Bool := false
  /-- The values bound to numbered parameters, from `?1`. -/
  params : List SqlValue := []
  lastRowid : Int := 0
  changes : Int := 0
  totalChanges : Int := 0
  /-- Whether `LIKE` tells ASCII capitals from small letters. -/
  caseSensitiveLike : Bool := false
  /-- Whether the expression belongs to the body of a trigger (where `RAISE` may stand). -/
  inTrigger : Bool := false
  /-- The values of the window functions at the current row, by the offset of each call; none
  where window functions may not stand. -/
  windowed : Option (List (Nat × SqlValue)) := none
  /-- The connection's clock, in milliseconds on the Julian day count. -/
  clock : Int := 210866760000000
  /-- The definition the expression stands in, if any. -/
  definition : Option Definition := none
  deriving Inhabited

/-- The environment of a subquery: the current frame becomes the innermost enclosing one. -/
def Env.enter (env : Env) : Env :=
  { env with outer := env.frame :: env.outer, frame := [], aliases := [], group := none,
             windowed := none }

/-- What a column name stands for. -/
inductive Found where
  | value (v : SqlValue) (info : ColumnInfo)
  | alias (e : Expr)
  | missing
  deriving Inhabited

def qualifiedName (table : Option String) (name : String) : String :=
  match table with
  | some t => t ++ "." ++ name
  | none => name

/-- Looks a column name up level by level: the sources, then (unqualified) the aliases. -/
def findAt (table : Option String) (name : String) (offset : Nat) :
    List (Frame × List (String × Expr)) → Except SqlFault Found
  | [] => .ok .missing
  | (frame, aliases) :: rest =>
    match frameLookup frame table name with
    | [(v, info)] => .ok (.value v info)
    | _ :: _ :: _ => .error (.ambiguousColumn (qualifiedName table name) (some offset))
    | [] =>
      match table, aliases.find? (sameName ·.1 name) with
      | none, some (_, e) => .ok (.alias e)
      | _, _ => findAt table name offset rest

/-- Looks a column name up in an environment. -/
def Env.find (env : Env) (table : Option String) (name : String) (offset : Nat) : Except SqlFault Found :=
  findAt table name offset ((env.frame, env.aliases) :: env.outer.map fun f => (f, []))

/-! ## Ordering rows -/

/-- How one key of a sort compares: descending, where nulls go, collation. -/
structure SortKey where
  descending : Bool := false
  nullsFirst : Option Bool := none
  collation : Collation := .binary
  deriving Inhabited

/-- Compares two values under a sort key; nulls go first in ascending order unless told. -/
def SortKey.compare (k : SortKey) (a b : SqlValue) : Ordering :=
  let nullsFirst := k.nullsFirst.getD (!k.descending)
  match a.isNull, b.isNull with
  | true, true => .eq
  | true, false => if nullsFirst then .lt else .gt
  | false, true => if nullsFirst then .gt else .lt
  | false, false =>
    let o := a.compareWith k.collation b
    if k.descending then o.swap else o

/-- Compares two key lists, the first difference deciding. -/
def compareKeys (keys : List SortKey) (a b : List SqlValue) : Ordering :=
  let rec go : List SortKey → List SqlValue → List SqlValue → Ordering
    | k :: ks, x :: xs, y :: ys =>
      match k.compare x y with
      | .eq => go ks xs ys
      | o => o
    | _, _, _ => .eq
  go keys a b

/-- Sorts rows with their keys, stably. -/
def sortKeyed (keys : List SortKey) (rows : List (List SqlValue × List SqlValue)) :
    List (List SqlValue × List SqlValue) :=
  rows.mergeSort fun a b => compareKeys keys a.2 b.2 != .gt

/-- Whether two rows are the same for `DISTINCT` and set operators (nulls equal). -/
def sameRow (colls : List Collation) (a b : List SqlValue) : Bool :=
  a.length == b.length &&
    ((a.zip b).zip (colls ++ List.replicate a.length .binary)).all fun ((x, y), c) =>
      x.compareWith c y == .eq

/-- Rows without repeats, the first of equal ones kept. -/
def distinctRows {α : Type} (colls : List Collation) (rows : List (List SqlValue × α)) :
    List (List SqlValue × α) :=
  (rows.foldl (fun acc r => if acc.any (sameRow colls ·.1 r.1) then acc else r :: acc) []).reverse

/-- Rows sorted by all their columns and without repeats, as a set operator with no order of its
own returns them. They are kept in a tree keyed by the whole row, where a row takes the place of
an equal one already there, so of equal rows the last one stays. -/
def sortedDistinct (colls : List Collation) (rows : List (List SqlValue)) : List (List SqlValue) :=
  let keys := colls.map fun c => ({ collation := c } : SortKey)
  let sorted := rows.mergeSort fun a b => compareKeys keys a b != .gt
  (sorted.foldl (fun acc r =>
    match acc with
    | last :: before => if sameRow colls last r then r :: before else r :: acc
    | [] => [r]) []).reverse

/-- Combines the rows of two selects by a set operator, with no order asked for. -/
def combineRows (op : SetOp) (colls : List Collation) (left right : List (List SqlValue)) :
    List (List SqlValue) :=
  match op with
  | .unionAll => left ++ right
  | .union => sortedDistinct colls (left ++ right)
  | .intersect => (sortedDistinct colls left).filter fun r => right.any (sameRow colls r)
  | .except => (sortedDistinct colls left).filter fun r => !right.any (sameRow colls r)

/-- Merges the rows of two selects, each sorted by `cmp`, by a set operator, as a compound with an
order of its own does. The smaller head goes first, the left one on a tie for UNION ALL. On a
tie UNION drops the left row (the right one comes later), INTERSECT keeps the left row, and
EXCEPT drops it; INTERSECT keeps only left rows that meet a right one, EXCEPT only those that do
not, and neither keeps right rows. -/
def mergeRuns (op : SetOp) (cmp : List SqlValue → List SqlValue → Ordering) :
    List (List SqlValue) → List (List SqlValue) → List (List SqlValue)
  | [], bs => if op == .union || op == .unionAll then bs else []
  | as, [] => if op == .intersect then [] else as
  | a :: as, b :: bs =>
    match cmp a b with
    | .gt =>
      if op == .union || op == .unionAll then b :: mergeRuns op cmp (a :: as) bs
      else mergeRuns op cmp (a :: as) bs
    | .lt =>
      if op == .intersect then mergeRuns op cmp as (b :: bs)
      else a :: mergeRuns op cmp as (b :: bs)
    | .eq =>
      if op == .unionAll || op == .intersect then a :: mergeRuns op cmp as (b :: bs)
      else mergeRuns op cmp as (b :: bs)
termination_by as bs => as.length + bs.length

/-- Rows with each one equal to the row kept before it dropped. -/
def dropRepeats (colls : List Collation) (rows : List (List SqlValue)) : List (List SqlValue) :=
  (rows.foldl (fun acc r =>
    match acc with
    | last :: _ => if sameRow colls last r then acc else r :: acc
    | [] => [r]) []).reverse

def SetOp.words : SetOp → String
  | .unionAll => "UNION ALL"
  | .union => "UNION"
  | .intersect => "INTERSECT"
  | .except => "EXCEPT"

/-- The ordinal a fault uses for a term's place ("1st", "2nd", …). -/
def ordinal (n : Nat) : String :=
  let suffix :=
    if n % 100 ≥ 11 && n % 100 ≤ 13 then "th"
    else match n % 10 with
      | 1 => "st"
      | 2 => "nd"
      | 3 => "rd"
      | _ => "th"
  toString n ++ suffix

/-! ## Aggregates in expressions -/

/-- Whether an expression calls an aggregate function outside subqueries. -/
def hasAggregate : Nat → Expr → Bool
  | 0, _ => false
  | fuel + 1, e =>
    match e with
    | .call name args _ star _ =>
      isAggregateCall (name.map foldAscii) args.length star || args.any (hasAggregate fuel)
    | .unary _ a | .isNull _ a | .cast a _ | .collate a _ | .inQuery _ a _ => hasAggregate fuel a
    | .binary _ a b | .is _ a b => hasAggregate fuel a || hasAggregate fuel b
    | .between _ a b c => hasAggregate fuel a || hasAggregate fuel b || hasAggregate fuel c
    | .inList _ a items => hasAggregate fuel a || items.any (hasAggregate fuel)
    | .like _ _ a b esc =>
      hasAggregate fuel a || hasAggregate fuel b || (esc.map (hasAggregate fuel)).getD false
    | .case base arms other =>
      (base.map (hasAggregate fuel)).getD false ||
        arms.any (fun (w, t) => hasAggregate fuel w || hasAggregate fuel t) ||
        (other.map (hasAggregate fuel)).getD false
    | .vector items => items.any (hasAggregate fuel)
    | .windowed c _ none | .sortedCall c _ => hasAggregate fuel c
    | .windowed c _ (some (.mk _ _ partition orderBy _ _)) =>
      let args := match c with
        | .call _ args _ _ _ => args
        | _ => []
      (args ++ partition ++ orderBy.map (fun (t : OrderTerm) => match t with | .mk e _ _ => e)).any
        (hasAggregate fuel)
    | _ => false

/-- The terms of a condition joined by `AND`, in order. -/
def andTerms : Nat → Expr → List Expr
  | 0, e => [e]
  | fuel + 1, .binary .and a b => andTerms fuel a ++ andTerms fuel b
  | _, e => [e]

/-- The `ON` conditions of the inner joins of a source, left to right: they are tested with the
`WHERE` clause, after its own terms, so a term of one that does not depend on the row is tested
once, before any row. -/
def innerConditions : Nat → Relation → List Expr
  | 0, _ => []
  | fuel + 1, .join kind _ left right on _ =>
    innerConditions fuel left ++ innerConditions fuel right ++
      (if kind == .inner || kind == .cross then on.toList else [])
  | _, _ => []

def volatileFunction (name : String) : Bool :=
  ["random", "randomblob", "changes", "total_changes", "last_insert_rowid"].contains (name.map foldAscii)

/-- Whether a term of a WHERE clause may depend on the row: it names a column of one of the
sources (directly or through a result-column alias), reads a subquery, or calls a function whose
value may change from call to call. A term that does not is tested once, before any row. -/
def dependsOnRow (scopes : List Scope) (aliases : List (String × Expr)) : Nat → Expr → Bool
  | 0, _ => true
  | fuel + 1, e =>
    let go := dependsOnRow scopes aliases fuel
    match e with
    | .column (some t) _ _ _ => scopes.any (sameName ·.name t)
    | .column none n _ _ =>
      scopes.any (fun s => s.columns.any (sameName ·.name n) || (s.hasRowid && isRowidWord n)) ||
        match aliases.find? (sameName ·.1 n) with
        | some (_, a) => go a
        | none => false
    | .inQuery _ _ _ | .exists _ | .scalar _ | .windowed _ _ _ | .sortedCall _ _ => true
    | .call name args _ _ _ => volatileFunction name || args.any go
    | .unary _ a | .isNull _ a | .cast a _ | .collate a _ => go a
    | .binary _ a b | .is _ a b => go a || go b
    | .between _ a b c => go a || go b || go c
    | .inList _ a items => go a || items.any go
    | .like _ _ a b esc => go a || go b || (esc.map go).getD false
    | .case base arms other =>
      (base.map go).getD false || arms.any (fun (w, t) => go w || go t) || (other.map go).getD false
    | .vector items => items.any go
    | _ => false

/-- The single `min` or `max` call of one argument among expressions, when it is the only
aggregate call: the rows of a group then show their bare columns from the row it picks. -/
def soleExtreme : Nat → List Expr → List (String × Expr)
  | 0, _ => []
  | fuel + 1, es => es.flatMap fun e =>
    match e with
    | .call name args _ star _ =>
      let lname := name.map foldAscii
      if isAggregateCall lname args.length star then [(lname, args.headD .null)]
      else soleExtreme fuel args
    | .unary _ a | .isNull _ a | .cast a _ | .collate a _ | .inQuery _ a _ => soleExtreme fuel [a]
    | .binary _ a b | .is _ a b => soleExtreme fuel [a, b]
    | .between _ a b c => soleExtreme fuel [a, b, c]
    | .inList _ a items => soleExtreme fuel (a :: items)
    | .like _ _ a b esc => soleExtreme fuel ([a, b] ++ esc.toList)
    | .case base arms other =>
      soleExtreme fuel (base.toList ++ arms.flatMap (fun (w, t) => [w, t]) ++ other.toList)
    | .vector items => soleExtreme fuel items
    | .sortedCall c _ => soleExtreme fuel [c]
    | _ => []

/-- Whether a query reads a table of a name in any of its FROM clauses (subqueries included). -/
def mentionsTable (name : String) : Nat → Query → Bool
  | 0, _ => false
  | fuel + 1, .mk ctes body _ _ _ =>
    ctes.any (fun | .mk _ _ _ q => mentionsTable name fuel q) || compound fuel body
where
  /-- Whether a compound reads the table. -/
  compound : Nat → Compound → Bool
    | 0, _ => false
    | fuel + 1, .single c => core fuel c
    | fuel + 1, .op _ l r => compound fuel l || core fuel r
  /-- Whether a select reads the table. -/
  core : Nat → Core → Bool
    | 0, _ => false
    | fuel + 1, .select _ _ src _ _ _ _ => (src.map (relation fuel)).getD false
    | _, .values _ => false
  /-- Whether a source reads the table. -/
  relation : Nat → Relation → Bool
    | 0, _ => false
    | _ + 1, .table none n _ _ => sameName n name
    | _ + 1, .table (some _) _ _ _ => false
    | fuel + 1, .query q _ => mentionsTable name fuel q
    | _ + 1, .call _ _ _ _ => false
    | fuel + 1, .join _ _ l r _ _ => relation fuel l || relation fuel r

end GraphIngest.Sql
