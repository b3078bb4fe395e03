import GraphIngest.Sql.Token
import GraphIngest.Sql.Fault

/-!
# The syntax of statements

Expressions and queries are one family of trees, since a query may stand in an expression and an
expression in a query. A name keeps the byte offset of its token, so that a fault about it can
say where it stands; an integer literal keeps its text, since whether it fits in 64 bits depends
on the sign in front of it.
-/

namespace GraphIngest.Sql

/-- An operator with one operand. -/
inductive UnaryOp where
  | neg
  | plus
  | bitNot
  | not
  deriving DecidableEq, Inhabited, Repr

/-- An operator with two operands. -/
inductive BinaryOp where
  | concat
  | mul
  | div
  | rem
  | add
  | sub
  | shl
  | shr
  | bitAnd
  | bitOr
  | lt
  | le
  | gt
  | ge
  | eq
  | ne
  | and
  | or
  deriving DecidableEq, Inhabited, Repr

/-- How two rows of queries are combined. -/
inductive SetOp where
  | unionAll
  | union
  | intersect
  | except
  deriving DecidableEq, Inhabited, Repr

/-- The kinds of join: an outer join keeps the rows of its left side (`left`), of its right
side (`right`), or of both (`full`) that find no partner. -/
inductive JoinKind where
  | inner
  | left
  | right
  | full
  | cross
  deriving DecidableEq, Inhabited, Repr

/-- What a frame of a window counts in: rows, ranges of the ordering value, or groups of peers. -/
inductive FrameUnit where
  | rows
  | range
  | groups
  deriving DecidableEq, Inhabited, Repr

/-- What a frame leaves out: nothing, the current row, its peers, or its peers but itself. -/
inductive FrameExclude where
  | noOthers
  | currentRow
  | group
  | ties
  deriving DecidableEq, Inhabited, Repr

mutual

/-- An expression. -/
inductive Expr where
  | null
  | integer (text : String) (offset : Nat)
  | float (text : String)
  | string (s : String)
  | blob (bytes : List UInt8)
  | param (index : Nat) (offset : Nat)
  | column (table : Option String) (name : String) (quoted : Bool) (offset : Nat)
  | unary (op : UnaryOp) (e : Expr)
  | binary (op : BinaryOp) (a b : Expr)
  | is (negated : Bool) (a b : Expr)
  | isNull (negated : Bool) (e : Expr)
  | between (negated : Bool) (e lo hi : Expr)
  | inList (negated : Bool) (e : Expr) (items : List Expr)
  | inQuery (negated : Bool) (e : Expr) (q : Query)
  | like (glob : Bool) (negated : Bool) (a b : Expr) (escape : Option Expr)
  | cast (e : Expr) (type : String)
  | collate (e : Expr) (name : String)
  | call (name : String) (args : List Expr) (distinct : Bool) (star : Bool) (offset : Nat)
  | case (base : Option Expr) (arms : List (Expr × Expr)) (otherwise : Option Expr)
  | exists (q : Query)
  | scalar (q : Query)
  | vector (items : List Expr)
  | raise (action : RaiseAction) (message : String) (offset : Nat)
  /-- A function call with a `FILTER` clause, or over a window. -/
  | windowed (call : Expr) (filter : Option Expr) (window : Option Window)
  /-- An aggregate call that takes its rows in the order of its `ORDER BY` terms. -/
  | sortedCall (call : Expr) (orderBy : List OrderTerm)

/-- A window: the named window it builds on (all of it when `bare`, as in `OVER name`), its
partition terms, its order, its frame when one is given, and its text. -/
inductive Window where
  | mk (base : Option String) (bare : Bool) (partition : List Expr) (orderBy : List OrderTerm)
      (frame : Option FrameSpec) (text : String)

/-- The frame of a window: its unit, its first and last bounds, and what it leaves out. -/
inductive FrameSpec where
  | mk (unit : FrameUnit) (start finish : FrameBound) (exclude : FrameExclude)

/-- A bound of a frame. -/
inductive FrameBound where
  | unboundedPreceding
  | preceding (e : Expr)
  | currentRow
  | following (e : Expr)
  | unboundedFollowing

/-- A query: common tables, a compound of selects, its order, limit and offset. -/
inductive Query where
  | mk (ctes : List Cte) (body : Compound) (orderBy : List OrderTerm) (limit : Option Expr)
      (offset : Option Expr)

/-- A common table: its name, column names, whether it may read itself, and its query. -/
inductive Cte where
  | mk (name : String) (columns : List String) (recursive : Bool) (q : Query)

/-- Selects combined by set operators, left to right. -/
inductive Compound where
  | single (core : Core)
  | op (kind : SetOp) (left : Compound) (right : Core)

/-- One select, or a list of rows. -/
inductive Core where
  | select (distinct : Bool) (columns : List ResultColumn) (source : Option Relation)
      (filter : Option Expr) (groupBy : List Expr) (having : Option Expr)
      (windows : List (String × Window))
  | values (rows : List (List Expr))

/-- A result column: all columns, all columns of one table, or an expression with its name. -/
inductive ResultColumn where
  | star
  | tableStar (table : String)
  | expr (e : Expr) (name : String)

/-- The rows a select reads: a table or view, a subquery, a table-valued function called with
arguments, or a join. -/
inductive Relation where
  | table (schema : Option String) (name : String) (label : Option String) (offset : Nat)
  | query (q : Query) (label : Option String)
  | call (name : String) (args : List Expr) (label : Option String) (offset : Nat)
  | join (kind : JoinKind) (natural : Bool) (left right : Relation) (on : Option Expr)
      (usingCols : List String)

/-- A term of an order: the expression, whether descending, and where nulls go (first when
`some true`). -/
inductive OrderTerm where
  | mk (e : Expr) (descending : Bool) (nullsFirst : Option Bool)

end

instance : Inhabited Expr := ⟨.null⟩
instance : Inhabited Query := ⟨.mk [] (.single (.values [])) [] none none⟩

/-- What to do when a row breaks a constraint. -/
inductive Conflict where
  | abort
  | fail
  | ignore
  | replace
  | rollback
  deriving DecidableEq, Inhabited, Repr

/-- What a foreign key does when its parent row goes or changes. -/
inductive KeyAction where
  | noAction
  | restrict
  | setNull
  | setDefault
  | cascade
  deriving DecidableEq, Inhabited, Repr

/-- A foreign key: the parent table, its columns (none for its primary key), and the actions. -/
structure ForeignKey where
  parent : String
  parentColumns : List String
  onDelete : KeyAction := .noAction
  onUpdate : KeyAction := .noAction
  deriving Inhabited

/-- A check: its expression and the name a fault gives it (the constraint's name, or the text of
the expression). -/
structure Check where
  e : Expr
  name : String
  /-- The column whose definition holds the constraint; none for a table constraint. -/
  column : Option String := none
  /-- Whether the constraint has a name of its own. -/
  named : Bool := false
  deriving Inhabited

/-- A term of a key list: the column, the collation written for it, and whether it is
descending. -/
structure KeyTerm where
  column : String
  collation : Option String := none
  desc : Bool := false
  deriving Inhabited

/-- A key a column's definition declares: the primary key (descending or not) or a unique key,
with the conflict clause written for it, if any. -/
structure ColumnKey where
  primary : Bool
  desc : Bool := false
  conflict : Option Conflict := none
  deriving Inhabited

/-- A column definition; its keys in the order they are written. -/
structure ColumnDef where
  name : String
  type : String := ""
  keys : List ColumnKey := []
  autoincrement : Bool := false
  notNull : Option Conflict := none
  default : Option Expr := none
  collation : Option String := none
  checks : List Check := []
  references : Option ForeignKey := none
  /-- The expression of a generated column, and whether its value is stored. -/
  generated : Option (Expr × Bool) := none
  deriving Inhabited

/-- A table constraint. -/
inductive TableConstraint where
  | primaryKey (columns : List KeyTerm) (conflict : Option Conflict) (autoincrement : Bool)
  | unique (columns : List KeyTerm) (conflict : Option Conflict)
  | check (c : Check)
  | foreignKey (columns : List String) (key : ForeignKey)
  deriving Inhabited

/-- Where the rows of an insert come from. -/
inductive InsertSource where
  | values (rows : List (List Expr))
  | query (q : Query)
  | defaults
  deriving Inhabited

/-- What an `ON CONFLICT` clause of an insert does: nothing, or an update of the row in the way
(its assignments and filter). -/
inductive UpsertAction where
  | nothing
  | update (sets : List (List (String × Nat) × Expr)) (filter : Option Expr)
  deriving Inhabited

/-- An `ON CONFLICT` clause of an insert: the conflict target (the indexed terms and the filter
of a partial index), when it names one, and what the clause does. -/
structure Upsert where
  target : Option (List Expr × Option Expr)
  action : UpsertAction
  deriving Inhabited

/-- When a trigger fires: before the change of a row, after it, or in its place (on a view). -/
inductive TriggerTime where
  | before
  | after
  | insteadOf
  deriving DecidableEq, Inhabited

/-- The change a trigger fires on; one on updates may name the columns it watches. -/
inductive TriggerEvent where
  | delete
  | insert
  | update (columns : List String)
  deriving Inhabited

/-- A statement. The name token of a created object is kept for faults that quote it. -/
inductive Statement where
  | createTable (temporary : Bool) (ifNotExists : Bool) (name : String) (nameToken : Token)
      (columns : List ColumnDef) (constraints : List TableConstraint) (withoutRowid strict : Bool)
  | createTableAs (temporary : Bool) (ifNotExists : Bool) (name : String) (nameToken : Token) (q : Query)
  | createVirtual (ifNotExists : Bool) (name : String) (nameToken : Token) (module : String)
      (args : List String)
  | createIndex (unique : Bool) (ifNotExists : Bool) (name : String) (table : String)
      (columns : List (Expr × Bool)) (filter : Option Expr)
  | createView (ifNotExists : Bool) (name : String) (nameToken : Token) (columns : List String) (q : Query)
  | dropTable (ifExists : Bool) (schema : Option String) (name : String)
  | createTrigger (ifNotExists : Bool) (name : String) (nameToken : Token) (time : TriggerTime)
      (event : TriggerEvent) (table : String) (condition : Option Expr) (body : List Statement)
  | dropTrigger (ifExists : Bool) (name : String)
  | dropIndex (ifExists : Bool) (name : String)
  | dropView (ifExists : Bool) (name : String)
  | insert (ctes : List Cte) (conflict : Option Conflict) (schema : Option String) (table : String) (columns : Option (List (String × Nat)))
      (source : InsertSource) (upserts : List Upsert)
  | update (ctes : List Cte) (conflict : Option Conflict) (schema : Option String) (table : String)
      (tableLabel : Option String) (sets : List (List (String × Nat) × Expr)) (source : Option Relation)
      (filter : Option Expr)
  | delete (ctes : List Cte) (schema : Option String) (table : String) (tableLabel : Option String)
      (filter : Option Expr)
  | select (q : Query)
  /-- An insert, update or delete with a `RETURNING` clause. -/
  | returning (st : Statement) (columns : List ResultColumn)
  | pragma (name : String) (value : Option String)
  | begin
  | commit
  | rollback
  | savepoint (name : String)
  | release (name : String)
  | rollbackTo (name : String)
  | renameTable (table : String) (newName : String)
  | addColumn (table : String) (column : ColumnDef)
  | renameColumn (table : String) (old new : String)
  | dropColumn (table : String) (column : String)
  | nothing
  deriving Inhabited

/-- Whether two names are the same, ASCII case aside. -/
def sameName (a b : String) : Bool :=
  let fold (c : Char) : Char := if 'A' ≤ c && c ≤ 'Z' then Char.ofNat (c.toNat + 32) else c
  -- folding ASCII letters keeps the byte size, so names of other sizes differ
  a == b || (a.utf8ByteSize == b.utf8ByteSize && a.toList.map fold == b.toList.map fold)

/-- The schema a schema name names: `some true` for the temporary one, `some false` for the
main one, none for one that does not exist. -/
def schemaTemporary? (s : String) : Option Bool :=
  if sameName s "temp" then some true else if sameName s "main" then some false else none

/-- The value of an integer literal that fits in 31 bits: decimal with at most ten significant
digits, or hexadecimal with at most eight. Such a literal settles an `AND` or `OR` it stands in:
zero is always false, any other value always true. -/
def Expr.smallInteger? : Expr → Option Nat
  | .integer text _ =>
    let cs := text.toList
    let (digits, base) : List Char × Nat := match cs with
      | '0' :: x :: hex => if x == 'x' || x == 'X' then (hex, 16) else (cs, 10)
      | _ => (cs, 10)
    let significant := digits.dropWhile (· == '0')
    let digitValue (c : Char) : Nat :=
      if c ≤ '9' then c.toNat - 48 else if 'a' ≤ c then c.toNat - 87 else c.toNat - 55
    let value := significant.foldl (fun acc c => acc * base + digitValue c) 0
    if significant.length ≤ (if base == 16 then 8 else 10) && value < Nat.pow 2 31 then some value
    else none
  | _ => none

/-- The column names an expression reads (with the table each is qualified by), its subqueries
and windows aside. -/
def Expr.columnRefs : Nat → Expr → List (Option String × String)
  | 0, _ => []
  | fuel + 1, e =>
    let go := Expr.columnRefs fuel
    match e with
    | .column t n _ _ => [(t, n)]
    | .unary _ a | .isNull _ a | .cast a _ | .collate a _ | .inQuery _ a _ => go a
    | .binary _ a b | .is _ a b => go a ++ go b
    | .between _ a b c => go a ++ go b ++ go c
    | .inList _ a items => go a ++ items.flatMap go
    | .like _ _ a b esc => go a ++ go b ++ (esc.map go).getD []
    | .call _ args _ _ _ | .vector args => args.flatMap go
    | .case base arms other =>
      (base.map go).getD [] ++ arms.flatMap (fun (w, t) => go w ++ go t) ++ (other.map go).getD []
    | .windowed c filter _ => go c ++ (filter.map go).getD []
    | .sortedCall c _ => go c
    | _ => []

/-- An expression with the name of each column it reads replaced by what `f` makes of it (given
the table it is qualified by), its subqueries and windows aside. -/
def Expr.mapColumnNames (f : Option String → String → String) : Nat → Expr → Expr
  | 0, e => e
  | fuel + 1, e =>
    let go := Expr.mapColumnNames f fuel
    match e with
    | .column t n q off => .column t (f t n) q off
    | .unary op a => .unary op (go a)
    | .isNull neg a => .isNull neg (go a)
    | .cast a ty => .cast (go a) ty
    | .collate a c => .collate (go a) c
    | .inQuery neg a q => .inQuery neg (go a) q
    | .binary op a b => .binary op (go a) (go b)
    | .is neg a b => .is neg (go a) (go b)
    | .between neg a b c => .between neg (go a) (go b) (go c)
    | .inList neg a items => .inList neg (go a) (items.map go)
    | .like g neg a b esc => .like g neg (go a) (go b) (esc.map go)
    | .call n args d s off => .call n (args.map go) d s off
    | .vector args => .vector (args.map go)
    | .case base arms other => .case (base.map go) (arms.map fun (w, t) => (go w, go t)) (other.map go)
    | .windowed c filter w => .windowed (go c) (filter.map go) w
    | .sortedCall c o => .sortedCall (go c) o
    | e => e

/-- Where a fault about an expression points: at its own token, else at its leftmost operand's. -/
def Expr.leftOffset? : Nat → Expr → Option Nat
  | 0, _ => none
  | fuel + 1, e =>
    match e with
    | .column _ _ _ off | .call _ _ _ _ off | .param _ off | .integer _ off => some off
    | .binary _ a _ | .unary _ a | .is _ a _ | .isNull _ a | .between _ a _ _ | .inList _ a _
    | .inQuery _ a _ | .collate a _ | .cast a _ => Expr.leftOffset? fuel a
    | _ => none

/-- `lhs AND rhs`, or the literal `0` when either side is a literal zero: the conjunction is
false whatever the other side holds, and that side is never evaluated. -/
def Expr.conjunction (lhs rhs : Expr) : Expr :=
  if lhs.smallInteger? == some 0 || rhs.smallInteger? == some 0 then .integer "0" 0
  else .binary .and lhs rhs

end GraphIngest.Sql
