import GraphIngest.Sql.Syntax
import GraphIngest.Sql.Value

/-!
# Tables, indexes and views

A table with row ids keeps its rows by ascending row id; a column declared `INTEGER PRIMARY KEY`
is the row id itself. A table without row ids keeps its rows ordered by its primary key. Names of
tables, indexes and views are compared with ASCII letters folded to one case.
-/

namespace GraphIngest.Sql

/-- A column of a table. -/
structure Column where
  name : String
  type : String := ""
  affinity : Affinity := .blob
  collation : Collation := .binary
  notNull : Option Conflict := none
  default : Option Expr := none
  /-- The place of the column in the primary key, from 1; 0 when not in it. -/
  pk : Nat := 0
  /-- The expression of a generated column, and whether its value is stored. -/
  generated : Option (Expr × Bool) := none
  /-- Whether the column's own definition makes it unique. -/
  unique : Bool := false
  deriving Inhabited

/-- An index of a table: its key is a list of columns, or of expressions of the row when one
term is not a plain column; a partial index holds only the rows its condition holds for. -/
structure Index where
  name : String
  table : String
  /-- The columns of the key, when each of its terms is a plain column. -/
  columns : List Nat
  unique : Bool
  conflict : Conflict := .abort
  primaryKey : Bool := false
  /-- Whether the index was made for a constraint of its table (and goes with it). -/
  automatic : Bool := false
  /-- The terms of the key as expressions of the row, when one of them is not a plain column. -/
  expressions : Option (List Expr) := none
  /-- The collation each term of the key compares by; a column's own when none is given. -/
  collations : List Collation := []
  /-- The condition of the rows a partial index holds. -/
  filter : Option Expr := none
  /-- Whether each term of the key is descending. -/
  descending : List Bool := []
  deriving Inhabited

/-- A foreign key of a table: its columns and what they reference. -/
structure ChildKey where
  columns : List Nat
  key : ForeignKey
  /-- Whether the key is written in the definition of its column rather than as a table
  constraint. -/
  ofColumn : Bool := false
  deriving Inhabited

/-- What a virtual table is: an r-tree of boxes (the row id, then a lower and an upper bound for
each of its dimensions, kept as single-precision numbers or as 32-bit integers, then other
columns), or a full-text index over its columns. -/
inductive VirtualKind where
  | rtree (dimensions : Nat) (integer : Bool)
  | fullText
  deriving Inhabited

/-- A table. -/
structure Table where
  name : String
  columns : List Column
  hasRowid : Bool := true
  rowidColumn : Option Nat := none
  rowidConflict : Conflict := .abort
  autoincrement : Bool := false
  checks : List Check := []
  foreignKeys : List ChildKey := []
  /-- The rows, each with its row id (a running number for a table without row ids). -/
  rows : List (Int × List SqlValue) := []
  /-- The next running number of a table without row ids. -/
  counter : Int := 1
  /-- Whether the table is temporary: it goes when the connection closes, and its name is found
  before that of a table of the main schema. -/
  temporary : Bool := false
  /-- Whether every column has one of the standard types, and every value written must be of
  its column's type. -/
  strict : Bool := false
  /-- What the table is, when it is virtual. -/
  virtual : Option VirtualKind := none
  /-- How the primary key of a table without row ids orders its rows: for each term, the column,
  its collation, and whether it is descending. -/
  keyTerms : List (Nat × Collation × Bool) := []
  deriving Inhabited

/-- A view: its name, column names and query. -/
structure View where
  name : String
  columns : List String
  q : Query
  deriving Inhabited

/-- A trigger: its name, the table or view it watches, when and on what it fires, the condition
it fires under, and the statements of its body. -/
structure Trigger where
  name : String
  table : String
  time : TriggerTime
  event : TriggerEvent
  condition : Option Expr
  body : List Statement
  /-- Where the name stands in the statement that made the trigger. The trigger is kept as the
  text `CREATE TRIGGER ` followed by that statement from the name on, and offsets into its body
  are counted in that text. -/
  nameOffset : Nat := 0
  deriving Inhabited

/-- An offset into the statement that made a trigger, counted in the text the trigger is kept
as instead. -/
def Trigger.keptOffset (tr : Trigger) (offset : Nat) : Nat := offset + 15 - tr.nameOffset

/-- The contents of a database: tables in creation order, indexes, views, the largest row id
each table with `AUTOINCREMENT` has used, and triggers in creation order. -/
structure Contents where
  tables : List Table := []
  indexes : List Index := []
  views : List View := []
  sequence : List (String × Int) := []
  triggers : List Trigger := []
  deriving Inhabited

/-- A database connection: its contents, what a rollback goes back to (the transaction's start
and each open savepoint, the latest first), its settings, counters and clock. -/
structure Database where
  contents : Contents := {}
  saved : Option Contents := none
  savepoints : List (String × Contents) := []
  savepointOpened : Bool := false
  foreignKeys : Bool := true
  lastRowid : Int := 0
  changes : Int := 0
  totalChanges : Int := 0
  caseSensitiveLike : Bool := false
  /-- The connection's clock: the current time, in milliseconds on the Julian day count (1970
  began at 210866760000000). -/
  clock : Int := 210866760000000
  deriving Inhabited

/-- The contents seen through a name written with a schema: the tables of that name in the other
schema are set aside (and given back with the contents). None when the schema does not exist, or
holds no table of the name (nor, for the main schema, a view). -/
def Contents.narrowTo (c : Contents) (schema name : String) : Option (Contents × List Table) :=
  match schemaTemporary? schema with
  | none => none
  | some temporary =>
    let (aside, kept) := c.tables.partition fun t => sameName t.name name && t.temporary != temporary
    if kept.any (fun t => sameName t.name name) || (!temporary && c.views.any (sameName ·.name name))
    then some ({ c with tables := kept }, aside)
    else none

/-- Ends the transaction, leaving the given contents and no savepoints. -/
def Database.endTransaction (db : Database) (contents : Contents) : Database :=
  { db with contents, saved := none, savepoints := [], savepointOpened := false }

/-- The standard type a declared type names in a strict table (its text, quotes aside, is one
of them, case aside), in capitals. -/
def standardType? (ty : String) : Option String :=
  let cs := ty.toList
  let cs := match cs with
    | q :: rest =>
      if (q == '"' || q == '\'' || q == '`' || q == '[') && rest.length ≥ 1 &&
          !((rest.dropLast).any fun c => c == '"' || c == '\'' || c == '`' || c == '[' || c == ']')
      then rest.dropLast else cs
    | [] => []
  let u := (String.ofList cs).toUpper
  if cs.length ≥ 3 && ["ANY", "BLOB", "INT", "INTEGER", "REAL", "TEXT"].contains u then some u
  else none

namespace Table

/-- The positions of the columns that are not generated: those an insert without a column list
fills, in order. -/
def ordinaryColumns (t : Table) : List Nat :=
  (List.range t.columns.length).filter fun i => (t.columns.getD i default).generated.isNone

/-- The position of a column, by name. -/
def columnIndex? (t : Table) (name : String) : Option Nat :=
  t.columns.findIdx? (sameName ·.name name)

def column (t : Table) (i : Nat) : Column := t.columns.getD i default

/-- Whether a name stands for the row id of this table (when no column has that name). -/
def isRowidName (t : Table) (name : String) : Bool :=
  t.hasRowid && (sameName name "rowid" || sameName name "oid" || sameName name "_rowid_") &&
    (t.columnIndex? name).isNone

/-- The positions of the primary key columns, in key order. -/
def keyColumns (t : Table) : List Nat :=
  let keyed := (List.range t.columns.length).filter fun i => (t.column i).pk > 0
  keyed.mergeSort fun a b => (t.column a).pk ≤ (t.column b).pk

/-- Order of two rows of a table without row ids, by primary key, term by term under its
collation, a descending term reversed. -/
def keyOrder (t : Table) (a b : List SqlValue) : Ordering :=
  (t.keyTerms.map fun (i, coll, desc) =>
    let o := (a.getD i .null).compareWith coll (b.getD i .null)
    if desc then o.swap else o).foldl
    (fun acc o => if acc == .eq then o else acc) .eq

/-- The table with a row put in its place (an r-tree lists its rows in the order they came). -/
def putRow (t : Table) (rowid : Int) (values : List SqlValue) : Table :=
  -- an r-tree lists its rows as they came
  if t.virtual matches some (.rtree _ _) then { t with rows := t.rows ++ [(rowid, values)] }
  else if t.hasRowid then { t with rows := insertByRowid t.rows }
  else { t with rows := insertByKey t.rows, counter := t.counter + 1 }
where
  /-- Puts the row in row id order. -/
  insertByRowid : List (Int × List SqlValue) → List (Int × List SqlValue)
    | [] => [(rowid, values)]
    | (r, vs) :: rest => if rowid < r then (rowid, values) :: (r, vs) :: rest else (r, vs) :: insertByRowid rest
  /-- Puts the row in key order. -/
  insertByKey : List (Int × List SqlValue) → List (Int × List SqlValue)
    | [] => [(rowid, values)]
    | (r, vs) :: rest =>
      if t.keyOrder values vs == .lt then (rowid, values) :: (r, vs) :: rest
      else (r, vs) :: insertByKey rest

def removeRow (t : Table) (rowid : Int) : Table :=
  { t with rows := t.rows.filter (·.1 != rowid) }

/-- The row of a row id. -/
def row? (t : Table) (rowid : Int) : Option (List SqlValue) :=
  (t.rows.find? (·.1 == rowid)).map (·.2)

/-- The largest row id, if any row is kept. -/
def maxRowid? (t : Table) : Option Int :=
  t.rows.foldl (fun m (r, _) => some (match m with | some x => max x r | none => r)) none

end Table

namespace Contents

/-- The table of a name: a temporary one before one of the main schema. -/
def table? (c : Contents) (name : String) : Option Table :=
  (c.tables.find? fun t => t.temporary && sameName t.name name).orElse fun _ =>
    c.tables.find? (sameName ·.name name)

/-- The table of a name among the temporary tables, or among those of the main schema. -/
def tableIn? (c : Contents) (temporary : Bool) (name : String) : Option Table :=
  c.tables.find? fun t => t.temporary == temporary && sameName t.name name

def view? (c : Contents) (name : String) : Option View :=
  c.views.find? (sameName ·.name name)

def index? (c : Contents) (name : String) : Option Index :=
  c.indexes.find? (sameName ·.name name)

/-- The contents with a table replaced (matched by name). -/
def setTable (c : Contents) (t : Table) : Contents :=
  { c with tables := c.tables.map fun x =>
      if sameName x.name t.name && x.temporary == t.temporary then t else x }

/-- The indexes of a table in the order they are checked: each before those made before it,
except that one resolving conflicts by `REPLACE` goes after the others that do not, so that an
`IGNORE` or a fault comes before any row is replaced. -/
def indexesOf (c : Contents) (table : String) : List Index :=
  (c.indexes.filter (sameName ·.table table)).foldl place []
where
  /-- Puts the next index made into the order. -/
  place (order : List Index) (idx : Index) : List Index :=
    match order with
    | first :: _ =>
      if idx.conflict != .replace || first.conflict == .replace then idx :: order
      else
        let kept := order.takeWhile (·.conflict != .replace)
        kept ++ idx :: order.drop kept.length
    | [] => [idx]

/-- The largest row id a table with `AUTOINCREMENT` has used. -/
def sequenceOf (c : Contents) (table : String) : Int :=
  ((c.sequence.find? (sameName ·.1 table)).map (·.2)).getD 0

/-- Records the largest row id a table with `AUTOINCREMENT` has used. -/
def setSequence (c : Contents) (table : String) (value : Int) : Contents :=
  if c.sequence.any (sameName ·.1 table) then
    { c with sequence := c.sequence.map fun (n, v) => if sameName n table then (n, value) else (n, v) }
  else { c with sequence := c.sequence ++ [(table, value)] }

end Contents

end GraphIngest.Sql
