import GraphIngest.Source.Error
import GraphIngest.Sql.Script
import GraphIngest.Record

/-!
# Record sources

A source yields records pass after pass, each pass from the first. An item may be a fault instead
of a record, and a reader decides whether to go on after it. A source may know how many items a
pass yields.

A database source reads its tables page by page with the query
`SELECT rowid, * FROM "t" WHERE rowid > ?1 ORDER BY rowid LIMIT ?2`, the first parameter being
the key of the last row read (at first the smallest integer, so a row with that row id is never
read). A row id that is not an integer stops the pass after the records before it on its page.
With tables mixed it takes one page from each table in turn; otherwise each table to its end.
-/

namespace GraphIngest

/-- A table as a database source reads it: its name, its columns, and the fields that identify
its rows. -/
structure TableLayout where
  name : String
  columns : List String
  primaryKeys : List String
  deriving Inhabited

/-- A record source. -/
inductive Source where
  | items (items : List (Except String Record))
  | chain (parts : List Source)
  | tables (db : Sql.Database) (layouts : List TableLayout) (mix : Bool) (pageSize : Nat) (total : Nat)
  | unsized (inner : Source)
  | flaky (inner : Source) (okOpens opens : Nat) (message : String)
  deriving Inhabited

/-- One item of a pass: a record or a fault. -/
abbrev Item := Except SourceError Record

namespace Source

/-- The value of a stored column value as a record field; a blob is read as text. -/
def fieldValue : Sql.SqlValue → Value
  | .null => .null
  | .int i => .int i
  | .real x => .float x
  | .text s => .str (Sql.shownText s)
  | .blob b => .str (Sql.utf8Lossy b)

def minRowid : Int := -(Int.pow 2 63)

/-- The query that pages through a table, as a fault quotes it. -/
def pageQuery (name : String) : String :=
  "SELECT rowid, * FROM \"" ++ name.replace "\"" "\"\"" ++
    "\" WHERE rowid > ?1 ORDER BY rowid LIMIT ?2"

def rowRecord (l : TableLayout) (values : List Sql.SqlValue) : Record :=
  (l.columns.zip values).foldl (fun r (c, v) => r.set c (fieldValue v))
    ((Record.new l.name).withIdentifying l.primaryKeys)

def typeText : Sql.SqlValue → String
  | .null => "Null"
  | .int _ => "Integer"
  | .real _ => "Real"
  | .text _ => "Text"
  | .blob _ => "Blob"

/-- One page of a table: the rows read, each with its key, and the fault that stopped the page,
if any. -/
def readPage (db : Sql.Database) (l : TableLayout) (last : Int) (pageSize : Nat) :
    List (Int × List Sql.SqlValue) × Option String :=
  match db.query (pageQuery l.name) [.int last, .int pageSize] with
  | .error e => ([], some e)
  | .ok rows => keyed rows.rows []
where
  /-- The rows with integer keys, up to the first that has another. -/
  keyed : List (List Sql.SqlValue) → List (Int × List Sql.SqlValue) → List (Int × List Sql.SqlValue) × Option String
    | [], acc => (acc.reverse, none)
    | (.int k :: vs) :: rest, acc => keyed rest ((k, vs) :: acc)
    | (v :: _) :: _, acc => (acc.reverse, some ("Invalid column type " ++ typeText v ++ " at index: 0, name: rowid"))
    | [] :: _, acc => (acc.reverse, some "Invalid column index: 0")

/-- A cursor over one table: the last row id read, and whether the table is read to its end. -/
structure Cursor where
  layout : TableLayout
  last : Int := minRowid
  done : Bool := false

def nextTable (cursors : List Cursor) (mix : Bool) (current : Nat) : Option Nat :=
  let n := cursors.length
  if mix then
    (List.range n).map (fun off => (current + off) % n) |>.find? fun i => !((cursors[i]?.map (·.done)).getD true)
  else cursors.findIdx? (!·.done)

/-- One pass over the tables, reading pages with `read` (`readPage` on the source's database);
`fuel` bounds the pages read. -/
def tablePass (read : TableLayout → Int → Nat → List (Int × List Sql.SqlValue) × Option String)
    (mix : Bool) (pageSize : Nat) : Nat → List Cursor → Nat → List Item → List Item
  | 0, _, _, acc => acc.reverse
  | fuel + 1, cursors, current, acc =>
    match nextTable cursors mix current with
    | none => acc.reverse
    | some i =>
      match cursors[i]? with
      | none => acc.reverse
      | some c =>
        let (page, fault) := read c.layout c.last pageSize
        let records := page.map fun (_, vs) => Except.ok (rowRecord c.layout vs)
        match fault with
        | some msg => acc.reverse ++ (Except.error (SourceError.database msg) :: records)
        | none =>
          let last := (page.getLast?.map (·.1)).getD c.last
          let c' := { c with last, done := page.length < pageSize }
          let next := if mix then (i + 1) % cursors.length else current
          tablePass read mix pageSize fuel (cursors.set i c') next (records.reverse ++ acc)

/-- Opens a source: the items of one pass, or the fault that prevents it, and the source with
its count of openings updated. -/
def openPass : Source → Except SourceError (List Item) × Source
  | .items xs => (.ok (xs.map fun x => x.mapError SourceError.other), .items xs)
  | .chain parts =>
    let (r, parts') := openAll parts []
    (r, .chain parts')
  | .tables db layouts mix pageSize total =>
    let fuel := layouts.foldl (fun n l => n + ((db.contents.table? l.name).map (·.rows.length)).getD 0 + 1) 1
    (.ok (tablePass (readPage db) mix pageSize fuel (layouts.map fun l => { layout := l }) 0 []),
      .tables db layouts mix pageSize total)
  | .unsized inner =>
    let (r, inner') := inner.openPass
    (r, .unsized inner')
  | .flaky inner okOpens opens message =>
    if opens < okOpens then
      let (r, inner') := inner.openPass
      (r, .flaky inner' okOpens (opens + 1) message)
    else (.error (.other message), .flaky inner okOpens (opens + 1) message)
where
  /-- Opens the parts of a chain in order, stopping at the first that cannot be opened. -/
  openAll : List Source → List Item → Except SourceError (List Item) × List Source
    | [], acc => (.ok acc, [])
    | p :: rest, acc =>
      let (r, p') := p.openPass
      match r with
      | .error e => (.error e, p' :: rest)
      | .ok xs =>
        let (r', rest') := openAll rest (acc ++ xs)
        (r', p' :: rest')

/-- The number of items of a pass, if the source tells it. -/
def lenHint : Source → Option Nat
  | .items xs => some xs.length
  | .chain parts => sumHints parts
  | .tables _ _ _ _ total => some total
  | .unsized _ => none
  | .flaky inner _ _ _ => inner.lenHint
where
  /-- The sum of the parts' counts, if every part tells its count. -/
  sumHints : List Source → Option Nat
    | [] => some 0
    | p :: rest => do return (← p.lenHint) + (← sumHints rest)

/-- The source reading a database in place of the one it was built on, with the tables chosen
when it was built: what it reads of a database written to since. -/
def onDatabase (db : Sql.Database) : Source → Source
  | .items xs => .items xs
  | .chain parts => .chain (onAll db parts)
  | .tables _ layouts mix pageSize total => .tables db layouts mix pageSize total
  | .unsized inner => .unsized (onDatabase db inner)
  | .flaky inner okOpens opens message => .flaky (onDatabase db inner) okOpens opens message
where
  /-- The parts of a chain reading the database. -/
  onAll (db : Sql.Database) : List Source → List Source
    | [] => []
    | p :: rest => onDatabase db p :: onAll db rest

end Source

/-! ## Database sources -/

namespace Sql.Database

/-- The names of the tables a source may read, sorted: all but those whose name starts with
`sqlite` and one more character, case aside. -/
def sourceTables (db : Database) : List String :=
  let visible := db.contents.tables.filter fun t =>
    let lower := t.name.toLower
    !(lower.startsWith "sqlite" && lower.length > 6)
  labelSet' (visible.map (·.name))
where
  /-- Sorts names, keeping duplicates. -/
  labelSet' (names : List String) : List String := names.mergeSort (fun a b => decide (a ≤ b))

end Sql.Database

/-- How a database source is built: which tables (all, in name order, by default), which fields
identify the rows of a table (its primary key by default), whether tables are mixed, and the page
size. -/
structure TableOptions where
  tables : Option (List String) := none
  primaryKeys : List (String × List String) := []
  mix : Bool := true
  pageSize : Nat := 5000
  deriving Inhabited

/-- Builds a database source: every table asked for must exist, and every table read must have
fields that identify its rows. -/
def Source.ofDatabase (db : Sql.Database) (o : TableOptions) : Except SourceError Source := do
  let all := db.sourceTables
  let selected ← match o.tables with
    | some ts => do
      for t in ts do
        if !all.contains t then throw (.unknownTable t)
      pure ts
    | none => pure all
  let layouts ← selected.mapM fun name => do
    let some table := db.contents.table? name | throw (.unknownTable name)
    let keys := match o.primaryKeys.lookup name with
      | some ks => ks
      | none =>
        let keyed := table.columns.filter (·.pk > 0)
        (keyed.mergeSort (fun a b => decide (a.pk ≤ b.pk))).map (·.name)
    if keys.isEmpty then throw (.missingPrimaryKey name)
    -- the columns the table lists: generated ones are not among them
    let listed := table.columns.filter (·.generated.isNone)
    pure { name := table.name, columns := listed.map (·.name), primaryKeys := keys : TableLayout }
  let total := layouts.foldl (fun n l => n + ((db.contents.table? l.name).map (·.rows.length)).getD 0) 0
  return .tables db layouts o.mix (max o.pageSize 1) total

end GraphIngest
