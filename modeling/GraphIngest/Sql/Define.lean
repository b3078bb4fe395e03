import GraphIngest.Sql.Modify

/-!
# Schema statements

Creating, dropping and altering tables, indexes and views. A single-column primary key declared
`INTEGER` in a table with row ids is the row id itself, and any other primary key, like every
`UNIQUE` constraint, is a unique index made with the table. Names starting with `sqlite_` are
reserved.
-/

namespace GraphIngest.Sql

def reservedObjectName (name : String) : Bool := (name.take 7).toString.map foldAscii == "sqlite_"

/-- Whether a default value is a constant: literals and operators, no columns or subqueries. -/
def constantExpr : Nat → Expr → Bool
  | 0, _ => false
  | fuel + 1, e =>
    match e with
    | .column none name false _ => sameName name "true" || sameName name "false"
    | .column _ _ _ _ | .exists _ | .scalar _ | .inQuery _ _ _ | .param _ _ => false
    | .unary _ a | .isNull _ a | .cast a _ | .collate a _ => constantExpr fuel a
    | .binary _ a b | .is _ a b => constantExpr fuel a && constantExpr fuel b
    | .between _ a b c => constantExpr fuel a && constantExpr fuel b && constantExpr fuel c
    | .inList _ a items => constantExpr fuel a && items.all (constantExpr fuel)
    | .like _ _ a b esc => constantExpr fuel a && constantExpr fuel b && (esc.map (constantExpr fuel)).getD true
    | .call _ args _ _ _ => args.all (constantExpr fuel)
    | .case base arms other =>
      (base.map (constantExpr fuel)).getD true &&
        arms.all (fun (w, t) => constantExpr fuel w && constantExpr fuel t) &&
        (other.map (constantExpr fuel)).getD true
    | .vector items => items.all (constantExpr fuel)
    | .windowed _ _ _ | .sortedCall _ _ => false
    | _ => true

/-- A table under construction: columns, primary key, keys, checks and references, as
`CREATE TABLE` reads them. -/
structure TableDraft where
  columns : List Column := []
  /-- The primary key: its terms, its conflict clause, and whether it is `AUTOINCREMENT`. -/
  primaryKey : Option (List KeyTerm × Option Conflict × Bool) := none
  /-- The primary and unique keys in the order they are written: their terms, their conflict
  clauses, and whether each is the primary key. -/
  keys : List (List KeyTerm × Option Conflict × Bool) := []
  checks : List Check := []
  /-- The foreign keys: their columns, what they refer to, and whether a column's definition
  holds them. -/
  references : List (List String × ForeignKey × Bool) := []

/-- Adds a key to a draft; a second primary key is a fault. -/
def TableDraft.addKey (tname : String) (d : TableDraft) (terms : List KeyTerm)
    (conflict : Option Conflict) (primary auto : Bool) : Except SqlFault TableDraft :=
  if primary then
    if d.primaryKey.isSome then .error (.morePrimaryKeys tname)
    else .ok { d with primaryKey := some (terms, conflict, auto), keys := d.keys ++ [(terms, conflict, true)] }
  else .ok { d with keys := d.keys ++ [(terms, conflict, false)] }

def TableDraft.addColumn (tname : String) (d : TableDraft) (c : ColumnDef) : Except SqlFault TableDraft := do
  if d.columns.any (sameName ·.name c.name) then throw (.duplicateColumn c.name)
  let coll ← match c.collation with
    | some n => collationNamed n
    | none => pure .binary
  let mut d := d
  for k in c.keys do
    if k.primary && c.generated.isSome && d.primaryKey.isNone then
      throw (.otherMessage "generated columns cannot be part of the PRIMARY KEY")
    d ← d.addKey tname [{ column := c.name, desc := k.desc }] k.conflict k.primary c.autoincrement
  if let some dflt := c.default then
    if !constantExpr 10000 dflt then throw (.defaultNotConstant c.name)
  let col : Column := { name := c.name, type := c.type, affinity := Affinity.ofType c.type,
                        collation := coll, notNull := c.notNull, default := c.default,
                        generated := c.generated, unique := c.keys.any (!·.primary) }
  d := { d with columns := d.columns ++ [col],
                checks := d.checks ++ c.checks.map ({ · with column := some c.name }) }
  if let some r := c.references then d := { d with references := d.references ++ [([c.name], r, true)] }
  return d

def TableDraft.addConstraint (tname : String) (d : TableDraft) (k : TableConstraint) : Except SqlFault TableDraft :=
  match k with
  | .primaryKey cols conflict auto => d.addKey tname cols conflict true auto
  | .unique cols conflict => d.addKey tname cols conflict false false
  | .check c => .ok { d with checks := d.checks ++ [c] }
  | .foreignKey cols key => .ok { d with references := d.references ++ [(cols, key, false)] }

def columnPosition (cols : List Column) (name : String) : Except SqlFault Nat :=
  match cols.findIdx? (sameName ·.name name) with
  | some i => .ok i
  | none => .error (.noSuchColumn name none)

/-- The fault of the first column of a strict table without a standard type. -/
def strictTypeFault? (tname : String) (columns : List Column) : Option SqlFault :=
  (columns.find? fun c => (standardType? c.type).isNone).map fun c =>
    if c.type.isEmpty then .otherMessage ("missing datatype for " ++ tname ++ "." ++ c.name)
    else .otherMessage ("unknown datatype for " ++ tname ++ "." ++ c.name ++ ": \"" ++ c.type ++ "\"")

/-- Reads the checks and then the generated columns of a table as its definition is read, for
the faults of what they name and call: the names they use must be the table's, and a generated
column cannot read the row id. -/
def Table.probeDefinitions (table : Table) (contents : Contents) : Except SqlFault Unit := do
  let env : Env :=
    { contents := contents, probe := true, frame := nullFrame [table.scope], definition := some .check }
  for c in table.checks do
    discard (eval evalFuel env c.e)
  let env := { env with frame := nullFrame [{ table.scope with hasRowid := false }],
                        definition := some .generated }
  for c in table.columns do
    if let some (e, _) := c.generated then
      discard (eval evalFuel env e)

/-- The table a draft describes, with the indexes its keys need (named after the table). In a
strict table every column must have a standard type (`ANY` taking no affinity), and the columns
of a primary key other than the row id may not hold null. -/
def TableDraft.finish (tname : String) (d : TableDraft) (withoutRowid strict : Bool)
    (contents : Contents) : Except SqlFault (Table × List Index) := do
  if let some (cols, _, _) := d.primaryKey then
    if cols.any fun k => d.columns.any fun c => sameName c.name k.column && c.generated.isSome then
      throw (.otherMessage "generated columns cannot be part of the PRIMARY KEY")
  if strict then
    if let some f := strictTypeFault? tname d.columns then throw f
  let mut columns := d.columns.map fun c =>
    if strict && standardType? c.type == some "ANY" then { c with affinity := .blob } else c
  let mut rowidColumn : Option Nat := none
  let mut rowidConflict : Conflict := .abort
  let mut autoincrement := false
  match d.primaryKey with
  | none => if withoutRowid then throw (.missingPrimaryKey tname)
  | some (cols, conflict, auto) =>
    let positions ← cols.mapM fun k => columnPosition columns k.column
    for (i, k) in positions.zip (List.range positions.length) do
      columns := columns.set i { columns.getD i default with pk := k + 1 }
    match cols, positions with
    | [k], [i] =>
      if !k.desc && (columns.getD i default).type.map foldAscii == "integer" then
        if withoutRowid then
          if auto then throw (.otherMessage "AUTOINCREMENT not allowed on WITHOUT ROWID tables")
        else
          rowidColumn := some i
          rowidConflict := conflict.getD .abort
          autoincrement := auto
      else if auto then throw .autoincrementWithoutIntegerKey
    | _, _ => if auto then throw .autoincrementWithoutIntegerKey
    if withoutRowid || strict then
      for i in positions do
        let c := columns.getD i default
        if rowidColumn != some i && c.notNull.isNone then
          columns := columns.set i { c with notNull := some .abort }
  let keyTerms ← if !withoutRowid then pure [] else
    match d.primaryKey with
    | some (terms, _, _) => terms.mapM fun k => do
        let i ← columnPosition columns k.column
        let coll ← match k.collation with
          | some n => collationNamed n
          | none => pure (columns.getD i default).collation
        pure (i, coll, k.desc)
    | none => pure []
  -- the keys in the order they are written; one on the same columns under the same collations
  -- as an earlier one is that one, and takes its conflict clause if it has none
  let mut keyed : List (List Nat × List Collation × List Bool × Option Conflict × Bool) := []
  for (terms, conflict, isPrimary) in d.keys do
    if isPrimary && rowidColumn.isSome then continue
    let positions ← terms.mapM fun k => columnPosition columns k.column
    let colls ← (terms.zip positions).mapM fun (k, i) =>
      match k.collation with
      | some n => collationNamed n
      | none => pure (columns.getD i default).collation
    match keyed.findIdx? fun (p, c, _, _, _) => p == positions && c == colls with
    | some j =>
      let (p, c, desc, earlier, wasPrimary) := keyed.getD j default
      if earlier.isSome && conflict.isSome && earlier != conflict then
        throw (.otherMessage "conflicting ON CONFLICT clauses specified")
      keyed := keyed.set j (p, c, desc, if earlier.isSome then earlier else conflict, wasPrimary || isPrimary)
    | none => keyed := keyed ++ [(positions, colls, terms.map (·.desc), conflict, isPrimary)]
  let refs ← d.references.mapM fun (cols, key, ofColumn) => do
    let positions ← cols.mapM fun n =>
      match columns.findIdx? (sameName ·.name n) with
      | some i => pure i
      | none => throw (.otherMessage ("unknown column \"" ++ n ++ "\" in foreign key definition"))
    pure ({ columns := positions, key := key, ofColumn := ofColumn } : ChildKey)
  let table : Table := { name := tname, columns := columns, hasRowid := !withoutRowid,
                         rowidColumn := rowidColumn, rowidConflict := rowidConflict,
                         autoincrement := autoincrement, checks := d.checks, foreignKeys := refs,
                         strict := strict, keyTerms := keyTerms }
  table.probeDefinitions contents
  if columns.any (·.generated.isSome) && columns.all (·.generated.isSome) then
    throw (.otherMessage "must have at least one non-generated column")
  let indexes := ((List.range keyed.length).zip keyed).map fun (n, (cols, colls, desc, conflict, isKey)) =>
    ({ name := "sqlite_autoindex_" ++ tname ++ "_" ++ toString (n + 1), table := tname,
       columns := cols, unique := true, conflict := conflict.getD .abort, primaryKey := isKey,
       automatic := true, collations := colls, descending := desc } : Index)
  return (table, indexes)

/-- The fault of a name already taken: by a table or view (quoting the name as written), or by
an index. -/
def nameTaken (c : Contents) (name : String) (token : Token) (base : Nat) : Option SqlFault :=
  match c.tableIn? false name, c.view? name, c.index? name with
  | some _, _, _ => some (.alreadyExists "table" token.text (some (token.offset - base)))
  | _, some _, _ => some (.alreadyExists "view" token.text (some (token.offset - base)))
  | _, _, some _ => some (.tableNamedLikeIndex name)
  | _, _, _ => none

/-- The fault of a name already taken in the schema a table is made in: the temporary tables
hold their own names. -/
def nameTakenIn (c : Contents) (temporary : Bool) (name : String) (token : Token) (base : Nat) :
    Option SqlFault :=
  if temporary then
    match c.tableIn? true name with
    | some _ => some (.alreadyExists "table" token.text (some (token.offset - base)))
    | none => if (c.index? name).isSome then some (.tableNamedLikeIndex name) else none
  else nameTaken c name token base

/-- `CREATE TABLE`. -/
def Database.createTable (db : Database) (base : Nat) (temporary ifNotExists : Bool) (name : String)
    (token : Token) (cols : List ColumnDef) (consts : List TableConstraint) (withoutRowid strict : Bool) :
    Except SqlFault Database := do
  if reservedObjectName name then throw (.reservedName name)
  if let some f := nameTakenIn db.contents temporary name token base then
    match f with
    | .tableNamedLikeIndex _ => throw f
    | _ => if ifNotExists then return db else throw f
  let d ← cols.foldlM (TableDraft.addColumn name) {}
  let d ← consts.foldlM (TableDraft.addConstraint name) d
  let (table, indexes) ← d.finish name withoutRowid strict db.contents
  return { db with contents := { db.contents with tables := db.contents.tables ++ [{ table with temporary }],
                                                  indexes := db.contents.indexes ++ indexes } }

/-- The name an argument of a module declares: its first word, unquoted. -/
def argumentName (arg : String) : String :=
  dequote (String.ofList (arg.toList.takeWhile fun c => c != ' ' && c != '\t' && c != '\n' && c != '\r'))

/-- The columns of an r-tree declared by the arguments of its module: the row id, the bounds
(of type `REAL`, or `INT` for one of integers) and the auxiliary columns (marked by `+`, last).
Gives the columns with the number of dimensions. -/
def rtreeColumns (integer : Bool) (args : List String) : Except SqlFault (List Column × Nat) := do
  if args.length < 3 then throw (.otherMessage "Too few columns for an rtree table")
  if args.length > 100 then throw (.otherMessage "Too many columns for an rtree table")
  let rest := args.drop 1
  let bounds := rest.takeWhile fun a => !a.startsWith "+"
  let aux := rest.drop bounds.length
  if aux.any fun a => !a.startsWith "+" then
    throw (.otherMessage "Auxiliary rtree columns must be last")
  if bounds.length < 2 then throw (.otherMessage "Too few columns for an rtree table")
  if bounds.length > 10 then throw (.otherMessage "Too many columns for an rtree table")
  if bounds.length % 2 == 1 then throw (.otherMessage "Wrong number of columns for an rtree table")
  let id : Column := { name := argumentName (args.headD ""), type := "INT" }
  let coords := bounds.map fun a => ({ name := argumentName a, type := if integer then "INT" else "REAL" } : Column)
  let extra := aux.map fun a => ({ name := argumentName (a.drop 1).toString } : Column)
  return (id :: coords ++ extra, bounds.length / 2)

/-- The columns of a full-text table declared by the arguments of its module: each argument that
sets no option (`key=value`) names one. -/
def fullTextColumns (fts5 : Bool) (args : List String) : Except SqlFault (List Column) := do
  let names := (args.filter fun a => !a.contains '=').map argumentName
  if fts5 then
    if let some n := names.find? fun n => sameName n "rank" || sameName n "rowid" then
      throw (.otherMessage ("reserved fts5 column name: " ++ n))
  return names.map fun n => ({ name := n } : Column)

/-- `CREATE VIRTUAL TABLE`: a table of a module, `rtree` (or `rtree_i32`) for boxes, `fts5`,
`fts4` or `fts3` for full text. -/
def Database.createVirtual (db : Database) (base : Nat) (ifNotExists : Bool) (name : String)
    (token : Token) (module : String) (args : List String) : Except SqlFault Database := do
  if reservedObjectName name then throw (.reservedName name)
  if let some f := nameTaken db.contents name token base then
    match f with
    | .tableNamedLikeIndex _ => throw f
    | _ => if ifNotExists then return db else throw f
  let m := module.toLower
  let table : Table ←
    if m == "rtree" || m == "rtree_i32" then do
      let (columns, dims) ← rtreeColumns (m == "rtree_i32") args
      pure { name, columns, rowidColumn := some 0, virtual := some (.rtree dims (m == "rtree_i32")) }
    else if m == "fts5" || m == "fts4" || m == "fts3" then do
      let columns ← fullTextColumns (m == "fts5") args
      pure { name, columns, virtual := some .fullText }
    else throw (.otherMessage ("no such module: " ++ module))
  return { db with contents := { db.contents with tables := db.contents.tables ++ [table] } }

/-- The declared type a column made from a query result takes from its affinity. -/
def Affinity.typeName : Affinity → String
  | .text => "TEXT"
  | .numeric => "NUM"
  | .integer => "INT"
  | .real => "REAL"
  | _ => ""

/-- `CREATE TABLE … AS query`: columns named and typed after the result, holding its rows. -/
def Database.createTableAs (db : Database) (base : Nat) (temporary ifNotExists : Bool) (name : String)
    (token : Token) (q : Query) : Except SqlFault Database := do
  if reservedObjectName name then throw (.reservedName name)
  if let some f := nameTakenIn db.contents temporary name token base then
    match f with
    | .tableNamedLikeIndex _ => throw f
    | _ => if ifNotExists then return db else throw f
  let rows := (← Database.rowsOf (db.env []) q).uniquelyNamed
  let columns := rows.columns.map fun c =>
    ({ name := c.name, type := c.affinity.typeName, affinity := Affinity.ofType c.affinity.typeName } : Column)
  let table : Table := { name := name, columns := columns, temporary := temporary }
  let table := ((List.range rows.rows.length).zip rows.rows).foldl (fun (t : Table) (i, r) =>
    t.putRow (i + 1) ((r.zip columns).map fun (v, c) => v.withAffinity c.affinity)) table
  return { db with contents := { db.contents with tables := db.contents.tables ++ [table] } }

/-- `CREATE [UNIQUE] INDEX`: the indexed columns must exist, and a unique index must hold for
the rows already there. -/
def Database.createIndex (db : Database) (unique ifNotExists : Bool) (name : String) (tname : String)
    (cols : List (Expr × Bool)) (filter : Option Expr) : Except SqlFault Database := do
  let some t := db.contents.table? tname
    | if (db.contents.view? tname).isSome then throw (.otherMessage "views may not be indexed")
      else throw (.noSuchTable ("main." ++ tname))
  if reservedObjectName t.name then
    throw (.otherMessage ("table " ++ t.name ++ " may not be indexed"))
  if t.virtual.isSome then throw (.otherMessage "virtual tables may not be indexed")
  if reservedObjectName name then throw (.reservedName name)
  if (db.contents.table? name).isSome || (db.contents.view? name).isSome then
    throw (.indexNamedLikeTable name)
  if (db.contents.index? name).isSome then
    if ifNotExists then return db
    else throw (.alreadyExists "index" name none)
  -- an index expression cannot read the row id; the condition of a partial index can
  let env : Env := { contents := db.contents, probe := true,
                     frame := nullFrame [{ t.scope with hasRowid := false }], definition := some .indexed }
  let mut positions : List Nat := []
  let mut plain := true
  let mut terms : List Expr := []
  let mut colls : List Collation := []
  for (e, _) in cols do
    let (inner, named) := stripCollate e
    let given ← named.mapM collationNamed
    match inner with
    | .column none n _ off =>
      match t.columnIndex? n with
      | some i =>
        positions := positions ++ [i]
        colls := colls ++ [given.getD (t.column i).collation]
      | none => throw (.noSuchColumn n (some off))
    | other =>
      let _ ← eval evalFuel env other
      let (own, _) ← collationOf evalFuel env other
      plain := false
      colls := colls ++ [given.getD (own.getD .binary)]
    terms := terms ++ [inner]
  if let some w := filter then
    let _ ← eval evalFuel { env with frame := nullFrame [t.scope], definition := some .partialIndex } w
  let idx : Index :=
    { name := name, table := t.name, columns := if plain then positions else [], unique := unique,
      expressions := if plain then none else some terms, collations := colls, filter := filter,
      descending := cols.map (·.2) }
  let keys ← t.rows.filterMapM fun (rid, vals) => idx.keyOf t (db.env []) rid vals
  if unique then
    let clash := keys.any fun k => (keys.filter (idx.sameKey t k)).length > 1
    if clash then throw (.unique (idx.faultColumns t))
  return { db with contents := { db.contents with indexes := db.contents.indexes ++ [idx] } }

/-- `CREATE VIEW`. -/
def Database.createView (db : Database) (base : Nat) (ifNotExists : Bool) (name : String) (token : Token)
    (cols : List String) (q : Query) : Except SqlFault Database := do
  if reservedObjectName name then throw (.reservedName name)
  if let some f := nameTaken db.contents name token base then
    match f with
    | .tableNamedLikeIndex _ => throw f
    | _ => if ifNotExists then return db else throw f
  return { db with contents := { db.contents with views := db.contents.views ++ [{ name := name, columns := cols, q := q }] } }

/-- `DROP TABLE`: the table, its indexes and its `AUTOINCREMENT` record go; with foreign keys
enforced, its rows are deleted first. -/
def Database.dropTable (db : Database) (ifExists : Bool) (name : String) : Database × Option SqlFault :=
  match db.contents.table? name with
  | none =>
    if (db.contents.view? name).isSome then (db, some (.otherMessage ("use DROP VIEW to delete view " ++ name)))
    else if ifExists then (db, none) else (db, some (.noSuchTable name))
  | some t =>
    if reservedObjectName t.name then (db, some (.otherMessage ("table " ++ t.name ++ " may not be dropped")))
    else
      -- the rows go first, firing no trigger
      let emptied := if db.foreignKeys && !(referencesTo db.contents t.name).isEmpty then
          Database.modify { db with contents := { db.contents with triggers := [] } } []
            (.delete [] none t.name none none)
        else (db, none)
      match emptied with
      | (_, some f) => (db, some f)
      | (db', none) =>
        let c := db'.contents
        ({ db' with contents := { c with tables := c.tables.filter fun x =>
                                           !(sameName x.name t.name && x.temporary == t.temporary),
                                         indexes := c.indexes.filter (!sameName ·.table t.name),
                                         sequence := c.sequence.filter (!sameName ·.1 t.name),
                                         triggers := db.contents.triggers.filter
                                           (!sameName ·.table t.name) } }, none)

/-- `DROP INDEX`. -/
def Database.dropIndex (db : Database) (ifExists : Bool) (name : String) : Except SqlFault Database :=
  match db.contents.index? name with
  | none => if ifExists then .ok db else .error (.noSuchIndex name)
  | some idx =>
    if idx.automatic then
      .error (.otherMessage "index associated with UNIQUE or PRIMARY KEY constraint cannot be dropped")
    else .ok { db with contents := { db.contents with indexes := db.contents.indexes.filter (!sameName ·.name name) } }

/-- `DROP VIEW`. -/
def Database.dropView (db : Database) (ifExists : Bool) (name : String) : Except SqlFault Database :=
  match db.contents.view? name with
  | none =>
    if (db.contents.table? name).isSome then .error (.otherMessage ("use DROP TABLE to delete table " ++ name))
    else if ifExists then .ok db else .error (.noSuchView name)
  | some _ => .ok { db with contents := { db.contents with
      views := db.contents.views.filter (!sameName ·.name name),
      triggers := db.contents.triggers.filter (!sameName ·.table name) } }

/-- `CREATE TRIGGER`: on a table, before or after a change; on a view, in place of one. -/
def Database.createTrigger (db : Database) (base : Nat) (ifNotExists : Bool) (name : String)
    (token : Token) (time : TriggerTime) (event : TriggerEvent) (target : String)
    (condition : Option Expr) (body : List Statement) : Except SqlFault Database := do
  let onView ← match db.contents.table? target, db.contents.view? target with
    | some _, _ => pure false
    | none, some _ => pure true
    | none, none => throw (.noSuchTable ("main." ++ target))
  if (db.contents.table? target).any (·.virtual.isSome) then
    throw (.otherMessage "cannot create triggers on virtual tables")
  if reservedObjectName name then throw (.reservedName name)
  if db.contents.triggers.any (sameName ·.name name) then
    if ifNotExists then return db
    else throw (.alreadyExists "trigger" token.text (some (token.offset - base)))
  if reservedObjectName target then throw (.otherMessage "cannot create trigger on system table")
  if onView && time != .insteadOf then
    throw (.otherMessage ("cannot create " ++ (if time == .before then "BEFORE" else "AFTER") ++
      " trigger on view: " ++ target))
  if !onView && time == .insteadOf then
    throw (.otherMessage ("cannot create INSTEAD OF trigger on table: " ++ target))
  let trigger : Trigger :=
    { name, table := target, time, event, condition, body, nameOffset := token.offset - base }
  return { db with contents := { db.contents with triggers := db.contents.triggers ++ [trigger] } }

/-- `DROP TRIGGER`. -/
def Database.dropTrigger (db : Database) (ifExists : Bool) (name : String) : Except SqlFault Database :=
  if db.contents.triggers.any (sameName ·.name name) then
    .ok { db with contents := { db.contents with
      triggers := db.contents.triggers.filter (!sameName ·.name name) } }
  else if ifExists then .ok db
  else .error (.otherMessage ("no such trigger: " ++ name))

/-- The table `ALTER TABLE` names, or the fault of naming a view or nothing. -/
def Database.alteredTable (db : Database) (name : String) (viewFault : String → SqlFault) :
    Except SqlFault Table :=
  match db.contents.table? name, db.contents.view? name with
  | some t, _ => .ok t
  | none, some v => .error (viewFault v.name)
  | none, none => .error (.noSuchTable name)

/-- `ALTER TABLE … RENAME TO`. -/
def Database.renameTable (db : Database) (name newName : String) : Except SqlFault Database := do
  let t ← db.alteredTable name fun n => .otherMessage ("view " ++ n ++ " may not be altered")
  if (db.contents.table? newName).isSome || (db.contents.index? newName).isSome || (db.contents.view? newName).isSome then
    throw (.otherMessage ("there is already another table or index with this name: " ++ newName))
  if reservedObjectName newName then throw (.reservedName newName)
  let c := db.contents
  let rename (n : String) : String := if sameName n t.name then newName else n
  let tables := c.tables.map fun x =>
    let x := if sameName x.name t.name then { x with name := newName } else x
    { x with foreignKeys := x.foreignKeys.map fun k => { k with key := { k.key with parent := rename k.key.parent } } }
  let indexes := c.indexes.map fun i => { i with table := rename i.table }
  let sequence := c.sequence.map fun (n, v) => (rename n, v)
  let triggers := c.triggers.map fun tr => { tr with table := rename tr.table }
  return { db with contents := { c with tables, indexes, sequence, triggers } }

/-- Whether the rows already in a table can take a default value as it is written, without
working it out: a literal, `TRUE` or `FALSE`, one of these behind signs, or a cast of one. -/
def storableDefault : Nat → Expr → Bool
  | 0, _ => false
  | fuel + 1, e =>
    match e with
    | .null | .integer _ _ | .float _ | .string _ | .blob _ => true
    | .column none name false _ => sameName name "true" || sameName name "false"
    | .unary .neg a | .unary .plus a | .cast a _ => storableDefault fuel a
    | _ => false

/-- Whether a value fits a column of a strict table as the table is checked as a whole: a
`REAL` column also takes integers. -/
def strictFits (type : String) : SqlValue → Bool
  | .null => true
  | v =>
    match standardType? type, v with
    | some "INT", .int _ | some "INTEGER", .int _ => true
    | some "REAL", .real _ | some "REAL", .int _ => true
    | some "TEXT", .text _ | some "BLOB", .blob _ => true
    | some "INT", _ | some "INTEGER", _ | some "REAL", _ | some "TEXT", _ | some "BLOB", _ => false
    | _, _ => true

/-- Checks the rows of a table that a column was just added to, in turn: in each row first the
columns in order (a null where none may be, a value of the wrong kind in a strict table), then
the checks. -/
def Table.verifyRows (t : Table) (env : Env) : Except SqlFault Unit := do
  for (rid, vals) in t.rows do
    for i in List.range t.columns.length do
      let col := t.column i
      let v := vals.getD i .null
      if t.rowidColumn != some i then
        if col.notNull.isSome && v.isNull then throw (.otherMessage "NOT NULL constraint failed")
        if t.strict && !strictFits col.type v then throw (.otherMessage "type mismatch on DEFAULT")
    for k in t.checks do
      let env := { env with frame := t.rowFrame rid vals, definition := some .check }
      if !(← passesTest evalFuel env true k.e) then throw (.otherMessage "CHECK constraint failed")

/-- `ALTER TABLE … ADD COLUMN`. A table that holds rows may not take a column that is `NOT NULL`
with a null default, a foreign key with a default other than null (when foreign keys are
enforced), a default that must be worked out, or a stored generated column; the rows take the
default (and generated columns their values). Then the table's definition is read again, and
when the column brings a check, is a generated `NOT NULL` column, or the table is strict, the
rows are checked. -/
def Database.addColumn (db : Database) (tname : String) (cdef : ColumnDef) : Except SqlFault Database := do
  let t ← db.alteredTable tname fun _ => .otherMessage "Cannot add a column to a view"
  if t.virtual.isSome then throw (.otherMessage "virtual tables may not be altered")
  if t.columns.any (sameName ·.name cdef.name) then throw (.duplicateColumn cdef.name)
  if cdef.keys.any (·.primary) then throw (.otherMessage "Cannot add a PRIMARY KEY column")
  if cdef.keys.any (!·.primary) then throw (.otherMessage "Cannot add a UNIQUE column")
  let d ← ({ columns := t.columns } : TableDraft).addColumn tname cdef
  let col := d.columns.getLast?.getD default
  let col := if t.strict && standardType? col.type == some "ANY" then { col with affinity := .blob } else col
  let filled := !t.rows.isEmpty
  let dflt := match cdef.default with
    | some .null => none
    | e => e
  match cdef.generated with
  | none =>
    if filled then
      if db.foreignKeys && cdef.references.isSome && dflt.isSome then
        throw (.otherMessage "Cannot add a REFERENCES column with non-NULL default value")
      if cdef.notNull.isSome && dflt.isNone then
        throw (.otherMessage "Cannot add a NOT NULL column with default value NULL")
      if !((dflt.map (storableDefault 10000)).getD true) then
        throw (.otherMessage "Cannot add a column with non-constant default")
  | some (_, stored) =>
    if filled && stored then throw (.otherMessage "cannot add a STORED column")
  let value ← match cdef.default with
    | some e => if filled then eval evalFuel (db.env []) e else pure .null
    | none => pure .null
  let value := value.withAffinity col.affinity
  let t' := { t with columns := t.columns ++ [col],
                     checks := t.checks ++ cdef.checks.map ({ · with column := some cdef.name }),
                     rows := t.rows.map fun (rid, vals) => (rid, vals ++ [value]) }
  let t' := match cdef.references with
    | some r => { t' with foreignKeys := t'.foreignKeys ++ [{ columns := [t.columns.length], key := r, ofColumn := true }] }
    | none => t'
  let contents := db.contents.setTable t'
  let again : Except SqlFault Unit := do
    if t'.strict then
      if let some f := strictTypeFault? t'.name t'.columns then throw f
    t'.probeDefinitions contents
  again.mapError fun f =>
    .otherMessage ("error in table " ++ t.name ++ " after add column: " ++ f.message)
  let env := { db.env [] with contents := contents }
  let t' ← if cdef.generated.isSome then
      let rows ← t'.rows.mapM fun (rid, vals) => do pure (rid, ← t'.withGenerated env rid vals)
      pure { t' with rows := rows }
    else pure t'
  if !cdef.checks.isEmpty || (cdef.notNull.isSome && cdef.generated.isSome) || t'.strict then
    t'.verifyRows env
  return { db with contents := db.contents.setTable t' }

/-- The text of a definition with a renamed column's name written anew: each name that is the
old column's, and is neither a function's nor qualified by another table, becomes the new one
(in double quotes where the old one was quoted). -/
def renameInText (table old new : String) (text : String) : String :=
  let bytes := text.toUTF8
  let slice (a b : Nat) : String := (String.fromUTF8? (bytes.extract a b)).getD ""
  let tokens := tokenize text
  let renamed (k : Nat) (t : Token) : Bool :=
    ((t.kind == .word && !t.isReserved) || t.kind == .quoted) && sameName (dequote t.text) old &&
    !((tokens[k + 1]?).any fun n => n.isPunct "(" || n.isPunct ".") &&
    (match k, tokens[k - 1]? with
     | k + 1, some p => !p.isPunct "." || (tokens[k - 1]?).any fun q => q.name?.any (sameName · table)
     | _, _ => true)
  let quotedNew := "\"" ++ new.replace "\"" "\"\"" ++ "\""
  let (out, last) := tokens.zipIdx.foldl (fun (out, last) (t, k) =>
      if renamed k t then
        (out ++ slice last t.offset ++ (if t.kind == .quoted then quotedNew else new),
          t.offset + t.text.utf8ByteSize)
      else (out, last)) ("", 0)
  out ++ slice last bytes.size

/-- `ALTER TABLE … RENAME COLUMN`: the column takes its new name in the table, in its checks,
generated columns and indexes, and in the foreign keys that refer to it. -/
def Database.renameColumn (db : Database) (tname old new : String) : Except SqlFault Database := do
  let t ← db.alteredTable tname fun n => .otherMessage ("cannot rename columns of view \"" ++ n ++ "\"")
  if t.virtual.isSome then
    throw (.otherMessage ("cannot rename columns of virtual table \"" ++ t.name ++ "\""))
  let some i := t.columnIndex? old | throw (.otherMessage ("no such column: \"" ++ old ++ "\""))
  let oldName := (t.column i).name
  if (List.range t.columns.length).any fun j => j != i && sameName (t.column j).name new then
    throw (.otherMessage ("error in table " ++ t.name ++ " after rename: duplicate column name: " ++ new))
  let f (q : Option String) (n : String) : String :=
    if sameName n oldName && q.all (sameName · t.name) then new else n
  let fix (e : Expr) : Expr := e.mapColumnNames f 10000
  let columns := ((List.range t.columns.length).zip t.columns).map fun (j, c) =>
    { c with name := if j == i then new else c.name,
             generated := c.generated.map fun (e, stored) => (fix e, stored) }
  let checks := t.checks.map fun k =>
    { k with e := fix k.e,
             name := if k.named then k.name else renameInText t.name oldName new k.name,
             column := k.column.map fun n => if sameName n oldName then new else n }
  let c := db.contents.setTable { t with columns, checks }
  let renameKey (k : ChildKey) : ChildKey :=
    if sameName k.key.parent t.name then
      let parentColumns := k.key.parentColumns.map fun n => if sameName n oldName then new else n
      { k with key := { k.key with parentColumns } }
    else k
  let tables := c.tables.map fun x => { x with foreignKeys := x.foreignKeys.map renameKey }
  let indexes := c.indexes.map fun x =>
    if sameName x.table t.name then
      { x with expressions := x.expressions.map (·.map fix), filter := x.filter.map fix }
    else x
  return { db with contents := { c with tables, indexes } }

/-- `ALTER TABLE … DROP COLUMN`. The column goes with the constraints its own definition holds;
then the schema is read again, and what still names the column fails it: the table's other
constraints and generated columns, then its indexes, then the views. -/
def Database.dropColumn (db : Database) (tname col : String) : Except SqlFault Database := do
  let t ← db.alteredTable tname fun n => .otherMessage ("cannot drop column from view \"" ++ n ++ "\"")
  if t.virtual.isSome then
    throw (.otherMessage ("cannot drop column from virtual table \"" ++ t.name ++ "\""))
  let some i := t.columnIndex? col | throw (.otherMessage ("no such column: \"" ++ col ++ "\""))
  let c := t.column i
  if c.pk > 0 then throw (.otherMessage ("cannot drop PRIMARY KEY column: \"" ++ c.name ++ "\""))
  if c.unique then throw (.otherMessage ("cannot drop UNIQUE column: \"" ++ c.name ++ "\""))
  if t.columns.length ≤ 1 then
    throw (.otherMessage ("cannot drop column \"" ++ c.name ++ "\": no other columns exist"))
  let shift (j : Nat) : Nat := if j > i then j - 1 else j
  let t' := { t with columns := t.columns.eraseIdx i,
                     rowidColumn := t.rowidColumn.map shift,
                     keyTerms := t.keyTerms.map fun (j, coll, desc) => (shift j, coll, desc),
                     checks := t.checks.filter fun k => !(k.column.any (sameName · c.name)),
                     foreignKeys := (t.foreignKeys.filter fun k => !(k.ofColumn && k.columns.contains i)).map
                       fun k => { k with columns := k.columns.map shift },
                     rows := t.rows.map fun (rid, vals) => (rid, vals.eraseIdx i) }
  let own := db.contents.indexesOf t.name
  let indexes := db.contents.indexes.map fun x =>
    if sameName x.table t.name then { x with columns := x.columns.map shift } else x
  let contents := { (db.contents.setTable t') with indexes := indexes }
  let after (kind name : String) (f : SqlFault) : SqlFault :=
    .otherMessage ("error in " ++ kind ++ " " ++ name ++ " after drop column: " ++ f.message)
  let gone : SqlFault := .noSuchColumn c.name none
  let fail (kind name : String) (r : Except SqlFault Unit) : Except SqlFault Unit :=
    r.mapError (after kind name)
  -- the table: its unique and foreign keys, its checks, its generated columns
  if own.any fun x => x.automatic && x.columns.contains i then throw (after "table" t.name gone)
  if t'.foreignKeys.any (fun k => !k.ofColumn && k.columns.contains i) then
    throw (after "table" t.name (.otherMessage ("unknown column \"" ++ c.name ++ "\" in foreign key definition")))
  let env : Env := { contents := contents, probe := true, frame := nullFrame [t'.scope],
                     definition := some .check }
  for k in t'.checks do
    fail "table" t.name (discard (eval evalFuel env k.e))
  let genEnv := { env with frame := nullFrame [{ t'.scope with hasRowid := false }],
                           definition := some .generated }
  for col in t'.columns do
    if let some (e, _) := col.generated then fail "table" t.name (discard (eval evalFuel genEnv e))
  -- the indexes made by CREATE INDEX
  for x in own do
    if !x.automatic then
      if x.columns.contains i then throw (after "index" x.name gone)
      let idxEnv := { env with frame := nullFrame [{ t'.scope with hasRowid := false }],
                               definition := some .indexed }
      for e in x.expressions.getD [] do fail "index" x.name (discard (eval evalFuel idxEnv e))
      if let some w := x.filter then
        fail "index" x.name (discard (eval evalFuel { env with definition := some .partialIndex } w))
  -- the views
  for v in contents.views do
    fail "view" v.name (discard (runQuery evalFuel { contents := contents, probe := true } v.q))
  return { db with contents := contents }

end GraphIngest.Sql
