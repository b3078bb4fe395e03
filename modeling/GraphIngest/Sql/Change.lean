import GraphIngest.Sql.Eval

/-!
# Changing rows

Inserting, updating and deleting rows, with the constraints of the table checked on every row
written: the row id, `NOT NULL` columns in column order, the checks, the row id against the other
rows, then the unique indexes, newest first. A violated constraint resolves by its conflict
clause, or by the statement's `OR` clause when it has one.

Foreign keys, when enforced, are checked when the statement ends. Deleting a parent row first
carries out the `ON DELETE` action of each reference to it.
-/

namespace GraphIngest.Sql

def Table.scope (t : Table) : Scope := { name := t.name, columns := t.columnInfos, hasRowid := t.hasRowid }

def Table.rowFrame (t : Table) (rowid : Int) (values : List SqlValue) : Frame :=
  [{ scope := t.scope, values := values, rowid := rowid }]

/-- The environment a statement of a connection evaluates in. -/
def Database.env (db : Database) (params : List SqlValue) : Env :=
  { contents := db.contents, params := params, lastRowid := db.lastRowid, changes := db.changes,
    totalChanges := db.totalChanges, caseSensitiveLike := db.caseSensitiveLike, clock := db.clock }

/-- A fault with the conflict resolution that applies to it. -/
abbrev Halt := SqlFault × Conflict

/-- The resolution of a violated constraint: the statement's own when it names one, else the
constraint's. -/
def effective (override : Option Conflict) (own : Conflict) : Conflict := override.getD own

/-- What a statement has done so far. -/
structure Change where
  contents : Contents
  count : Nat := 0
  lastRowid : Option Int := none
  /-- Rows written, whose references are checked at the end. -/
  written : List (String × Int) := []
  /-- Rows removed or changed, with their values before, whose referencing rows are checked at
  the end. -/
  removed : List (String × List SqlValue × Int) := []
  /-- Rows the statements of triggers changed, counted in the connection's total only. -/
  triggered : Nat := 0
  deriving Inhabited

/-- The resolution a fault halts a statement with: the one a `RAISE` names, else `ABORT`. -/
def halted (e : SqlFault) : Halt :=
  match e with
  | .raised .fail _ => (e, .fail)
  | .raised .rollback _ => (e, .rollback)
  | _ => (e, .abort)

/-- A value as a row id: integers, and values that convert to integers. -/
def rowidOf (v : SqlValue) : Option Int :=
  match v.withAffinity .integer with
  | .int i => some i
  | _ => none

/-- The parent key a reference names: the named columns, or the parent's primary key; `none`
stands for the row id. The key must be the primary key or the columns of a unique index. -/
def parentKey (parent : Table) (child : String) (fk : ForeignKey) : Except SqlFault (List (Option Nat)) :=
  let mismatch := SqlFault.foreignKeyMismatch child parent.name
  if fk.parentColumns.isEmpty then
    match parent.rowidColumn with
    | some _ => .ok [none]
    | none =>
      let ks := parent.keyColumns
      if ks.isEmpty then .error mismatch else .ok (ks.map some)
  else
    match fk.parentColumns.mapM parent.columnIndex? with
    | none => .error mismatch
    | some cols =>
      if cols.length == 1 && parent.rowidColumn == cols.head? then .ok [none]
      else if cols.length == parent.keyColumns.length && cols.all parent.keyColumns.contains then
        .ok (cols.map some)
      else .error mismatch

def keyValue (rowid : Int) (values : List SqlValue) : Option Nat → SqlValue
  | none => .int rowid
  | some i => values.getD i .null

/-- Whether a child value matches a parent key value: under the parent column's affinity and
collation, or as an integer for the row id. -/
def keyMatches (parent : Table) (pos : Option Nat) (child key : SqlValue) : Bool :=
  match pos with
  | none =>
    match rowidOf child, key with
    | some i, .int j => i == j
    | _, _ => false
  | some i =>
    let col := parent.column i
    let v := child.withAffinity col.affinity
    !v.isNull && !key.isNull && v.compareWith col.collation key == .eq

def parentExists (parent : Table) (pk : List (Option Nat)) (childVals : List SqlValue) : Bool :=
  parent.rows.any fun (rid, vals) =>
    (pk.zip childVals).all fun (pos, v) => keyMatches parent pos v (keyValue rid vals pos)

/-- The references to a table: each referencing table with its foreign key. -/
def referencesTo (c : Contents) (parent : String) : List (Table × ChildKey) :=
  c.tables.flatMap fun t => (t.foreignKeys.filter fun k => sameName k.key.parent parent).map (t, ·)

def referencingRows (parent : Table) (pk : List (Option Nat)) (child : Table) (ck : ChildKey)
    (key : List SqlValue) : List (Int × List SqlValue) :=
  child.rows.filter fun (_, vals) =>
    ((pk.zip (ck.columns.map fun i => vals.getD i .null)).zip key).all fun ((pos, v), k) =>
      keyMatches parent pos v k

/-- Removes a row; with foreign keys enforced, first carries out the `ON DELETE` action of each
reference to it. -/
def removeRow (fks : Bool) : Nat → Change → String → Int → Except SqlFault Change
  | 0, ch, _, _ => .ok ch
  | fuel + 1, ch, tname, rowid =>
    match ch.contents.table? tname with
    | none => .ok ch
    | some t =>
      match t.row? rowid with
      | none => .ok ch
      | some values => do
        let ch := { ch with contents := ch.contents.setTable (t.removeRow rowid),
                            removed := ch.removed ++ [(t.name, values, rowid)] }
        if !fks then return ch
        let mut ch := ch
        for (child, ck) in referencesTo ch.contents t.name do
          let pk ← parentKey t child.name ck.key
          let key := pk.map (keyValue rowid values)
          if key.any (·.isNull) then continue
          let some current := ch.contents.table? child.name | continue
          let hits := referencingRows t pk current ck key
          match ck.key.onDelete with
          | .cascade =>
            for (rid, _) in hits do
              ch ← removeRow fks fuel ch current.name rid
          | .setNull | .setDefault =>
            let updated := hits.foldl (fun (tb : Table) (rid, vals) =>
              let vals' := (List.range vals.length).map fun i =>
                if ck.columns.contains i then SqlValue.null else vals.getD i .null
              (tb.removeRow rid).putRow rid vals') current
            ch := { ch with contents := ch.contents.setTable updated,
                            written := ch.written ++ hits.map fun (rid, _) => (current.name, rid) }
          | _ => pure ()
        return ch

/-- Whether the rows a statement wrote or removed leave a reference without its parent. -/
def referencesBroken (c : Contents) (ch : Change) : Except SqlFault Bool := do
  for (tname, rowid) in ch.written do
    let some t := c.table? tname | continue
    let some values := t.row? rowid | continue
    for ck in t.foreignKeys do
      let childVals := ck.columns.map fun i => values.getD i .null
      if childVals.any (·.isNull) then continue
      let some parent := c.table? ck.key.parent | throw (.noSuchTable ("main." ++ ck.key.parent))
      let pk ← parentKey parent t.name ck.key
      if !parentExists parent pk childVals then return true
  for (pname, values, rowid) in ch.removed do
    let some parent := c.table? pname | continue
    for (child, ck) in referencesTo c pname do
      let pk ← parentKey parent child.name ck.key
      let key := pk.map (keyValue rowid values)
      if key.any (·.isNull) then continue
      if parentExists parent pk key then continue
      if !(referencingRows parent pk child ck key).isEmpty then return true
  return false

/-- The environment of a statement over the contents it has reached; the last row id is that of
the last row the statement inserted, once it has inserted one. -/
def Change.env (ch : Change) (base : Env) : Env :=
  { base with contents := ch.contents, lastRowid := ch.lastRowid.getD base.lastRowid }

def Table.rowidName (t : Table) : String :=
  match t.rowidColumn with
  | some i => (t.column i).name
  | none => "rowid"

def storageName : SqlValue → String
  | .null => "NULL"
  | .int _ => "INT"
  | .real _ => "REAL"
  | .text _ => "TEXT"
  | .blob _ => "BLOB"

/-- The first value of a row, in column order, that a strict table may not keep: one whose
storage class is not its column's type (null fits any, `ANY` takes anything, and generated
columns are not looked at); with the fault it raises. -/
def strictFault (t : Table) (values : List SqlValue) : Option SqlFault :=
  let bad := (List.range t.columns.length).find? fun i =>
    let col := t.column i
    col.generated.isNone &&
    match standardType? col.type, values.getD i .null with
    | _, .null => false
    | some "INT", v | some "INTEGER", v => !(v matches .int _)
    | some "REAL", v => !(v matches .real _)
    | some "TEXT", v => !(v matches .text _)
    | some "BLOB", v => !(v matches .blob _)
    | _, _ => false
  bad.map fun i =>
    let col := t.column i
    .otherMessage ("cannot store " ++ storageName (values.getD i .null) ++ " value in " ++
      ((standardType? col.type).getD "") ++ " column " ++ t.name ++ "." ++ col.name)

/-- The values of a row with its generated columns worked out from the others, each taking its
column's affinity; as many rounds as there are generated columns, so that one may use another. -/
def Table.withGenerated (t : Table) (env : Env) (rowid : Int) (values : List SqlValue) :
    Except SqlFault (List SqlValue) :=
  let gens := (List.range t.columns.length).filterMap fun i =>
    ((t.column i).generated.map fun (e, _) => (i, e))
  if gens.isEmpty then .ok values else
  (List.range gens.length).foldlM (fun vals _ =>
    gens.foldlM (fun vals (i, e) => do
      let v ← eval evalFuel { env with frame := t.rowFrame rowid vals, definition := some .generated } e
      pure (vals.set i (v.withAffinity (t.column i).affinity))) vals) values

/-- The generated column whose value cannot be worked out, when the generated columns read each
other in a loop. They are worked out in passes, each computing in turn those whose generated
inputs are known (a column reading itself never is); a pass that computes nothing ends it, and
the last column that pass could not compute is the one named. -/
def Table.generatedLoop? (t : Table) : Option String :=
  let gens := (List.range t.columns.length).filter fun i => (t.column i).generated.isSome
  let reads (i : Nat) : List Nat :=
    match (t.column i).generated with
    | some (e, _) => (e.columnRefs 10000).filterMap fun (q, n) =>
        if q.all (sameName · t.name) then t.columnIndex? n else none
    | none => []
  let pass (pending : List Nat) : List Nat × Option Nat × Bool :=
    gens.foldl (fun (pending, stuck, progress) i =>
      if !pending.contains i then (pending, stuck, progress)
      else if (reads i).any pending.contains then (pending, some i, progress)
      else (pending.erase i, stuck, true)) (pending, none, false)
  let rec passes : Nat → List Nat → Option Nat
    | 0, _ => none
    | fuel + 1, pending =>
      match pass pending with
      | (_, none, _) => none
      | (rest, some i, progress) => if progress then passes fuel rest else some i
  (passes (gens.length + 1) gens).map fun i => (t.column i).name

/-- The key a row has in an index: none when the index does not hold the row (a partial index
whose condition does not hold for it) or the key has a null. -/
def Index.keyOf (idx : Index) (t : Table) (env : Env) (rowid : Int) (values : List SqlValue) :
    Except SqlFault (Option (List SqlValue)) := do
  let env := { env with frame := t.rowFrame rowid values }
  if let some w := idx.filter then
    if ← failsTest evalFuel { env with definition := some .partialIndex } true w then return none
  let key ← match idx.expressions with
    | none => pure (idx.columns.map fun i => values.getD i .null)
    | some es => es.mapM (eval evalFuel { env with definition := some .indexed })
  return if key.any (·.isNull) then none else some key

/-- Whether two keys of an index are the same, term by term under its collations. -/
def Index.sameKey (idx : Index) (t : Table) (a b : List SqlValue) : Bool :=
  a.length == b.length &&
    ((a.zip b).zip (List.range a.length)).all fun ((x, y), k) => x.compareWith (idx.collationAt t k) y == .eq

/-- What a fault of a broken unique index names: its columns, or the index itself when its key
has expressions. -/
def Index.faultColumns (idx : Index) (t : Table) : List String :=
  match idx.expressions with
  | some _ => ["index '" ++ idx.name ++ "'"]
  | none => idx.columns.map fun i => t.name ++ "." ++ (t.column i).name

/-- What an `ON CONFLICT` clause does, its assignments resolved to column positions (`none` for
the row id). -/
inductive ClauseAction where
  | nothing
  | update (assignments : List (List (Option Nat) × Expr)) (filter : Option Expr)
  deriving Inhabited

/-- An `ON CONFLICT` clause resolved against its table: the uniqueness constraint it answers
(`none` for any that an earlier clause does not answer, `some none` for the row id,
`some (some name)` for the index of that name) and what it does. -/
structure ConflictClause where
  constraint : Option (Option String)
  action : ClauseAction
  deriving Inhabited

/-- The first clause that answers a uniqueness constraint. -/
def clauseFor (clauses : List ConflictClause) (constraint : Option String) :
    Option ConflictClause :=
  clauses.find? fun c => match c.constraint with
    | none => true
    | some k => match k, constraint with
      | none, none => true
      | some a, some b => sameName a b
      | _, _ => false

/-- A uniqueness constraint to check a row against: the row id, or a unique index. -/
inductive UniqueCheck where
  | rowid
  | index (idx : Index)

/-- What writing a row came to: skipped, written, or stopped at the row in the way (its row id)
by an `ON CONFLICT DO UPDATE` clause. -/
inductive Written where
  | skipped
  | done (ch : Change)
  | inTheWay (rowid : Int) (assignments : List (List (Option Nat) × Expr)) (filter : Option Expr)
  deriving Inhabited

/-- Checks a row against the table's constraints and writes it, replacing `old` (the row id of
the row an update changes). A uniqueness constraint that an `ON CONFLICT` clause answers is
resolved by the clause: skipping the row, or stopping at the row in the way. The constraint the
first clause names is checked before the others. -/
def writeRow (fks : Bool) (base : Env) (override : Option Conflict) (ch : Change) (tname : String)
    (old : Option Int) (rowid : Int) (values : List SqlValue) (clauses : List ConflictClause) :
    Except Halt Written := do
  let some t := ch.contents.table? tname | throw (.noSuchTable tname, .abort)
  -- a strict table with generated columns checks the types of the others first
  if t.strict && t.columns.any (·.generated.isSome) then
    if let some f := strictFault t values then throw (f, .abort)
  -- NOT NULL columns, in column order
  let mut values := values
  for i in List.range t.columns.length do
    let col := t.column i
    if t.rowidColumn == some i then continue
    match col.notNull, values.getD i .null with
    | some own, .null =>
      match effective override own with
      | .ignore => return .skipped
      | .replace =>
        let dflt ← match col.default with
          | some d => (eval evalFuel (ch.env base) d).mapError halted
          | none => pure .null
        let dflt := dflt.withAffinity col.affinity
        if dflt.isNull then throw (.notNull t.name col.name, .abort)
        values := values.set i dflt
      | p => throw (.notNull t.name col.name, p)
    | _, _ => pure ()
  -- checks
  for c in t.checks do
    let passed ← (passesTest evalFuel { ch.env base with frame := t.rowFrame rowid values, definition := some .check }
      true c.e).mapError halted
    if !passed then
      match effective override .abort with
      | .ignore => return .skipped
      | .replace => throw (.check c.name, .abort)
      | p => throw (.check c.name, p)
  let mut ch := ch
  -- uniqueness: the row id, then the unique indexes in their order; the index the first clause
  -- names goes before them all, and a row id replacing what it meets goes after them when the
  -- statement does not ask for that itself
  let all := ch.contents.indexesOf t.name
  let indexes := all.filter (·.unique)
  let checks : List UniqueCheck := match clauses.head? with
    | some { constraint := some (some n), .. } =>
      (indexes.filter (sameName ·.name n)).map .index ++ [.rowid] ++
        (indexes.filter (!sameName ·.name n)).map .index
    | _ =>
      if override.isNone && t.rowidConflict == .replace && !all.isEmpty then
        indexes.map .index ++ [.rowid]
      else .rowid :: indexes.map .index
  for check in checks do
    match check with
    | .rowid =>
      let some current := ch.contents.table? t.name | continue
      if !(t.hasRowid && old != some rowid && (current.row? rowid).isSome) then continue
      match clauseFor clauses none with
      | some { action := .nothing, .. } => return .skipped
      | some { action := .update sets w, .. } => return .inTheWay rowid sets w
      | none =>
        match effective override t.rowidConflict with
        | .ignore => return .skipped
        | .replace =>
          ch ← (removeRow fks 64 ch t.name rowid).mapError halted
        | p => throw (.unique [t.name ++ "." ++ t.rowidName], p)
    | .index idx =>
      let some current := ch.contents.table? t.name | continue
      let env := ch.env base
      let some key ← (idx.keyOf t env rowid values).mapError halted | continue
      let self := if t.hasRowid then old.getD rowid else old.getD (-1)
      let clashes ← (current.rows.filterM fun (rid, vals) => do
        if rid == self then return false
        match ← idx.keyOf t env rid vals with
        | some k => return idx.sameKey t k key
        | none => return false).mapError halted
      let some (first, _) := clashes.head? | continue
      match clauseFor clauses (some idx.name) with
      | some { action := .nothing, .. } => return .skipped
      | some { action := .update sets w, .. } => return .inTheWay first sets w
      | none =>
        match effective override idx.conflict with
        | .ignore => return .skipped
        | .replace =>
          for (rid, _) in clashes do
            ch ← (removeRow fks 64 ch t.name rid).mapError halted
        | p => throw (.unique (idx.faultColumns t), p)
  -- the keys of the other indexes are worked out as well, which may fail
  for idx in (ch.contents.indexesOf t.name).filter (!·.unique) do
    let _ ← (idx.keyOf t (ch.env base) rowid values).mapError halted
  -- the types of a strict table
  if t.strict then
    if let some f := strictFault t values then throw (f, .abort)
  -- the write
  let some current := ch.contents.table? t.name | throw (.noSuchTable t.name, .abort)
  let before := match old with
    | some o => current.removeRow o
    | none => current
  let written := before.putRow rowid values
  return .done { ch with contents := ch.contents.setTable written, count := ch.count + 1,
                         written := ch.written ++ [(t.name, rowid)] }

/-- The targets of an assignment of `UPDATE`: column positions, `none` for the row id. -/
def updateTargets (t : Table) (names : List (String × Nat)) : Except SqlFault (List (Option Nat)) :=
  names.mapM fun (n, _) =>
    match t.columnIndex? n with
    | some i =>
      if t.rowidColumn != some i && (t.column i).generated.isSome then
        .error (.otherMessage ("cannot UPDATE generated column \"" ++ (t.column i).name ++ "\""))
      else .ok (some i)
    | none => if t.hasRowid && isRowidWord n then .ok none else .error (.noSuchColumn n none)

def assignedValues (env : Env) (targets : List (Option Nat)) (e : Expr) : Except SqlFault (List SqlValue) :=
  match targets, e with
  | [_], _ => do
    let v ← eval evalFuel env e
    pure [v]
  | _, .vector items =>
    if items.length != targets.length then .error .rowValueMisused
    else items.mapM (eval evalFuel env)
  | _, .scalar q => do
    let rows ← runQuery evalFuel env.enter q
    if rows.columns.length != targets.length then .error (.subqueryColumns targets.length rows.columns.length)
    else pure ((rows.rows.headD []) ++ List.replicate targets.length SqlValue.null |>.take targets.length)
  | _, _ => .error .rowValueMisused

/-- The values and row id a row takes when assignments (evaluated in `env`) change it, each
assigned value taking its column's affinity; a row id that is no integer is a fault. Generated
columns are left to be worked out. -/
def Table.assignRow (t : Table) (rid : Int) (oldVals : List SqlValue) (env : Env)
    (assignments : List (List (Option Nat) × Expr)) : Except SqlFault (List SqlValue × Int) := do
  let parts ← assignments.mapM fun (targets, e) => do
    let vs ← assignedValues env targets e
    pure (targets.zip vs)
  let pairs := parts.flatten
  let newVals := (List.range oldVals.length).map fun i =>
    match (pairs.filter (·.1 == some i)).getLast? with
    | some (_, v) => v.withAffinity (t.column i).affinity
    | none => oldVals.getD i .null
  let nrid ← if !t.hasRowid then pure rid
    else
      let assigned := (pairs.filter fun (p, _) => p == none || (p.isSome && p == t.rowidColumn)).getLast?
      match assigned with
      | none => pure rid
      | some (_, v) =>
        match rowidOf v with
        | some i => pure i
        | none => throw .datatypeMismatch
  let newVals := match t.rowidColumn with
    | some i => newVals.set i (.int nrid)
    | none => newVals
  pure (newVals, nrid)

/-- The names of the columns assignments change (`rowid` for the row id). -/
def Table.assignedNames (t : Table) (assignments : List (List (Option Nat) × Expr)) : List String :=
  assignments.flatMap fun (targets, _) => targets.map fun
    | some i => (t.column i).name
    | none => "rowid"

/-- The values of a row an insert gives (in the order of the target columns, `none` standing for
the row id), the other columns taking their defaults, each value its column's affinity; with the
row id given, if one is (null asks for the next one). A row id that is no integer is a fault; an
r-tree takes any value as an integer for its row id. -/
def Table.suppliedRow (t : Table) (env : Env) (targets : List (Option Nat)) (supplied : List SqlValue) :
    Except SqlFault (List SqlValue × Option Int) := do
  let given := targets.zip supplied
  let given := if t.virtual matches some (.rtree _ _) then
      given.map fun (p, v) => if p == some 0 && !v.isNull then (p, .int v.toInt) else (p, v)
    else given
  let values ← (List.range t.columns.length).mapM fun i =>
    match given.find? (·.1 == some i) with
    | some (_, v) => pure v
    | none =>
      match (t.column i).default with
      | some d => eval evalFuel env d
      | none => pure .null
  let values := (values.zip t.columns).map fun (v, c) => v.withAffinity c.affinity
  if !t.hasRowid then return (values, none)
  let explicit := (given.filter (·.1 == none)).getLast?.map (·.2)
  let fromColumn := t.rowidColumn.bind fun i => (given.filter (·.1 == some i)).getLast?.map (·.2)
  match explicit <|> fromColumn with
  | some .null | none => pure (values, none)
  | some v =>
    match rowidOf v with
    | some i => pure (values, some i)
    | none => throw .datatypeMismatch

/-- A double as a single-precision number at or below it, or at or above it: the nearest one,
moved one step further when it lies on the wrong side. -/
def singleBound (up : Bool) (d : Float) : Float :=
  let f := d.toFloat32.toFloat
  let step : Float := 1.0 / 8388608.0
  if (!up && f > d) || (up && f < d) then
    let away := (d < 0.0) != up
    (d * (if away then 1.0 + step else 1.0 - step)).toFloat32.toFloat
  else f

/-- An integer as a 32-bit one, wrapping. -/
def wrap32 (i : Int) : Int :=
  let m := i % 4294967296
  if m ≥ 2147483648 then m - 4294967296 else m

/-- The row a virtual table keeps for the values written to it: an r-tree keeps each pair of
bounds as single-precision numbers, the lower one rounded down and the upper one up (or as 32-bit
integers), a lower bound above its upper one being a fault; other columns keep what is written. -/
def Table.virtualRow (t : Table) (values : List SqlValue) : Except SqlFault (List SqlValue) :=
  match t.virtual with
  | some (.rtree dims integer) =>
    (List.range dims).foldlM (fun vals k =>
      let lo := 1 + 2 * k
      let hi := lo + 1
      let (a, b) : SqlValue × SqlValue :=
        if integer then (.int (wrap32 (vals.getD lo .null).toInt), .int (wrap32 (vals.getD hi .null).toInt))
        else (.real (singleBound false (vals.getD lo .null).toReal),
          .real (singleBound true (vals.getD hi .null).toReal))
      if a.compareWith .binary b == .gt then
        .error (.otherMessage ("rtree constraint failed: " ++ t.name ++ ".(" ++ (t.column lo).name ++
          "<=" ++ (t.column hi).name ++ ")"))
      else .ok ((vals.set lo a).set hi b)) values
  | _ => .ok values

/-- The row of a table with its row id put in the row id column, if it has one. -/
def Table.withRowid (t : Table) (rowid : Int) (values : List SqlValue) : List SqlValue :=
  match t.rowidColumn with
  | some i => values.set i (.int rowid)
  | none => values

/-- The scope `excluded` of a table: the row an insert would have written, seen only through
names qualified by `excluded`. -/
def Table.excludedScope (t : Table) : Scope :=
  { name := "excluded", columns := t.columnInfos, hasRowid := t.hasRowid, qualifiedOnly := true }

/-- The end of a statement that changes rows: with foreign keys enforced, a broken reference
undoes it; otherwise the connection takes the new contents and counts. -/
def finishChange (db : Database) (ch : Change) : Database × Option SqlFault :=
  let broken := if db.foreignKeys then referencesBroken ch.contents ch else .ok false
  match broken with
  | .error e => (db, some e)
  | .ok true => (db, some .foreignKey)
  | .ok false =>
    ({ db with contents := ch.contents, changes := ch.count,
               totalChanges := db.totalChanges + ch.count + ch.triggered,
               lastRowid := ch.lastRowid.getD db.lastRowid }, none)

/-- The end of a statement a violated constraint stopped, by its resolution. -/
def haltChange (db : Database) (ch : Change) (h : Halt) : Database × Option SqlFault :=
  match h.2 with
  | .fail => ({ db with contents := ch.contents, changes := ch.count,
                        totalChanges := db.totalChanges + ch.count + ch.triggered }, some h.1)
  | .rollback =>
    match db.saved with
    | some saved => (db.endTransaction saved, some h.1)
    | none => (db, some h.1)
  | _ => (db, some h.1)

/-- Evaluates a query over a connection: first a probe for faults of names, then the rows. -/
def Database.rowsOf (env : Env) (q : Query) : Except SqlFault Rows := do
  let _ ← runQuery evalFuel { env with probe := true } q
  runQuery evalFuel env q

def probeExpr (env : Env) (frame : Frame) (e : Expr) : Except SqlFault Unit := do
  let _ ← eval evalFuel { env with probe := true, frame := frame } e
  pure ()

def nextRowid (c : Contents) (t : Table) : Except SqlFault Int :=
  let largest := (t.maxRowid?).getD 0
  if t.autoincrement then
    let base := max (c.sequenceOf t.name) largest
    if base ≥ maxInt then .error .full else .ok (base + 1)
  else if largest < maxInt then .ok (largest + 1)
  else
    -- the largest row id is taken: the least unused positive one
    let used := t.rows.map (·.1)
    match (List.range (used.length + 2)).find? (fun (k : Nat) => !used.contains ((k : Int) + 1)) with
    | some k => .ok (k + 1)
    | none => .error .full

/-- The ordinal of a number: `1st`, `2nd`, `3rd`, `4th`, … -/
def ordinalText (n : Nat) : String :=
  match Format.format [.text "%r", .int n] with
  | .text s => s
  | _ => toString n

/-- The column a conflict target term names (`none` for the row id) and the collation it asks
for, when the term is a column; names that find nothing are faults. -/
def targetTerm (base : Env) (t : Table) (e : Expr) :
    Except SqlFault (Option (Option Nat × Option Collation)) := do
  probeExpr base (nullFrame [t.scope]) e
  let (inner, coll) := match e with
    | .collate x c => (x, Collation.ofName? c)
    | x => (x, none)
  match inner with
  | .column _ n _ _ =>
    match t.columnIndex? n with
    | some i => return some (if t.rowidColumn == some i then none else some i, coll)
    | none => return if isRowidWord n then some (none, coll) else none
  | _ => return none

/-- Resolves the `ON CONFLICT` clauses of an insert against its table: a conflict target must
name the row id, or the columns of a unique index (in any order, a collation it names being the
column's); the newest such index is taken. -/
def resolveUpserts (base : Env) (c : Contents) (t : Table) (clauses : List Upsert) :
    Except SqlFault (List ConflictClause) :=
  (clauses.zip (List.range clauses.length)).mapM fun (u, k) => do
    let constraint ← match u.target with
      | none => pure none
      | some (terms, w) => do
        let refs ← terms.mapM (targetTerm base t)
        if let some w := w then probeExpr base (nullFrame [t.scope]) w
        if t.hasRowid && refs.length == 1 && refs.head? == some (some (none, none)) then
          pure (some none)
        else
          let fits (idx : Index) : Bool :=
            idx.unique && idx.columns.length == refs.length &&
              (idx.columns.zip (List.range idx.columns.length)).all fun (i, k) => refs.any fun r =>
                match r with
                | some (some j, coll) => j == i && coll.getD (t.column i).collation == idx.collationAt t k
                | _ => false
          match (c.indexesOf t.name).find? fits with
          | some idx => pure (some (some idx.name))
          | none =>
            let which := if clauses.length > 1 then ordinalText (k + 1) ++ " " else ""
            throw (.otherMessage (which ++
              "ON CONFLICT clause does not match any PRIMARY KEY or UNIQUE constraint"))
    let action ← match u.action with
      | .nothing => pure ClauseAction.nothing
      | .update sets filter => do
        let assignments ← sets.mapM fun (names, e) => do
          let targets ← updateTargets t names
          pure (targets, e)
        pure (ClauseAction.update assignments filter)
    pure { constraint, action }

end GraphIngest.Sql
