import GraphIngest.Sql.Change

/-!
# Statements that change rows, and the triggers they fire

`INSERT`, `UPDATE` and `DELETE` change rows one at a time. Around each change the triggers of its
table on that kind of change fire, newest first: those `BEFORE` it, the change, those `AFTER` it;
a change to a view is only its `INSTEAD OF` triggers. Triggers see the rows as `new` and `old`,
and one does not fire while it is running already.

A trigger's statements run in turn on the contents the change has reached; their changes count in
the connection's total, not the statement's. `RAISE(IGNORE)` skips the rest of the row; `RAISE`
with a message stops the statement. The `OR` clause of a statement overrides those of the bodies
it sets going. A statement is first checked with the triggers it may fire; after a trigger runs
before an insert or update the row is read again, and one that is gone is skipped.
-/

namespace GraphIngest.Sql

/-- What changing rows runs under: whether foreign keys are enforced, the environment its
expressions evaluate in, the resolution of violated constraints the statement that set it going
asks for (overriding those of the triggers it fires), and the triggers running. -/
structure Act where
  fks : Bool
  base : Env
  override : Option Conflict := none
  active : List String := []
  deriving Inhabited

/-- The resolution a statement runs under: the one asked for by the statement that set it going,
when one did, else its own. -/
def Act.resolution (act : Act) (own : Option Conflict) : Option Conflict :=
  match act.override with
  | some c => some c
  | none => own

/-! ## Returned rows -/

/-- The kinds of change a trigger fires on. -/
inductive ChangeKind where
  | insert
  | update
  | delete
  deriving DecidableEq

/-- The kind of change of an event. -/
def TriggerEvent.kind : TriggerEvent → ChangeKind
  | .insert => .insert
  | .update _ => .update
  | .delete => .delete

/-- Whether a trigger fires at a time on a change of a kind to a table or view; one on updates
that names columns fires only when the change assigns one of them. -/
def Trigger.firesOn (tr : Trigger) (target : String) (time : TriggerTime) (kind : ChangeKind)
    (assigned : List String) : Bool :=
  sameName tr.table target && tr.time == time && tr.event.kind == kind &&
    match tr.event with
    | .update cols => cols.isEmpty || cols.any fun c => assigned.any (sameName c)
    | _ => true

/-- The triggers that fire at a time on a change to a table or view, newest first, leaving out
those running. -/
def Act.triggersOn (act : Act) (c : Contents) (target : String) (time : TriggerTime)
    (kind : ChangeKind) (assigned : List String) : List Trigger :=
  (c.triggers.filter fun tr =>
    tr.firesOn target time kind assigned && !act.active.any (sameName · tr.name)).reverse

/-- The row `new` or `old` of a change, seen only through names qualified by its name. -/
def pseudoRow (name : String) (columns : List ColumnInfo) (hasRowid : Bool) (rowid : Int)
    (values : List SqlValue) : Bound :=
  { scope := { name, columns, hasRowid, qualifiedOnly := true }, values, rowid }

/-- The row `new` or `old` of a change to a table. -/
def Table.pseudoRow (t : Table) (name : String) (rowid : Int) (values : List SqlValue) : Bound :=
  GraphIngest.Sql.pseudoRow name t.columnInfos t.hasRowid rowid values

/-- The row `new` or `old` of a table, all nulls: what checking a trigger binds them to. -/
def Table.blankRow (t : Table) (name : String) : Bound :=
  t.pseudoRow name 0 (t.columns.map fun _ => .null)

/-- The row `new` or `old` of a view, all nulls. -/
def blankViewRow (name : String) (columns : List ColumnInfo) : Bound :=
  pseudoRow name columns false 0 (columns.map fun _ => .null)

/-- What a trigger's body runs under: no common tables, the rows of the change as the frame
around its statements, and the trigger among those running. -/
def Act.forBody (act : Act) (tr : Trigger) (rows : Frame) : Act :=
  { act with
    base := { act.base with frame := [], outer := [rows], ctes := [], aliases := [], group := none,
                            inTrigger := true }
    active := tr.name :: act.active }

/-- The environment a trigger's condition evaluates in: the rows of the change, and nothing of
the statement around it. -/
def Act.conditionEnv (act : Act) (c : Contents) (lastRowid : Int) (rows : Frame) : Env :=
  { act.base with contents := c, lastRowid, frame := rows, outer := [], ctes := [], aliases := [],
                  group := none, inTrigger := true }

/-- A fault of a step, halting the statement at the change reached. -/
def stopAt {α : Type} (ch : Change) (r : Except SqlFault α) : Except (Halt × Change) α :=
  r.mapError fun e => (halted e, ch)

/-- A halt of a step, at the change reached. -/
def haltAt {α : Type} (ch : Change) (r : Except Halt α) : Except (Halt × Change) α :=
  r.mapError fun h => (h, ch)

/-- The fault of a missing table a statement names: in a trigger's body, the name is taken in the
main schema. -/
def Act.noSuchTable (act : Act) (name : String) : SqlFault :=
  .noSuchTable (if act.base.inTrigger then "main." ++ name else name)

def viewFault (name : String) : SqlFault :=
  .otherMessage ("cannot modify " ++ name ++ " because it is a view")

/-! ## Checking statements before they run -/

/-- Checks an insert into a table (named `tname` in the statement): the columns it names, the
names in its values or query, the number of values and its conflict clauses. Gives the target of
each value (`none` for the row id) and the clauses resolved. -/
def checkInsert (base : Env) (t : Table) (tname : String) (cols : Option (List (String × Nat)))
    (src : InsertSource) (upserts : List Upsert) :
    Except SqlFault (List (Option Nat) × List ConflictClause) := do
  let targets ← match cols with
    | none => pure (t.ordinaryColumns.map some)
    | some cs => cs.mapM fun (n, _) =>
      match t.columnIndex? n with
      | some i =>
        if (t.column i).generated.isSome then
          throw (.otherMessage ("cannot INSERT into generated column \"" ++ (t.column i).name ++ "\""))
        else pure (some i)
      | none => if t.hasRowid && isRowidWord n then pure none else throw (.noColumnNamed tname n)
  let countCheck (n : Nat) : Except SqlFault Unit :=
    let width := t.ordinaryColumns.length
    match cols with
    | none => if n != width then throw (.columnCount tname width n) else pure ()
    | some cs => if n != cs.length then throw (.valueCount n cs.length) else pure ()
  let targets ← match src with
    | .values rows => do
      for r in rows do
        for e in r do probeExpr base [] e
      countCheck ((rows.headD []).length)
      if rows.any (·.length != (rows.headD []).length) then throw .rowSizes
      pure targets
    | .query q => do
      let shape ← runQuery evalFuel { base with probe := true } q
      countCheck shape.columns.length
      pure targets
    | .defaults => pure []
  let clauses ← resolveUpserts base base.contents t upserts
  for u in clauses do
    match u.action with
    | .update assignments filter =>
      let blank := nullFrame [t.scope, t.excludedScope]
      for (_, e) in assignments do probeExpr base blank e
      if let some w := filter then probeExpr base blank w
    | .nothing => pure ()
  pure (targets, clauses)

/-- The scope of a table named in a statement that changes it, by its alias or its name. -/
def Table.scopeAs (t : Table) (label : String) : Scope := { t.scope with name := label }

/-- Checks an update of a table (its rows seen under `label`): the columns it assigns, the
sources of its FROM clause (none of which may take the label), and the names in its expressions
and filter. Gives the assignments with their targets. -/
def checkUpdate (base : Env) (t : Table) (label : String) (sets : List (List (String × Nat) × Expr))
    (source : Option Relation) (filter : Option Expr) :
    Except SqlFault (List (List (Option Nat) × Expr)) := do
  let assignments ← sets.mapM fun (names, e) => do
    let targets ← updateTargets t names
    pure (targets, e)
  let others ← match source with
    | none => pure []
    | some r => do
      let (scopes, _) ← relationFrames evalFuel { base with probe := true, frame := [] } r
      if scopes.any (sameName ·.name label) then
        throw (.otherMessage ("target object/alias may not appear in FROM clause: " ++ label))
      pure scopes
  let blank := nullFrame (t.scopeAs label :: others)
  for (_, e) in assignments do probeExpr base blank e
  if let some w := filter then probeExpr base blank w
  pure assignments

/-- Whether a row meets all the terms of a condition, tested in order up to the first that
rejects it. -/
def meetsAll (env : Env) (terms : List Expr) : Except SqlFault Bool :=
  terms.foldlM (fun ok t => if !ok then pure false else do
    pure !(← failsTest evalFuel env true t)) true

/-- The rows of a table (seen under `label`) a filter holds for, each with the row of the FROM
clause, if any, it is updated with: the last one the filter holds for together with it. -/
def matchingRows (base : Env) (t : Table) (label : String) (source : Option Relation)
    (filter : Option Expr) : Except SqlFault (List (Int × Frame)) := do
  let (scopes, others) ← match source with
    | none => pure ([], [[]])
    | some r => relationFrames evalFuel { base with frame := [] } r
  let scopes := t.scopeAs label :: scopes
  let (fixed, varying) := (filter.toList.flatMap (andTerms 10000)).partition
    (!dependsOnRow scopes [] 10000 ·)
  if !(← meetsAll { base with frame := nullFrame scopes } fixed) then return []
  t.rows.filterMapM fun (rid, vals) => do
    let own : Bound := { scope := t.scopeAs label, values := vals, rowid := rid }
    let hits ← others.filterM fun f => meetsAll { base with frame := own :: f } varying
    pure (hits.getLast?.map fun f => (rid, f))

/-- The rows of a view, with its columns. -/
def viewRows (base : Env) (v : View) (probe : Bool) : Except SqlFault Rows := do
  let rows ← runQuery evalFuel { contents := base.contents, probe, clock := base.clock } v.q
  renameColumns v.name v.columns rows

/-- The scope of a view's rows in a statement that changes it. -/
def viewScope (v : View) (columns : List ColumnInfo) : Scope := { name := v.name, columns }

/-- Checks an insert into a view: the columns it names and the number of values. Gives the
position of each value among the view's columns. -/
def checkViewInsert (base : Env) (tname : String) (columns : List ColumnInfo)
    (cols : Option (List (String × Nat))) (src : InsertSource) : Except SqlFault (List Nat) := do
  let positions ← match cols with
    | none => pure (List.range columns.length)
    | some cs => cs.mapM fun (n, _) =>
      match columns.findIdx? (sameName ·.name n) with
      | some i => pure i
      | none => throw (.noColumnNamed tname n)
  let countCheck (n : Nat) : Except SqlFault Unit :=
    match cols with
    | none => if n != columns.length then throw (.columnCount tname columns.length n) else pure ()
    | some cs => if n != cs.length then throw (.valueCount n cs.length) else pure ()
  match src with
  | .values rows => do
    for r in rows do
      for e in r do probeExpr base [] e
    countCheck ((rows.headD []).length)
    if rows.any (·.length != (rows.headD []).length) then throw .rowSizes
    pure positions
  | .query q => do
    let shape ← runQuery evalFuel { base with probe := true } q
    countCheck shape.columns.length
    pure positions
  | .defaults => pure []

/-- Checks an update of a view: the columns it assigns and the names in its expressions and
filter. Gives the assignments with their positions among the view's columns. -/
def checkViewUpdate (base : Env) (scope : Scope) (sets : List (List (String × Nat) × Expr))
    (filter : Option Expr) : Except SqlFault (List (List (Option Nat) × Expr)) := do
  let assignments ← sets.mapM fun (names, e) => do
    let targets ← names.mapM fun (n, _) =>
      match scope.columns.findIdx? (sameName ·.name n) with
      | some i => pure (some i)
      | none => throw (.noSuchColumn n none)
    pure (targets, e)
  let blank := nullFrame [scope]
  for (_, e) in assignments do probeExpr base blank e
  if let some w := filter then probeExpr base blank w
  pure assignments

def matchingViewRows (base : Env) (scope : Scope) (rows : List (List SqlValue)) (filter : Option Expr) :
    Except SqlFault (List (List SqlValue)) := do
  let (fixed, varying) := (filter.toList.flatMap (andTerms 10000)).partition
    (!dependsOnRow [scope] [] 10000 ·)
  if !(← meetsAll { base with frame := nullFrame [scope] } fixed) then return []
  rows.filterM fun vals => meetsAll { base with frame := [{ scope, values := vals }] } varying

/-- The names of the columns an update assigns, as written. -/
def assignedNames (sets : List (List (String × Nat) × Expr)) : List String :=
  sets.flatMap fun (names, _) => names.map (·.1)

/-- The triggers of a table that a change of a kind may fire, before it and after it. -/
def Act.aroundChange (act : Act) (c : Contents) (target : String) (kind : ChangeKind)
    (assigned : List String) : List Trigger :=
  act.triggersOn c target .before kind assigned ++ act.triggersOn c target .after kind assigned

/-- Checks a statement that changes rows: what it names must exist. Gives the triggers it may
fire, in groups, each with the blank rows they see. -/
def checkOwn (act : Act) (c : Contents) (st : Statement) :
    Except SqlFault (List (List Trigger × Frame)) :=
  match st with
  | .insert ctes _ _ tname cols src ups =>
    let base := { act.base with contents := c, ctes := ctes.reverse }
    match c.table? tname with
    | some t => do
      let (_, clauses) ← checkInsert base t tname cols src ups
      if let some n := t.generatedLoop? then
        throw (.otherMessage ("generated column loop on \"" ++ n ++ "\""))
      let upserts := clauses.filterMap fun u =>
        match u.action with
        | .update assignments _ =>
          some (act.aroundChange c t.name .update (t.assignedNames assignments),
            [t.blankRow "new", t.blankRow "old"])
        | .nothing => none
      pure ((act.aroundChange c t.name .insert [], [t.blankRow "new"]) :: upserts)
    | none =>
      match c.view? tname with
      | none => throw (act.noSuchTable tname)
      | some v => do
        let columns := (← viewRows base v true).columns
        if !c.triggers.any (·.firesOn v.name .insteadOf .insert []) then throw (viewFault tname)
        let _ ← checkViewInsert base tname columns cols src
        pure [(act.triggersOn c v.name .insteadOf .insert [], [blankViewRow "new" columns])]
  | .update ctes _ _ tname tableLabel sets src f =>
    let base := { act.base with contents := c, ctes := ctes.reverse }
    match c.table? tname with
    | some t => do
      let assignments ← checkUpdate base t (tableLabel.getD tname) sets src f
      if let some n := t.generatedLoop? then
        throw (.otherMessage ("generated column loop on \"" ++ n ++ "\""))
      pure [(act.aroundChange c t.name .update (t.assignedNames assignments),
        [t.blankRow "new", t.blankRow "old"])]
    | none =>
      match c.view? tname with
      | none => throw (act.noSuchTable tname)
      | some v => do
        let columns := (← viewRows base v true).columns
        if !c.triggers.any (·.firesOn v.name .insteadOf .update (assignedNames sets)) then
          throw (viewFault tname)
        let _ ← checkViewUpdate base (viewScope v columns) sets f
        pure [(act.triggersOn c v.name .insteadOf .update (assignedNames sets),
          [blankViewRow "new" columns, blankViewRow "old" columns])]
  | .delete ctes _ tname tableLabel f =>
    let base := { act.base with contents := c, ctes := ctes.reverse }
    match c.table? tname with
    | some t => do
      if let some w := f then probeExpr base (nullFrame [t.scopeAs (tableLabel.getD tname)]) w
      pure [(act.aroundChange c t.name .delete [], [t.blankRow "old"])]
    | none =>
      match c.view? tname with
      | none => throw (act.noSuchTable tname)
      | some v => do
        let columns := (← viewRows base v true).columns
        if !c.triggers.any (·.firesOn v.name .insteadOf .delete []) then throw (viewFault tname)
        if let some w := f then probeExpr base (nullFrame [viewScope v columns]) w
        pure [(act.triggersOn c v.name .insteadOf .delete [], [blankViewRow "old" columns])]
  | .select q => do
    let _ ← runQuery evalFuel { act.base with contents := c, probe := true } q
    pure []
  | _ => pure []

/-- Checks triggers that may fire on a change, over blank rows: their conditions, the statements
of their bodies, and the triggers those may fire. A fault in a query of a body points into the
text the trigger is kept as; one elsewhere in a body, or in a condition, points at nothing. -/
def checkTriggers : Nat → Act → Contents → List Trigger → Frame → Except SqlFault Unit
  | 0, _, _, _, _ => .ok ()
  | fuel + 1, act, c, triggers, rows =>
    triggers.forM fun tr => do
      if let some w := tr.condition then
        let _ ← (eval evalFuel { act.conditionEnv c 0 rows with probe := true } w).mapError .detached
      let body := act.forBody tr rows
      tr.body.forM fun st => do
        let groups ← (checkOwn body c st).mapError fun e =>
          match st with
          | .select _ => e.moveOffset tr.keptOffset
          | _ => .detached e
        groups.forM fun (ts, rs) => checkTriggers fuel body c ts rs

/-- Checks a statement that changes rows, and the triggers it may fire, before any row changes. -/
def checkStatement (fuel : Nat) (act : Act) (c : Contents) (st : Statement) : Except SqlFault Unit := do
  let groups ← checkOwn act c st
  groups.forM fun (ts, rs) => checkTriggers fuel act c ts rs

/-- The rows an insert writes: the expressions of a VALUES row, evaluated when its turn comes,
or values. -/
inductive SourceRow where
  | exprs (es : List Expr)
  | values (vs : List SqlValue)

def SourceRow.resolve (env : Env) : SourceRow → Except SqlFault (List SqlValue)
  | .exprs es => es.mapM (eval evalFuel env)
  | .values vs => .ok vs

/-- The rows of the source of an insert: a query is evaluated at once, a VALUES list row by row. -/
def sourceRows (base : Env) : InsertSource → Except SqlFault (List SourceRow)
  | .values rows => .ok (rows.map .exprs)
  | .query q => do
    let rows ← runQuery evalFuel base q
    pure (rows.rows.map .values)
  | .defaults => .ok [.values []]

def tooDeep (ch : Change) : Halt × Change := ((.tooDeep, .abort), ch)

/-! ## Running statements -/

mutual

/-- Fires triggers in turn on the rows of a change. Gives the change they leave, and whether
`RAISE(IGNORE)` in one of them skipped the rest of the processing of the row. -/
def fireTriggers : Nat → Act → Change → List Trigger → Frame → Except (Halt × Change) (Change × Bool)
  | 0, _, ch, _, _ => .error (tooDeep ch)
  | fuel + 1, act, ch, triggers, rows => do
    let mut ch := ch
    for tr in triggers do
      match runTrigger fuel act ch tr rows with
      | .ok ch' => ch := ch'
      | .error ((.raised .ignore _, _), ch') => return (ch', true)
      | .error e => throw e
    return (ch, false)

/-- Runs one trigger on the rows of a change: its body, when its condition holds. -/
def runTrigger : Nat → Act → Change → Trigger → Frame → Except (Halt × Change) Change
  | 0, _, ch, _, _ => .error (tooDeep ch)
  | fuel + 1, act, ch, tr, rows => do
    if let some w := tr.condition then
      let env := act.conditionEnv ch.contents (ch.lastRowid.getD act.base.lastRowid) rows
      if ← stopAt ch (failsTest evalFuel env true w) then return ch
    runTriggerBody fuel (act.forBody tr rows) ch tr.body

def runTriggerBody : Nat → Act → Change → List Statement → Except (Halt × Change) Change
  | 0, _, ch, _ => .error (tooDeep ch)
  | fuel + 1, act, ch, sts => sts.foldlM (fun ch st => runStep fuel act ch st) ch

/-- Runs one statement of a trigger's body: its changes count in the total only, and the last row
id it leaves is forgotten. -/
def runStep : Nat → Act → Change → Statement → Except (Halt × Change) Change
  | 0, _, ch, _ => .error (tooDeep ch)
  | fuel + 1, act, ch, st =>
    let back (c : Change) : Change :=
      { c with count := ch.count, triggered := c.triggered + c.count, lastRowid := ch.lastRowid }
    match runStatement fuel act { ch with count := 0 } st with
    | .ok c => .ok (back c)
    | .error (h, c) => .error (h, back c)

/-- Runs a statement that changes rows; a query is evaluated for its faults only. -/
def runStatement : Nat → Act → Change → Statement → Except (Halt × Change) Change
  | 0, _, ch, _ => .error (tooDeep ch)
  | fuel + 1, act, ch, st =>
    match st with
    | .insert ctes conflict _ t cols src ups =>
      insertRows fuel { act with base := { act.base with ctes := ctes.reverse } } ch conflict t cols src ups
    | .update ctes conflict _ t tableLabel sets src f =>
      updateRows fuel { act with base := { act.base with ctes := ctes.reverse } } ch conflict t
        (tableLabel.getD t) sets src f
    | .delete ctes _ t tableLabel f =>
      deleteRows fuel { act with base := { act.base with ctes := ctes.reverse } } ch t (tableLabel.getD t) f
    | .select q => stopAt ch ((Database.rowsOf (ch.env act.base) q).map fun _ => ch)
    | _ => .ok ch

/-- `INSERT`: the rows of a VALUES list, of a query, or of the defaults, inserted in turn; into a
view, the triggers in place of inserts fire on each. -/
def insertRows : Nat → Act → Change → Option Conflict → String → Option (List (String × Nat)) →
    InsertSource → List Upsert → Except (Halt × Change) Change
  | 0, _, ch, _, _, _, _, _ => .error (tooDeep ch)
  | fuel + 1, act, ch, conflict, tname, cols, src, upserts =>
    let act := { act with override := act.resolution conflict }
    let base := ch.env act.base
    match ch.contents.table? tname with
    | some t => do
      let (targets, clauses) ← stopAt ch (checkInsert base t tname cols src upserts)
      let rows ← stopAt ch (sourceRows base src)
      rows.foldlM (fun ch row => do
        let supplied ← stopAt ch (row.resolve (ch.env act.base))
        insertRow fuel act ch t.name targets clauses supplied) ch
    | none =>
      match ch.contents.view? tname with
      | none => .error ((act.noSuchTable tname, .abort), ch)
      | some v => do
        let columns := (← stopAt ch (viewRows base v true)).columns
        if !ch.contents.triggers.any (·.firesOn v.name .insteadOf .insert []) then
          throw ((viewFault tname, .abort), ch)
        let positions ← stopAt ch (checkViewInsert base tname columns cols src)
        let rows ← stopAt ch (sourceRows base src)
        rows.foldlM (fun ch row => do
          let supplied ← stopAt ch (row.resolve (ch.env act.base))
          let given := positions.zip supplied
          let values := (List.range columns.length).map fun i =>
            ((given.find? (·.1 == i)).map (·.2)).getD .null
          let triggers := act.triggersOn ch.contents v.name .insteadOf .insert []
          let (ch', _) ← fireTriggers fuel act ch triggers [pseudoRow "new" columns false 0 values]
          pure ch') ch

/-- Inserts one row, given in the order of the target columns: the triggers before inserts fire
on it, then it is written (a uniqueness conflict answered by the insert's clauses), then the
triggers after inserts fire on the row written. -/
def insertRow : Nat → Act → Change → String → List (Option Nat) → List ConflictClause →
    List SqlValue → Except (Halt × Change) Change
  | 0, _, ch, _, _, _, _ => .error (tooDeep ch)
  | fuel + 1, act, ch, tname, targets, clauses, supplied => do
    let some t := ch.contents.table? tname | throw ((act.noSuchTable tname, .abort), ch)
    let (values, explicit) ← stopAt ch (t.suppliedRow (ch.env act.base) targets supplied)
    let mut ch := ch
    let before := act.triggersOn ch.contents t.name .before .insert []
    if !before.isEmpty then
      let shownRid := explicit.getD (-1)
      let shown ← stopAt ch (t.withGenerated (ch.env act.base) shownRid (t.withRowid shownRid values))
      let (ch', skip) ← fireTriggers fuel act ch before [t.pseudoRow "new" shownRid shown]
      if skip then return ch'
      ch := ch'
    let some t := ch.contents.table? tname | return ch
    let rowid ← if !t.hasRowid then pure t.counter
      else match explicit with
        | some i => pure i
        | none => stopAt ch (nextRowid ch.contents t)
    let stored ← stopAt ch (t.withGenerated (ch.env act.base) rowid (t.withRowid rowid values))
    let kept := t.virtualRow stored
    if let .error f := kept then
      if act.override == some .ignore then return ch
      throw ((f, match act.override with
        | some .replace | none => .abort
        | some c => c), ch)
    let stored := kept.toOption.getD stored
    match ← haltAt ch (writeRow act.fks act.base act.override ch tname none rowid stored clauses) with
    | .skipped => return ch
    | .inTheWay rid sets w =>
      let excluded : Bound := { scope := t.excludedScope, values := stored, rowid := rowid }
      updateRow fuel { act with override := some .abort } ch tname t.name sets rid [excluded] w
    | .done written =>
      let c := if t.autoincrement then
          written.contents.setSequence t.name (max (written.contents.sequenceOf t.name) rowid)
        else written.contents
      let written := { written with contents := c,
                                    lastRowid := if t.hasRowid then some rowid else written.lastRowid }
      let after := act.triggersOn written.contents t.name .after .insert []
      if after.isEmpty then return written
      let kept := ((written.contents.table? tname).bind (·.row? rowid)).getD stored
      let (ch', _) ← fireTriggers fuel act written after [t.pseudoRow "new" rowid kept]
      return ch'

/-- `UPDATE`: the rows the filter holds for (on the contents before) changed in turn; on a view,
the triggers in place of updates fire on each row of the view the filter holds for. -/
def updateRows : Nat → Act → Change → Option Conflict → String → String →
    List (List (String × Nat) × Expr) → Option Relation → Option Expr → Except (Halt × Change) Change
  | 0, _, ch, _, _, _, _, _, _ => .error (tooDeep ch)
  | fuel + 1, act, ch, conflict, tname, label, sets, source, filter =>
    let act := { act with override := act.resolution conflict }
    let base := ch.env act.base
    match ch.contents.table? tname with
    | some t => do
      let assignments ← stopAt ch (checkUpdate base t label sets source filter)
      let hits ← stopAt ch (matchingRows base t label source filter)
      hits.foldlM (fun ch (rid, others) =>
        updateRow fuel act ch t.name label assignments rid others none) ch
    | none =>
      match ch.contents.view? tname with
      | none => .error ((act.noSuchTable tname, .abort), ch)
      | some v => do
        let columns := (← stopAt ch (viewRows base v true)).columns
        let assigned := assignedNames sets
        if !ch.contents.triggers.any (·.firesOn v.name .insteadOf .update assigned) then
          throw ((viewFault tname, .abort), ch)
        let scope := viewScope v columns
        let assignments ← stopAt ch (checkViewUpdate base scope sets filter)
        let rows ← stopAt ch (viewRows base v false)
        let hits ← stopAt ch (matchingViewRows base scope rows.rows filter)
        hits.foldlM (fun ch oldVals => do
          let env := { ch.env act.base with frame := [{ scope, values := oldVals }] }
          let parts ← stopAt ch (assignments.mapM fun (targets, e) => do
            let vs ← assignedValues env targets e
            pure (targets.zip vs))
          let pairs := parts.flatten
          let newVals := (List.range oldVals.length).map fun i =>
            match (pairs.filter (·.1 == some i)).getLast? with
            | some (_, x) => x
            | none => oldVals.getD i .null
          let triggers := act.triggersOn ch.contents v.name .insteadOf .update assigned
          let (ch', _) ← fireTriggers fuel act ch triggers
            [pseudoRow "new" columns false 0 newVals, pseudoRow "old" columns false 0 oldVals]
          pure ch') ch

/-- Updates one row by assignments evaluated over it (with `extra` beside it), when the filter,
if any, holds for it: the triggers before updates fire, then the row, read again, is written,
then the triggers after updates fire. -/
def updateRow : Nat → Act → Change → String → String → List (List (Option Nat) × Expr) → Int →
    Frame → Option Expr → Except (Halt × Change) Change
  | 0, _, ch, _, _, _, _, _, _ => .error (tooDeep ch)
  | fuel + 1, act, ch, tname, label, assignments, rid, extra, filter => do
    let some t := ch.contents.table? tname | return ch
    let some oldVals := t.row? rid | return ch
    let own : Bound := { scope := t.scopeAs label, values := oldVals, rowid := rid }
    let env : Env := { ch.env act.base with frame := own :: extra }
    if let some w := filter then
      if ← stopAt ch (failsTest evalFuel env true w) then return ch
    let (newVals, nrid) ← stopAt ch (t.assignRow rid oldVals env assignments)
    let newVals ← stopAt ch (t.withGenerated (ch.env act.base) nrid newVals)
    let assigned := t.assignedNames assignments
    let oldRow := t.pseudoRow "old" rid oldVals
    let mut ch := ch
    let mut newVals := newVals
    let before := act.triggersOn ch.contents t.name .before .update assigned
    if !before.isEmpty then
      let (ch', skip) ← fireTriggers fuel act ch before [t.pseudoRow "new" nrid newVals, oldRow]
      if skip then return ch'
      ch := ch'
      let some current := ch.contents.table? tname | return ch
      let some currentVals := current.row? rid | return ch
      let positions := assignments.flatMap (·.1)
      let reread := (List.range newVals.length).map fun i =>
        if positions.contains (some i) || t.rowidColumn == some i then newVals.getD i .null
        else currentVals.getD i .null
      newVals ← stopAt ch (t.withGenerated (ch.env act.base) nrid reread)
    let kept := t.virtualRow newVals
    if let .error f := kept then
      if act.override == some .ignore then return ch
      throw ((f, match act.override with
        | some .replace | none => .abort
        | some c => c), ch)
    newVals := kept.toOption.getD newVals
    let marked := { ch with removed := ch.removed ++ [(t.name, oldVals, rid)] }
    match ← haltAt ch (writeRow act.fks act.base act.override marked t.name (some rid) nrid newVals []) with
    | .done written =>
      let after := act.triggersOn written.contents t.name .after .update assigned
      if after.isEmpty then return written
      let kept := ((written.contents.table? tname).bind (·.row? nrid)).getD newVals
      let (ch', _) ← fireTriggers fuel act written after [t.pseudoRow "new" nrid kept, oldRow]
      return ch'
    | _ => return ch

/-- `DELETE`: the rows the filter holds for (on the contents before) removed in turn; on a view,
the triggers in place of deletes fire on each row of the view the filter holds for. -/
def deleteRows : Nat → Act → Change → String → String → Option Expr → Except (Halt × Change) Change
  | 0, _, ch, _, _, _ => .error (tooDeep ch)
  | fuel + 1, act, ch, tname, label, filter =>
    let act := { act with override := none }
    let base := ch.env act.base
    match ch.contents.table? tname with
    | some t => do
      if let some w := filter then stopAt ch (probeExpr base (nullFrame [t.scopeAs label]) w)
      let hits ← stopAt ch (matchingRows base t label none filter)
      hits.foldlM (fun ch (rid, _) => deleteRow fuel act ch t.name rid) ch
    | none =>
      match ch.contents.view? tname with
      | none => .error ((act.noSuchTable tname, .abort), ch)
      | some v => do
        let columns := (← stopAt ch (viewRows base v true)).columns
        if !ch.contents.triggers.any (·.firesOn v.name .insteadOf .delete []) then
          throw ((viewFault tname, .abort), ch)
        let scope := viewScope v columns
        if let some w := filter then stopAt ch (probeExpr base (nullFrame [scope]) w)
        let rows ← stopAt ch (viewRows base v false)
        let hits ← stopAt ch (matchingViewRows base scope rows.rows filter)
        hits.foldlM (fun ch oldVals => do
          let triggers := act.triggersOn ch.contents v.name .insteadOf .delete []
          let (ch', _) ← fireTriggers fuel act ch triggers [pseudoRow "old" columns false 0 oldVals]
          pure ch') ch

/-- Deletes one row: the triggers before deletes fire, then the row, if still there, is removed,
then the triggers after deletes fire. -/
def deleteRow : Nat → Act → Change → String → Int → Except (Halt × Change) Change
  | 0, _, ch, _, _ => .error (tooDeep ch)
  | fuel + 1, act, ch, tname, rid => do
    let some t := ch.contents.table? tname | return ch
    let some oldVals := t.row? rid | return ch
    let oldRow := [t.pseudoRow "old" rid oldVals]
    let mut ch := ch
    let before := act.triggersOn ch.contents t.name .before .delete []
    if !before.isEmpty then
      let (ch', skip) ← fireTriggers fuel act ch before oldRow
      if skip then return ch'
      ch := ch'
      let some current := ch.contents.table? tname | return ch
      if (current.row? rid).isNone then return ch
    let removed ← stopAt ch (removeRow act.fks 64 ch tname rid)
    let removed := { removed with count := ch.count + 1 }
    let after := act.triggersOn removed.contents t.name .after .delete []
    if after.isEmpty then return removed
    let (ch', _) ← fireTriggers fuel act removed after oldRow
    return ch'

end

/-- The rows a `RETURNING` clause reads once a statement has run: those it wrote to its target,
as they stand now, or those it deleted. -/
def returnedRows (ch : Change) (t : Table) (kind : ChangeKind) : List (Int × List SqlValue) :=
  match kind with
  | .delete => (ch.removed.filter (sameName ·.1 t.name)).map fun (_, vals, rid) => (rid, vals)
  | _ => ch.written.filterMap fun (n, rid) =>
    if sameName n t.name then ((ch.contents.table? t.name).bind (·.row? rid)).map ((rid, ·)) else none

/-- Evaluates a `RETURNING` clause over rows of its target seen under `label`, its values going
nowhere: without rows, its names are checked against the target. -/
def returnedValues (base : Env) (t : Table) (label : String) (columns : List ResultColumn)
    (rows : Option (List (Int × List SqlValue))) : Except SqlFault Unit := do
  let scope := t.scopeAs label
  let items ← expandColumns [scope] columns
  match rows with
  | none => discard (items.mapM (evalItem evalFuel { base with frame := nullFrame [scope], probe := true }))
  | some rs =>
    for (rid, vals) in rs do
      discard (items.mapM (evalItem evalFuel { base with frame := [{ scope, values := vals, rowid := rid }] }))

/-- Runs a statement that changes rows on a connection: it is checked together with the triggers
it may fire, then run; a fault undoes it, or keeps what it did, as its resolution says. -/
def Database.modify (db : Database) (params : List SqlValue) (st : Statement)
    (returning : List ResultColumn := []) : Database × Option SqlFault :=
  let act : Act := { fks := db.foreignKeys, base := db.env params }
  let target := if returning.isEmpty then none else
    match st with
    | .insert _ _ _ t _ _ _ => (db.contents.table? t).map (·, t, ChangeKind.insert)
    | .update _ _ _ t tableLabel _ _ _ => (db.contents.table? t).map (·, tableLabel.getD t, ChangeKind.update)
    | .delete _ _ t tableLabel _ => (db.contents.table? t).map (·, tableLabel.getD t, ChangeKind.delete)
    | _ => none
  let checked := do
    checkStatement 200 act db.contents st
    if let some (t, label, _) := target then returnedValues act.base t label returning none
  match checked with
  | .error e => (db, some e)
  | .ok () =>
    match runStatement 2000 act { contents := db.contents } st with
    | .error (h, ch) => haltChange db ch h
    | .ok ch =>
      let returned := match target with
        | some (t, label, kind) =>
          returnedValues { act.base with contents := ch.contents } t label returning
            (some (returnedRows ch t kind))
        | none => .ok ()
      match returned with
      | .error e => (db, some e)
      | .ok () => finishChange db ch

end GraphIngest.Sql
