import GraphIngest.Sql.Parse

/-!
# Reading whole statements

A script is read one statement at a time: each starts right after the semicolon that ended the
one before, and ends with its own semicolon or with the script.
-/

namespace GraphIngest.Sql

namespace Parse

/-- A term of a key list: a name with an optional collation and order. -/
def keyTerm : Parse KeyTerm := do
  let (n, _) ← name
  let collation ← if ← acceptKw "COLLATE" then pure (some (← name).1) else pure none
  let desc ← if ← acceptKw "DESC" then pure true else (do discard (acceptKw "ASC"); pure false)
  return { column := n, collation, desc }

/-- The text of a check between its parentheses, blanks trimmed and a leading quote undone. -/
def checkText (openEnd closeStart : Nat) : Parse String := do
  let text ← spanText openEnd closeStart
  match text.toList with
  | q :: rest =>
    if q == '\'' || q == '"' || q == '`' then return String.ofList (unquote q rest [])
    else if q == '[' then return String.ofList (rest.takeWhile (· != ']'))
    else return text
  | [] => return text

/-- `CHECK ( expr )`, after the keyword: the check named by the constraint name, if any, or by its
text. -/
def checkClause (fuel : Nat) (constraintName : Option String) : Parse Check := do
  let some openTok ← peek | fail
  punct "("
  let e ← expr fuel
  let some closeTok ← peek | fail
  punct ")"
  let text ← checkText (openTok.offset + 1) closeTok.offset
  return { e, name := constraintName.getD text, named := constraintName.isSome }

/-- The value after `DEFAULT`. -/
def defaultValue (fuel : Nat) : Parse Expr := do
  if ← acceptPunct "(" then
    let e ← expr fuel
    punct ")"
    return e
  else if ← acceptPunct "+" then term
  else if ← acceptPunct "-" then return .unary .neg (← term)
  else
    match ← peek with
    | some t =>
      if t.kind == .word && !t.isReserved && !(["CURRENT_TIME", "CURRENT_DATE", "CURRENT_TIMESTAMP"].contains t.text.toUpper) then
        advance
        let u := t.text.toUpper
        if u == "TRUE" then return .integer "1" 0
        else if u == "FALSE" then return .integer "0" 0
        else return .string t.text
      else term
    | none => fail
where
  /-- A literal term. -/
  term : Parse Expr := do
    match ← peek with
    | some t =>
      match t.kind with
      | .integer => advance; return .integer (← liftFault (numberWithoutSeparators t.text)) (← rel t)
      | .float => advance; return .float (← liftFault (numberWithoutSeparators t.text))
      | .string => advance; return .string (dequote t.text)
      | .blob => advance; return .blob (blobBytes t.text)
      | .word =>
        let u := t.text.toUpper
        if u == "NULL" then advance; return .null
        else if u == "CURRENT_TIME" || u == "CURRENT_DATE" || u == "CURRENT_TIMESTAMP" then
          advance; return .call u.toLower [] false false (← rel t)
        else fail
      | _ => fail
    | none => fail

/-- A declared type without the words `GENERATED ALWAYS` that end it (they start the clause of a
generated column). -/
def withoutGeneratedWords (ty : String) : String :=
  let cs := ty.toList
  let lower := cs.map Char.toLower
  if cs.length ≥ 16 && lower.drop (cs.length - 6) == "always".toList then
    let cs := (cs.take (cs.length - 6)).reverse.dropWhile isBlank |>.reverse
    let lower := cs.map Char.toLower
    if cs.length ≥ 9 && lower.drop (cs.length - 9) == "generated".toList then
      String.ofList ((cs.take (cs.length - 9)).reverse.dropWhile isBlank |>.reverse)
    else String.ofList cs
  else ty

/-- The expression of a generated column, after its `AS`, with whether it is stored. -/
def generatedClause (fuel : Nat) (column : String) : Parse (Expr × Bool) := do
  punct "("
  let e ← expr fuel
  punct ")"
  if ← acceptKw "STORED" then return (e, true)
  else if ← acceptKw "VIRTUAL" then return (e, false)
  else
    match ← peek with
    | some t =>
      if t.kind == .word && !t.isReserved && !(["CONSTRAINT", "PRIMARY", "NOT", "NULL", "UNIQUE",
          "CHECK", "DEFAULT", "COLLATE", "REFERENCES", "DEFERRABLE", "GENERATED", "AS"].contains
          t.text.toUpper) then
        throw (SqlFault.otherMessage ("error in generated column \"" ++ column ++ "\""))
      else return (e, false)
    | none => return (e, false)

/-- A column definition: name, type and constraints. -/
def columnDef (fuel : Nat) : Parse ColumnDef := do
  let (n, _) ← name
  let ty ← typeName
  let mut col : ColumnDef := { name := n, type := withoutGeneratedWords ty }
  let mut cname : Option String := none
  for _ in [0:1000] do
    if ← acceptKw "CONSTRAINT" then cname := some (← name).1
    else if ← acceptKw "PRIMARY" then
      kw "KEY"
      let desc ← if ← acceptKw "DESC" then pure true else (do discard (acceptKw "ASC"); pure false)
      let conflict ← onConflict
      let auto ← acceptKw "AUTOINCREMENT"
      col := { col with keys := col.keys ++ [{ primary := true, desc, conflict }],
                        autoincrement := col.autoincrement || auto }
    else if ← atKw "NOT" then
      advance
      if ← acceptKw "NULL" then col := { col with notNull := some ((← onConflict).getD .abort) }
      else
        kw "DEFERRABLE"
        if ← acceptKw "INITIALLY" then
          if !(← acceptKw "DEFERRED") then kw "IMMEDIATE"
    else if ← acceptKw "NULL" then discard onConflict
    else if ← acceptKw "UNIQUE" then
      col := { col with keys := col.keys ++ [{ primary := false, conflict := ← onConflict }] }
    else if ← acceptKw "CHECK" then col := { col with checks := col.checks ++ [← checkClause fuel cname] }
    else if ← acceptKw "DEFAULT" then
      if col.generated.isSome then
        throw (SqlFault.otherMessage "cannot use DEFAULT on a generated column")
      col := { col with default := some (← defaultValue fuel) }
    else if ← atKw "GENERATED" <||> atKw "AS" then
      if ← acceptKw "GENERATED" then kw "ALWAYS"
      kw "AS"
      if col.default.isSome then
        throw (SqlFault.otherMessage ("error in generated column \"" ++ n ++ "\""))
      col := { col with generated := some (← generatedClause fuel n) }
    else if ← acceptKw "COLLATE" then col := { col with collation := some (← name).1 }
    else if ← acceptKw "REFERENCES" then col := { col with references := some (← references) }
    else if ← acceptKw "DEFERRABLE" then
      if ← acceptKw "INITIALLY" then
        if !(← acceptKw "DEFERRED") then kw "IMMEDIATE"
    else break
  return col

/-- A table constraint; the constraint name in force before it. -/
def tableConstraint (fuel : Nat) (cname : Option String) : Parse TableConstraint := do
  if ← acceptKw "PRIMARY" then
    kw "KEY"
    punct "("
    let mut cols := []
    let mut auto := false
    for _ in [0:100000] do
      cols := cols ++ [← keyTerm]
      if ← acceptKw "AUTOINCREMENT" then auto := true
      if !(← acceptPunct ",") then break
    punct ")"
    return .primaryKey cols (← onConflict) auto
  else if ← acceptKw "UNIQUE" then
    punct "("
    let mut cols := []
    for _ in [0:100000] do
      cols := cols ++ [← keyTerm]
      if !(← acceptPunct ",") then break
    punct ")"
    return .unique cols (← onConflict)
  else if ← acceptKw "CHECK" then
    let c ← checkClause fuel cname
    discard onConflict
    return .check c
  else if ← acceptKw "FOREIGN" then
    kw "KEY"
    let cols ← nameList
    kw "REFERENCES"
    return .foreignKey (cols.map (·.1)) (← references)
  else fail

/-- The body of `CREATE TABLE name ( … )`: columns, then constraints (separated by optional
commas), then table options. -/
def tableBody (fuel : Nat) : Parse (List ColumnDef × List TableConstraint × Bool × Bool) := do
  punct "("
  let mut cols := [← columnDef fuel]
  let mut consts := []
  let mut inConstraints := false
  let mut cname : Option String := none
  for _ in [0:100000] do
    if ← acceptPunct ")" then break
    if !inConstraints then
      punct ","
      if ← atKw "CONSTRAINT" <||> atKw "PRIMARY" <||> atKw "UNIQUE" <||> atKw "CHECK" <||> atKw "FOREIGN" then
        inConstraints := true
      else
        cols := cols ++ [← columnDef fuel]
        continue
    else
      if ← acceptPunct "," then cname := none
    if ← acceptKw "CONSTRAINT" then cname := some (← name).1
    consts := consts ++ [← tableConstraint fuel cname]
  -- table options
  let mut withoutRowid := false
  let mut strict := false
  for _ in [0:100] do
    match ← peek with
    | some t =>
      if t.isKeyword "WITHOUT" then
        advance
        let (opt, _) ← name
        if opt.toLower == "rowid" then withoutRowid := true
        else throw (.unknownTableOption opt)
      else if t.kind == .word && t.text.toUpper == "STRICT" then advance; strict := true
      else break
    | none => break
    if !(← acceptPunct ",") then break
  return (cols, consts, withoutRowid, strict)

/-- An optional `IF NOT EXISTS`. -/
def ifNotExists : Parse Bool := do
  if ← atKw "IF" then
    advance
    kw "NOT"
    kw "EXISTS"
    return true
  else return false

/-- An optional `IF EXISTS`. -/
def ifExists : Parse Bool := do
  if ← atKw "IF" then
    advance
    kw "EXISTS"
    return true
  else return false

/-- The arguments of a module, after its opening parenthesis: the text of each, up to a comma
or the closing parenthesis outside nested ones. Empty arguments are left out. -/
def moduleArgs : Parse (List String) := do
  let mut args : List String := []
  let mut start : Option Nat := none
  let mut depth : Nat := 0
  for _ in [0:1000000] do
    let some t ← peek | throw .incomplete
    if depth == 0 && (t.isPunct "," || t.isPunct ")") then
      if let some a := start then args := args ++ [← spanText a (← get).lastEnd]
      start := none
      advance
      if t.isPunct ")" then break
    else
      if start.isNone then start := some t.offset
      if t.isPunct "(" then depth := depth + 1
      if t.isPunct ")" then depth := depth - 1
      advance
  return args

/-- The statement after `CREATE`; `step` reads one statement of a trigger's body. -/
def createStatement (fuel : Nat) (step : Parse Statement) : Parse Statement := do
  if ← acceptKw "VIRTUAL" then
    kw "TABLE"
    let ine ← ifNotExists
    let (schema, n, t) ← schemaName
    if let some (s, st) := schema then
      if (schemaTemporary? s).isNone then throw (SqlFault.unknownDatabase st.text (← rel st))
    kw "USING"
    let (m, _) ← name
    let args ← if ← acceptPunct "(" then moduleArgs else pure []
    return .createVirtual ine n t m args
  let temp ← acceptKw "TEMP" <||> acceptKw "TEMPORARY"
  if ← acceptKw "TRIGGER" then
    let ine ← ifNotExists
    let (_, n, t) ← schemaName
    let time ← if ← acceptKw "BEFORE" then pure TriggerTime.before
      else if ← acceptKw "AFTER" then pure TriggerTime.after
      else if ← acceptKw "INSTEAD" then (do kw "OF"; pure TriggerTime.insteadOf)
      else pure TriggerTime.before
    let event ← if ← acceptKw "DELETE" then pure TriggerEvent.delete
      else if ← acceptKw "INSERT" then pure TriggerEvent.insert
      else do
        kw "UPDATE"
        if ← acceptKw "OF" then
          let mut cols := [(← name).1]
          for _ in [0:100000] do
            if !(← acceptPunct ",") then break
            cols := cols ++ [(← name).1]
          pure (TriggerEvent.update cols)
        else pure (TriggerEvent.update [])
    kw "ON"
    let (_, table, _) ← schemaName
    if ← acceptKw "FOR" then
      kw "EACH"
      kw "ROW"
    let cond ← if ← acceptKw "WHEN" then (do return some (← expr fuel)) else pure none
    kw "BEGIN"
    let mut body := []
    for _ in [0:100000] do
      body := body ++ [← step]
      punct ";"
      if ← acceptKw "END" then break
    return .createTrigger ine n t time event table cond body
  if ← acceptKw "TABLE" then
    let ine ← ifNotExists
    let (schema, n, t) ← schemaName
    let temporary ← match schema with
      | none => pure temp
      | some (s, st) =>
        match schemaTemporary? s with
        | none => throw (SqlFault.unknownDatabase st.text (← rel st))
        | some true => pure true
        | some false =>
          if temp then throw (SqlFault.otherMessage "temporary table name must be unqualified")
          else pure false
    if ← acceptKw "AS" then
      return .createTableAs temporary ine n t (← query fuel)
    let (cols, consts, withoutRowid, strict) ← tableBody fuel
    return .createTable temporary ine n t cols consts withoutRowid strict
  else if ← acceptKw "VIEW" then
    let ine ← ifNotExists
    let (n, t) ← qualifiedName
    let cols ← if ← atPunct "(" then (do return (← nameList).map (·.1)) else pure []
    kw "AS"
    return .createView ine n t cols (← query fuel)
  else
    let unique ← acceptKw "UNIQUE"
    kw "INDEX"
    let ine ← ifNotExists
    let (n, _) ← qualifiedName
    kw "ON"
    let (table, _) ← name
    punct "("
    let cols ← indexColumns fuel
    punct ")"
    let filter ← if ← acceptKw "WHERE" then (do return some (← expr fuel)) else pure none
    return .createIndex unique ine n table cols filter
where
  /-- The indexed expressions, each with its order. -/
  indexColumns (fuel : Nat) : Parse (List (Expr × Bool)) := do
    let mut cols := []
    for _ in [0:100000] do
      let e ← expr fuel
      let desc ← if ← acceptKw "DESC" then pure true else (do discard (acceptKw "ASC"); pure false)
      cols := cols ++ [(e, desc)]
      if !(← acceptPunct ",") then break
    return cols

/-- The statement after `DROP`. -/
def dropStatement : Parse Statement := do
  if ← acceptKw "TRIGGER" then
    let ie ← ifExists
    let (_, n, _) ← schemaName
    return .dropTrigger ie n
  if ← acceptKw "TABLE" then
    let ie ← ifExists
    let (schema, n, _) ← schemaName
    return .dropTable ie (schema.map (·.1)) n
  else if ← acceptKw "INDEX" then
    let ie ← ifExists
    return .dropIndex ie (← qualifiedName).1
  else
    kw "VIEW"
    let ie ← ifExists
    return .dropView ie (← qualifiedName).1

/-- A table name after `INTO`, `UPDATE` or `FROM`, with its schema name and an optional `AS`
alias. -/
def targetTable : Parse (Option String × String × Option String) := do
  let (schema, n, _) ← schemaName
  let tableLabel ← if ← acceptKw "AS" then (do return some (← name).1) else pure none
  return (schema.map (·.1), n, tableLabel)

/-- The assignments of `SET`: each a column, or a parenthesized list of columns, and an
expression. -/
def setList (fuel : Nat) : Parse (List (List (String × Nat) × Expr)) := do
  let mut sets := []
  for _ in [0:100000] do
    let targets ← if ← atPunct "(" then
        (do
          let ns ← nameList
          ns.mapM fun (n, t) => do return (n, ← rel t))
      else (do let (n, t) ← name; pure [(n, ← rel t)])
    punct "="
    let e ← expr fuel
    sets := sets ++ [(targets, e)]
    if !(← acceptPunct ",") then break
  return sets

/-- The `ON CONFLICT` clauses of an insert; a clause without a conflict target is the last. -/
def upsertClauses (fuel : Nat) : Parse (List Upsert) := do
  let mut clauses := []
  for _ in [0:100000] do
    if !(← atKw "ON") then break
    advance
    kw "CONFLICT"
    let target ← if ← acceptPunct "(" then
        (do
          let mut terms := []
          for _ in [0:100000] do
            let e ← expr fuel
            discard (acceptKw "ASC" <||> acceptKw "DESC")
            terms := terms ++ [e]
            if !(← acceptPunct ",") then break
          punct ")"
          let w ← if ← acceptKw "WHERE" then (do return some (← expr fuel)) else pure none
          pure (some (terms, w)))
      else pure none
    kw "DO"
    let action ← if ← acceptKw "NOTHING" then pure UpsertAction.nothing else do
      kw "UPDATE"
      kw "SET"
      let sets ← setList fuel
      let filter ← if ← acceptKw "WHERE" then (do return some (← expr fuel)) else pure none
      pure (UpsertAction.update sets filter)
    clauses := clauses ++ [({ target := target, action := action } : Upsert)]
    if target.isNone then break
  return clauses

/-- An insert, after its `INSERT` or `REPLACE` and conflict clause. -/
def insertStatement (fuel : Nat) (ctes : List Cte) (conflict : Option Conflict) : Parse Statement := do
  kw "INTO"
  let (schema, table, _) ← targetTable
  let cols ← if ← atPunct "(" then
      (do
        punct "("
        let mut cols := []
        for _ in [0:100000] do
          let (n, t) ← name
          cols := cols ++ [(n, ← rel t)]
          if !(← acceptPunct ",") then break
        punct ")"
        pure (some cols))
    else pure none
  if ← acceptKw "DEFAULT" then
    kw "VALUES"
    return .insert ctes conflict schema table cols .defaults []
  let q ← query fuel
  let src := match q with
    | .mk [] (.single (.values rows)) [] none none => InsertSource.values rows
    | q => .query q
  return .insert ctes conflict schema table cols src (← upsertClauses fuel)

/-- An update, after `UPDATE`. -/
def updateStatement (fuel : Nat) (ctes : List Cte) : Parse Statement := do
  let conflict ← if ← acceptKw "OR" then some <$> resolution else pure none
  let (schema, table, tableLabel) ← targetTable
  if ← acceptKw "INDEXED" then
    kw "BY"
    discard name
  else if ← atKw "NOT" then
    advance
    kw "INDEXED"
  kw "SET"
  let sets ← setList fuel
  let source ← if ← acceptKw "FROM" then (do return some (← sourceList fuel)) else pure none
  let filter ← if ← acceptKw "WHERE" then (do return some (← expr fuel)) else pure none
  return .update ctes conflict schema table tableLabel sets source filter

/-- A delete, after `DELETE`. -/
def deleteStatement (fuel : Nat) (ctes : List Cte) : Parse Statement := do
  kw "FROM"
  let (schema, table, tableLabel) ← targetTable
  let filter ← if ← acceptKw "WHERE" then (do return some (← expr fuel)) else pure none
  return .delete ctes schema table tableLabel filter

/-- One statement of a trigger's body: an insert, an update, a delete or a query. The tables it
changes are named without a schema. -/
def triggerStep (fuel : Nat) : Parse Statement := do
  let some t ← peek | fail
  let u := if t.kind == .word then t.text.toUpper else ""
  let st ← if u == "INSERT" then do
      advance
      let conflict ← if ← acceptKw "OR" then some <$> resolution else pure none
      insertStatement fuel [] conflict
    else if u == "REPLACE" then do advance; insertStatement fuel [] (some .replace)
    else if u == "UPDATE" then do advance; updateStatement fuel []
    else if u == "DELETE" then do advance; deleteStatement fuel []
    else if u == "SELECT" || u == "VALUES" || u == "WITH" then do return .select (← query fuel)
    else fail
  if (u == "INSERT" || u == "REPLACE") && (← atKw "RETURNING") then
    throw (SqlFault.otherMessage "cannot use RETURNING in a trigger")
  let qualified := match st with
    | .insert _ _ (some _) _ _ _ _ | .update _ _ (some _) _ _ _ _ _ | .delete _ (some _) _ _ _ => true
    | _ => false
  if qualified then
    throw (SqlFault.otherMessage
      "qualified table names are not allowed on INSERT, UPDATE, and DELETE statements within triggers")
  return st

/-- A setting's value: a name, a number with an optional sign, a string, `ON`, `DELETE` or
`DEFAULT`. -/
def pragmaValue : Parse String := do
  let sign ← if ← acceptPunct "-" then pure "-" else (do discard (acceptPunct "+"); pure "")
  match ← peek with
  | some t =>
    advance
    match t.kind with
    | .integer | .float => return sign ++ t.text
    | .string | .quoted => return dequote t.text
    | .word => return t.text
    | _ => fail
  | none => fail

/-- One statement, from its first token. -/
def statement (fuel : Nat) : Parse Statement := do
  if ← acceptKw "EXPLAIN" then
    if ← acceptKw "QUERY" then kw "PLAN"
    discard (statementBody fuel)
    return .nothing
  statementBody fuel
where
  /-- The statement without `EXPLAIN`. -/
  statementBody (fuel : Nat) : Parse Statement := do
    let some t ← peek | fail
    let u := if t.kind == .word then t.text.toUpper else ""
    if u == "CREATE" then advance; createStatement fuel (triggerStep fuel)
    else if u == "DROP" then advance; dropStatement
    else if u == "WITH" || u == "INSERT" || u == "REPLACE" || u == "UPDATE" || u == "DELETE" then
      let ctes ← withClause fuel
      let change ← if ← acceptKw "INSERT" then
          let conflict ← if ← acceptKw "OR" then some <$> resolution else pure none
          some <$> insertStatement fuel ctes conflict
        else if ← acceptKw "REPLACE" then some <$> insertStatement fuel ctes (some .replace)
        else if ← acceptKw "UPDATE" then some <$> updateStatement fuel ctes
        else if ← acceptKw "DELETE" then some <$> deleteStatement fuel ctes
        else pure none
      if let some st := change then
        if ← acceptKw "RETURNING" then return .returning st (← resultColumns fuel)
        else return st
      else
        -- a query that starts with its common tables
        let first ← core fuel
        let body ← compound fuel (.single first)
        let orderBy ← if ← acceptKw "ORDER" then (do kw "BY"; orderTerms fuel) else pure []
        let (limit, offset) ← limitClause fuel
        return .select (.mk ctes body orderBy limit offset)
    else if u == "SELECT" || u == "VALUES" then return .select (← query fuel)
    else if u == "PRAGMA" then
      advance
      let (n, _) ← qualifiedName
      if ← acceptPunct "=" then return .pragma n (some (← pragmaValue))
      else if ← acceptPunct "(" then
        let v ← pragmaValue
        punct ")"
        return .pragma n (some v)
      else return .pragma n none
    else if u == "BEGIN" then
      advance
      discard (acceptKw "DEFERRED" <||> acceptKw "IMMEDIATE" <||> acceptKw "EXCLUSIVE")
      if ← acceptKw "TRANSACTION" then
        match ← peek with
        | some n => if n.name?.isSome && !n.isPunct ";" then advance
        | none => pure ()
      return .begin
    else if u == "COMMIT" || u == "END" then
      advance
      if ← acceptKw "TRANSACTION" then
        match ← peek with
        | some n => if n.name?.isSome then advance
        | none => pure ()
      return .commit
    else if u == "ROLLBACK" then
      advance
      if ← acceptKw "TRANSACTION" then
        match ← peek with
        | some n => if n.name?.isSome && !n.isKeyword "TO" then advance
        | none => pure ()
      if ← acceptKw "TO" then
        discard (acceptKw "SAVEPOINT")
        return .rollbackTo (← name).1
      return .rollback
    else if u == "SAVEPOINT" then advance; return .savepoint (← name).1
    else if u == "RELEASE" then advance; discard (acceptKw "SAVEPOINT"); return .release (← name).1
    else if u == "ALTER" then
      advance
      kw "TABLE"
      let (table, _) ← qualifiedName
      if ← acceptKw "RENAME" then
        if ← acceptKw "TO" then return .renameTable table (← name).1
        discard (acceptKw "COLUMN")
        let (old, _) ← name
        kw "TO"
        return .renameColumn table old (← name).1
      else if ← acceptKw "ADD" then
        discard (acceptKw "COLUMN")
        return .addColumn table (← columnDef fuel)
      else
        kw "DROP"
        discard (acceptKw "COLUMN")
        return .dropColumn table (← name).1
    else if u == "VACUUM" || u == "ANALYZE" || u == "REINDEX" then
      advance
      match ← peek with
      | some n => if n.name?.isSome then discard qualifiedName
      | none => pure ()
      return .nothing
    else fail

end Parse

/-- A statement read from a script: the statement, the tokens after it, and where the text after
it starts. -/
structure ReadStatement where
  statement : Statement
  rest : List Token
  tail : Nat

/-- Reads the next statement of the tokens of a script whose bytes are `source`; `start` is where
its text starts. Empty statements before it are skipped. `none` when no statement is left. -/
def readStatement (source : ByteArray) (tokens : List Token) (start : Nat) :
    Except SqlFault (Option ReadStatement) :=
  let tokens := tokens.dropWhile (·.isPunct ";")
  if tokens.isEmpty then .ok none
  else
    let reader : Reader := { tokens, source, base := start, lastEnd := start }
    let run : Parse (Statement × Nat) := do
      let st ← Parse.statement (2 * tokens.length + 64)
      match ← Parse.peek with
      | some t =>
        if t.isPunct ";" then
          Parse.advance
          return (st, t.offset + 1)
        else Parse.fail
      | none => return (st, source.size)
    match run.run reader with
    | .ok ((st, tail), r) => .ok (some { statement := st, rest := r.tokens, tail })
    | .error e => .error e

end GraphIngest.Sql
