import GraphIngest.Sql.Define
import GraphIngest.Sql.Statement

/-!
# Running statements and scripts

A connection runs a statement and reports a fault by its message; a fault that points at a token
is reported with the text of the statement and the offset of the token in it. A script runs
statement by statement and stops at the first fault; what the statements before it did stays.
-/

namespace GraphIngest.Sql

/-- The number a setting starting with a digit gives: hexadecimal after `0x` (up to eight
digits, below `2^31`, with nothing after), else decimal (up to ten digits after leading zeros,
below `2^31`); zero when it is out of range. -/
def settingNumber (cs : List Char) : Nat :=
  let hexDigit (c : Char) : Option Nat :=
    if '0' ≤ c && c ≤ '9' then some (c.toNat - 48)
    else if 'a' ≤ c && c ≤ 'f' then some (c.toNat - 87)
    else if 'A' ≤ c && c ≤ 'F' then some (c.toNat - 55)
    else none
  match cs with
  | '0' :: x :: h :: rest =>
    if (x == 'x' || x == 'X') && (hexDigit h).isSome then
      let ds := ((h :: rest).dropWhile (· == '0'))
      let taken := (ds.take 8).takeWhile (hexDigit · |>.isSome)
      let u := taken.foldl (fun acc c => acc * 16 + (hexDigit c).getD 0) 0
      if u < Nat.pow 2 31 && ((ds.drop taken.length).head?.bind hexDigit).isNone then u else 0
    else decimal cs
  | _ => decimal cs
where
  /-- Leading decimal digits, as a number below `2^31`, else zero. -/
  decimal (cs : List Char) : Nat :=
    let ds := (cs.dropWhile (· == '0')).takeWhile isDigit
    let v := (ds.take 11).foldl (fun acc c => acc * 10 + digitOf c) 0
    if ds.length > 10 || v > 2147483647 then 0 else v

/-- The truth value a setting gives an on-off option: a number (taken as a byte) when it starts
with a digit, else on for `on`, `yes` and `true` and off for anything else. -/
def settingOn (v : String) : Bool :=
  match v.toList with
  | c :: _ =>
    if isDigit c then settingNumber v.toList % 256 != 0
    else match v.map foldAscii with
      | "on" | "yes" | "true" => true
      | _ => false
  | [] => false

/-- Runs one statement on a connection. `base` is where the statement's text starts in the text
it was read from, and `params` are the values of its numbered parameters. Gives the connection
after the statement and the fault that stopped it, if any. -/
def Database.execute (db : Database) (base : Nat) (params : List SqlValue) (st : Statement) :
    Database × Option SqlFault :=
  let lift (r : Except SqlFault Database) : Database × Option SqlFault :=
    match r with
    | .ok d => (d, none)
    | .error e => (db, some e)
  -- a table named with its schema: the tables of its name in the other schema are set aside
  let onSchema (schema : Option String) (name : String) (ifMissing : Database × Option SqlFault)
      (run : Database → Database × Option SqlFault) : Database × Option SqlFault :=
    match schema with
    | none => run db
    | some s =>
      match db.contents.narrowTo s name with
      | none => ifMissing
      | some (c, aside) =>
        let (db', f) := run { db with contents := c }
        ({ db' with contents := { db'.contents with tables := db'.contents.tables ++ aside } }, f)
  let missing (schema : Option String) (name : String) : Database × Option SqlFault :=
    (db, some (.noSuchTable ((schema.map (· ++ ".")).getD "" ++ name)))
  match st with
  | .createTable temp ine n tok cols consts wr st =>
    lift (db.createTable base temp ine n tok cols consts wr st)
  | .createTableAs temp ine n tok q => lift (db.createTableAs base temp ine n tok q)
  | .createVirtual ine n tok m args => lift (db.createVirtual base ine n tok m args)
  | .createIndex u ine n t cols f => lift (db.createIndex u ine n t cols f)
  | .createView ine n tok cols q => lift (db.createView base ine n tok cols q)
  | .dropTable ie s n => onSchema s n (if ie then (db, none) else missing s n) (·.dropTable ie n)
  | .dropIndex ie n => lift (db.dropIndex ie n)
  | .dropView ie n => lift (db.dropView ie n)
  | .insert _ _ s t _ _ _ | .update _ _ s t _ _ _ _ | .delete _ s t _ _ =>
    onSchema s t (missing s t) (·.modify params st)
  | .createTrigger ine n tok time ev t cond body =>
    lift (db.createTrigger base ine n tok time ev t cond body)
  | .dropTrigger ie n => lift (db.dropTrigger ie n)
  | .returning inner columns =>
    match inner with
    | .insert _ _ s t _ _ _ | .update _ _ s t _ _ _ _ | .delete _ s t _ _ =>
      onSchema s t (missing s t) (·.modify params inner columns)
    | _ => (db, none)
  | .select q =>
    match Database.rowsOf (db.env params) q with
    | .ok _ => (db, none)
    | .error e => (db, some e)
  | .pragma name value =>
    if sameName name "foreign_keys" && db.saved.isNone then
      match value with
      | some v => ({ db with foreignKeys := settingOn v }, none)
      | none => (db, none)
    else if sameName name "case_sensitive_like" then
      match value with
      | some v => ({ db with caseSensitiveLike := settingOn v }, none)
      | none => (db, none)
    else (db, none)
  | .begin =>
    if db.saved.isSome then (db, some .nestedTransaction)
    else ({ db with saved := some db.contents }, none)
  | .commit =>
    match db.saved with
    | none => (db, some (.noTransaction "commit"))
    | some _ => (db.endTransaction db.contents, none)
  | .rollback =>
    match db.saved with
    | none => (db, some (.noTransaction "rollback"))
    | some s => (db.endTransaction s, none)
  | .savepoint n =>
    match db.saved with
    | none => ({ db with saved := some db.contents, savepoints := [(n, db.contents)],
                         savepointOpened := true }, none)
    | some _ => ({ db with savepoints := (n, db.contents) :: db.savepoints }, none)
  | .release n =>
    match db.savepoints.findIdx? (sameName ·.1 n) with
    | none => (db, some (.otherMessage ("no such savepoint: " ++ n)))
    | some i =>
      if i + 1 == db.savepoints.length && db.savepointOpened then
        (db.endTransaction db.contents, none)
      else ({ db with savepoints := db.savepoints.drop (i + 1) }, none)
  | .rollbackTo n =>
    match db.savepoints.findIdx? (sameName ·.1 n) with
    | none => (db, some (.otherMessage ("no such savepoint: " ++ n)))
    | some i =>
      let kept := db.savepoints.drop i
      match kept with
      | (_, c) :: _ => ({ db with contents := c, savepoints := kept }, none)
      | [] => (db, none)
  | .renameTable t n => lift (db.renameTable t n)
  | .addColumn t c => lift (db.addColumn t c)
  | .renameColumn t o n => lift (db.renameColumn t o n)
  | .dropColumn t c => lift (db.dropColumn t c)
  | .nothing => (db, none)

/-- The text of a fault: its message, with the statement's text and the offset when it points
at a token. -/
def faultText (f : SqlFault) (sql : String) : String :=
  match f.offset? with
  | some o => f.message ++ " in " ++ sql ++ " at offset " ++ toString o
  | none => f.message

def textFrom (source : ByteArray) (start : Nat) : String :=
  (String.fromUTF8? (source.extract start source.size)).getD ""

/-- Runs the statements of a script in turn; the first fault stops it, and its text is given
with the connection as the statements before it left it. -/
def Database.runScript (db : Database) (script : String) : Database × Option String :=
  let source := script.toUTF8
  let tokens := tokenize script
  go source (tokens.length + 1) db tokens 0
where
  /-- Runs the statement that starts at `start`, then the rest. -/
  go (source : ByteArray) : Nat → Database → List Token → Nat → Database × Option String
    | 0, db, _, _ => (db, none)
    | fuel + 1, db, tokens, start =>
      match readStatement source tokens start with
      | .error f => (db, some (faultText f (textFrom source start)))
      | .ok none => (db, none)
      | .ok (some r) =>
        match db.execute start [] r.statement with
        | (db', some f) => (db', some (faultText f (textFrom source start)))
        | (db', none) =>
          if r.tail ≥ source.size then (db', none) else go source fuel db' r.rest r.tail

/-- The connection closed: a transaction left open is rolled back, the temporary tables go, and
the next connection starts with fresh counters and settings. -/
def Database.close (db : Database) : Database :=
  let contents := match db.saved with
    | some s => s
    | none => db.contents
  let tables := contents.tables.filter (!·.temporary)
  { contents := { contents with tables,
                                indexes := contents.indexes.filter fun i =>
                                  tables.any (sameName ·.name i.table) } }

/-- A database made by running a script on an empty one (its connection's clock reading
`clock`, in milliseconds on the Julian day count) and closing the connection, or the text of the
fault that stopped the script. -/
def Database.ofScript (clock : Int) (script : String) : Except String Database :=
  match ({ clock } : Database).runScript script with
  | (_, some f) => .error f
  | (db, none) => .ok { db.close with clock }

def prepare (sql : String) : Except String Statement :=
  match readStatement sql.toUTF8 (tokenize sql) 0 with
  | .error f => .error (faultText f sql)
  | .ok none => .error "not an error"
  | .ok (some r) => .ok r.statement

/-- Runs a query with parameters: its rows, or the text of its fault. -/
def Database.query (db : Database) (sql : String) (params : List SqlValue) : Except String Rows := do
  match ← prepare sql with
  | .select q => (Database.rowsOf (db.env params) q).mapError fun f => faultText f sql
  | _ => .error "not a query"

/-- Runs a statement that changes the database, with parameters: the connection after it, or
the text of its fault (the connection as the fault left it). -/
def Database.run (db : Database) (sql : String) (params : List SqlValue) : Database × Option String :=
  match prepare sql with
  | .error e => (db, some e)
  | .ok st =>
    match db.execute 0 params st with
    | (db', some f) => (db', some (faultText f sql))
    | (db', none) => (db', none)

end GraphIngest.Sql
