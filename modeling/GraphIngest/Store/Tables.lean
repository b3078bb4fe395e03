import GraphIngest.Store.Graph
import GraphIngest.Sql.Script

/-!
# A graph kept in the tables of a database

A graph store can live in a database: a table of nodes (an identity handed out in increasing
order, the handle first written under, and the properties as JSON text), one of labels, one of
every handle a node was written or merged under, and one of relationships. Opening the store runs
its schema script; tables that exist are kept. The operations follow `Graph`, except that:

* a write is one transaction, undone whole by a fault; a handle keeps the first node bound to it;
* properties are read back by the JSON reader, so a double comes back as that reader reads its
  shortest text, and a non-finite one as null;
* a lookup narrows the nodes with the path `$."k"` for each condition on `k`, then checks each
  property, so a key with a double quote finds no node on a value that is not null.
-/

namespace GraphIngest

/-- A graph store kept in the tables of a database. -/
structure TableGraph where
  db : Sql.Database
  deriving Inhabited

namespace TableGraph

/-- The script that makes the tables of a store where they are missing. -/
def schema : String := "\n".intercalate [
  "",
  "            CREATE TABLE IF NOT EXISTS nodes (",
  "                id INTEGER PRIMARY KEY AUTOINCREMENT,",
  "                handle TEXT NOT NULL,",
  "                properties_json TEXT NOT NULL",
  "            );",
  "",
  "            CREATE TABLE IF NOT EXISTS node_labels (",
  "                node_id INTEGER NOT NULL,",
  "                label TEXT NOT NULL,",
  "                PRIMARY KEY (node_id, label),",
  "                FOREIGN KEY (node_id) REFERENCES nodes(id) ON DELETE CASCADE",
  "            );",
  "",
  "            CREATE INDEX IF NOT EXISTS idx_node_labels_label",
  "                ON node_labels(label, node_id);",
  "",
  "            -- Every handle a node was written or merged under",
  "            CREATE TABLE IF NOT EXISTS node_handles (",
  "                handle TEXT PRIMARY KEY,",
  "                node_id INTEGER NOT NULL,",
  "                FOREIGN KEY (node_id) REFERENCES nodes(id) ON DELETE CASCADE",
  "            );",
  "",
  "            CREATE TABLE IF NOT EXISTS relationships (",
  "                id INTEGER PRIMARY KEY AUTOINCREMENT,",
  "                rel_type TEXT NOT NULL,",
  "                start_id INTEGER NOT NULL,",
  "                end_id INTEGER NOT NULL,",
  "                properties_json TEXT NOT NULL,",
  "                FOREIGN KEY (start_id) REFERENCES nodes(id) ON DELETE CASCADE,",
  "                FOREIGN KEY (end_id) REFERENCES nodes(id) ON DELETE CASCADE",
  "            );",
  "",
  "            CREATE INDEX IF NOT EXISTS idx_relationships_endpoints",
  "                ON relationships(rel_type, start_id, end_id);",
  "",
  "            PRAGMA foreign_keys = ON;",
  "",
  "            -- Concurrent readers while a worker commits",
  "            PRAGMA journal_mode = WAL;",
  "            "]

/-- Opens the store kept in a database by running the schema script: the database as the script
left it, and the store, or the script's fault. -/
def ofDatabase (db : Sql.Database) : Sql.Database × Except StorageError TableGraph :=
  match db.runScript schema with
  | (db', none) => (db', .ok ⟨db'⟩)
  | (db', some e) => (db', .error (.database e))

/-- A store on a new, empty database. -/
def fresh : TableGraph :=
  match (ofDatabase {}).2 with
  | .ok t => t
  | .error _ => ⟨{}⟩

/-! ## Reading rows -/

/-- The name of a value's kind, as a fault about a column names it. -/
def kindName : Sql.SqlValue → String
  | .null => "Null"
  | .int _ => "Integer"
  | .real _ => "Real"
  | .text _ => "Text"
  | .blob _ => "Blob"

/-- The fault of a column holding a value of another kind than the one read. -/
def wrongKind (rs : Sql.Rows) (i : Nat) (v : Sql.SqlValue) : StorageError :=
  let kind := kindName v
  let name := ((rs.columns[i]?).map (·.name)).getD ""
  .database s!"Invalid column type {kind} at index: {i}, name: {name}"

/-- Column `i` of a row, read as an integer. -/
def intAt (rs : Sql.Rows) (row : List Sql.SqlValue) (i : Nat) : Except StorageError Int :=
  match row.getD i .null with
  | .int n => .ok n
  | v => .error (wrongKind rs i v)

/-- Column `i` of a row, read as text. -/
def textAt (rs : Sql.Rows) (row : List Sql.SqlValue) (i : Nat) : Except StorageError String :=
  match row.getD i .null with
  | .text s => .ok s
  | v => .error (wrongKind rs i v)

def propsOf (text : String) : Except StorageError Props :=
  (Typed.whole Serial.readProps text).mapError fun e => .serialization e.message

def handleOf (text : String) : Except StorageError Handle :=
  match Handle.parse text with
  | .ok h => .ok h
  | .error e => .error (.serialization ("UUID parsing failed: " ++ e.message))

def propsText (ps : Props) : String := ps.toJson.compact

/-- A property value as a statement parameter: booleans as integers, lists as their JSON
text. -/
def param : Value → Sql.SqlValue
  | .null => .null
  | .bool b => .int (if b then 1 else 0)
  | .int i => .int i
  | .float x => .real x
  | .str s => .text s
  | v@(.array _) => .text v.toJson.compact

/-- The path that finds the property `k` in a JSON object: `$."k"`, each double quote of `k`
preceded by a backslash. -/
def keyPath (k : String) : String :=
  "$.\"" ++ String.ofList (k.toList.flatMap fun c => if c == '"' then ['\\', '"'] else [c]) ++ "\""

/-- The query for nodes carrying labels and satisfying conditions on properties, in identity
order, with its parameters. -/
def findQuery (labels : List String) (conditions : Props) : String × List Sql.SqlValue :=
  let sql := "SELECT n.id, n.handle, n.properties_json FROM nodes n WHERE 1 = 1" ++
    String.join (labels.map fun _ =>
      " AND EXISTS (SELECT 1 FROM node_labels l WHERE l.node_id = n.id AND l.label = ?)") ++
    String.join (conditions.entries.map fun _ => " AND json_extract(n.properties_json, ?) IS ?") ++
    " ORDER BY n.id"
  let params := labels.map Sql.SqlValue.text ++
    conditions.entries.flatMap fun (k, v) => [.text (keyPath k), param v]
  (sql, params)

def queryOn (db : Sql.Database) (sql : String) (params : List Sql.SqlValue) : Except StorageError Sql.Rows :=
  (db.query sql params).mapError .database

/-- The labels of a node, sorted. -/
def labelsOn (db : Sql.Database) (id : Int) : Except StorageError (List String) := do
  let rs ← queryOn db "SELECT label FROM node_labels WHERE node_id = ?1" [.int id]
  return labelSet (← rs.rows.mapM fun row => textAt rs row 0)

/-- The nodes carrying all labels whose properties satisfy all conditions, in identity order. -/
def findOn (db : Sql.Database) (labels : List String) (conditions : Props) : Except StorageError (List Node) := do
  let (sql, params) := findQuery labels conditions
  let rs ← queryOn db sql params
  let rows ← rs.rows.mapM fun row => do
    return (← intAt rs row 0, ← textAt rs row 1, ← textAt rs row 2)
  let found ← rows.filterMapM fun (id, handle, text) => do
    let ps ← propsOf text
    if !conditionsMatch ps conditions then return none
    let h ← handleOf handle
    return some ({ handle := h, identity := some id.toNat, labels := ← labelsOn db id, properties := ps } : Node)
  return found

/-! ## Reading the store -/

/-- The nodes carrying all labels whose properties satisfy all conditions, in identity order. -/
def matchNodes (t : TableGraph) (labels : List String) (conditions : Props) : Except StorageError (List Node) :=
  findOn t.db labels conditions

def countOf (t : TableGraph) (sql : String) (params : List Sql.SqlValue) : Except StorageError Nat := do
  let rs ← queryOn t.db sql params
  match rs.rows with
  | row :: _ => return (← intAt rs row 0).toNat
  | [] => throw (.database "Query returned no rows")

/-- The number of nodes, or of nodes carrying a label. -/
def nodeCount (t : TableGraph) : Option String → Except StorageError Nat
  | some l => t.countOf "SELECT COUNT(*) FROM node_labels WHERE label = ?1" [.text l]
  | none => t.countOf "SELECT COUNT(*) FROM nodes" []

/-- The number of relationships, or of relationships of a type. -/
def relCount (t : TableGraph) : Option String → Except StorageError Nat
  | some r => t.countOf "SELECT COUNT(*) FROM relationships WHERE rel_type = ?1" [.text r]
  | none => t.countOf "SELECT COUNT(*) FROM relationships" []

def toGraph (t : TableGraph) : Except StorageError Graph := do
  let nodes ← t.matchNodes [] {}
  let rs ← queryOn t.db "SELECT id, rel_type, start_id, end_id, properties_json FROM relationships ORDER BY id" []
  let rels ← rs.rows.mapM fun row => do
    let id ← intAt rs row 0
    let r : StoredRel := { relType := ← textAt rs row 1, source := (← intAt rs row 2).toNat,
                           target := (← intAt rs row 3).toNat, props := ← propsOf (← textAt rs row 4) }
    return (id.toNat, r)
  return { nodes := nodes.map fun n => (n.identity.getD 0, { handle := n.handle, labels := n.labels, props := n.properties }),
           rels }

end TableGraph

/-- Writing to a store kept in tables; a fault ends the write. -/
abbrev TableWrite := EStateM StorageError Sql.Database

namespace TableWrite

/-- Runs a statement that changes the tables. -/
def exec (sql : String) (params : List Sql.SqlValue) : TableWrite Unit := do
  match (← get).run sql params with
  | (db, none) => set db
  | (_, some e) => throw (.database e)

def query (sql : String) (params : List Sql.SqlValue) : TableWrite Sql.Rows := do
  match TableGraph.queryOn (← get) sql params with
  | .ok rs => pure rs
  | .error e => throw e

/-- Lifts a read that may fail. -/
def lift (r : Except StorageError α) : TableWrite α :=
  match r with
  | .ok a => pure a
  | .error e => throw e

/-- Binds a handle to a node, keeping a first binding. -/
def bind (h : Handle) (id : Int) : TableWrite Unit :=
  exec "INSERT OR IGNORE INTO node_handles (handle, node_id) VALUES (?1, ?2)" [.text h.text, .int id]

/-- Writes a new node; its identity. -/
def insertNode (n : Node) : TableWrite Int := do
  exec "INSERT INTO nodes (handle, properties_json) VALUES (?1, ?2)"
    [.text n.handle.text, .text (TableGraph.propsText n.properties)]
  let id := (← get).lastRowid
  for l in n.labels do
    exec "INSERT INTO node_labels (node_id, label) VALUES (?1, ?2)" [.int id, .text l]
  bind n.handle id
  return id

/-- Merges a node on its merge label and key, or writes it when it has no key. -/
def mergeNode (n : Node) : TableWrite Int := do
  match n.mergeKey with
  | none => insertNode n
  | some (k, v) =>
    let label := n.mergeLabel.getD ""
    match ← lift (TableGraph.findOn (← get) [label] (Props.empty.insert k v)) with
    | [] => insertNode n
    | [old] =>
      let id : Int := old.identity.getD 0
      exec "UPDATE nodes SET properties_json = ?1 WHERE id = ?2"
        [.text (TableGraph.propsText (old.properties.extend n.properties)), .int id]
      for l in n.labels do
        exec "INSERT OR IGNORE INTO node_labels (node_id, label) VALUES (?1, ?2)" [.int id, .text l]
      bind n.handle id
      return id
    | many => throw (.mergeConflict label k v.display many.length)

/-- The identity of a relationship endpoint: its own (which must exist), the node its handle is
bound to, or a node written now (merged if keyed). -/
def resolve (n : Node) : TableWrite Int := do
  match n.identity with
  | some id =>
    let rs ← query "SELECT id FROM nodes WHERE id = ?1" [.int id]
    match rs.rows with
    | row :: _ => discard (lift (TableGraph.intAt rs row 0)); return id
    | [] => throw (.missingEndpoint s!"{n.display} (identity {id})")
  | none =>
    let rs ← query "SELECT node_id FROM node_handles WHERE handle = ?1" [.text n.handle.text]
    match rs.rows with
    | row :: _ => lift (TableGraph.intAt rs row 0)
    | [] => if n.primaryKey.isSome then mergeNode n else insertNode n

/-- Writes a new relationship; its identity. -/
def insertRel (r : Relationship) (s t : Int) : TableWrite Int := do
  exec "INSERT INTO relationships (rel_type, start_id, end_id, properties_json) VALUES (?1, ?2, ?3, ?4)"
    [.text r.relType, .int s, .int t, .text (TableGraph.propsText r.properties)]
  return (← get).lastRowid

/-- Merges a relationship on type, endpoints and key, or writes it when it has no key. -/
def mergeRel (r : Relationship) (s t : Int) : TableWrite Int := do
  match r.key with
  | none => insertRel r s t
  | some key =>
    let keyValue := match key with
      | .property k => some (k, (r.properties.get? k).getD .null)
      | .ghost => none
    let rs ← query "SELECT id, properties_json FROM relationships WHERE rel_type = ?1 AND start_id = ?2 AND end_id = ?3"
      [.text r.relType, .int s, .int t]
    let rows ← lift (rs.rows.mapM fun row => do
      return (← TableGraph.intAt rs row 0, ← TableGraph.textAt rs row 1))
    let hits ← lift (rows.filterMapM fun (id, text) => do
      let ps ← TableGraph.propsOf text
      let hit := match keyValue with
        | some (k, v) => propertyMatches ps k v
        | none => true
      return if hit then some (id, ps) else none)
    match hits with
    | [] => insertRel r s t
    | [(id, old)] =>
      exec "UPDATE relationships SET properties_json = ?1 WHERE id = ?2"
        [.text (TableGraph.propsText (old.extend r.properties)), .int id]
      return id
    | many =>
      throw (.mergeConflict r.relType ((keyValue.map Prod.fst).getD "<endpoints>") s!"{s}->{t}" many.length)

/-- Writes the relationships of a fragment that have no identity, with `put` writing one. -/
def writeRels (put : Relationship → Int → Int → TableWrite Int) (rels : List Relationship)
    (a : Write.Assigned) : TableWrite Write.Assigned :=
  (rels.zipIdx).foldlM (fun a (r, i) => do
    if r.identity.isSome then return a
    let s ← resolve r.source
    let t ← resolve r.target
    let nodes := setAssoc r.target.handle t.toNat (setAssoc r.source.handle s.toNat a.nodes)
    let id ← put r s t
    return { a with nodes, rels := a.rels ++ [(i, id.toNat)] }) a

/-- Writes every uncommitted element of a fragment as new. -/
def create (f : Fragment) : TableWrite Write.Assigned := do
  let a ← (f.nodes.filter (!·.isCommitted)).foldlM (fun (a : Write.Assigned) n => do
    let id ← insertNode n
    return { a with nodes := setAssoc n.handle id.toNat a.nodes }) {}
  writeRels insertRel f.rels a

def merge (f : Fragment) : TableWrite Write.Assigned := do
  let a ← (f.nodes.filter (!·.isCommitted)).foldlM (fun (a : Write.Assigned) n => do
    let id ← mergeNode n
    return { a with nodes := setAssoc n.handle id.toNat a.nodes }) {}
  writeRels mergeRel f.rels a

end TableWrite

namespace TableGraph

/-- Runs a write on a fragment as one transaction: the store after it and the fragment with its
identities, or the fault with the store as it was. -/
def write (t : TableGraph) (w : Fragment → TableWrite Write.Assigned) (f : Fragment) :
    TableGraph × Except StorageError Fragment :=
  match (w f).run t.db with
  | .ok a db => (⟨db⟩, .ok (a.apply f))
  | .error e _ => (t, .error e)

def create (t : TableGraph) (f : Fragment) : TableGraph × Except StorageError Fragment :=
  t.write TableWrite.create f

def merge (t : TableGraph) (f : Fragment) : TableGraph × Except StorageError Fragment :=
  t.write TableWrite.merge f

end TableGraph

end GraphIngest
