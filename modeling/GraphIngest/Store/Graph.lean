import GraphIngest.Store.Error
import GraphIngest.Graph.Serial

/-!
# Graph stores in memory

A store keeps nodes and relationships under identities it hands out in increasing order, and
remembers under which handles nodes were written, so a relationship can name its endpoints by
handle. Writing a fragment either creates every uncommitted element, or merges: a keyed node is
matched on its merge label and key value and updated when exactly one node matches, created when
none does, and refused when several do; a keyed relationship likewise.

A write keeps an undo log, and a write that fails is undone through it. A handle is bound to the
newest node written under it, and the log does not record a rebinding of a handle bound before,
so such a rebinding made before the fault stays.
-/

namespace GraphIngest

/-- A node as a store keeps it. -/
structure StoredNode where
  handle : Handle
  labels : List String
  props : Props
  deriving Inhabited

/-- A relationship as a store keeps it. -/
structure StoredRel where
  relType : String
  source : Nat
  target : Nat
  props : Props
  deriving Inhabited

/-- The contents of a store: nodes and relationships by identity (ascending), the node each
handle is bound to, and the last identities handed out. -/
structure Graph where
  nodes : List (Nat × StoredNode) := []
  rels : List (Nat × StoredRel) := []
  handles : List (Handle × Nat) := []
  lastNode : Nat := 0
  lastRel : Nat := 0
  deriving Inhabited

/-- Whether a stored property satisfies a condition: equal values, or a null condition on an
absent property. -/
def propertyMatches (ps : Props) (k : String) (expected : Value) : Bool :=
  match ps.get? k with
  | some actual => actual == expected
  | none => expected.isNull

def conditionsMatch (ps : Props) (conditions : Props) : Bool :=
  conditions.entries.all fun (k, v) => propertyMatches ps k v

/-- Inserts or replaces an entry of an association list, keeping its place. -/
def setAssoc [BEq α] (k : α) (v : β) : List (α × β) → List (α × β)
  | [] => [(k, v)]
  | (k', v') :: rest => if k' == k then (k, v) :: rest else (k', v') :: setAssoc k v rest

namespace Graph

def empty : Graph := {}

def toNode (id : Nat) (n : StoredNode) : Node :=
  { handle := n.handle, identity := some id, labels := n.labels, properties := n.props }

/-- The stored nodes with all labels whose properties satisfy the conditions, by identity. -/
def find (g : Graph) (labels : List String) (conditions : Props) : List (Nat × StoredNode) :=
  g.nodes.filter fun (_, n) => labels.all (n.labels.contains ·) && conditionsMatch n.props conditions

/-- The nodes with all labels whose properties satisfy the conditions, by identity. -/
def matchNodes (g : Graph) (labels : List String) (conditions : Props) : List Node :=
  (g.find labels conditions).map fun (id, n) => toNode id n

/-- The nodes carrying a label, by identity. -/
def nodesWithLabel (g : Graph) (label : String) : List Node :=
  (g.nodes.filter fun (_, n) => n.labels.contains label).map fun (id, n) => toNode id n

/-- The number of nodes, or of nodes carrying a label. -/
def nodeCount (g : Graph) : Option String → Nat
  | some l => (g.nodes.filter fun (_, n) => n.labels.contains l).length
  | none => g.nodes.length

/-- The number of relationships, or of relationships of a type. -/
def relCount (g : Graph) : Option String → Nat
  | some t => (g.rels.filter fun (_, r) => r.relType == t).length
  | none => g.rels.length

/-- The relationships of a type, by identity: endpoints and properties. -/
def relsOfType (g : Graph) (t : String) : List (Nat × Nat × Props) :=
  (g.rels.filter fun (_, r) => r.relType == t).map fun (_, r) => (r.source, r.target, r.props)

/-- The relationship types present, sorted. -/
def relTypes (g : Graph) : List String :=
  g.rels.foldl (fun acc (_, r) => if acc.contains r.relType then acc else labelSet (r.relType :: acc)) []

end Graph

def dropKeys [BEq α] (ks : List α) (l : List (α × β)) : List (α × β) :=
  l.filter fun p => !ks.contains p.1

/-- Puts back the values that changes replaced, the latest change undone first. -/
def restore [BEq α] (changes : List (α × β)) (l : List (α × β)) : List (α × β) :=
  changes.foldr (fun (k, v) l => setAssoc k v l) l

/-- The undo log of one write: the nodes and relationships it wrote as new, those it changed with
what they held before (in the order of the changes), the handles it bound for the first time, and
the last identities handed out before it began. A handle already bound that the write binds again
is not logged. -/
structure Journal where
  insertedNodes : List Nat := []
  insertedRels : List Nat := []
  replacedNodes : List (Nat × StoredNode) := []
  replacedRels : List (Nat × StoredRel) := []
  handles : List Handle := []
  lastNode : Nat
  lastRel : Nat

namespace Journal

def begin (g : Graph) : Journal := { lastNode := g.lastNode, lastRel := g.lastRel }

/-- Undoes a write. Changed entries are restored before new ones are dropped, since an entry
written as new may have been changed again later in the same write. -/
def rollback (j : Journal) (g : Graph) : Graph :=
  { nodes := dropKeys j.insertedNodes (restore j.replacedNodes g.nodes)
    rels := dropKeys j.insertedRels (restore j.replacedRels g.rels)
    handles := dropKeys j.handles g.handles
    lastNode := j.lastNode
    lastRel := j.lastRel }

end Journal

/-- A write under way: the store as written so far, and its undo log. -/
structure Txn where
  graph : Graph
  journal : Journal

/-- Writing to a store; on failure the state reached so far is kept for the rollback to undo. -/
abbrev Write := EStateM StorageError Txn

namespace Write

def graph : Write Graph := do return (← get).graph

/-- Binds a handle to a node, replacing an earlier binding; only a first binding is logged. -/
def bind (h : Handle) (id : Nat) : Write Unit := modify fun t =>
  { graph := { t.graph with handles := setAssoc h id t.graph.handles },
    journal := if (t.graph.handles.lookup h).isNone then { t.journal with handles := t.journal.handles ++ [h] }
      else t.journal }

/-- Writes a new node; its identity. -/
def insertNode (n : Node) : Write Nat := do
  let t ← get
  let id := t.graph.lastNode + 1
  set ({ graph := { t.graph with lastNode := id,
                                 nodes := t.graph.nodes ++ [(id, { handle := n.handle, labels := n.labels, props := n.properties })] },
         journal := { t.journal with insertedNodes := t.journal.insertedNodes ++ [id] } } : Txn)
  bind n.handle id
  return id

/-- Replaces the stored node `id`, logging what it held. -/
def replaceNode (id : Nat) (old updated : StoredNode) : Write Unit := modify fun t =>
  { graph := { t.graph with nodes := setAssoc id updated t.graph.nodes },
    journal := { t.journal with replacedNodes := t.journal.replacedNodes ++ [(id, old)] } }

/-- Merges a node on its merge label and key, or writes it when it has no key. -/
def mergeNode (n : Node) : Write Nat := do
  match n.mergeKey with
  | none => insertNode n
  | some (k, v) =>
    let label := n.mergeLabel.getD ""
    match (← graph).find [label] (Props.empty.insert k v) with
    | [] => insertNode n
    | [(id, old)] =>
      replaceNode id old { old with labels := labelSet (old.labels ++ n.labels),
                                    props := old.props.extend n.properties }
      bind n.handle id
      return id
    | many => throw (.mergeConflict label k v.display many.length)

/-- The identity of a relationship endpoint: its own (which must exist), the node its handle is
bound to, or a node written now (merged if keyed). -/
def resolve (n : Node) : Write Nat := do
  let g ← graph
  match n.identity with
  | some id =>
    if (g.nodes.lookup id).isSome then return id
    else throw (.missingEndpoint s!"{n.display} (identity {id})")
  | none =>
    match g.handles.lookup n.handle with
    | some id => return id
    | none => if n.primaryKey.isSome then mergeNode n else insertNode n

/-- Writes a new relationship; its identity. -/
def insertRel (r : Relationship) (s t : Nat) : Write Nat := do
  let x ← get
  let id := x.graph.lastRel + 1
  set ({ graph := { x.graph with lastRel := id,
                                 rels := x.graph.rels ++ [(id, { relType := r.relType, source := s, target := t, props := r.properties })] },
         journal := { x.journal with insertedRels := x.journal.insertedRels ++ [id] } } : Txn)
  return id

/-- Replaces the stored relationship `id`, logging what it held. -/
def replaceRel (id : Nat) (old updated : StoredRel) : Write Unit := modify fun t =>
  { graph := { t.graph with rels := setAssoc id updated t.graph.rels },
    journal := { t.journal with replacedRels := t.journal.replacedRels ++ [(id, old)] } }

/-- Merges a relationship on type, endpoints and key, or writes it when it has no key. -/
def mergeRel (r : Relationship) (s t : Nat) : Write Nat := do
  match r.key with
  | none => insertRel r s t
  | some key =>
    let keyValue := match key with
      | .property k => some (k, (r.properties.get? k).getD .null)
      | .ghost => none
    let hits := (← graph).rels.filter fun (_, x) =>
      x.relType == r.relType && x.source == s && x.target == t &&
        (match keyValue with
          | some (k, v) => propertyMatches x.props k v
          | none => true)
    match hits with
    | [] => insertRel r s t
    | [(id, old)] =>
      replaceRel id old { old with props := old.props.extend r.properties }
      return id
    | many =>
      throw (.mergeConflict r.relType ((keyValue.map Prod.fst).getD "<endpoints>") s!"{s}->{t}" many.length)

/-- Identities handed out by one write: nodes by handle (a later assignment of a handle wins),
and relationships by position in the fragment. -/
structure Assigned where
  nodes : List (Handle × Nat) := []
  rels : List (Nat × Nat) := []

/-- Writes the relationships of a fragment that have no identity, with `put` writing one. -/
def writeRels (put : Relationship → Nat → Nat → Write Nat) (rels : List Relationship) (a : Assigned) :
    Write Assigned :=
  (rels.zipIdx).foldlM (fun a (r, i) => do
    if r.identity.isSome then return a
    let s ← resolve r.source
    let t ← resolve r.target
    let nodes := setAssoc r.target.handle t (setAssoc r.source.handle s a.nodes)
    let id ← put r s t
    return { a with nodes, rels := a.rels ++ [(i, id)] }) a

def Assigned.apply (a : Assigned) (f : Fragment) : Fragment :=
  let node (n : Node) : Node := match a.nodes.lookup n.handle with
    | some id => { n with identity := some id }
    | none => n
  let endpoint (n : Node) : Node :=
    if n.identity.isSome then n else { n with identity := a.nodes.lookup n.handle }
  { f with
    nodes := f.nodes.map node
    rels := f.rels.zipIdx.map fun (r, i) =>
      match a.rels.lookup i with
      | some id => { r with identity := some id, source := endpoint r.source, target := endpoint r.target }
      | none => r }

/-- Writes every uncommitted element of a fragment as new. -/
def create (f : Fragment) : Write Assigned := do
  let a ← (f.nodes.filter (!·.isCommitted)).foldlM (fun (a : Assigned) n => do
    let id ← insertNode n
    return { a with nodes := setAssoc n.handle id a.nodes }) {}
  writeRels insertRel f.rels a

def merge (f : Fragment) : Write Assigned := do
  let a ← (f.nodes.filter (!·.isCommitted)).foldlM (fun (a : Assigned) n => do
    let id ← mergeNode n
    return { a with nodes := setAssoc n.handle id a.nodes }) {}
  writeRels mergeRel f.rels a

end Write

namespace Graph

/-- Runs a write on a fragment: the store after it and the fragment with its identities, or the
fault with the write rolled back through its undo log. -/
def write (g : Graph) (w : Fragment → Write Write.Assigned) (f : Fragment) :
    Graph × Except StorageError Fragment :=
  match (w f).run { graph := g, journal := Journal.begin g } with
  | .ok a t => (t.graph, .ok (a.apply f))
  | .error e t => (t.journal.rollback t.graph, .error e)

def create (g : Graph) (f : Fragment) : Graph × Except StorageError Fragment := g.write Write.create f

def merge (g : Graph) (f : Fragment) : Graph × Except StorageError Fragment := g.write Write.merge f

end Graph

end GraphIngest
