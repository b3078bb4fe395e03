import GraphIngest.Store.Tables
import GraphIngest.Source.Stream

/-!
# A store of either kind

A session keeps its graph in memory (`Graph`) or in the tables of a database (`TableGraph`); a
`Store` is one of the two, and each operation is the one of the kind it holds. Only the memory
store lists the nodes of a label by itself; for the table store that is the lookup on the label.
-/

namespace GraphIngest

/-- A graph store: kept in memory, or in the tables of a database. -/
inductive Store where
  | memory (g : Graph)
  | tables (t : TableGraph)
  deriving Inhabited

namespace Store

def create : Store → Fragment → Store × Except StorageError Fragment
  | .memory g, f => let (g, r) := g.create f; (.memory g, r)
  | .tables t, f => let (t, r) := t.create f; (.tables t, r)

def merge : Store → Fragment → Store × Except StorageError Fragment
  | .memory g, f => let (g, r) := g.merge f; (.memory g, r)
  | .tables t, f => let (t, r) := t.merge f; (.tables t, r)

/-- The nodes carrying all labels whose properties satisfy all conditions, by identity. -/
def matchNodes : Store → List String → Props → Except StorageError (List Node)
  | .memory g, labels, conditions => .ok (g.matchNodes labels conditions)
  | .tables t, labels, conditions => t.matchNodes labels conditions

/-- The nodes carrying a label, by identity. -/
def nodesWithLabel : Store → String → Except StorageError (List Node)
  | .memory g, label => .ok (g.nodesWithLabel label)
  | .tables t, label => t.matchNodes [label] {}

/-- The number of nodes, or of nodes carrying a label. -/
def nodeCount : Store → Option String → Except StorageError Nat
  | .memory g, label => .ok (g.nodeCount label)
  | .tables t, label => t.nodeCount label

/-- The number of relationships, or of relationships of a type. -/
def relCount : Store → Option String → Except StorageError Nat
  | .memory g, relType => .ok (g.relCount relType)
  | .tables t, relType => t.relCount relType

/-- The nodes and relationships of the store as a graph. -/
def view : Store → Except StorageError Graph
  | .memory g => .ok g
  | .tables t => t.toGraph

/-- The source as it reads the database the store is kept in, if it is kept in one. -/
def readBy : Store → Source → Source
  | .memory _, src => src
  | .tables t, src => src.onDatabase t.db

end Store

end GraphIngest
