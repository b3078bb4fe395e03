import GraphIngest.Graph.Relationship

/-!
# Fragments

A fragment is what rules produce for one record: nodes, relationships and free-standing
attributes. Nodes are kept unique by handle when added one at a time; relationships are kept as
given, so two equal relationships stay two. The size of a fragment counts nodes and
relationships; attributes alone leave a fragment empty.

Union appends the nodes of the other fragment whose handles are new (the first of each handle),
and all its relationships and attributes; into a fragment with no nodes it takes the other's
node list as it is.
-/

namespace GraphIngest

/-- A free-standing key and value produced by a rule. -/
structure Attribute where
  key : String
  value : Value
  deriving Inhabited

/-- Nodes, relationships and attributes produced together. -/
structure Fragment where
  nodes : List Node := []
  rels : List Relationship := []
  attributes : List Attribute := []
  deriving Inhabited

namespace Fragment

def empty : Fragment := {}

def pushNode (f : Fragment) (n : Node) : Fragment :=
  if f.nodes.any (·.handle == n.handle) then f else { f with nodes := f.nodes ++ [n] }

def pushRel (f : Fragment) (r : Relationship) : Fragment := { f with rels := f.rels ++ [r] }

def pushAttribute (f : Fragment) (a : Attribute) : Fragment :=
  { f with attributes := f.attributes ++ [a] }

def ofNode (n : Node) : Fragment := { nodes := [n] }

def ofRel (r : Relationship) : Fragment := { rels := [r] }

/-- The nodes of `incoming` whose handles are neither in `seen` nor earlier in `incoming`. -/
def newNodes (seen : List Handle) : List Node → List Node
  | [] => []
  | n :: rest =>
    if seen.contains n.handle then newNodes seen rest
    else n :: newNodes (n.handle :: seen) rest

/-- Union of two fragments (see the module note). -/
def union (f g : Fragment) : Fragment :=
  let nodes := if f.nodes.isEmpty then g.nodes else f.nodes ++ newNodes (f.nodes.map (·.handle)) g.nodes
  { nodes, rels := f.rels ++ g.rels, attributes := f.attributes ++ g.attributes }

def node? (f : Fragment) (h : Handle) : Option Node := f.nodes.find? (·.handle == h)

/-- The number of nodes and relationships. -/
def size (f : Fragment) : Nat := f.nodes.length + f.rels.length

def isEmpty (f : Fragment) : Bool := f.nodes.isEmpty && f.rels.isEmpty

end Fragment

end GraphIngest
