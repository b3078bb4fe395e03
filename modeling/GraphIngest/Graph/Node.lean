import GraphIngest.Graph.Handle

/-!
# Nodes

A node has a handle, an identity once a store has committed it, a set of labels, properties, and
optionally a primary key (the property it is merged on) and a primary label (the label it is
looked up by when merging). Without a primary label, the merge label is the alphabetically first
label. A node is written `(:A:B {key: value})`: its labels in order, then its key and key value
if it is keyed, a missing key property showing as `null`.
-/

namespace GraphIngest

/-- A sorted list of distinct texts: the label set of a node. -/
def sortedInsert (s : String) : List String → List String
  | [] => [s]
  | t :: rest => if s < t then s :: t :: rest else if s = t then t :: rest else t :: sortedInsert s rest

def labelSet (labels : List String) : List String := labels.foldl (fun acc l => sortedInsert l acc) []

/-- A node of the property graph. -/
structure Node where
  handle : Handle
  identity : Option Nat := none
  labels : List String := []
  properties : Props := {}
  primaryKey : Option String := none
  primaryLabel : Option String := none
  deriving Inhabited

namespace Node

/-- A new node with the given handle and labels, and nothing else. -/
def new (handle : Handle) (labels : List String) : Node := { handle, labels := labelSet labels }

def withProperty (n : Node) (k : String) (v : Value) : Node :=
  { n with properties := n.properties.insert k v }

/-- Marks the node as merged on `k`. -/
def withPrimaryKey (n : Node) (k : String) : Node := { n with primaryKey := some k }

def withPrimaryLabel (n : Node) (l : String) : Node := { n with primaryLabel := some l }

def hasLabel (n : Node) (l : String) : Bool := n.labels.contains l

/-- The value of a property. -/
def get? (n : Node) (k : String) : Option Value := n.properties.get? k

/-- The label a merge looks the node up by: the primary label, else the first label. -/
def mergeLabel (n : Node) : Option String :=
  match n.primaryLabel with
  | some l => some l
  | none => n.labels.head?

/-- The key and key value a merge matches on, if the node is keyed; a missing key property is
`null`. -/
def mergeKey (n : Node) : Option (String × Value) :=
  n.primaryKey.map (fun k => (k, (n.get? k).getD .null))

def isCommitted (n : Node) : Bool := n.identity.isSome

/-- The text of a node: `(:A:B {key: value})`. -/
def display (n : Node) : String :=
  let labels := String.join (n.labels.map (":" ++ ·))
  let key := match n.mergeKey with
    | some (k, v) => " \x7b" ++ k ++ ": " ++ v.display ++ "\x7d"
    | none => ""
  "(" ++ labels ++ key ++ ")"

end Node

end GraphIngest
