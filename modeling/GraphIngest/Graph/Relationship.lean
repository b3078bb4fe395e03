import GraphIngest.Graph.Node

/-!
# Relationships

A relationship is a typed, directed edge that holds its two endpoint nodes by value; a store
resolves them to identities when it commits the edge. Without a key a relationship is only ever
created, so parallel edges are kept. With a key it is merged: on its type and endpoints and the
value of one property (`RelKey.property`), or on type and endpoints alone (`RelKey.ghost`).
A relationship is written `start-[:TYPE]->end`.
-/

namespace GraphIngest

/-- What a keyed relationship is merged on besides its type and endpoints. -/
inductive RelKey where
  | property (key : String)
  | ghost
  deriving DecidableEq, Inhabited, Repr

/-- A directed edge between two nodes. -/
structure Relationship where
  identity : Option Nat := none
  relType : String
  source : Node
  target : Node
  properties : Props := {}
  key : Option RelKey := none
  deriving Inhabited

namespace Relationship

/-- A new relationship of the given type from `source` to `target`. -/
def new (source : Node) (relType : String) (target : Node) : Relationship :=
  { relType, source, target }

def withProperty (r : Relationship) (k : String) (v : Value) : Relationship :=
  { r with properties := r.properties.insert k v }

def withKey (r : Relationship) (k : RelKey) : Relationship := { r with key := some k }

def ghostKeyed (r : Relationship) : Relationship := r.withKey .ghost

/-- The value of a property. -/
def get? (r : Relationship) (k : String) : Option Value := r.properties.get? k

/-- The text of a relationship: `start-[:TYPE]->end`. -/
def display (r : Relationship) : String :=
  r.source.display ++ "-[:" ++ r.relType ++ "]->" ++ r.target.display

end Relationship

end GraphIngest
