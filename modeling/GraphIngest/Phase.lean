/-!
# Phases

A conversion runs in two phases over the same records: first every record's nodes are written,
then every record's relationships, so that a relationship can find the nodes it joins.
-/

namespace GraphIngest

/-- One of the two phases of a conversion. -/
inductive Phase where
  | node
  | relationship
  deriving DecidableEq, Inhabited, Repr

namespace Phase

/-- The lower-case name of the phase. -/
def name : Phase → String
  | .node => "node"
  | .relationship => "relationship"

def ofName? : String → Option Phase
  | "node" => some .node
  | "relationship" => some .relationship
  | _ => none

end Phase

end GraphIngest
