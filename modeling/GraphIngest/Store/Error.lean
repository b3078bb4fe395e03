/-!
# Store faults

What can go wrong when a graph store is written to or read from. A database fault, a fault of the
file system and a transient fault (one a later attempt may not hit again) are worth retrying; a
merge that matched more than one element, and a relationship whose endpoint cannot be found, are
not.
-/

namespace GraphIngest

/-- A fault of a graph store. -/
inductive StorageError where
  | database (text : String)
  | serialization (text : String)
  | io (text : String)
  | transient (text : String)
  | mergeConflict (label key value : String) (count : Nat)
  | missingEndpoint (what : String)
  deriving Inhabited, DecidableEq, Repr

namespace StorageError

def message : StorageError → String
  | .database t => "Database error: " ++ t
  | .serialization t => "Serialization error: " ++ t
  | .io t => "IO error: " ++ t
  | .transient t => "Transient store failure: " ++ t
  | .mergeConflict l k v n => s!"Merge on :{l}({k}={v}) matched {n} elements"
  | .missingEndpoint w => "Relationship endpoint not found: " ++ w

def isTransient : StorageError → Bool
  | .database _ | .io _ | .transient _ => true
  | _ => false

/-- The name of the kind of fault. -/
def kind : StorageError → String
  | .database _ => "Database"
  | .serialization _ => "Serialization"
  | .io _ => "Io"
  | .transient _ => "Transient"
  | .mergeConflict .. => "MergeConflict"
  | .missingEndpoint _ => "MissingEndpoint"

end StorageError

end GraphIngest
