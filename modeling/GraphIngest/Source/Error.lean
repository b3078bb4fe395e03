/-!
# Source faults

What can go wrong while records are read from a source: the database behind it fails, a table
has no primary key to identify its rows by, a table asked for does not exist, or the source
fails in a way of its own.
-/

namespace GraphIngest

/-- A fault of a record source. -/
inductive SourceError where
  | database (text : String)
  | missingPrimaryKey (table : String)
  | unknownTable (name : String)
  | other (text : String)
  deriving Inhabited, DecidableEq, Repr

namespace SourceError

def message : SourceError → String
  | .database t => "Database error: " ++ t
  | .missingPrimaryKey t => s!"Table '{t}' has no primary key; add one or pass it explicitly"
  | .unknownTable n => "Unknown table: " ++ n
  | .other t => "Source error: " ++ t

/-- The name of the kind of fault. -/
def kind : SourceError → String
  | .database _ => "Database"
  | .missingPrimaryKey _ => "MissingPrimaryKey"
  | .unknownTable _ => "UnknownTable"
  | .other _ => "Other"

end SourceError

end GraphIngest
