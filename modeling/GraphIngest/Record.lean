import GraphIngest.Graph.Fragment

/-!
# Records

A record is one typed input row: a type tag that selects its rules, fields, and the names of the
fields that identify it (used only to describe it). Supplies are a scratch table through which the
steps of one rule chain hand fragments to each other; they are dropped between phases and never
written out.
-/

namespace GraphIngest

/-- One typed input row. -/
structure Record where
  recordType : String
  fields : Props := {}
  identifying : List String := []
  supplies : List (String × Fragment) := []
  deriving Inhabited

namespace Record

/-- A record of the given type with no fields. -/
def new (t : String) : Record := { recordType := t }

/-- Sets a field. -/
def set (r : Record) (k : String) (v : Value) : Record := { r with fields := r.fields.insert k v }

/-- Replaces the identifying field names; their order is kept. -/
def withIdentifying (r : Record) (keys : List String) : Record := { r with identifying := keys }

/-- The value of a field. -/
def get? (r : Record) (k : String) : Option Value := r.fields.get? k

/-- Sorts texts by byte order; equal texts are kept. -/
def sortTexts (xs : List String) : List String := xs.mergeSort (fun a b => decide (a ≤ b))

/-- The identity text: `key=value` per identifying field, sorted by key. -/
def identity (r : Record) : String :=
  ", ".intercalate ((sortTexts r.identifying).map (fun k => k ++ "=" ++ ((r.get? k).getD .null).display))

/-- The record written as `type(identity)`. -/
def display (r : Record) : String := r.recordType ++ "(" ++ r.identity ++ ")"

/-- The supply stored under `id`. -/
def supply? (r : Record) (id : String) : Option Fragment := r.supplies.lookup id

/-- Stores a supply under `id`, replacing an earlier one. -/
def setSupply (r : Record) (id : String) (f : Fragment) : Record :=
  { r with supplies := (id, f) :: r.supplies.filter (·.1 != id) }

def hasSupplies (r : Record) : Bool := !r.supplies.isEmpty

def clearSupplies (r : Record) : Record := { r with supplies := [] }

end Record

end GraphIngest
