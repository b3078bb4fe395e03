import GraphIngest.Report.Shape
import GraphIngest.Store.Graph

/-!
# Dumps of a store

What a store holds, written out: with identities (`ids`), or without (`canonical`), which is the
form that does not depend on the order elements were written in, every list sorted by its compact
JSON text. Which relationship types are listed depends on the store.
-/

namespace GraphIngest

/-- Where a session keeps its graph: in memory, in a database file, or in a database held in
memory, whose relationships a dump can only count. -/
inductive StoreKind where
  | memory
  | file
  | inMemory
  deriving DecidableEq, Inhabited

namespace Dump

def sortByText (js : List Json) : List Json := js.mergeSort fun a b => decide (a.compact ≤ b.compact)

def identified (id : Option Nat) (labels : List String) (ps : Props) : Json :=
  .arr [optNat id, .arr (labels.map .str), Report.props ps]

def plain (labels : List String) (ps : Props) : Json := .arr [.arr (labels.map .str), Report.props ps]

/-- Nodes found by a lookup: with identities, or without and sorted. -/
def found (canonical : Bool) (nodes : List Node) : Json :=
  if canonical then .arr (sortByText (nodes.map fun n => identified none n.labels n.properties))
  else .arr (nodes.map fun n => identified n.identity n.labels n.properties)

def nodes (canonical : Bool) (g : Graph) : Json :=
  if canonical then .arr (sortByText (g.nodes.map fun (_, n) => plain n.labels n.props))
  else .arr (g.nodes.map fun (id, n) => identified (some id) n.labels n.props)

/-- A node by identity, without identity. -/
def endpoint (g : Graph) (id : Nat) : Json :=
  match g.nodes.lookup id with
  | some n => plain n.labels n.props
  | none => .null

def relsOf (canonical : Bool) (g : Graph) (t : String) : Json :=
  let rs := g.relsOfType t
  if canonical then .arr (sortByText (rs.map fun (s, e, ps) => .arr [endpoint g s, endpoint g e, Report.props ps]))
  else .arr (rs.map fun (s, e, ps) => .arr [.num (.nat s), .num (.nat e), Report.props ps])

/-- The dump of a store; `named` are the relationship types the session names, sorted. -/
def graph (kind : StoreKind) (canonical : Bool) (named : List String) (g : Graph) : Json :=
  let total := ("relationship_total", Json.num (.nat (g.relCount none)))
  match kind with
  | .inMemory =>
    .obj [("nodes", nodes canonical g),
      ("relationship_counts", .obj ((named.filter fun t => g.relCount (some t) > 0).map fun t =>
        (t, .num (.nat (g.relCount (some t)))))), total]
  | _ =>
    let types := match kind with
      | .memory => named.filter fun t => g.relCount (some t) > 0
      | _ => g.relTypes
    .obj [("nodes", nodes canonical g), ("relationships", .obj (types.map fun t => (t, relsOf canonical g t))),
      total]

end Dump

end GraphIngest
