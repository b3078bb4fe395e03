import GraphIngest.Rules.Build
import GraphIngest.Rules.Context

/-!
# Rule chains and rule sets

A chain is what runs on a record of one type in one phase: nothing, the node rules or the
relationship rules of a rule document, a rule written as code, a sequence of chains, or a chain
whose relationships are all made to merge on type and endpoints. A rule written as code may do
anything rules can do but clear the cancellation token. A named step's fragment is handed on
as a supply under its name. A chain is empty when running it can build nothing for sure.

A rule set's type mask for a phase is the record types whose chain for that phase is not empty:
records of other types are passed over in that phase.
-/

namespace GraphIngest

/-- A rule written as code: any rule action building a fragment. Code reaches the conversion's
cancellation token only through the token's own interface, so it keeps it once tripped. -/
structure FnRule where
  run : RuleM Fragment
  keepsToken : run.KeepsToken

/-- What runs on a record of one type in one phase. -/
inductive Chain where
  | empty
  | nodeRules (rules : List NodeRule)
  | relRules (rules : List RelRule) (nodes : List NodeRule)
  | fn (rule : FnRule)
  | seq (steps : List (Option String × Chain))
  | mergeRels (inner : Chain)
  deriving Inhabited

namespace Chain

mutual

def isEmpty : Chain → Bool
  | .empty => true
  | .nodeRules rules => rules.isEmpty
  | .relRules rules _ => rules.isEmpty
  | .fn _ => false
  | .seq steps => allEmpty steps
  | .mergeRels inner => inner.isEmpty

def allEmpty : List (Option String × Chain) → Bool
  | [] => true
  | (_, c) :: rest => c.isEmpty && allEmpty rest

end

mutual

/-- The relationship types the declared rules of the chain name. -/
def relTypes : Chain → List String
  | .relRules rules _ => rules.map (·.relType)
  | .seq steps => relTypesAll steps
  | .mergeRels inner => inner.relTypes
  | _ => []

def relTypesAll : List (Option String × Chain) → List String
  | [] => []
  | (_, c) :: rest => c.relTypes ++ relTypesAll rest

end

/-- The number of steps of a sequence (one for any other chain). -/
def length : Chain → Nat
  | .seq steps => steps.length
  | _ => 1

end Chain

namespace RuleM

/-- Makes every relationship of a fragment merge on type and endpoints. -/
def ghostAll (f : Fragment) : Fragment :=
  { f with rels := f.rels.map (·.ghostKeyed) }

mutual

def chain : Chain → RuleM Fragment
  | .empty => pure Fragment.empty
  | .nodeRules rules => nodeRules rules
  | .relRules rules nodes => relRules rules nodes
  | .fn rule => rule.run
  | .seq steps => sequence steps Fragment.empty
  | .mergeRels inner => do return ghostAll (← chain inner)

/-- Runs the steps of a sequence, joining their fragments onto `out`. -/
def sequence : List (Option String × Chain) → Fragment → RuleM Fragment
  | [], out => pure out
  | (name, c) :: rest, out => do
    let f ← chain c
    match name with
    | some id => supply id f
    | none => pure ()
    sequence rest (out.union f)

end

end RuleM

/-- The two chains of a record type. -/
structure RuleEntry where
  nodes : Chain := .empty
  relationships : Chain := .empty
  deriving Inhabited

namespace RuleEntry

/-- The chain of a phase. -/
def get (e : RuleEntry) : Phase → Chain
  | .node => e.nodes
  | .relationship => e.relationships

/-- Replaces the chain of a phase. -/
def put (e : RuleEntry) (p : Phase) (c : Chain) : RuleEntry :=
  match p with
  | .node => { e with nodes := c }
  | .relationship => { e with relationships := c }

end RuleEntry

/-- The chains of each record type, sorted by type. -/
structure RuleSet where
  entries : List (String × RuleEntry) := []
  deriving Inhabited

namespace RuleSet

def insert (rs : RuleSet) (t : String) (p : Phase) (c : Chain) : RuleSet :=
  { entries := go rs.entries }
where
  /-- Puts the chain into the sorted entries. -/
  go : List (String × RuleEntry) → List (String × RuleEntry)
    | [] => [(t, ({} : RuleEntry).put p c)]
    | (t', e) :: rest =>
      if t < t' then (t, ({} : RuleEntry).put p c) :: (t', e) :: rest
      else if t = t' then (t, e.put p c) :: rest
      else (t', e) :: go rest

/-- The chain of a record type and phase, if the type has an entry. -/
def chainFor? (rs : RuleSet) (t : String) (p : Phase) : Option Chain :=
  (rs.entries.lookup t).map (·.get p)

/-- The record types with a non-empty chain for a phase, sorted. -/
def typeMask (rs : RuleSet) (p : Phase) : List String :=
  (rs.entries.filter (fun e => !(e.2.get p).isEmpty)).map Prod.fst

/-- The record types with an entry, sorted. -/
def recordTypes (rs : RuleSet) : List String := rs.entries.map Prod.fst

def relTypes (rs : RuleSet) : List String :=
  rs.entries.flatMap fun (_, e) => e.nodes.relTypes ++ e.relationships.relTypes

/-- The debug text: the record types. -/
def debug (rs : RuleSet) : String :=
  "RuleSet \x7b record_types: \x7b" ++ ", ".intercalate (rs.recordTypes.map JsonDecode.debugText) ++
    "\x7d \x7d"

end RuleSet

namespace RuleM

/-- Runs the chain the rule set has for the record's type in the phase; a type without an entry
gives an empty fragment. -/
def ruleSet (rs : RuleSet) : RuleM Fragment := do
  match rs.chainFor? (← record).recordType (← read).phase with
  | some c => chain c
  | none => pure Fragment.empty

end RuleM

end GraphIngest
