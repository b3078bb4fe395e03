import GraphIngest.Store.Error

/-!
# Rule faults

What can go wrong while rules are read, checked or applied to a record: a field that a rule needs
is missing, a field value cannot be converted, an endpoint matched no node, a store lookup failed,
the rules do not hold together, the rule text cannot be read, the rule file cannot be opened, or a
procedural rule refused the record.
-/

namespace GraphIngest

/-- A fault of the rules. -/
inductive RuleError where
  | missingField (field : String)
  | conversion (field value target : String)
  | noMatch (what : String)
  | store (e : StorageError)
  | compile (text : String)
  | yaml (text : String)
  | io (text : String)
  | hook (text : String)
  deriving Inhabited, Repr

namespace RuleError

def message : RuleError → String
  | .missingField f => s!"Missing field '{f}'"
  | .conversion f v t => s!"Cannot convert '{f}' value {v} to {t}"
  | .noMatch w => "No node matched " ++ w
  | .store e => "Store lookup failed: " ++ e.message
  | .compile t => "Invalid rules: " ++ t
  | .yaml t => "YAML error: " ++ t
  | .io t => "IO error: " ++ t
  | .hook t => t

/-- The name of the kind of fault. -/
def kind : RuleError → String
  | .missingField _ => "MissingField"
  | .conversion .. => "Conversion"
  | .noMatch _ => "NoMatch"
  | .store _ => "Store"
  | .compile _ => "Compile"
  | .yaml _ => "Yaml"
  | .io _ => "Io"
  | .hook _ => "Hook"

end RuleError

end GraphIngest
