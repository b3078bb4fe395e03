import GraphIngest.Rules.Error
import GraphIngest.Source.Error
import GraphIngest.Phase

/-!
# Conversion faults

What ends a conversion: rules that failed on a record (named by type and identity), a commit the
store refused after every attempt, a configuration that does not hold together, a cancellation,
a failing source, bytes that cannot be opened, or a worker that gave up.
-/

namespace GraphIngest

/-- A fault that ends a conversion. -/
inductive ConvertError where
  | rule (phase : Phase) (recordType record : String) (source : RuleError)
  | store (phase : Phase) (attempts : Nat) (source : StorageError)
  | configuration (text : String)
  | cancelled
  | source (e : SourceError)
  | codec (text : String)
  | worker (text : String)
  deriving Inhabited

namespace ConvertError

def message : ConvertError → String
  | .rule p t r e => s!"{p.name} rules failed on {t}({r}): {e.message}"
  | .store p n e => s!"{p.name} commit failed after {n} attempt(s): {e.message}"
  | .configuration t => "Invalid configuration: " ++ t
  | .cancelled => "Conversion cancelled"
  | .source e => "Source error: " ++ e.message
  | .codec t => "Parcel error: " ++ t
  | .worker t => "Worker failed: " ++ t

/-- The name of the kind of fault. -/
def kind : ConvertError → String
  | .rule .. => "Rule"
  | .store .. => "Store"
  | .configuration _ => "Configuration"
  | .cancelled => "Cancelled"
  | .source _ => "Source"
  | .codec _ => "Codec"
  | .worker _ => "Worker"

/-- The kind of the fault it wraps, if any, with the name of its family. -/
def sourceKind : ConvertError → Option String
  | .rule _ _ _ e => some ("RuleError::" ++ e.kind)
  | .store _ _ e => some ("StorageError::" ++ e.kind)
  | .source e => some ("SourceError::" ++ e.kind)
  | _ => none

def isCancelled : ConvertError → Bool
  | .cancelled => true
  | _ => false

end ConvertError

end GraphIngest
