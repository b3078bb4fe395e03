import GraphIngest.Rules.Spec
import GraphIngest.Rules.GlobalState
import GraphIngest.Phase

/-!
# Applying rules to a record

Rules run against one record at a time. They may read the phase, look up committed nodes in the
store, read and change the record (its fields and its supplies), change the shared state, and
mint handles for the nodes they build.

A rule fails with a rule fault, or gives up altogether (a panic, which ends the worker that ran
it). Either way the changes made before the failure stay: a counter counted or a field set by
an earlier step is still there afterwards, and so is a supply an earlier step handed on.
-/

namespace GraphIngest

/-- What rules can see but not change: the phase, and the store's node lookup (nodes carrying
all given labels whose properties equal the given ones). -/
structure RuleEnv where
  phase : Phase
  lookup : List String → Props → Except StorageError (List Node)

/-- What rules can change: the record, the shared state, whether the conversion's own
cancellation token is tripped, and how many handles have been minted. -/
structure RuleState where
  record : Record
  global : GlobalState := {}
  cancelled : Bool := false
  minted : Nat := 0
  deriving Inhabited

/-- How applying rules can end other than with a fragment. -/
inductive ApplyError where
  | rule (e : RuleError)
  | panic (message : String)
  deriving Inhabited

/-- Applying rules. -/
abbrev RuleM := ReaderT RuleEnv (EStateM ApplyError RuleState)

namespace RuleM

def fault (e : RuleError) : RuleM α := throw (.rule e)

/-- Takes the value of a check, or fails with its fault. -/
def ofExcept (r : Except RuleError α) : RuleM α :=
  match r with
  | .ok a => pure a
  | .error e => fault e

def record : RuleM Record := do return (← get).record

def setRecord (r : Record) : RuleM Unit := modify fun s => { s with record := r }

def freshHandle : RuleM Handle :=
  modifyGet fun s => (Handle.minted s.minted, { s with minted := s.minted + 1 })

def freshNode (labels : List String) : RuleM Node := do return Node.new (← freshHandle) labels

/-- Committed nodes with all given labels whose properties equal the given ones. -/
def lookup (labels : List String) (conditions : Props) : RuleM (List Node) := do
  match (← read).lookup labels conditions with
  | .ok ns => pure ns
  | .error e => fault (.store e)

/-- Hands a fragment on to later rules of the same record under a name. -/
def supply (id : String) (f : Fragment) : RuleM Unit := do
  setRecord ((← record).setSupply id f)

/-- Runs rules on a record: the outcome and the state after them. -/
def run (act : RuleM α) (env : RuleEnv) (s : RuleState) : Except ApplyError α × RuleState :=
  match EStateM.run (ReaderT.run act env) s with
  | .ok a s' => (.ok a, s')
  | .error e s' => (.error e, s')

/-- Running the action leaves a tripped cancellation token tripped: a token, once cancelled,
cannot be restored. -/
def KeepsToken (act : RuleM α) : Prop :=
  ∀ env s, s.cancelled = true → (act.run env s).2.cancelled = true

theorem run_bind {α β : Type} (env : RuleEnv) (s : RuleState) (x : RuleM α) (f : α → RuleM β) :
    (x >>= f).run env s =
      match x.run env s with
      | (.ok a, s') => (f a).run env s'
      | (.error e, s') => (.error e, s') := by
  simp only [RuleM.run, bind, ReaderT.bind, EStateM.bind, EStateM.run, ReaderT.run]
  cases x env s <;> rfl

variable {α β : Type}

namespace KeepsToken

theorem pure (a : α) : KeepsToken (Pure.pure a : RuleM α) := fun _ _ h => h

theorem throw (e : ApplyError) : KeepsToken (MonadExcept.throw e : RuleM α) := fun _ _ h => h

theorem bind {x : RuleM α} {f : α → RuleM β} (hx : KeepsToken x) (hf : ∀ a, KeepsToken (f a)) :
    KeepsToken (x >>= f) := by
  intro env s hs
  rw [run_bind]
  rcases hr : x.run env s with ⟨r, s'⟩
  have hs' : s'.cancelled = true := by simpa [hr] using hx env s hs
  cases r with
  | ok a => exact hf a env s' hs'
  | error e => exact hs'

theorem foldlM {f : β → α → RuleM β} (hf : ∀ b a, KeepsToken (f b a)) :
    ∀ (l : List α) (b : β), KeepsToken (l.foldlM f b)
  | [], b => pure b
  | a :: l, b => bind (hf b a) fun b' => foldlM hf l b'

theorem modify {f : RuleState → RuleState} (hf : ∀ s, s.cancelled = true → (f s).cancelled = true) :
    KeepsToken (MonadState.modifyGet (fun s => (PUnit.unit, f s)) : RuleM PUnit) :=
  fun _ s h => hf s h

end KeepsToken

open KeepsToken

theorem keepsToken_record : KeepsToken record := fun _ _ h => h

theorem keepsToken_read : KeepsToken (MonadReader.read : RuleM RuleEnv) := fun _ _ h => h

theorem keepsToken_setRecord (r : Record) : KeepsToken (setRecord r) := modify fun _ h => h

theorem keepsToken_freshHandle : KeepsToken freshHandle := fun _ _ h => h

theorem keepsToken_freshNode (labels : List String) : KeepsToken (freshNode labels) :=
  bind keepsToken_freshHandle fun _ => pure _

theorem keepsToken_fault (e : RuleError) : KeepsToken (fault e : RuleM α) := throw _

theorem keepsToken_ofExcept (r : Except RuleError α) : KeepsToken (ofExcept r) := by
  cases r with
  | ok a => exact pure a
  | error e => exact keepsToken_fault e

theorem keepsToken_lookup (labels : List String) (conditions : Props) :
    KeepsToken (lookup labels conditions) :=
  bind keepsToken_read fun env => by
    cases env.lookup labels conditions with
    | ok ns => exact pure ns
    | error e => exact keepsToken_fault _

theorem keepsToken_supply (id : String) (f : Fragment) : KeepsToken (supply id f) :=
  bind keepsToken_record fun _ => keepsToken_setRecord _

end RuleM

end GraphIngest
