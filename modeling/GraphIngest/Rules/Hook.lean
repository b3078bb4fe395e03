import GraphIngest.Rules.Chain

/-!
# Procedural rules

A library of rules written as code rather than declared, each run in a chain as a rule written
as code: they build people and the edges between them, refuse or cancel on a field value, set
fields, count records in the shared state, tag records with the phase, hand supplies on, pause,
or give up altogether.

`Person(ID=n)` below is the first node the store finds with label `Person` and property
`ID = n`.
-/

namespace GraphIngest

/-- A procedural rule. -/
inductive Hook where
  /-- A `Person` node keyed on `ID` (the record's integer field `id`), with the record's `name`
  copied when present. -/
  | person
  /-- A relationship of type `relType` from `Person(ID=from)` to `Person(ID=to)`, the two ids
  read from integer fields; `weight` copied when present; keyed as `key` says (`ghost` merges on
  type and endpoints, any other text on that property). -/
  | edge (relType fromField toField : String) (key : Option String)
  /-- Refuses the record with `message` when `field` equals `equals`. -/
  | fail (field : String) (equals : Value) (message : String)
  /-- Trips the cancellation token kept under `cancel` when `field` equals `equals`. -/
  | cancel (field : String) (equals : Value)
  /-- Sets a field of the record. -/
  | set (field : String) (value : Value)
  /-- Adds one to the counter kept under `key`. -/
  | count (key : String)
  /-- A node labelled with the phase, describing the record, and an attribute naming the phase. -/
  | tag
  /-- An `Account` owned by the person handed on under `supply`. -/
  | owns (supply : String)
  /-- Pauses for `ms` milliseconds when `field` is an integer divisible by `every`; builds
  nothing. -/
  | sleep (ms every : Nat) (field : String)
  /-- Gives up with `message` when `field` equals `equals`. -/
  | panic (field : String) (equals : Value) (message : String)
  deriving Inhabited

namespace RuleM

/-- The integer field of the record, or a missing-field fault. -/
def intField (k : String) : RuleM Int := do
  match (← record).get? k |>.bind Value.asInt? with
  | some i => pure i
  | none => fault (.missingField k)

def fieldEquals (k : String) (v : Value) : RuleM Bool := do
  return match (← record).get? k with
    | some w => w == v
    | none => false

/-- The first person with the given `ID`, or a no-match fault. -/
def person (id : Int) : RuleM Node := do
  match ← lookup ["Person"] (Props.empty.insert "ID" (.int id)) with
  | n :: _ => pure n
  | [] => fault (.noMatch s!":Person(ID={id})")

/-- Applies a procedural rule to the record. -/
def hook : Hook → RuleM Fragment
  | .person => do
    let id ← intField "id"
    let node := ((← freshNode ["Person"]).withProperty "ID" (.int id)).withPrimaryKey "ID"
    let node := match (← record).get? "name" with
      | some name => node.withProperty "name" name
      | none => node
    return Fragment.ofNode node
  | .edge relType fromField toField key => do
    let start ← person (← intField fromField)
    let finish ← person (← intField toField)
    let rel := Relationship.new start relType finish
    let rel := match (← record).get? "weight" with
      | some w => rel.withProperty "weight" w
      | none => rel
    let rel := match key with
      | some "ghost" => rel.ghostKeyed
      | some k => rel.withKey (.property k)
      | none => rel
    return Fragment.ofRel rel
  | .fail field equals message => do
    if ← fieldEquals field equals then fault (.hook message) else return Fragment.empty
  | .cancel field equals => do
    if ← fieldEquals field equals then
      match (← get).global.token? "cancel" with
      | some .run => modify fun s => { s with cancelled := true }
      | some (.own _) => modify fun s => { s with global := s.global.set "cancel" (.token (.own true)) }
      | none => pure ()
    return Fragment.empty
  | .set field value => do
    setRecord ((← record).set field value)
    return Fragment.empty
  | .count key => do
    match (← get).global.add key 1 with
    | some (_, g) => modify fun s => { s with global := g }; return Fragment.empty
    | none => fault (.hook s!"no counter named {key}")
  | .tag => do
    let phase := (← read).phase.name
    let r ← record
    let node := ((((← freshNode [phase]).withProperty "type" (.str r.recordType)).withProperty
      "seen" (.bool true)).withProperty "weight" (.float 0.5)).withProperty "label" (.str r.identity)
    return (Fragment.ofNode node).pushAttribute ⟨"phase", .str phase⟩
  | .owns supply => do
    match (← record).supply? supply |>.bind (·.nodes.head?) with
    | none => fault (.hook s!"{supply} step did not run")
    | some owner =>
      let account := (← freshNode ["Account"]).withProperty "owner" ((owner.get? "ID").getD .null)
      let rel := (Relationship.new owner "OWNS" account).withProperty "since" (.int 1)
      return (Fragment.ofNode account).pushRel rel
  | .sleep _ _ _ => return Fragment.empty
  | .panic field equals message => do
    if ← fieldEquals field equals then throw (.panic message) else return Fragment.empty

/-! Every procedural rule of the library keeps the cancellation token once tripped. -/

open KeepsToken

theorem keepsToken_intField (k : String) : KeepsToken (intField k) :=
  bind keepsToken_record fun r => by
    cases (r.get? k).bind Value.asInt? with
    | some i => exact pure i
    | none => exact keepsToken_fault _

theorem keepsToken_fieldEquals (k : String) (v : Value) : KeepsToken (fieldEquals k v) :=
  bind keepsToken_record fun _ => pure _

theorem keepsToken_person (id : Int) : KeepsToken (person id) :=
  bind (keepsToken_lookup _ _) fun ns => by
    cases ns with
    | cons n _ => exact pure n
    | nil => exact keepsToken_fault _

theorem keepsToken_hook : ∀ h : Hook, KeepsToken (hook h)
  | .person =>
    bind (keepsToken_intField _) fun _ => bind (keepsToken_freshNode _) fun _ =>
      bind keepsToken_record fun _ => pure _
  | .edge .. =>
    bind (keepsToken_intField _) fun _ => bind (keepsToken_person _) fun _ =>
      bind (keepsToken_intField _) fun _ => bind (keepsToken_person _) fun _ =>
        bind keepsToken_record fun _ => pure _
  | .fail .. => bind (keepsToken_fieldEquals _ _) fun b => by
    cases b
    · exact pure _
    · exact keepsToken_fault _
  | .cancel .. => bind (keepsToken_fieldEquals _ _) fun b => by
    cases b
    · exact pure _
    · -- the hook trips the run's token, or sets its own one in the shared state
      dsimp only [if_pos]
      refine KeepsToken.bind (fun _ _ h => h) fun s => ?_
      rcases s.global.token? "cancel" with _ | _ | _
      · exact pure _
      · exact KeepsToken.bind (modify fun _ _ => rfl) fun _ => pure _
      · exact KeepsToken.bind (modify fun _ h => h) fun _ => pure _
  | .set .. => bind keepsToken_record fun _ => bind (keepsToken_setRecord _) fun _ => pure _
  | .count _ => bind (fun _ _ h => h) fun s => by
    cases s.global.add _ 1 with
    | some x => exact bind (modify fun _ h => h) fun _ => pure _
    | none => exact keepsToken_fault _
  | .tag =>
    bind keepsToken_read fun _ => bind keepsToken_record fun _ =>
      bind (keepsToken_freshNode _) fun _ => pure _
  | .owns _ => bind keepsToken_record fun r => by
    cases (r.supply? _).bind (·.nodes.head?) with
    | none => exact keepsToken_fault _
    | some owner => exact bind (keepsToken_freshNode _) fun _ => pure _
  | .sleep .. => pure _
  | .panic .. => bind (keepsToken_fieldEquals _ _) fun b => by
    cases b
    · exact pure _
    · exact throw _

end RuleM

/-- A procedural rule of the library as a rule written as code. -/
def Hook.rule (h : Hook) : FnRule := ⟨RuleM.hook h, RuleM.keepsToken_hook h⟩

end GraphIngest
