import GraphIngest.Convert.Run

/-! # The sequential reference run

A conversion one record at a time, in source order: the node phase over every record and then the
relationship phase, each record's rules applied and what they build committed at once, creates
with one call and then merges with another. The run stops at the first fault, and at a tripped
cancellation token seen before a record or at the end of a phase.

How a call is tried and what a record reaches the worker as are given by a `Setup`: read plainly,
a call is tried until it goes through or runs out of attempts and the rules see the record
(`Setup.plain`); a conversion also ends a call as cancelled on a failed try under a tripped
token, and in isolated mode the rules see what the record's parcel opens to (`Setup.policy`).
-/

namespace GraphIngest

namespace Sequential

variable {σ : Type} [GraphStore σ]

/-- What a reference run is given besides its records: the settings, the rules, how one commit
call is tried, and what a record reaches the worker as. -/
structure Setup (σ : Type) where
  config : Config
  rules : RuleSet
  attempt : Phase → WriteKind → Fragment → World σ → World σ × Except ConvertError Unit
  deliver : List Record → Except ConvertError (List Record)

/-- Tries a commit call until it goes through or the policy's attempts have all failed. -/
def retryBlind (policy : RetryPolicy) (p : Phase) (k : WriteKind) (f : Fragment) :
    Nat → Nat → World σ → World σ × Except ConvertError Unit
  | 0, _, w => (w, .ok ())
  | fuel + 1, attempt, w =>
    let (w, r) := w.write k f
    match r with
    | .ok _ => (w, .ok ())
    | .error e =>
      if attempt ≥ max policy.attempts 1 then (w, .error (.store p attempt e))
      else retryBlind policy p k f fuel (attempt + 1) w

/-- What records open to on the worker's side: themselves, or in isolated mode what the parcel
they are sealed in opens to. -/
def envelope (mode : WorkerMode) (rs : List Record) : Except ConvertError (List Record) :=
  match mode with
  | .shared => .ok rs
  | .isolated => Parcel.openRecords (Parcel.sealRecords rs)

/-- The run as plainly read: calls tried blindly, records seen as they are. -/
def Setup.plain (config : Config) (rules : RuleSet) : Setup σ where
  config := config
  rules := rules
  attempt p k f w := retryBlind config.retry p k f (max config.retry.attempts 1) 1 w
  deliver := .ok

/-- The run as the settings have it: calls tried under the retry policy, records delivered in
the worker mode's envelope. -/
def Setup.policy (config : Config) (rules : RuleSet) : Setup σ where
  config := config
  rules := rules
  attempt p k f w := Run.retry config.retry p k f (max config.retry.attempts 1) 1 w
  deliver := envelope config.workerMode

@[simp] theorem Setup.policy_rules (config : Config) (rules : RuleSet) :
    (Setup.policy config rules : Setup σ).rules = rules := rfl

@[simp] theorem Setup.policy_deliver (config : Config) (rules : RuleSet) :
    (Setup.policy config rules : Setup σ).deliver = envelope config.workerMode := rfl

@[simp] theorem Setup.policy_attempt (config : Config) (rules : RuleSet) :
    (Setup.policy config rules : Setup σ).attempt =
      fun p k f w => Run.retry config.retry p k f (max config.retry.attempts 1) 1 w := rfl

variable (S : Setup σ) (p : Phase) (mask : List String)

/-- Applies the rules of a phase to records in order, passing over those of a type without rules
in it: the records as the rules left them and the elements they built, sorted for committing, or
the fault that ends the run. A tripped cancellation token is seen before each record. -/
def rulesOn : List Record → List Record → CommitBuffer → World σ × Counters →
    World σ × Counters × Except ConvertError (List Record × CommitBuffer)
  | [], acc, buf, (w, c) => (w, c, .ok (acc.reverse, buf))
  | rec :: rest, acc, buf, (w, c) =>
    if w.cancelled then (w, c, .error .cancelled)
    else
      let c' := { c with processed := c.processed + 1 }
      if mask.contains rec.recordType then
        let (w, res, rec') := w.apply S.rules p rec
        match res with
        | .ok f => rulesOn rest (rec'.clearSupplies :: acc) (buf.add f) (w, c')
        | .error (.rule e) => (w, c, .error (.rule p rec'.recordType rec'.identity e))
        | .error (.panic m) => (w, c, .error (.worker (panicText m)))
      else rulesOn rest (rec :: acc) buf (w, c')

/-- Commits sorted elements: those to create with one call, then those to merge with another,
a call only for a non-empty part and the second only once the first went through. -/
def commit (buf : CommitBuffer) (w : World σ) : World σ × Except ConvertError Unit :=
  let (w, r) := if buf.create.isEmpty then (w, .ok ()) else S.attempt p .create buf.create w
  match r with
  | .error e => (w, .error e)
  | .ok _ => if buf.merge.isEmpty then (w, .ok ()) else S.attempt p .merge buf.merge w

/-- Counts records and the elements of a committed buffer. -/
def countCommit (c : Counters) (records : Nat) (buf : CommitBuffer) : Counters :=
  c.add records (buf.create.nodes.length + buf.merge.nodes.length)
    (buf.create.rels.length + buf.merge.rels.length)

/-- One record of a phase: delivered, its rules applied, and what they built committed; the
counters then count the records it was delivered as and the committed elements. -/
def record (g : List Record) (wc : World σ × Counters) :
    World σ × Counters × Except ConvertError (List Record) :=
  match S.deliver g with
  | .error e => (wc.1, wc.2, .error e)
  | .ok ds =>
    match rulesOn S p mask ds [] {} wc with
    | (w, c, .error e) => (w, c, .error e)
    | (w, c, .ok (out, buf)) =>
      match commit S p buf w with
      | (w, .error e) => (w, c, .error e)
      | (w, .ok _) => (w, countCommit c ds.length buf, .ok out)

/-- A phase over records, one after the other: the records as the phase left them, or the fault
that ends the run. A tripped cancellation token is seen before each record and at the end. -/
def phase : List (List Record) → World σ × Counters →
    World σ × Counters × Except ConvertError (List (List Record))
  | [], (w, c) => if w.cancelled then (w, c, .error .cancelled) else (w, c, .ok [])
  | g :: gs, (w, c) =>
    if w.cancelled then (w, c, .error .cancelled)
    else
      match record S p mask g (w, c) with
      | (w, c, .error e) => (w, c, .error e)
      | (w, c, .ok out) =>
        match phase gs (w, c) with
        | (w, c, .error e) => (w, c, .error e)
        | (w, c, .ok outs) => (w, c, .ok (out :: outs))

/-- Adds a phase to those completed, unless it is there already. -/
def markCompleted (done : List Phase) (p : Phase) : List Phase :=
  if done.contains p then done else done ++ [p]

/-- A whole run over records, from a world and the phases completed before: the world and the
completed phases after, and the summary or the fault. The counters start from zero; a tripped
cancellation token refuses the run. -/
def run (rs : List Record) (w : World σ) (done : List Phase) :
    World σ × List Phase × Except ConvertError RunSummary :=
  if w.cancelled then (w, done, .error .cancelled)
  else
    let relMask := S.rules.typeMask .relationship
    match phase S .node (S.rules.typeMask .node) (rs.map ([·])) (w, {}) with
    | (w, _, .error e) => (w, done, .error e)
    | (w, c, .ok handed) =>
      let done := markCompleted done .node
      let groups := if relMask.isEmpty then rs.map ([·]) else handed
      match phase S .relationship relMask groups (w, c) with
      | (w, _, .error e) => (w, done, .error e)
      | (w, c, .ok _) =>
        (w, markCompleted done .relationship, .ok { counters := c, phasesRun := [.node, .relationship] })

/-! ## The source is left alone

Committing and applying rules change the store, the write count and the shared state of a
world but never its source, so a phase reading the source again reads it as it was. -/

@[simp] theorem World.write_source (w : World σ) (k : WriteKind) (f : Fragment) :
    (w.write k f).1.source = w.source := by
  unfold World.write
  cases k <;> dsimp only <;> split <;> rfl

@[simp] theorem World.apply_source (w : World σ) (rules : RuleSet) (p : Phase) (rec : Record) :
    (w.apply rules p rec).1.source = w.source := rfl

theorem retry_source (policy : RetryPolicy) (p : Phase) (k : WriteKind) (f : Fragment) :
    ∀ (fuel attempt : Nat) (w : World σ),
      (Run.retry policy p k f fuel attempt w).1.source = w.source
  | 0, _, _ => rfl
  | fuel + 1, attempt, w => by
    have hw' := World.write_source w k f
    unfold Run.retry
    rcases hw : w.write k f with ⟨w', _ | _⟩ <;> rw [hw] at hw' <;> dsimp only
    · split
      · exact hw'
      · split
        · exact hw'
        · rw [retry_source, hw']
    · exact hw'

/-- A setup whose commit calls leave the source alone. -/
def Setup.KeepsSource (S : Setup σ) : Prop :=
  ∀ p k f w, (S.attempt p k f w).1.source = w.source

theorem Setup.policy_keepsSource (config : Config) (rules : RuleSet) :
    (Setup.policy config rules : Setup σ).KeepsSource :=
  fun p k f w => retry_source config.retry p k f _ 1 w

theorem rulesOn_source : ∀ (ds acc : List Record) (buf : CommitBuffer) (w : World σ) (c : Counters),
    (rulesOn S p mask ds acc buf (w, c)).1.source = w.source
  | [], _, _, _, _ => rfl
  | rec :: rest, acc, buf, w, c => by
    unfold rulesOn
    split
    · rfl
    split
    · rcases hw : w.apply S.rules p rec with ⟨w', res, rec'⟩
      have hw' : w'.source = w.source := by rw [← World.apply_source w S.rules p rec, hw]
      rcases res with (_ | _) | _ <;> dsimp only
      · exact hw'
      · exact hw'
      · rw [rulesOn_source, hw']
    · rw [rulesOn_source]

section
variable {S}
variable (hS : S.KeepsSource)
include hS

omit [GraphStore σ] in
theorem commit_source (buf : CommitBuffer) (w : World σ) : (commit S p buf w).1.source = w.source := by
  -- the merge call, if any, leaves the source as the create call left it
  have hmerge : ∀ w' : World σ,
      (if buf.merge.isEmpty then (w', .ok ()) else S.attempt p .merge buf.merge w').1.source =
        w'.source := by
    intro w'
    split
    · rfl
    · exact hS _ _ _ _
  unfold commit
  by_cases hc : buf.create.isEmpty = true <;> simp only [hc, if_true, Bool.false_eq_true, if_false]
  · exact hmerge w
  · have ha := hS p .create buf.create w
    rcases hrun : S.attempt p .create buf.create w with ⟨w', _ | _⟩ <;> rw [hrun] at ha <;> dsimp only
    · exact ha
    · rw [hmerge, ha]

theorem record_source (g : List Record) (w : World σ) (c : Counters) :
    (record S p mask g (w, c)).1.source = w.source := by
  unfold record
  split
  · rfl
  · rename_i ds _
    have hr := rulesOn_source S p mask ds [] {} w c
    rcases hrun : rulesOn S p mask ds [] {} (w, c) with ⟨w', c', _ | ⟨out, buf⟩⟩ <;>
      rw [hrun] at hr <;> dsimp only
    · exact hr
    · have hcm := commit_source p hS buf w'
      rcases hcom : commit S p buf w' with ⟨w'', _ | _⟩ <;> rw [hcom] at hcm <;> dsimp only <;>
        exact hcm.trans hr

theorem phase_source : ∀ (gs : List (List Record)) (w : World σ) (c : Counters),
    (phase S p mask gs (w, c)).1.source = w.source
  | [], w, c => by
    unfold phase
    split <;> rfl
  | g :: gs, w, c => by
    unfold phase
    split
    · rfl
    · have hr := record_source p mask hS g w c
      rcases hrec : record S p mask g (w, c) with ⟨w', c', _ | out⟩ <;> rw [hrec] at hr <;> dsimp only
      · exact hr
      · have hp := phase_source gs w' c'
        rcases hph : phase S p mask gs (w', c') with ⟨w'', c'', _ | outs⟩ <;> rw [hph] at hp <;>
          dsimp only <;> exact hp.trans hr

end

/-! ## What the records are delivered as

A run reads its setup's delivery only on the groups its phases are handed, so two deliveries that
agree there give the same run; a run is then worked out with the delivery it makes in place of
the one it is given. -/

section
variable (D : List Record → Except ConvertError (List Record))

theorem rulesOn_deliver : ∀ (ds acc : List Record) (buf : CommitBuffer) (wc : World σ × Counters),
    rulesOn { S with deliver := D } p mask ds acc buf wc = rulesOn S p mask ds acc buf wc
  | [], _, _, (_, _) => rfl
  | rec :: rest, acc, buf, (w, c) => by
    simp only [rulesOn, rulesOn_deliver rest]

theorem record_deliver_congr (g : List Record) (h : D g = S.deliver g) (wc : World σ × Counters) :
    record { S with deliver := D } p mask g wc = record S p mask g wc := by
  unfold record
  rw [show ({ S with deliver := D } : Setup σ).deliver g = S.deliver g from h]
  simp only [rulesOn_deliver]
  rfl

theorem phase_deliver_congr : ∀ (gs : List (List Record)) (wc : World σ × Counters),
    (∀ g ∈ gs, D g = S.deliver g) → phase { S with deliver := D } p mask gs wc = phase S p mask gs wc
  | [], (_, _), _ => rfl
  | g :: gs, (w, c), h => by
    unfold phase
    rw [record_deliver_congr S p mask D g (h g List.mem_cons_self)]
    split
    · rfl
    · split
      · rfl
      · rw [phase_deliver_congr gs _ fun g' hg' => h g' (List.mem_cons_of_mem _ hg')]

/-- With no relationship rules both phases are handed the records one by one, so a delivery that
agrees on each record alone gives the same run. -/
theorem run_deliver_congr (rs : List Record) (w : World σ) (done : List Phase)
    (hrel : S.rules.typeMask .relationship = []) (h : ∀ r ∈ rs, D [r] = S.deliver [r]) :
    run { S with deliver := D } rs w done = run S rs w done := by
  have hgroups : ∀ g ∈ rs.map ([·]), D g = S.deliver g := by
    simp only [List.mem_map]
    rintro _ ⟨r, hr, rfl⟩
    exact h r hr
  unfold run
  simp only [hrel, List.isEmpty_nil, if_true, phase_deliver_congr S _ _ D _ _ hgroups]

end

end Sequential

end GraphIngest
