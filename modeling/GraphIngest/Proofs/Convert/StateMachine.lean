import GraphIngest.Proofs.Convert.Resume

/-! # The converter's state machine

A converter moves from idle, or from where the last call left it, to the node phase, the
relationship phase, then done, or aborted out of either phase. Over any calls, options and worlds,
and whether one worker runs each phase or a pool plays it under any schedule, it is done exactly
when the call succeeded and aborted exactly when it failed, its completed phases are those ever
completed in order of first completion, and it keeps batches exactly when it should
(`Run.converter_state_machine`). `Run.logged` is a call noting each phase it starts and how it
ends (`Run.logged_fst`).
-/

namespace GraphIngest

open GraphIngest.Sequential (markCompleted)

namespace Run

variable {σ : Type} [GraphStore σ]

omit [GraphStore σ] in
theorem Lawful.conv_of_eq {φ : PhaseRunner σ} (hφ : Lawful φ) {r r' : Run σ} {ph : Phase} {b : Batcher}
    {hint : Option Nat} {res : Except ConvertError Batcher} (h : φ r ph b hint = (r', res)) :
    r'.conv = { r.conv with counters := r'.conv.counters, state := if res.isOk then r.conv.state else .aborted } := by
  have hc := hφ.conv r ph b hint
  rw [h] at hc
  exact hc

/-! ## A call, phase by phase -/

section Stages

variable (φ : PhaseRunner σ)

/-- The node phase of a call, unless skipped, run by `φ`, noting how it went. -/
def nodeStage (r : Run σ) (skip : Bool) (hint : Option Nat) :
    (Run σ × Except ConvertError (List Phase)) × List PhaseRun :=
  if skip then ((r, .ok []), [])
  else
    let retain := !(r.conv.rules.typeMask .relationship).isEmpty
    let r := { r with conv := { r.conv with state := .nodePhase, retained := none } }
    match openSource r with
    | (r, .error e) => ((r, .error e), [⟨.node, false, retain⟩])
    | (r, .ok items) =>
      match φ r .node (Batcher.ofItems items r.conv.config.workerMode retain) hint with
      | (r, .error e) => ((r, .error e), [⟨.node, false, retain⟩])
      | (r, .ok b) =>
        let r := if retain then { r with conv := { r.conv with retained := some b.takeRetained.1 } } else r
        ((complete r .node, .ok [.node]), [⟨.node, true, retain⟩])

/-- The relationship phase of a call, after the phases `ran`, unless skipped, run by `φ`, noting
how it went. -/
def relStage (r : Run σ) (skip : Bool) (ran : List Phase) (hint : Option Nat) :
    (Run σ × Except ConvertError (List Phase)) × List PhaseRun :=
  if skip then ((r, .ok ran), [])
  else
    let relRules := !(r.conv.rules.typeMask .relationship).isEmpty
    match relationshipPhaseBy φ r hint with
    | (r, .ok _) => ((r, .ok (ran ++ [.relationship])), [⟨.relationship, true, relRules⟩])
    | (r, .error e) => ((r, .error e), [⟨.relationship, false, relRules⟩])

/-- `runBy φ`, noting each phase the call starts and how it ends. -/
def logged (r : Run σ) (o : RunOptions) : (Run σ × Except ConvertError RunSummary) × List PhaseRun :=
  let r := { r with conv := { r.conv with counters := {} } }
  if r.world.cancelled then (({ r with conv := { r.conv with state := .aborted } }, .error .cancelled), [])
  else
    let phaseCount := (if o.skipNodes then 0 else 1) + (if o.skipRelationships then 0 else 1)
    let totalHint := r.world.source.lenHint.map (· * phaseCount)
    match nodeStage φ r o.skipNodes totalHint with
    | ((r, .error e), E) => ((r, .error e), E)
    | ((r, .ok ran), E) =>
      match relStage φ r o.skipRelationships ran totalHint with
      | ((r, .error e), E') => ((r, .error e), E ++ E')
      | ((r, .ok ran), E') =>
        let r := { r with conv := { r.conv with state := .done } }
        ((r, .ok { counters := r.conv.counters, phasesRun := ran }), E ++ E')

theorem logged_fst (r : Run σ) (o : RunOptions) : (logged φ r o).1 = runBy φ r o := by
  unfold logged runBy nodeStage nodeStageBy relStage relStageBy
  dsimp only
  split
  · rfl
  generalize hhint : Option.map _ _ = hint
  by_cases hs : o.skipNodes = true
  · simp only [hs, if_true]
    by_cases hr : o.skipRelationships = true
    · simp only [hr, if_true]
    · simp only [hr, Bool.false_eq_true, if_false]
      rcases relationshipPhaseBy φ _ hint with ⟨r', _ | _⟩ <;> rfl
  · simp only [hs, Bool.false_eq_true, if_false]
    rcases openSource _ with ⟨r₁, _ | items⟩
    · rfl
    · dsimp only
      rcases φ r₁ .node _ hint with ⟨r₂, _ | b⟩
      · rfl
      · dsimp only
        by_cases hr : o.skipRelationships = true
        · simp only [hr, if_true]
        · simp only [hr, Bool.false_eq_true, if_false]
          rcases relationshipPhaseBy φ _ hint with ⟨r', _ | _⟩ <;> rfl

/-- A call on a converter against a world with some options, its phases run by `φ`, after the
phase runs of the calls before: the converter the call leaves, and the log with the call's own
phase runs added. -/
def call (s : Converter × List PhaseRun) (c : World σ × RunOptions) : Converter × List PhaseRun :=
  let r : Run σ := { conv := s.1, world := c.1 }
  ((runBy φ r c.2).1.conv, s.2 ++ (logged φ r c.2).2)

end Stages

/-- What the phases `E` say of the converter going from `r` to `r'`: its completed phases, and
whether it keeps batches. -/
def Tracks (r r' : Run σ) (E : List PhaseRun) : Prop :=
  r'.conv.completed = (PhaseRun.completions E).foldl markCompleted r.conv.completed ∧
  r'.conv.retained.isSome = E.foldl PhaseRun.keeps r.conv.retained.isSome

omit [GraphStore σ] in
theorem Tracks.append {r r' r'' : Run σ} {E E' : List PhaseRun} (h : Tracks r r' E) (h' : Tracks r' r'' E') :
    Tracks r r'' (E ++ E') := by
  constructor
  · rw [h'.1, h.1, PhaseRun.completions_append, List.foldl_append]
  · rw [h'.2, h.2, List.foldl_append]

/-- What the log of phase runs `E` says of a converter: its completed phases are those run to
completion, marked in order, and it keeps batches as the phase runs leave them. -/
structure Logged (c : Converter) (E : List PhaseRun) : Prop where
  completed : c.completed = (PhaseRun.completions E).foldl markCompleted []
  retained : c.retained.isSome = E.foldl PhaseRun.keeps false

omit [GraphStore σ] in
theorem logged_fresh (config : Config) (rules : RuleSet) : Logged { config, rules } [] := ⟨rfl, rfl⟩

section Laws

variable {φ : PhaseRunner σ} (hφ : Lawful φ)
include hφ

theorem relationshipPhaseBy_conv (r : Run σ) (hint : Option Nat) :
    ∃ c, (relationshipPhaseBy φ r hint).1.conv =
      if (relationshipPhaseBy φ r hint).2.isOk then
        { r.conv with counters := c, state := .relationshipPhase,
                      completed := markCompleted r.conv.completed .relationship, retained := none }
      else { r.conv with counters := c, state := .aborted } := by
  cases hret : r.conv.retained with
  | some bs =>
    rw [relationshipPhaseBy_retained φ r hint bs hret]
    obtain ⟨c, hc⟩ := finishRelationships_conv _ (hφ.conv { r with conv := { r.conv with state := .relationshipPhase } }
      .relationship (Batcher.ofRetained bs r.conv.config.workerMode) hint)
    exact ⟨c, by simpa [hret] using hc⟩
  | none =>
    rw [relationshipPhaseBy_none φ r hint hret]
    rcases hopen : openSource { r with conv := { r.conv with state := .relationshipPhase } } with
      ⟨r₁, _ | items⟩ <;> have ho := openSource_conv hopen
    · refine ⟨r.conv.counters, ?_⟩
      simpa [Except.isOk, Except.toBool, hret] using ho
    · simp only [Except.isOk, Except.toBool, if_true] at ho
      obtain ⟨c, hc⟩ := finishRelationships_conv _ (hφ.conv r₁ .relationship
        (Batcher.ofItems items r.conv.config.workerMode false) hint)
      refine ⟨c, ?_⟩
      simpa [ho, hret] using hc

theorem nodeStage_tracks (r : Run σ) (skip : Bool) (hint : Option Nat) :
    Tracks r (nodeStage φ r skip hint).1.1 (nodeStage φ r skip hint).2 ∧
      ((nodeStage φ r skip hint).1.2.isOk = false → (nodeStage φ r skip hint).1.1.conv.state = .aborted) := by
  unfold nodeStage
  split
  · simp [Tracks, PhaseRun.completions, Except.isOk, Except.toBool]
  dsimp only
  rcases hopen : openSource _ with ⟨r₁, _ | items⟩ <;> have ho := openSource_conv hopen <;> dsimp only
  · refine ⟨⟨?_, ?_⟩, fun _ => ?_⟩ <;> rw [ho] <;> rfl
  rcases hph : φ r₁ .node _ hint with ⟨r₂, _ | b⟩ <;> have hp := hφ.conv_of_eq hph <;> dsimp only
  · refine ⟨⟨?_, ?_⟩, fun _ => ?_⟩ <;> rw [hp, ho] <;> rfl
  · refine ⟨⟨?_, ?_⟩, fun h => by cases h⟩ <;> rw [complete_eq]
    · split <;> rw [hp, ho] <;> rfl
    · cases (r.conv.rules.typeMask .relationship).isEmpty <;>
        simp only [Bool.not_false, Bool.not_true, if_true, Bool.false_eq_true, if_false]
      · rfl
      · rw [hp, ho]
        rfl

theorem relationshipPhase_tracks (r : Run σ) (hint : Option Nat) (m : Bool) :
    Tracks r (relationshipPhaseBy φ r hint).1 [⟨.relationship, (relationshipPhaseBy φ r hint).2.isOk, m⟩] ∧
      ((relationshipPhaseBy φ r hint).2.isOk = false → (relationshipPhaseBy φ r hint).1.conv.state = .aborted) := by
  obtain ⟨c, hc⟩ := relationshipPhaseBy_conv hφ r hint
  cases hok : (relationshipPhaseBy φ r hint).2.isOk <;> simp only [hok] at hc <;>
    simp [Tracks, PhaseRun.completions, PhaseRun.keeps, hc]

theorem relStage_tracks (r : Run σ) (skip : Bool) (ran : List Phase) (hint : Option Nat) :
    Tracks r (relStage φ r skip ran hint).1.1 (relStage φ r skip ran hint).2 ∧
      ((relStage φ r skip ran hint).1.2.isOk = false → (relStage φ r skip ran hint).1.1.conv.state = .aborted) := by
  unfold relStage
  split
  · simp [Tracks, PhaseRun.completions, Except.isOk, Except.toBool]
  have ht := relationshipPhase_tracks hφ r hint !(r.conv.rules.typeMask .relationship).isEmpty
  rcases hrp : relationshipPhaseBy φ r hint with ⟨r', _ | _⟩ <;> simp only [hrp] at ht <;> dsimp only
  · exact ht
  · exact ht

theorem logged_tracks (r : Run σ) (o : RunOptions) :
    Tracks r (logged φ r o).1.1 (logged φ r o).2 ∧
      (logged φ r o).1.1.conv.state = bif (logged φ r o).1.2.isOk then .done else .aborted := by
  unfold logged
  dsimp only
  split
  · simp [Tracks, PhaseRun.completions, Except.isOk, Except.toBool]
  generalize Option.map _ _ = hint
  have hn := nodeStage_tracks hφ { r with conv := { r.conv with counters := {} } } o.skipNodes hint
  rcases hns : nodeStage φ _ o.skipNodes hint with ⟨⟨r₁, _ | ran⟩, E⟩ <;> simp only [hns] at hn <;> dsimp only
  · exact ⟨hn.1, hn.2 rfl⟩
  have hl := relStage_tracks hφ r₁ o.skipRelationships ran hint
  rcases hrs : relStage φ r₁ o.skipRelationships ran hint with ⟨⟨r₂, _ | ran'⟩, E'⟩ <;> simp only [hrs] at hl <;>
    dsimp only
  · exact ⟨hn.1.append hl.1, hl.2 rfl⟩
  · exact ⟨hn.1.append hl.1, rfl⟩

theorem Logged.step {s : Converter × List PhaseRun} (h : Logged s.1 s.2) (c : World σ × RunOptions) :
    Logged (call φ s c).1 (call φ s c).2 := by
  have ht := (logged_tracks hφ { conv := s.1, world := c.1 } c.2).1
  rw [logged_fst] at ht
  constructor
  · rw [call, ht.1, h.completed, PhaseRun.completions_append, List.foldl_append]
  · rw [call, ht.2, h.retained, List.foldl_append]

theorem Logged.steps {s : Converter × List PhaseRun} (h : Logged s.1 s.2) (cs : List (World σ × RunOptions)) :
    Logged (cs.foldl (call φ) s).1 (cs.foldl (call φ) s).2 := by
  induction cs generalizing s with
  | nil => exact h
  | cons c cs ih => exact ih (h.step hφ c)

end Laws

/-! ## Calls one after another -/

/-- Over any calls on a fresh converter, each against its own world and with its own options, and
whether one worker runs each phase or a pool of any size plays it under any schedule, the call
after them leaves the converter done exactly when it succeeds and aborted exactly when it fails;
its completed phases are those the calls ran to completion, each once, in the order of their
first completion; and it keeps batches exactly when the last node phase to start completed with
relationship rules and no relationship phase has completed since. -/
theorem converter_state_machine (φ : PhaseRunner σ) (hφ : φ = phase ∨ ∃ sched, φ = Pool.runner sched)
    (config : Config) (rules : RuleSet) (calls : List (World σ × RunOptions)) (w : World σ) (o : RunOptions) :
    let before := calls.foldl (call φ) ({ config, rules }, [])
    let r : Run σ := { conv := before.1, world := w }
    let after := (runBy φ r o).1.conv
    let E := before.2 ++ (logged φ r o).2
    (after.state = .done ↔ (runBy φ r o).2.isOk = true) ∧
      (after.state = .aborted ↔ (runBy φ r o).2.isOk = false) ∧
      after.completed = (PhaseRun.completions E).eraseDups ∧ after.completed.Nodup ∧
      (after.retained.isSome = true ↔ PhaseRun.KeepsBatches E) := by
  intro before r after E
  have hlaw : Lawful φ := by
    rcases hφ with rfl | ⟨sched, rfl⟩
    · exact phase_lawful
    · exact runner_lawful sched
  have hl : Logged after E := ((logged_fresh config rules).steps hlaw calls).step hlaw (w, o)
  have hs := (logged_tracks hlaw r o).2
  rw [logged_fst] at hs
  have hc : after.completed = (PhaseRun.completions E).eraseDups := by
    rw [hl.completed]
    simpa using PhaseRun.foldl_markCompleted [] (PhaseRun.completions E)
  refine ⟨?_, ?_, hc, ?_, ?_⟩
  · change (runBy φ r o).1.conv.state = _ ↔ _
    rw [hs]
    cases (runBy φ r o).2.isOk <;> simp
  · change (runBy φ r o).1.conv.state = _ ↔ _
    rw [hs]
    cases (runBy φ r o).2.isOk <;> simp
  · rw [hl.completed]
    exact PhaseRun.foldl_markCompleted_nodup List.nodup_nil _
  · rw [hl.retained, PhaseRun.foldl_keeps]
    simp

/-- Two calls on a fresh converter, the first running only the node phase on two workers and the
second only the relationship phase against the world the first left: the second leaves the
converter done, with both phases completed in order. -/
theorem paired_calls_complete_both_phases :
    let φ := Pool.runner pairedSchedule
    let before := [(friendsPair.world, ({ skipRelationships := true } : RunOptions))].foldl (call φ)
      ({ config := friendsRun.converter.config, rules := friendsRun.converter.rules }, [])
    let w := (runBy φ { conv := friendsRun.converter, world := friendsPair.world } { skipRelationships := true }).1.world
    let r : Run Store := { conv := before.1, world := w }
    (runBy φ r { skipNodes := true }).2.isOk = true ∧ (runBy φ r { skipNodes := true }).1.conv.state = .done ∧
      (runBy φ r { skipNodes := true }).1.conv.completed = [.node, .relationship] := by
  intro φ before w r
  have hok : (runBy φ r { skipNodes := true }).2.isOk = true := by decide +kernel
  have hdone : (runBy φ r { skipNodes := true }).1.conv.completed = [.node, .relationship] := by decide +kernel
  have hsm := (converter_state_machine φ (.inr ⟨_, rfl⟩) friendsRun.converter.config friendsRun.converter.rules
    [(friendsPair.world, { skipRelationships := true })] w { skipNodes := true }).1
  -- with the call unfolded on both sides the states match as terms, not by running the pool again
  simp only [r, before] at hok hdone ⊢
  exact ⟨hok, hsm.mpr hok, hdone⟩

end Run

end GraphIngest
