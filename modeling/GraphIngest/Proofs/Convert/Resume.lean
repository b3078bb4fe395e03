import GraphIngest.Proofs.Convert.Schedules

/-! # Running the phases one call at a time

A conversion may be split over a call running only the node phase and one running only the
relationship phase. Once the first succeeds, the second replays the batches it kept, so the two
leave the same world and converter as one call running both, but for the counters
(`Run.resumedBy_agrees_with_full`), whether one worker runs each phase or a pool plays it under
any schedule. A relationship phase that fails keeps its batches, and the next call replays them
whatever source it holds (`Run.failed_relationship_phase_replays_by`). A first call that fails in
the node phase keeps no batches, and the second then applies the relationship rules to every
record of the source (`failed_node_run_then_relationships`).
-/

namespace GraphIngest

namespace Run

variable {σ : Type} [GraphStore σ] {φ : PhaseRunner σ} (hφ : Lawful φ)
include hφ

omit hφ in
theorem nodeStageBy_skip (r : Run σ) (hint : Option Nat) : nodeStageBy φ r true hint = (r, .ok []) := rfl

theorem nodeStageBy_ok_cancelled {r r₁ : Run σ} {hint : Option Nat} {ran : List Phase}
    (h : nodeStageBy φ r false hint = (r₁, .ok ran)) : r₁.world.cancelled = false := by
  revert h
  unfold nodeStageBy
  simp only [Bool.false_eq_true, if_false]
  rcases openSource { r with conv := { r.conv with state := .nodePhase, retained := none } } with ⟨r₂, e | items⟩
  · intro h
    cases h
  dsimp only
  rcases hph : φ r₂ .node
      (Batcher.ofItems items r₂.conv.config.workerMode !(r.conv.rules.typeMask .relationship).isEmpty) hint with
    ⟨r₃, e | b⟩
  · intro h
    cases h
  intro h
  cases h
  have hc := hφ.clear (congrArg Prod.snd hph)
  rw [hph] at hc
  rw [complete_eq]
  split <;> exact hc

omit hφ in
theorem runBy_nodes_only_ok {r : Run σ} (h : (runBy φ r { skipRelationships := true }).2.isOk = true) :
    r.world.cancelled = false ∧ ∃ hint r₁ ran,
      nodeStageBy φ { r with conv := { r.conv with counters := {} } } false hint = (r₁, .ok ran) ∧
      (runBy φ r { skipRelationships := true }).1 = { r₁ with conv := { r₁.conv with state := .done } } := by
  unfold runBy at h ⊢
  cases hc : r.world.cancelled
  · refine ⟨rfl, ?_⟩
    simp only [hc, Bool.false_eq_true, if_false] at h ⊢
    generalize Option.map _ _ = hint at h ⊢
    rcases hns : nodeStageBy φ _ false hint with ⟨r₁, e | ran⟩ <;> simp only [hns] at h ⊢
    · cases h
    · exact ⟨hint, r₁, ran, hns, rfl⟩
  · simp [hc, Except.isOk, Except.toBool] at h

/-- **Resuming a conversion.** A call that runs only the node phase and, once that succeeds, a call
that runs only the relationship phase end as one call running both, whatever lawful runner plays
the phases: in the same world, with the same converter but for the counters, and failing the same
way if they fail. -/
theorem resumedBy_agrees_with_full (r : Run σ) (hnodes : (runBy φ r { skipRelationships := true }).2.isOk = true) :
    let rels := runBy φ (runBy φ r { skipRelationships := true }).1 { skipNodes := true }
    let full := runBy φ r {}
    rels.1.world = full.1.world ∧ rels.1.conv = { full.1.conv with counters := rels.1.conv.counters } ∧
      (rels.2.map fun _ => ()) = (full.2.map fun _ => ()) := by
  intro rels full
  obtain ⟨hc, hint₁, r₁, ran, hns, hN⟩ := runBy_nodes_only_ok hnodes
  have hc₁ : r₁.world.cancelled = false := nodeStageBy_ok_cancelled hφ hns
  simp only [rels, full]
  rw [hN]
  unfold runBy
  simp only [hc, hc₁, Bool.false_eq_true, if_false, nodeStageBy_skip]
  generalize Option.map _ r₁.world.source.lenHint = hint₃
  generalize Option.map _ r.world.source.lenHint = hint₂
  -- the full run's node stage is the nodes-only run's
  have hn := nodeStageBy_agree hφ (Agree.refl ({ r with conv := { r.conv with counters := {} } } : Run σ)) rfl
    false hint₁ hint₂
  rw [hns] at hn
  rcases hns₂ : nodeStageBy φ _ false hint₂ with ⟨r₂, e | ran₂⟩ <;> rw [hns₂] at hn <;>
    obtain ⟨hn, hw, hres⟩ := hn <;> cases hres
  dsimp only at hn hw ⊢
  -- the resumed call starts its relationship stage where the full run starts its own
  have hs₀ : relStageBy φ ({ conv := { config := r₁.conv.config, rules := r₁.conv.rules, state := .done,
                                        completed := r₁.conv.completed, retained := r₁.conv.retained },
                             world := r₁.world, progress := r₁.progress } : Run σ) false [] hint₃ =
      relStageBy φ ({ conv := { r₁.conv with state := r₂.conv.state, counters := {} },
                      world := r₁.world, progress := r₁.progress } : Run σ) false [] hint₃ := rfl
  have hA : Agree r₂ ({ conv := { r₁.conv with state := r₂.conv.state, counters := {} },
                        world := r₁.world, progress := r₁.progress } : Run σ) :=
    ⟨by rw [hn.conv], by rw [hw]⟩
  obtain ⟨ha, hsrc, hres⟩ := relStageBy_agree hφ hA (fun _ => by rw [hw]) false ran [] hint₂ hint₃
  have hw' := ha.world_eq (hsrc (by rw [hw]))
  rw [hs₀]
  rcases hrs : relStageBy φ r₂ false ran hint₂ with ⟨r₃, e | ran₃⟩ <;>
    rcases hrs' : relStageBy φ ({ conv := { r₁.conv with state := r₂.conv.state, counters := {} },
                                  world := r₁.world, progress := r₁.progress } : Run σ) false [] hint₃ with
      ⟨r₃', e' | ran₃'⟩ <;>
    rw [hrs, hrs'] at ha hw' hres <;> cases hres
  · exact ⟨hw', ha.conv, rfl⟩
  · dsimp only at ha hw' ⊢
    exact ⟨hw', by rw [ha.conv], rfl⟩

/-- A relationship phase that fails leaves the kept batches as they were. -/
theorem relationshipPhaseBy_failed_retained (r : Run σ) (hint : Option Nat)
    (h : (relationshipPhaseBy φ r hint).2.isOk = false) :
    (relationshipPhaseBy φ r hint).1.conv.retained = r.conv.retained := by
  cases hret : r.conv.retained with
  | some bs =>
    rw [relationshipPhaseBy_retained φ r hint bs hret] at h ⊢
    have hc := hφ.conv { r with conv := { r.conv with state := .relationshipPhase } } .relationship
      (Batcher.ofRetained bs r.conv.config.workerMode) hint
    rcases hph : φ { r with conv := { r.conv with state := .relationshipPhase } } .relationship
      (Batcher.ofRetained bs r.conv.config.workerMode) hint with ⟨r', _ | _⟩ <;> rw [hph] at hc h
    · rw [show (finishRelationships (r', .error _)).1 = r' from rfl, hc]
      exact hret
    · simp [finishRelationships, Except.isOk, Except.toBool] at h
  | none =>
    rw [relationshipPhaseBy_none φ r hint hret] at h ⊢
    generalize hop : openSource (σ := σ) _ = x at h ⊢
    rcases x with ⟨r₁, e | items⟩
    · rw [openSource_conv hop]
      exact hret
    · dsimp only at h ⊢
      have hc := hφ.conv r₁ .relationship (Batcher.ofItems items r.conv.config.workerMode false) hint
      rcases hph : φ r₁ .relationship (Batcher.ofItems items r.conv.config.workerMode false) hint with
        ⟨r', _ | _⟩ <;> rw [hph] at hc h
      · rw [show (finishRelationships (r', .error _)).1 = r' from rfl, hc, openSource_conv hop]
        exact hret
      · simp [finishRelationships, Except.isOk, Except.toBool] at h

theorem relationshipPhaseBy_kept_source (r : Run σ) (hint : Option Nat) {bs : List Batch}
    (h : r.conv.retained = some bs) : (relationshipPhaseBy φ r hint).1.world.source = r.world.source := by
  rw [relationshipPhaseBy_retained φ r hint bs h]
  obtain ⟨-, -, hw, -⟩ := finishRelationships_agree
    (Agree.refl (φ { r with conv := { r.conv with state := .relationshipPhase } } .relationship
      (Batcher.ofRetained bs r.conv.config.workerMode) hint).1) rfl
  rw [hw, hφ.source]

/-- A call running only the relationship phase on a converter that keeps batches never reads the
source: two runs that agree go through it alike, whatever sources they hold, and each leaves its
source in place. -/
theorem relationshipsOnlyBy_agree {r r' : Run σ} (h : Agree r r') (hret : r.conv.retained ≠ none) :
    Agree (runBy φ r { skipNodes := true }).1 (runBy φ r' { skipNodes := true }).1 ∧
      ((runBy φ r' { skipNodes := true }).2.map fun _ => ()) = ((runBy φ r { skipNodes := true }).2.map fun _ => ()) ∧
      (runBy φ r' { skipNodes := true }).1.world.source = r'.world.source := by
  unfold runBy
  dsimp only
  rw [h.cancelled]
  cases hc : r.world.cancelled
  · simp only [Bool.false_eq_true, if_false, nodeStageBy_skip]
    generalize Option.map _ r.world.source.lenHint = hint
    generalize Option.map _ r'.world.source.lenHint = hint'
    obtain ⟨bs, hbs⟩ := Option.ne_none_iff_exists'.mp hret
    have hA : Agree ({ r with conv := { r.conv with counters := {} } } : Run σ)
        ({ r' with conv := { r'.conv with counters := {} } } : Run σ) := h.count _ _ _ _
    obtain ⟨ha, -, hres⟩ := relStageBy_agree hφ hA (fun hn => absurd hn hret) false [] [] hint hint'
    have hsrc := relationshipPhaseBy_kept_source hφ ({ r' with conv := { r'.conv with counters := {} } } : Run σ)
      hint' ((h.retained).trans hbs)
    dsimp only at ha hres hsrc
    unfold relStageBy at ha hres ⊢
    simp only [Bool.false_eq_true, if_false] at ha hres ⊢
    rcases hrp : relationshipPhaseBy φ { r with conv := { r.conv with counters := {} } } hint with ⟨r₁, e | _⟩ <;>
      rcases hrp' : relationshipPhaseBy φ { r' with conv := { r'.conv with counters := {} } } hint' with
        ⟨r₁', e' | _⟩ <;> rw [hrp, hrp'] at ha hres <;> rw [hrp'] at hsrc <;> cases hres
    · exact ⟨ha, rfl, hsrc⟩
    · exact ⟨ha.state _, rfl, hsrc⟩
  · exact ⟨⟨by rw [h.conv]; rfl, h.world⟩, rfl, rfl⟩

/-- **A failed relationship phase is replayed.** It keeps the batches it replayed, and every call
that then runs only the relationship phase replays them again: it goes the same way whatever
source its world holds, and leaves that source in place. -/
theorem failed_relationship_phase_replays_by (r : Run σ) (hint : Option Nat) (bs : List Batch)
    (hret : r.conv.retained = some bs) (hfail : (relationshipPhaseBy φ r hint).2.isOk = false) :
    (relationshipPhaseBy φ r hint).1.conv.retained = some bs ∧
      ∀ (w : World σ) (s : Source),
        let rerun := runBy φ { (relationshipPhaseBy φ r hint).1 with world := w } { skipNodes := true }
        let moved := runBy φ { (relationshipPhaseBy φ r hint).1 with world := { w with source := s } }
          { skipNodes := true }
        Agree rerun.1 moved.1 ∧ (moved.2.map fun _ => ()) = (rerun.2.map fun _ => ()) ∧ moved.1.world.source = s := by
  have hk : (relationshipPhaseBy φ r hint).1.conv.retained = some bs :=
    (relationshipPhaseBy_failed_retained hφ r hint hfail).trans hret
  exact ⟨hk, fun w s => relationshipsOnlyBy_agree hφ ⟨rfl, rfl⟩ (by rw [hk]; simp)⟩

end Run

/-- People, a friendship between the first two, and a person whose identifier is no integer:
the node rule fails on the last record. -/
def friendsRun : Run Store :=
  { conv := converter,
    world := { store := .memory Graph.empty,
               source := .items ([person (.int 1), person (.int 2), friends, person (.str "x")].map .ok) } }
where
  /-- People keyed on their identifier, and friendships between them. -/
  converter : Converter :=
    let personRule : NodeRule :=
      { id := "person", labels := ["Person"], properties := [("ID", .field "id" (some .int))],
        primaryKey := some "ID" }
    let knows : RelRule :=
      { relType := "KNOWS", source := .lookup ["Person"] [("ID", .field "a" none)],
        target := .lookup ["Person"] [("ID", .field "b" none)] }
    { config := Config.serialized,
      rules := { entries := [("Friendship", { relationships := .relRules [knows] [] }),
                             ("Person", { nodes := .nodeRules [personRule] })] } }
  person (id : Value) : Record :=
    { recordType := "Person", fields := Props.empty.insert "id" id, identifying := ["id"] }
  friends : Record :=
    { recordType := "Friendship", fields := (Props.empty.insert "a" (.int 1)).insert "b" (.int 2),
      identifying := ["a", "b"] }

/-- Without its first call succeeding, a split conversion is not one run: the node phase fails on
the last person, keeping no batches, and the call that runs only the relationship phase reads the
source again and writes the friendship, which one call running both phases never reaches. -/
theorem failed_node_run_then_relationships :
    (Run.run friendsRun { skipRelationships := true }).2.isOk = false ∧
      ((Run.run (Run.run friendsRun { skipRelationships := true }).1 { skipNodes := true }).1.world.store.relCount
        none).toOption = some 1 ∧
      ((Run.run friendsRun {}).1.world.store.relCount none).toOption = some 0 := by
  decide +kernel

/-- A conversion split over a call that runs only the node phase and, once that succeeds, a call
that runs only the relationship phase ends as one call running both, whether one worker runs each
phase or a pool of any size plays it under any schedule, the full call playing its phases by the
same schedules: in the same world, with the same converter but for the counters, and failing the
same way if it fails. A relationship phase that fails keeps its batches, and a call that then runs
only the relationship phase replays them rather than reading the source. -/
theorem resuming_matches_one_run {σ : Type} [GraphStore σ] (φ : Run.PhaseRunner σ)
    (hφ : φ = Run.phase ∨ ∃ sched, φ = Pool.runner sched) (r : Run σ) (hint : Option Nat) (bs : List Batch) :
    ((Run.runBy φ r { skipRelationships := true }).2.isOk = true →
      let rels := Run.runBy φ (Run.runBy φ r { skipRelationships := true }).1 { skipNodes := true }
      let full := Run.runBy φ r {}
      rels.1.world = full.1.world ∧ rels.1.conv = { full.1.conv with counters := rels.1.conv.counters } ∧
        (rels.2.map fun _ => ()) = (full.2.map fun _ => ())) ∧
    (r.conv.retained = some bs → (Run.relationshipPhaseBy φ r hint).2.isOk = false →
      (Run.relationshipPhaseBy φ r hint).1.conv.retained = some bs ∧
        ∀ (w : World σ) (s : Source),
          let rerun := Run.runBy φ { (Run.relationshipPhaseBy φ r hint).1 with world := w } { skipNodes := true }
          let moved := Run.runBy φ { (Run.relationshipPhaseBy φ r hint).1 with world := { w with source := s } }
            { skipNodes := true }
          Run.Agree rerun.1 moved.1 ∧ (moved.2.map fun _ => ()) = (rerun.2.map fun _ => ()) ∧
            moved.1.world.source = s) := by
  have hlaw : Run.Lawful φ := by
    rcases hφ with rfl | ⟨sched, rfl⟩
    · exact Run.phase_lawful
    · exact Run.runner_lawful sched
  exact ⟨Run.resumedBy_agrees_with_full hlaw r, Run.failed_relationship_phase_replays_by hlaw r hint bs⟩

/-- Two workers taking steps in turn for the node phase, and one worker for the relationship
phase. -/
def pairedSchedule : Phase → Nat × List Pool.Move
  | .node => (2, (List.replicate 40 [Pool.Move.step 0, .step 1]).flatten ++ [.join 0, .join 1])
  | .relationship => (1, Pool.solo)

/-- The two people and their friendship, without the person whose identifier fails. -/
def friendsPair : Run Store :=
  { friendsRun with
    world := { friendsRun.world with
               source := .items ([friendsRun.person (.int 1), friendsRun.person (.int 2), friendsRun.friends].map .ok) } }

/-- A converter keeping a batch with the friendship, against a store with nobody in it. -/
def orphanFriendship : Run Store :=
  { friendsRun with conv := { friendsRun.conv with retained := some [Batch.make 0 [friendsRun.friends] .shared] } }

/-- Split over two workers, the people and their friendship end as one call running both phases,
which writes the friendship; a kept friendship with nobody to join fails its relationship phase
and stays kept. -/
theorem paired_friends_resume :
    (Run.runBy (Pool.runner pairedSchedule) friendsPair { skipRelationships := true }).2.isOk = true ∧
      ((Run.runBy (Pool.runner pairedSchedule) friendsPair {}).1.world.store.relCount none).toOption = some 1 ∧
      (Run.runBy (Pool.runner pairedSchedule)
          (Run.runBy (Pool.runner pairedSchedule) friendsPair { skipRelationships := true }).1
          { skipNodes := true }).1.world =
        (Run.runBy (Pool.runner pairedSchedule) friendsPair {}).1.world ∧
      (Run.relationshipPhaseBy (Pool.runner pairedSchedule) orphanFriendship none).2.isOk = false ∧
      (Run.relationshipPhaseBy (Pool.runner pairedSchedule) orphanFriendship none).1.conv.retained =
        some [Batch.make 0 [friendsRun.friends] .shared] := by
  have hn : (Run.runBy (Pool.runner pairedSchedule) friendsPair { skipRelationships := true }).2.isOk = true := by
    decide +kernel
  have hrel : ((Run.runBy (Pool.runner pairedSchedule) friendsPair {}).1.world.store.relCount none).toOption =
      some 1 := by
    decide +kernel
  have hfail : (Run.relationshipPhaseBy (Pool.runner pairedSchedule) orphanFriendship none).2.isOk = false := by
    decide +kernel
  have hsplit := resuming_matches_one_run (Pool.runner pairedSchedule) (.inr ⟨_, rfl⟩) friendsPair none []
  have hkept := resuming_matches_one_run (Pool.runner pairedSchedule) (.inr ⟨_, rfl⟩) orphanFriendship none
    [Batch.make 0 [friendsRun.friends] .shared]
  exact ⟨hn, hrel, (hsplit.1 hn).1, hfail, (hkept.2 rfl hfail).1⟩

end GraphIngest
