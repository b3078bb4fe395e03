import GraphIngest.Proofs.Convert.Modes
import GraphIngest.Proofs.Convert.Progress
import GraphIngest.Proofs.Convert.Frame

/-! # Phases played by any schedule

The workers of a phase read neither the converter's counters, the progress reports, the expected
total nor the source. Two pools whose runs differ only there take the same transitions under
every schedule (`Pool.Alike.play`) and end the same way. A runner that plays each phase by a
schedule of its own, on any number of workers (`Pool.runner`), therefore runs agreeing runs alike,
as the one-worker loop does (`Run.Lawful`); the stages of a call inherit it
(`Run.nodeStageBy_agree`, `Run.relStageBy_agree`).
-/

namespace GraphIngest

open Run (WorkerEnd Agree)

namespace Run.Agree

variable {σ : Type} {r r' : Run σ}

theorem tick (h : Agree r r') (ph : Phase) (hint hint' : Option Nat) :
    Agree (r.tick ph hint) (r'.tick ph hint') :=
  h.count _ _ _ _

theorem countCommitted (h : Agree r r') (records nodes rels : Nat) :
    Agree (r.countCommitted records nodes rels) (r'.countCommitted records nodes rels) :=
  h.count _ _ r.progress r'.progress

end Run.Agree

namespace Pool

variable {σ : Type} [GraphStore σ] {p : Pool σ} {i : Nat} {w : Worker}

/-! ## Pools that differ in what the workers do not read -/

/-- `q` is `p` with an agreeing run and perhaps another expected total. -/
def Alike (p q : Pool σ) : Prop := ∃ r h, q = { p with run := r, totalHint := h } ∧ Agree p.run r

/-- **A step reads the run only where agreeing runs agree.** The same pool with an agreeing run
and any expected total takes the same transition, the runs it leaves agreeing. -/
theorem Advances.alike {r b w'} (ha : p.Advances i w r b w') {r₀ : Run σ} (h₀ : Option Nat)
    (hA : Agree p.run r₀) :
    ∃ r', ({ p with run := r₀, totalHint := h₀ } : Pool σ).Advances i w r' b w' ∧ Agree r r' := by
  have hs : ({ p with run := r₀, totalHint := h₀ } : Pool σ).shouldStop = p.shouldStop := by
    simp only [shouldStop, hA.cancelled]
  have hatt : ({ p with run := r₀, totalHint := h₀ } : Pool σ).attempts = p.attempts := by
    simp only [attempts, hA.config]
  have hwr := hA.write
  cases ha with
  | stopAtTop hat h => exact ⟨r₀, .stopAtTop hat (hs.trans h), hA⟩
  | sourceFault hat h hn => exact ⟨r₀, .sourceFault hat (hs.trans h) hn, hA⟩
  | drained hat h hn => exact ⟨r₀, .drained hat (hs.trans h) hn, hA⟩
  | openFault hat h hn hr => exact ⟨r₀, .openFault hat (hs.trans h) hn hr, hA⟩
  | take hat h hn hr => exact ⟨r₀, .take hat (hs.trans h) hn hr, hA⟩
  | handBack hat => exact ⟨r₀, .handBack hat, hA⟩
  | stopInBatch hat h => exact ⟨r₀, .stopInBatch hat (hs.trans h), hA⟩
  | @apply index rec todo done r rec' f hat h hm happ =>
    -- the agreeing run applies the rules alike and counts the record alike
    obtain ⟨hA', hres⟩ := Run.applyRules_agree hA p.phase rec
    rw [happ] at hA' hres
    exact ⟨_, .apply hat (hs.trans h) hm (Prod.ext rfl hres), hA'.tick _ _ _⟩
  | @ruleFault index rec todo done r e hat h hm happ =>
    obtain ⟨hA', hres⟩ := Run.applyRules_agree hA p.phase rec
    rw [happ] at hA' hres
    exact ⟨_, .ruleFault hat (hs.trans h) hm (Prod.ext rfl hres), hA'⟩
  | pass hat h hm => exact ⟨_, .pass hat (hs.trans h) hm, hA.tick _ _ _⟩
  | wait hat hl => exact ⟨r₀, .wait hat hl, hA⟩
  | @created c a world f hat hl hw =>
    have hw' := hwr .create c.create
    rw [hw] at hw'
    exact ⟨_, .created hat hl hw', (hA.withWorld world).countCommitted _ _ _⟩
  | @merged c a world f hat hl hw =>
    have hw' := hwr .merge c.merge
    rw [hw] at hw'
    exact ⟨_, .merged hat hl hw', hA.withWorld world⟩
  | @gaveUp c k a world e hat hl hw hge =>
    have hw' := hwr k (c.part k)
    rw [hw] at hw'
    exact ⟨_, .gaveUp hat hl hw' (hatt ▸ hge), hA.withWorld world⟩
  | @backOff c k a world e hat hl hw hlt =>
    have hw' := hwr k (c.part k)
    rw [hw] at hw'
    exact ⟨_, .backOff hat hl hw' (hatt ▸ hlt), hA.withWorld world⟩
  | cutShort hat h => exact ⟨r₀, .cutShort hat h, hA⟩
  | resume hat h => exact ⟨r₀, .resume hat h, hA⟩
  | close hat => exact ⟨_, .close hat, hA.countCommitted _ _ _⟩
  | ended hat => exact ⟨r₀, .ended hat, hA⟩
  | joined hat => exact ⟨r₀, .joined hat, hA⟩

omit [GraphStore σ] in
theorem receive_with (p : Pool σ) (r : Run σ) (h : Option Nat) (e : WorkerEnd) :
    ({ p with run := r, totalHint := h } : Pool σ).receive e = { p.receive e with run := r, totalHint := h } := by
  unfold receive
  cases e <;> dsimp only <;> (repeat' split) <;> rfl

omit [GraphStore σ] in
theorem join_with (p : Pool σ) (r : Run σ) (h : Option Nat) (i : Nat) :
    ({ p with run := r, totalHint := h } : Pool σ).join i = { p.join i with run := r, totalHint := h } := by
  unfold join
  dsimp only
  cases hw : p.workers[i]? with
  | none => rfl
  | some w =>
    dsimp only
    cases hat : w.at_ with
    | ended e =>
      dsimp only
      rw [← receive_with]
      rfl
    | _ => rfl

theorem Alike.move {q : Pool σ} (h : p.Alike q) : ∀ m, (p.move m).Alike (q.move m) := by
  obtain ⟨r₀, h₀, rfl, hA⟩ := h
  intro m
  cases m with
  | step i =>
    dsimp only [Pool.move]
    split
    next w hw =>
      obtain ⟨r, b, w', ha, heq⟩ := workerStep_advances hw
      obtain ⟨r', ha', hA'⟩ := ha.alike h₀ hA
      rw [heq, ha'.workerStep_eq hw]
      exact ⟨r', h₀, rfl, hA'⟩
    next => exact ⟨r₀, h₀, rfl, hA⟩
  | join i =>
    change (p.join i).Alike (({ p with run := r₀, totalHint := h₀ } : Pool σ).join i)
    rw [join_with p r₀ h₀ i]
    exact ⟨r₀, h₀, rfl, by rw [join_run]; exact hA⟩
  | notice =>
    dsimp only [Pool.move]
    rw [hA.cancelled]
    split
    · exact ⟨r₀, h₀, rfl, hA⟩
    · exact ⟨r₀, h₀, rfl, hA⟩
  | cancel => exact ⟨_, h₀, rfl, hA.cancel⟩
  | resize size =>
    dsimp only [Pool.move]
    split
    · exact ⟨r₀, h₀, rfl, hA⟩
    · exact ⟨r₀, h₀, rfl, hA⟩

theorem Alike.play : ∀ {p q : Pool σ}, p.Alike q → ∀ ms, (p.play ms).Alike (q.play ms)
  | _, _, h, [] => h
  | _, _, h, m :: ms => Alike.play (h.move m) ms

omit [GraphStore σ] in
theorem Alike.finished {q : Pool σ} (h : p.Alike q) : q.finished = p.finished := by
  obtain ⟨r₀, h₀, rfl, -⟩ := h
  rfl

omit [GraphStore σ] in
/-- Alike pools end the same way, in agreeing runs. -/
theorem Alike.outcome {q : Pool σ} (h : p.Alike q) : Agree p.outcome.1 q.outcome.1 ∧ q.outcome.2 = p.outcome.2 := by
  obtain ⟨r₀, h₀, rfl, hA⟩ := h
  unfold Pool.outcome
  dsimp only
  rw [hA.cancelled]
  split
  · exact ⟨hA.state _, rfl⟩
  · split
    · exact ⟨hA.state _, rfl⟩
    · exact ⟨hA, rfl⟩

omit [GraphStore σ] in
theorem alike_start (n : Nat) {r r' : Run σ} (hA : Agree r r') (ph : Phase) (b : Batcher) (hint hint' : Option Nat) :
    (start n r ph b hint).Alike (start n r' ph b hint') := by
  refine ⟨r', hint', ?_, hA⟩
  unfold start
  rw [hA.rules, hA.config]

/-! ## The source is left alone -/

theorem Advances.source {r b w'} (ha : p.Advances i w r b w') : r.world.source = p.run.world.source := by
  cases ha with
  | @apply index rec todo done r rec' f hat h hm happ =>
    have hs := Run.applyRules_source p.run p.phase rec
    rw [happ] at hs
    exact hs
  | @ruleFault index rec todo done r e hat h hm happ =>
    have hs := Run.applyRules_source p.run p.phase rec
    rw [happ] at hs
    exact hs
  | @created c a world f hat hl hw =>
    have hs := Sequential.World.write_source p.run.world .create c.create
    rw [hw] at hs
    exact hs
  | @merged c a world f hat hl hw =>
    have hs := Sequential.World.write_source p.run.world .merge c.merge
    rw [hw] at hs
    exact hs
  | @gaveUp c k a world e hat hl hw | @backOff c k a world e hat hl hw =>
    have hs := Sequential.World.write_source p.run.world k (c.part k)
    rw [hw] at hs
    exact hs
  | _ => rfl

theorem move_source (p : Pool σ) : ∀ m, (p.move m).run.world.source = p.run.world.source := by
  refine move_cases (P := fun q => q.run.world.source = p.run.world.source) rfl (fun _ _ hw => ?_)
    (fun _ => by rw [join_run]) (fun _ => rfl) rfl fun _ => rfl
  obtain ⟨r, b, w', ha, heq⟩ := workerStep_advances hw
  rw [heq]
  exact ha.source

theorem play_source (p : Pool σ) (ms : List Move) : (p.play ms).run.world.source = p.run.world.source :=
  play_induction (P := fun q => q.run.world.source = p.run.world.source) (fun q m h => (move_source q m).trans h) ms rfl

/-! ## The converter changes only in its counters -/

theorem Advances.onlyCounts {r b w'} (ha : p.Advances i w r b w') : Run.OnlyCounts p.run r := by
  cases ha with
  | @apply index rec todo done r rec' f hat h hm happ =>
    unfold Run.OnlyCounts Run.tick
    rw [Run.applyRules_conv happ]
  | @ruleFault index rec todo done r e hat h hm happ =>
    unfold Run.OnlyCounts
    rw [Run.applyRules_conv happ]
  | _ => rfl

theorem move_onlyCounts (p : Pool σ) : ∀ m, Run.OnlyCounts p.run (p.move m).run := by
  refine move_cases (P := fun q => Run.OnlyCounts p.run q.run) (Run.OnlyCounts.refl _)
    (fun _ _ hw => ?_) (fun _ => by rw [join_run]; exact Run.OnlyCounts.refl _) (fun _ => Run.OnlyCounts.refl _)
    (Run.OnlyCounts.refl _) fun _ => Run.OnlyCounts.refl _
  obtain ⟨r, b, w', ha, heq⟩ := workerStep_advances hw
  rw [heq]
  exact ha.onlyCounts

theorem play_onlyCounts (p : Pool σ) (ms : List Move) : Run.OnlyCounts p.run (p.play ms).run :=
  play_induction (P := fun q => Run.OnlyCounts p.run q.run) (fun q m h => h.trans (move_onlyCounts q m)) ms
    (Run.OnlyCounts.refl _)

omit [GraphStore σ] in
/-- A pool ends in its run, marked aborted if it failed; it ends normally only with the token
clear. -/
theorem outcome_conv (p : Pool σ) :
    p.outcome.1.conv = { p.run.conv with state := if p.outcome.2.isOk then p.run.conv.state else .aborted } ∧
      ∀ b, p.outcome.2 = .ok b → p.run.world.cancelled = false := by
  unfold outcome
  split
  · exact ⟨rfl, fun _ h => nomatch h⟩
  · split
    · exact ⟨rfl, fun _ h => nomatch h⟩
    · rename_i hc
      exact ⟨rfl, fun _ _ => by simpa using hc⟩

/-! ## A phase runner for every schedule -/

/-- Plays each phase by a schedule of its own: so many workers, and their moves. -/
def runner (sched : Phase → Nat × List Move) : Run.PhaseRunner σ := fun r ph b hint =>
  ((start (sched ph).1 r ph b hint).play (sched ph).2).outcome

end Pool

namespace Run

variable {σ : Type} [GraphStore σ]

/-- The laws a way of running a phase keeps, as the one-worker loop and every pool do: it reads
neither the converter's counters, the progress reports, the expected total nor the source, so
agreeing runs end agreeing and the same way; it leaves the source alone; it changes the converter
only in its counters, and in its state when it fails; and it ends normally only with the
cancellation token clear. -/
structure Lawful (φ : PhaseRunner σ) : Prop where
  agree : ∀ {r r' : Run σ} (ph : Phase) (b : Batcher) (hint hint' : Option Nat), Agree r r' →
    Agree (φ r ph b hint).1 (φ r' ph b hint').1 ∧ (φ r' ph b hint').2 = (φ r ph b hint).2
  source : ∀ (r : Run σ) (ph : Phase) (b : Batcher) (hint : Option Nat),
    (φ r ph b hint).1.world.source = r.world.source
  conv : ∀ (r : Run σ) (ph : Phase) (b : Batcher) (hint : Option Nat),
    (φ r ph b hint).1.conv =
      { r.conv with counters := (φ r ph b hint).1.conv.counters,
                    state := if (φ r ph b hint).2.isOk then r.conv.state else .aborted }
  clear : ∀ {r : Run σ} {ph : Phase} {b b' : Batcher} {hint : Option Nat}, (φ r ph b hint).2 = .ok b' →
    (φ r ph b hint).1.world.cancelled = false

theorem phase_lawful : Lawful (phase : PhaseRunner σ) where
  agree ph b hint hint' h := phase_agree h ph b hint hint'
  source := phase_source
  conv := phase_conv
  clear := phase_ok_cancelled

theorem runner_lawful (sched : Phase → Nat × List Pool.Move) : Lawful (Pool.runner sched : PhaseRunner σ) where
  agree ph b hint hint' h := ((Pool.alike_start _ h ph b hint hint').play _).outcome
  source r ph b hint := by
    simp only [Pool.runner, Pool.outcome_world, Pool.play_source]
    rfl
  conv r ph b hint := by
    obtain ⟨hc, -⟩ := Pool.outcome_conv ((Pool.start (sched ph).1 r ph b hint).play (sched ph).2)
    have ho := Pool.play_onlyCounts (Pool.start (sched ph).1 r ph b hint) (sched ph).2
    simp only [Pool.runner]
    rw [hc, ho]
    rfl
  clear h := by
    obtain ⟨-, hclear⟩ := Pool.outcome_conv _
    rw [Pool.runner, Pool.outcome_world]
    exact hclear _ h

/-! ## The stages of a call -/

section By

variable {φ : PhaseRunner σ}

theorem relationshipPhaseBy_retained (φ : PhaseRunner σ) (r : Run σ) (hint : Option Nat) (bs : List Batch)
    (h : r.conv.retained = some bs) :
    relationshipPhaseBy φ r hint = finishRelationships
      (φ { r with conv := { r.conv with state := .relationshipPhase } } .relationship
        (Batcher.ofRetained bs r.conv.config.workerMode) hint) := by
  -- taken apart, the retained batches are a variable and the phase's first match reduces by itself
  obtain ⟨⟨config, rules, state, completed, retained, counters⟩, world, progress⟩ := r
  change retained = some bs at h
  subst h
  unfold relationshipPhaseBy
  dsimp only
  rcases φ _ .relationship _ hint with ⟨r', _ | _⟩ <;> rfl

theorem relationshipPhaseBy_none (φ : PhaseRunner σ) (r : Run σ) (hint : Option Nat) (h : r.conv.retained = none) :
    relationshipPhaseBy φ r hint =
      match openSource { r with conv := { r.conv with state := .relationshipPhase } } with
      | (r', .ok items) =>
        finishRelationships (φ r' .relationship (Batcher.ofItems items r.conv.config.workerMode false) hint)
      | (r', .error e) => (r', .error e) := by
  unfold relationshipPhaseBy
  dsimp only
  rcases openSource { r with conv := { r.conv with state := .relationshipPhase } } with ⟨r', _ | items⟩
  · simp only [h]
  · simp only [h]
    rcases φ r' .relationship (Batcher.ofItems items r.conv.config.workerMode false) hint with
      ⟨r'', _ | _⟩ <;> rfl

omit [GraphStore σ] in
theorem finishRelationships_of_agree {x x' : Run σ × Except ConvertError Batcher} (h : Agree x.1 x'.1)
    (hres : x'.2 = x.2) (hs : x'.1.world.source = x.1.world.source) :
    Agree (finishRelationships x).1 (finishRelationships x').1 ∧ (finishRelationships x').2 = (finishRelationships x).2 ∧
      (finishRelationships x').1.world.source = (finishRelationships x).1.world.source := by
  obtain ⟨hf, hfres, hw, hw'⟩ := finishRelationships_agree h hres
  exact ⟨hf, hfres, by rw [hw, hw', hs]⟩

variable (hφ : Lawful φ)
include hφ

theorem nodeStageBy_agree {r r' : Run σ} (h : Agree r r') (hw : r'.world = r.world) (skip : Bool)
    (hint hint' : Option Nat) :
    Agree (nodeStageBy φ r skip hint).1 (nodeStageBy φ r' skip hint').1 ∧
      (nodeStageBy φ r' skip hint').1.world = (nodeStageBy φ r skip hint).1.world ∧
      (nodeStageBy φ r' skip hint').2 = (nodeStageBy φ r skip hint).2 := by
  unfold nodeStageBy
  cases skip
  · simp only [Bool.false_eq_true, if_false]
    have ho := openSource_agree (h.retain none |>.state .nodePhase) (by rw [hw])
    rcases hop : openSource { r with conv := { r.conv with state := .nodePhase, retained := none } } with
      ⟨r₁, e | items⟩ <;>
      rcases hop' : openSource { r' with conv := { r'.conv with state := .nodePhase, retained := none } } with
        ⟨r₁', e' | items'⟩ <;> rw [hop, hop'] at ho <;> obtain ⟨ho, hsrc, hres⟩ := ho <;> cases hres
    · exact ⟨ho, by rw [ho.world, hsrc], rfl⟩
    · dsimp only at ho hsrc ⊢
      rw [ho.config, h.rules]
      -- both runs hand the node phase the same batcher over the pass they opened
      generalize (Batcher.ofItems items r₁.conv.config.workerMode
        !(r.conv.rules.typeMask .relationship).isEmpty) = B
      have hp := hφ.agree .node B hint hint' ho
      have hs : (φ r₁' .node B hint').1.world.source = (φ r₁ .node B hint).1.world.source := by
        rw [hφ.source, hφ.source, hsrc]
      rcases hph : φ r₁ .node B hint with ⟨r₂, e | b⟩ <;> rcases hph' : φ r₁' .node B hint' with ⟨r₂', e' | b'⟩ <;>
        rw [hph, hph'] at hp hs <;> obtain ⟨hp, hres⟩ := hp <;> cases hres
      · exact ⟨hp, by rw [hp.world, hs], rfl⟩
      · dsimp only
        have hr : Agree (if (!(r.conv.rules.typeMask .relationship).isEmpty) = true then
              { r₂ with conv := { r₂.conv with retained := some b.takeRetained.1 } } else r₂)
            (if (!(r.conv.rules.typeMask .relationship).isEmpty) = true then
              { r₂' with conv := { r₂'.conv with retained := some b.takeRetained.1 } } else r₂') := by
          split
          · exact hp.retain _
          · exact hp
        refine ⟨?_, ?_, rfl⟩
        · rw [complete_eq, complete_eq]
          exact ⟨by rw [hr.conv], hr.world⟩
        · rw [complete_eq, complete_eq]
          dsimp only
          split <;> rw [hp.world, hs]
  · exact ⟨h, hw, rfl⟩

/-- Two runs that agree go through the relationship phase alike, whatever totals they expect;
they hold the same source after it if they did before, and need to only when no batches are kept
and the phase reads the source. -/
theorem relationshipPhaseBy_agree {r r' : Run σ} (h : Agree r r') (hint hint' : Option Nat)
    (hs : r.conv.retained = none → r'.world.source = r.world.source) :
    Agree (relationshipPhaseBy φ r hint).1 (relationshipPhaseBy φ r' hint').1 ∧
      (relationshipPhaseBy φ r' hint').2 = (relationshipPhaseBy φ r hint).2 ∧
      (r'.world.source = r.world.source →
        (relationshipPhaseBy φ r' hint').1.world.source = (relationshipPhaseBy φ r hint).1.world.source) := by
  cases hret : r.conv.retained with
  | some bs =>
    -- both replay the kept batches
    rw [relationshipPhaseBy_retained φ r hint bs hret,
      relationshipPhaseBy_retained φ r' hint' bs (h.retained.trans hret), h.config]
    have hp := hφ.agree .relationship (Batcher.ofRetained bs r.conv.config.workerMode) hint hint'
      (h.state .relationshipPhase)
    obtain ⟨hf, hfres, hw, hw'⟩ := finishRelationships_agree hp.1 hp.2
    refine ⟨hf, hfres, fun hsrc => ?_⟩
    rw [hw, hw', hφ.source, hφ.source]
    exact hsrc
  | none =>
    -- both read the source again, the same source
    rw [relationshipPhaseBy_none φ r hint hret, relationshipPhaseBy_none φ r' hint' (h.retained.trans hret)]
    have ho := openSource_agree (h.state .relationshipPhase) (hs hret)
    rcases hop : openSource { r with conv := { r.conv with state := .relationshipPhase } } with ⟨r₁, e | items⟩ <;>
      rcases hop' : openSource { r' with conv := { r'.conv with state := .relationshipPhase } } with
        ⟨r₁', e' | items'⟩ <;> rw [hop, hop'] at ho <;> obtain ⟨ho, hsrc, hres⟩ := ho <;> cases hres
    · exact ⟨ho, rfl, fun _ => hsrc⟩
    · dsimp only
      rw [h.config]
      have hp := hφ.agree .relationship (Batcher.ofItems items r.conv.config.workerMode false) hint hint' ho
      obtain ⟨hf, hfres, hfs⟩ := finishRelationships_of_agree hp.1 hp.2 (by rw [hφ.source, hφ.source, hsrc])
      exact ⟨hf, hfres, fun _ => hfs⟩

/-- Two runs with agreeing converters go through the relationship stage alike, whatever phases
they ran before, and hold the same source after it if they did before; they need to hold the same
source only when no batches are kept. -/
theorem relStageBy_agree {r r' : Run σ} (h : Agree r r') (hs : r.conv.retained = none → r'.world.source = r.world.source)
    (skip : Bool) (ran ran' : List Phase) (hint hint' : Option Nat) :
    Agree (relStageBy φ r skip ran hint).1 (relStageBy φ r' skip ran' hint').1 ∧
      (r'.world.source = r.world.source →
        (relStageBy φ r' skip ran' hint').1.world.source = (relStageBy φ r skip ran hint).1.world.source) ∧
      ((relStageBy φ r' skip ran' hint').2.map fun _ => ()) = ((relStageBy φ r skip ran hint).2.map fun _ => ()) := by
  unfold relStageBy
  cases skip
  · simp only [Bool.false_eq_true, if_false]
    obtain ⟨ha, hres, hsrc⟩ := relationshipPhaseBy_agree hφ h hint hint' hs
    rcases hrp : relationshipPhaseBy φ r hint with ⟨r₁, e | _⟩ <;>
      rcases hrp' : relationshipPhaseBy φ r' hint' with ⟨r₁', e' | _⟩ <;> rw [hrp, hrp'] at ha hres hsrc <;>
      cases hres
    · exact ⟨ha, hsrc, rfl⟩
    · exact ⟨ha, hsrc, rfl⟩
  · exact ⟨h, id, rfl⟩

end By

end Run

end GraphIngest
