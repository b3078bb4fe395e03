import GraphIngest.Proofs.Convert.Serialized

/-! # What a phase run does to the converter

The phase runs of a call, each with whether it completed (`PhaseRun`), say what becomes of the
converter: its completed phases are the completions marked in order, without repeats
(`PhaseRun.foldl_markCompleted`), and it keeps batches after a node phase that completed with
relationship rules, until a relationship phase completes (`PhaseRun.foldl_keeps`). The workers
change nothing of the converter but its counters (`Run.OnlyCounts`), and a phase that fails
leaves it aborted (`Run.phase_conv`).
-/

namespace GraphIngest

open GraphIngest.Sequential (markCompleted)

/-- A phase a call started, and how it went: whether it ran to completion, and whether the rules
have relationship rules, for which a node phase keeps its batches. -/
structure PhaseRun where
  phase : Phase
  completed : Bool
  relRules : Bool
  deriving DecidableEq

namespace PhaseRun

/-- Whether batches are kept after a phase, given whether they were kept before it: a node phase
drops them as it starts and keeps its own if it completes with relationship rules; a relationship
phase drops them if it completes. -/
def keeps (kept : Bool) (x : PhaseRun) : Bool :=
  match x.phase with
  | .node => x.completed && x.relRules
  | .relationship => kept && !x.completed

/-- The phases run to completion, in order. -/
def completions (E : List PhaseRun) : List Phase := (E.filter (·.completed)).map (·.phase)

@[simp] theorem completions_append (E E' : List PhaseRun) :
    completions (E ++ E') = completions E ++ completions E' := by
  simp [completions]

/-- The phase runs end in a node phase that completed with relationship rules, followed only by
relationship phases that failed. -/
def KeepsBatches (E : List PhaseRun) : Prop :=
  ∃ E₁ x E₂, E = E₁ ++ x :: E₂ ∧ x.phase = .node ∧ x.completed = true ∧ x.relRules = true ∧
    ∀ y ∈ E₂, y.phase = .relationship ∧ y.completed = false

theorem keepsBatches_concat (E : List PhaseRun) (y : PhaseRun) :
    KeepsBatches (E ++ [y]) ↔
      (y.phase = .node ∧ y.completed = true ∧ y.relRules = true) ∨
        (y.phase = .relationship ∧ y.completed = false ∧ KeepsBatches E) := by
  constructor
  · rintro ⟨E₁, x, E₂, hE, hx, hc, hr, hq⟩
    -- the last phase run is either `x` itself or the last of those after it
    rcases List.eq_nil_or_concat E₂ with rfl | ⟨E₂, z, rfl⟩
    · obtain ⟨-, hxy⟩ := List.append_inj' hE rfl
      cases hxy
      exact Or.inl ⟨hx, hc, hr⟩
    · rw [List.concat_eq_append, ← List.cons_append, ← List.append_assoc] at hE
      obtain ⟨hE', hzy⟩ := List.append_inj' hE rfl
      cases hzy
      obtain ⟨hy, hyc⟩ := hq y (by simp)
      exact Or.inr ⟨hy, hyc, E₁, x, E₂, hE', hx, hc, hr, fun w hw => hq w (by simp [hw])⟩
  · rintro (⟨hy, hc, hr⟩ | ⟨hy, hyc, E₁, x, E₂, rfl, hx, hc, hr, hq⟩)
    · exact ⟨E, y, [], rfl, hy, hc, hr, by simp⟩
    · refine ⟨E₁, x, E₂ ++ [y], by simp, hx, hc, hr, ?_⟩
      intro w hw
      rcases List.mem_append.mp hw with hw | hw
      · exact hq w hw
      · rw [List.mem_singleton.mp hw]
        exact ⟨hy, hyc⟩

theorem foldl_keeps (b : Bool) (E : List PhaseRun) :
    E.foldl keeps b = true ↔
      KeepsBatches E ∨ (b = true ∧ ∀ y ∈ E, y.phase = .relationship ∧ y.completed = false) := by
  induction E using List.reverseRecOn with
  | nil => simp [KeepsBatches]
  | append_singleton E y ih =>
    rw [List.foldl_append, List.foldl_cons, List.foldl_nil, keepsBatches_concat]
    obtain ⟨ph, c, m⟩ := y
    cases ph with
    | node => simp [keeps]
    | relationship =>
      simp only [keeps, Bool.and_eq_true, Bool.not_eq_true', ih, List.forall_mem_append,
        List.forall_mem_singleton]
      simp
      tauto

theorem markCompleted_eraseDups (l : List Phase) (p : Phase) :
    markCompleted l.eraseDups p = (l ++ [p]).eraseDups := by
  rw [markCompleted, List.eraseDups_append]
  by_cases hp : p ∈ l <;> simp [hp, List.removeAll, List.mem_eraseDups, List.eraseDups_cons]

theorem foldl_markCompleted (l₀ l : List Phase) :
    l.foldl markCompleted l₀.eraseDups = (l₀ ++ l).eraseDups := by
  induction l generalizing l₀ with
  | nil => simp
  | cons p l ih =>
    rw [List.foldl_cons, markCompleted_eraseDups, ih, List.append_assoc, List.singleton_append]

theorem markCompleted_nodup {l : List Phase} (h : l.Nodup) (p : Phase) : (markCompleted l p).Nodup := by
  unfold markCompleted
  split
  · exact h
  · rename_i hp
    rw [List.nodup_append]
    refine ⟨h, by simp, ?_⟩
    intro a ha b hb hab
    rw [List.mem_singleton] at hb
    subst hb hab
    exact hp (List.contains_iff_mem.mpr ha)

theorem foldl_markCompleted_nodup {l₀ : List Phase} (h : l₀.Nodup) (l : List Phase) :
    (l.foldl markCompleted l₀).Nodup := by
  induction l generalizing l₀ with
  | nil => exact h
  | cons p l ih => exact ih (markCompleted_nodup h p)

end PhaseRun

namespace Run

variable {σ : Type} [GraphStore σ]

/-! ## The workers change only the counters -/

/-- `r'` differs from `r` at most in its world, its progress and the converter's counters. -/
def OnlyCounts (r r' : Run σ) : Prop := r'.conv = { r.conv with counters := r'.conv.counters }

namespace OnlyCounts

variable {r r' r'' : Run σ}

omit [GraphStore σ]

theorem refl (r : Run σ) : OnlyCounts r r := rfl

theorem trans (h : OnlyCounts r r') (h' : OnlyCounts r' r'') : OnlyCounts r r'' := by
  unfold OnlyCounts at *
  rw [h', h]

end OnlyCounts

theorem applyRules_onlyCounts (r : Run σ) (ph : Phase) (rec : Record) : OnlyCounts r (r.applyRules ph rec).1 := by
  unfold applyRules
  dsimp only
  split <;> rfl

theorem flush_onlyCounts (r : Run σ) (ph : Phase) (b : CommitBuffer) : OnlyCounts r (r.flush ph b).1 := by
  unfold flush
  by_cases hc : b.create.isEmpty = true
  · simp only [hc, if_true]
    by_cases hm : b.merge.isEmpty = true
    · simp only [hm, if_true]; rfl
    · simp only [hm, Bool.false_eq_true, if_false]
      split <;> rfl
  · simp only [hc, Bool.false_eq_true, if_false]
    rcases retry r.conv.config.retry ph .create b.create (max r.conv.config.retry.attempts 1) 1 r.world with
      ⟨w₁, _ | _⟩
    · rfl
    · by_cases hm : b.merge.isEmpty = true
      · simp only [hm, if_true]; rfl
      · simp only [hm, Bool.false_eq_true, if_false]
        split <;> rfl

theorem records_onlyCounts (ph : Phase) (mask : List String) (hint : Option Nat) :
    ∀ (rs acc : List Record) (r : Run σ) (ws : WorkerState),
      OnlyCounts r (records ph mask hint rs acc r ws).1
  | [], _, r, _ => OnlyCounts.refl r
  | rec :: rest, acc, r, ws => by
    unfold records
    split
    · exact OnlyCounts.refl r
    -- the record's rules change only the world; counting it changes only the counters
    by_cases hm : mask.contains rec.recordType = true
    · have ha := applyRules_onlyCounts r ph rec
      simp only [hm, if_true]
      rcases happ : applyRules r ph rec with ⟨r', _ | ⟨rec', f⟩⟩ <;> rw [happ] at ha
      · exact ha
      · exact ha.trans (records_onlyCounts ph mask hint rest _ _ _)
    · simp only [hm, Bool.false_eq_true, if_false]
      exact records_onlyCounts ph mask hint rest _ _ _

theorem work_onlyCounts (ph : Phase) (mask : List String) (hint : Option Nat) (group flushSize : Nat) :
    ∀ (fuel : Nat) (r : Run σ) (b : Batcher) (ws : WorkerState),
      OnlyCounts r (work ph mask hint group flushSize fuel r b ws).1
  | 0, r, _, _ => OnlyCounts.refl r
  | fuel + 1, r, b, ws => by
    unfold work
    split
    · exact OnlyCounts.refl r
    split
    · exact OnlyCounts.refl r
    · split
      · exact OnlyCounts.refl r
      · split <;> (rename_i heq; simpa [heq] using flush_onlyCounts r ph ws.buffer)
    · split
      · exact OnlyCounts.refl r
      next rs _ =>
        split
        next r' _ e heq =>
          have := records_onlyCounts ph mask hint rs [] r ws
          rwa [heq] at this
        next r' ws' rs' heq =>
          have h₁ : OnlyCounts r r' := by
            have := records_onlyCounts ph mask hint rs [] r ws
            rwa [heq] at this
          dsimp only
          split
          · split
            next r'' _ hfl =>
              have h₂ := flush_onlyCounts r' ph (ws'.buffer.addRecords rs.length)
              rw [hfl] at h₂
              exact h₁.trans (h₂.trans (work_onlyCounts ph mask hint group flushSize fuel _ _ _))
            next r'' _ hfl =>
              have h₂ := flush_onlyCounts r' ph (ws'.buffer.addRecords rs.length)
              rw [hfl] at h₂
              exact h₁.trans h₂
          · exact h₁.trans (work_onlyCounts ph mask hint group flushSize fuel _ _ _)

theorem work_onlyCounts_of_eq {ph : Phase} {mask : List String} {hint : Option Nat} {group flushSize fuel : Nat}
    {r r' : Run σ} {b b' : Batcher} {ws : WorkerState} {e : WorkerEnd}
    (h : work ph mask hint group flushSize fuel r b ws = (r', b', e)) : OnlyCounts r r' := by
  have := work_onlyCounts ph mask hint group flushSize fuel r b ws
  rwa [h] at this

/-- The worker loop a phase runs over its batcher: the phase's type mask, the batch and commit
sizes the settings give, and fuel for the whole feed. -/
def phaseWork (r : Run σ) (ph : Phase) (b : Batcher) (hint : Option Nat) : Run σ × Batcher × WorkerEnd :=
  work ph (r.conv.rules.typeMask ph) hint
    (if r.conv.config.controllerEnabled then max r.conv.config.initialFlushSize 1
      else max r.conv.config.effectiveBatchSize 1)
    (max r.conv.config.initialFlushSize 1) (b.feedLength + 2) r b {}

theorem phase_eq_work {r r' : Run σ} {ph : Phase} {b b' : Batcher} {hint : Option Nat} {e : WorkerEnd}
    (hw : phaseWork r ph b hint = (r', b', e)) :
    phase r ph b hint = match e.fault r'.world.cancelled with
      | some err => ({ r' with conv := { r'.conv with state := .aborted } }, .error err)
      | none => (r', .ok b') := by
  unfold phase
  unfold phaseWork at hw
  -- the fuel is the feed's length either way
  cases hf : b.feed <;> simp only [Batcher.feedLength, hf] at hw <;> simp only [hw]
  all_goals
    cases e with
    | failed err =>
      by_cases hi : err.isCancelled = true <;> by_cases hc : r'.world.cancelled = true <;>
        simp [WorkerEnd.fault, hi, hc]
    | panicked m => simp [WorkerEnd.fault]
    | _ => by_cases hc : r'.world.cancelled = true <;> simp [WorkerEnd.fault, hc]

theorem phase_conv (r : Run σ) (ph : Phase) (b : Batcher) (hint : Option Nat) :
    (phase r ph b hint).1.conv =
      { r.conv with counters := (phase r ph b hint).1.conv.counters,
                    state := if (phase r ph b hint).2.isOk then r.conv.state else .aborted } := by
  rcases hw : phaseWork r ph b hint with ⟨r', b', e⟩
  have h := work_onlyCounts_of_eq hw
  rw [phase_eq_work hw]
  cases e.fault r'.world.cancelled with
  | some err =>
    simp only [Except.isOk, Except.toBool, Bool.false_eq_true, if_false]
    rw [h]
  | none =>
    simp only [Except.isOk, Except.toBool, if_true]
    exact h

theorem phase_conv_of_eq {r r' : Run σ} {ph : Phase} {b : Batcher} {hint : Option Nat}
    {res : Except ConvertError Batcher} (h : phase r ph b hint = (r', res)) :
    r'.conv = { r.conv with counters := r'.conv.counters, state := if res.isOk then r.conv.state else .aborted } := by
  have hc := phase_conv r ph b hint
  rw [h] at hc
  exact hc

theorem openSource_conv {r r' : Run σ} {res : Except ConvertError (List Item)} (h : openSource r = (r', res)) :
    r'.conv = { r.conv with state := if res.isOk then r.conv.state else .aborted } := by
  revert h
  unfold openSource
  dsimp only
  split <;> split <;> intro h <;> cases h <;> rfl

omit [GraphStore σ] in
/-- How the relationship phase leaves the converter: a success marks the phase completed and
drops the kept batches; a failure aborts and keeps them. -/
theorem finishRelationships_conv {r₀ : Run σ} (x : Run σ × Except ConvertError Batcher)
    (hx : x.1.conv = { r₀.conv with counters := x.1.conv.counters,
                                    state := if x.2.isOk then r₀.conv.state else .aborted }) :
    ∃ c, (finishRelationships x).1.conv =
      if (finishRelationships x).2.isOk then
        { r₀.conv with counters := c, completed := markCompleted r₀.conv.completed .relationship,
                       retained := none }
      else { r₀.conv with counters := c, state := .aborted } := by
  obtain ⟨r', _ | b'⟩ := x
  · refine ⟨r'.conv.counters, ?_⟩
    simp only [Except.isOk, Except.toBool, Bool.false_eq_true, if_false] at hx
    exact hx
  · refine ⟨r'.conv.counters, ?_⟩
    simp only [Except.isOk, Except.toBool, if_true] at hx
    simp only [finishRelationships, Except.isOk, Except.toBool, if_true, complete_eq]
    rw [hx]

end Run

end GraphIngest
