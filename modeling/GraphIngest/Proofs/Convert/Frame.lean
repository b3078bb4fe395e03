import GraphIngest.Proofs.Convert.Lifecycle

/-! # What a phase does not read

The workers of a phase never read the converter's counters, the progress reports, the expected
total nor the source (`Run.Agree`): runs that differ only there go through a phase alike
(`Run.phase_agree`), and a phase leaves the source as it found it (`Run.phase_source`).
-/

namespace GraphIngest

namespace Run

variable {σ : Type} [GraphStore σ]

/-! ## What a phase does not read -/

/-- `r'` differs from `r` at most in the converter's counters, the progress reports and the
world's source. -/
structure Agree (r r' : Run σ) : Prop where
  conv : r'.conv = { r.conv with counters := r'.conv.counters }
  world : r'.world = { r.world with source := r'.world.source }

namespace Agree

omit [GraphStore σ]

variable {r r' r'' : Run σ}

theorem refl (r : Run σ) : Agree r r := ⟨rfl, rfl⟩

theorem count (h : Agree r r') (c c' : Counters) (p p' : List Progress) :
    Agree { r with conv := { r.conv with counters := c }, progress := p }
      { r' with conv := { r'.conv with counters := c' }, progress := p' } :=
  ⟨by rw [h.conv], h.world⟩

theorem eq (h : Agree r r') :
    r' = { r with conv := { r.conv with counters := r'.conv.counters },
                  world := { r.world with source := r'.world.source }, progress := r'.progress } := by
  obtain ⟨c', w', p'⟩ := r'
  obtain ⟨hc, hw⟩ := h
  dsimp only at hc hw
  rw [← hc, ← hw]

theorem state (h : Agree r r') (st : RunState) :
    Agree { r with conv := { r.conv with state := st } } { r' with conv := { r'.conv with state := st } } :=
  ⟨by rw [h.conv], h.world⟩

theorem retain (h : Agree r r') (kept : Option (List Batch)) :
    Agree { r with conv := { r.conv with retained := kept } } { r' with conv := { r'.conv with retained := kept } } :=
  ⟨by rw [h.conv], h.world⟩

theorem world_eq (h : Agree r r') (hs : r'.world.source = r.world.source) : r'.world = r.world := by
  rw [h.world, hs]

theorem cancelled (h : Agree r r') : r'.world.cancelled = r.world.cancelled := by rw [h.world]

theorem config (h : Agree r r') : r'.conv.config = r.conv.config := by rw [h.conv]

theorem rules (h : Agree r r') : r'.conv.rules = r.conv.rules := by rw [h.conv]

theorem retained (h : Agree r r') : r'.conv.retained = r.conv.retained := by rw [h.conv]

theorem symm (h : Agree r r') : Agree r' r :=
  ⟨by rw [h.conv], by rw [h.world]⟩

theorem trans (h : Agree r r') (h' : Agree r' r'') : Agree r r'' :=
  ⟨by rw [h'.conv, h.conv], by rw [h'.world, h.world]⟩

/-- Two agreeing runs put in one world, each keeping its own source, still agree. -/
theorem withWorld (h : Agree r r') (w : World σ) :
    Agree { r with world := w } { r' with world := { w with source := r'.world.source } } :=
  ⟨h.conv, rfl⟩

theorem cancel (h : Agree r r') :
    Agree { r with world := { r.world with cancelled := true } } { r' with world := { r'.world with cancelled := true } } :=
  ⟨h.conv, by rw [h.world]⟩

end Agree

theorem World.write_with_source (w : World σ) (s : Source) (k : WriteKind) (f : Fragment) :
    ({ w with source := s } : World σ).write k f = ({ (w.write k f).1 with source := s }, (w.write k f).2) := by
  unfold World.write
  dsimp only
  by_cases hf : w.plan.failWrites.contains (w.writes + 1) = true
  · simp only [hf, if_true]
  · simp only [hf, Bool.false_eq_true, if_false]

/-- An agreeing run writes as the other does, keeping its own source. -/
theorem Agree.write {r r' : Run σ} (h : Agree r r') (k : WriteKind) (f : Fragment) :
    r'.world.write k f = ({ (r.world.write k f).1 with source := r'.world.source }, (r.world.write k f).2) := by
  conv => lhs; rw [h.world]
  exact World.write_with_source _ _ _ _

theorem World.apply_with_source (w : World σ) (s : Source) (rules : RuleSet) (ph : Phase) (rec : Record) :
    ({ w with source := s } : World σ).apply rules ph rec =
      ({ (w.apply rules ph rec).1 with source := s }, (w.apply rules ph rec).2) := rfl

theorem retry_with_source (policy : RetryPolicy) (ph : Phase) (k : WriteKind) (f : Fragment) :
    ∀ (fuel attempt : Nat) (w : World σ) (s : Source),
      retry policy ph k f fuel attempt { w with source := s } =
        ({ (retry policy ph k f fuel attempt w).1 with source := s }, (retry policy ph k f fuel attempt w).2)
  | 0, _, _, _ => rfl
  | fuel + 1, attempt, w, s => by
    unfold retry
    rw [World.write_with_source]
    rcases w.write k f with ⟨w', _ | _⟩
    · dsimp only
      split
      · rfl
      split
      · rfl
      · exact retry_with_source policy ph k f fuel (attempt + 1) w' s
    · rfl

theorem applyRules_agree {r r' : Run σ} (h : Agree r r') (ph : Phase) (rec : Record) :
    Agree (applyRules r ph rec).1 (applyRules r' ph rec).1 ∧ (applyRules r' ph rec).2 = (applyRules r ph rec).2 := by
  rw [h.eq]
  unfold applyRules
  simp only [World.apply_with_source]
  rcases r.world.apply r.conv.rules ph rec with ⟨w, ⟨_ | _⟩ | _, rec'⟩ <;> exact ⟨⟨rfl, rfl⟩, rfl⟩

theorem flush_agree {r r' : Run σ} (h : Agree r r') (ph : Phase) (b : CommitBuffer) :
    Agree (flush r ph b).1 (flush r' ph b).1 ∧ (flush r' ph b).2 = (flush r ph b).2 := by
  rw [h.eq]
  unfold flush
  simp only [retry_with_source]
  -- the create part, then the merge part, each under retry
  by_cases hc : b.create.isEmpty = true
  · by_cases hm : b.merge.isEmpty = true
    · simp only [hc, hm, if_true, and_true]
      exact ⟨rfl, rfl⟩
    · simp only [hc, hm, if_true, Bool.false_eq_true, if_false, retry_with_source]
      rcases retry r.conv.config.retry ph .merge b.merge (max r.conv.config.retry.attempts 1) 1 r.world with
        ⟨w, _ | _⟩ <;> exact ⟨⟨rfl, rfl⟩, rfl⟩
  · simp only [hc, Bool.false_eq_true, if_false]
    rcases retry r.conv.config.retry ph .create b.create (max r.conv.config.retry.attempts 1) 1 r.world with
      ⟨w, _ | _⟩
    · exact ⟨⟨rfl, rfl⟩, rfl⟩
    · by_cases hm : b.merge.isEmpty = true
      · simp only [hm, if_true, and_true]
        exact ⟨rfl, rfl⟩
      · simp only [hm, Bool.false_eq_true, if_false, retry_with_source]
        rcases retry r.conv.config.retry ph .merge b.merge (max r.conv.config.retry.attempts 1) 1 w with
          ⟨w', _ | _⟩ <;> exact ⟨⟨rfl, rfl⟩, rfl⟩

theorem records_agree (ph : Phase) (mask : List String) (hint hint' : Option Nat) :
    ∀ (rs acc : List Record) {r r' : Run σ} (ws : WorkerState), Agree r r' →
      Agree (records ph mask hint rs acc r ws).1 (records ph mask hint' rs acc r' ws).1 ∧
        (records ph mask hint' rs acc r' ws).2 = (records ph mask hint rs acc r ws).2
  | [], _, _, _, _, h => ⟨h, rfl⟩
  | rec :: rest, acc, r, r', ws, h => by
    unfold records
    rw [h.cancelled]
    split
    · exact ⟨h, rfl⟩
    by_cases hm : mask.contains rec.recordType = true
    · simp only [hm, if_true]
      have ha := applyRules_agree h ph rec
      rcases happ : applyRules r ph rec with ⟨r₁, res⟩
      rcases happ' : applyRules r' ph rec with ⟨r₁', res'⟩
      rw [happ, happ'] at ha
      obtain ⟨ha, rfl⟩ := ha
      rcases res' with e | ⟨rec', f⟩
      · exact ⟨ha, rfl⟩
      · exact records_agree ph mask hint hint' rest _ _ (ha.count _ _ _ _)
    · simp only [hm, Bool.false_eq_true, if_false]
      exact records_agree ph mask hint hint' rest _ _ (h.count _ _ _ _)

theorem work_agree (ph : Phase) (mask : List String) (hint hint' : Option Nat) (group flushSize : Nat) :
    ∀ (fuel : Nat) {r r' : Run σ} (b : Batcher) (ws : WorkerState), Agree r r' →
      Agree (work ph mask hint group flushSize fuel r b ws).1 (work ph mask hint' group flushSize fuel r' b ws).1 ∧
        (work ph mask hint' group flushSize fuel r' b ws).2 = (work ph mask hint group flushSize fuel r b ws).2
  | 0, _, _, _, _, h => ⟨h, rfl⟩
  | fuel + 1, r, r', b, ws, h => by
    unfold work
    rw [h.cancelled]
    split
    · exact ⟨h, rfl⟩
    rcases b.next group with ⟨e | ⟨_ | batch⟩, b'⟩
    · exact ⟨h, rfl⟩
    · -- the batcher has run dry: the last flush, if anything is left
      dsimp only
      split
      · exact ⟨h, rfl⟩
      have hf := flush_agree h ph ws.buffer
      rcases hfl : flush r ph ws.buffer with ⟨r₁, res⟩
      rcases hfl' : flush r' ph ws.buffer with ⟨r₁', res'⟩
      rw [hfl, hfl'] at hf
      obtain ⟨hf, rfl⟩ := hf
      rcases res' with _ | _ <;> exact ⟨hf, rfl⟩
    · dsimp only
      rcases batch.records with e | rs
      · exact ⟨h, rfl⟩
      dsimp only
      have hr := records_agree ph mask hint hint' rs [] ws h
      rcases hrec : records ph mask hint rs [] r ws with ⟨r₁, ws₁, res⟩
      rcases hrec' : records ph mask hint' rs [] r' ws with ⟨r₁', ws₁', res'⟩
      rw [hrec, hrec'] at hr
      obtain ⟨hr, hres⟩ := hr
      simp only [Prod.mk.injEq] at hres
      obtain ⟨rfl, rfl⟩ := hres
      rcases res' with e | rs'
      · exact ⟨hr, rfl⟩
      dsimp only
      split
      · -- a full buffer is flushed before the next batch
        have hf := flush_agree hr ph (ws₁'.buffer.addRecords rs.length)
        rcases hfl : flush r₁ ph (ws₁'.buffer.addRecords rs.length) with ⟨r₂, res⟩
        rcases hfl' : flush r₁' ph (ws₁'.buffer.addRecords rs.length) with ⟨r₂', res'⟩
        rw [hfl, hfl'] at hf
        obtain ⟨hf, rfl⟩ := hf
        rcases res' with _ | _
        · exact ⟨hf, rfl⟩
        · exact work_agree ph mask hint hint' group flushSize fuel _ _ hf
      · exact work_agree ph mask hint hint' group flushSize fuel _ _ hr

theorem phase_agree {r r' : Run σ} (h : Agree r r') (ph : Phase) (b : Batcher) (hint hint' : Option Nat) :
    Agree (phase r ph b hint).1 (phase r' ph b hint').1 ∧ (phase r' ph b hint').2 = (phase r ph b hint).2 := by
  -- the other run reads the same settings and rules
  have hwa : Agree (phaseWork r ph b hint).1 (phaseWork r' ph b hint').1 ∧
      (phaseWork r' ph b hint').2 = (phaseWork r ph b hint).2 := by
    unfold phaseWork
    rw [h.rules, h.config]
    exact work_agree ph _ hint hint' _ _ _ b {} h
  rcases hw : phaseWork r ph b hint with ⟨r₁, b₁, e⟩
  rcases hw' : phaseWork r' ph b hint' with ⟨r₁', b₁', e'⟩
  rw [hw, hw'] at hwa
  obtain ⟨ha, hbe⟩ := hwa
  simp only [Prod.mk.injEq] at hbe
  obtain ⟨rfl, rfl⟩ := hbe
  rw [phase_eq_work hw, phase_eq_work hw', ha.cancelled]
  cases e'.fault r₁.world.cancelled with
  | some err => exact ⟨ha.state _, rfl⟩
  | none => exact ⟨ha, rfl⟩

/-! ## What a phase leaves alone -/

theorem flush_source (r : Run σ) (ph : Phase) (b : CommitBuffer) : (flush r ph b).1.world.source = r.world.source := by
  unfold flush
  by_cases hc : b.create.isEmpty = true
  · by_cases hm : b.merge.isEmpty = true
    · simp only [hc, hm, if_true]
    · simp only [hc, hm, if_true, Bool.false_eq_true, if_false]
      have hr := Sequential.retry_source r.conv.config.retry ph .merge b.merge (max r.conv.config.retry.attempts 1) 1 r.world
      rcases hret : retry r.conv.config.retry ph .merge b.merge (max r.conv.config.retry.attempts 1) 1 r.world with
        ⟨w, _ | _⟩ <;> rw [hret] at hr <;> exact hr
  · simp only [hc, Bool.false_eq_true, if_false]
    have hr := Sequential.retry_source r.conv.config.retry ph .create b.create (max r.conv.config.retry.attempts 1) 1 r.world
    rcases hret : retry r.conv.config.retry ph .create b.create (max r.conv.config.retry.attempts 1) 1 r.world with
      ⟨w, _ | _⟩ <;> rw [hret] at hr
    · exact hr
    · by_cases hm : b.merge.isEmpty = true
      · simp only [hm, if_true]
        exact hr
      · simp only [hm, Bool.false_eq_true, if_false]
        have hr' := Sequential.retry_source r.conv.config.retry ph .merge b.merge (max r.conv.config.retry.attempts 1) 1 w
        rcases hret' : retry r.conv.config.retry ph .merge b.merge (max r.conv.config.retry.attempts 1) 1 w with
          ⟨w', _ | _⟩ <;> rw [hret'] at hr' <;> exact hr'.trans hr

theorem applyRules_source (r : Run σ) (ph : Phase) (rec : Record) :
    (applyRules r ph rec).1.world.source = r.world.source := by
  have hw := Sequential.World.apply_source r.world r.conv.rules ph rec
  unfold applyRules
  rcases hap : r.world.apply r.conv.rules ph rec with ⟨w, ⟨_ | _⟩ | _, rec'⟩ <;> rw [hap] at hw <;> exact hw

theorem records_source (ph : Phase) (mask : List String) (hint : Option Nat) :
    ∀ (rs acc : List Record) (r : Run σ) (ws : WorkerState),
      (records ph mask hint rs acc r ws).1.world.source = r.world.source
  | [], _, _, _ => rfl
  | rec :: rest, acc, r, ws => by
    unfold records
    split
    · rfl
    by_cases hm : mask.contains rec.recordType = true
    · simp only [hm, if_true]
      have ha := applyRules_source r ph rec
      rcases happ : applyRules r ph rec with ⟨r₁, e | ⟨rec', f⟩⟩ <;> rw [happ] at ha
      · exact ha
      · exact (records_source ph mask hint rest _ _ _).trans ha
    · simp only [hm, Bool.false_eq_true, if_false]
      exact records_source ph mask hint rest _ _ _

theorem work_source (ph : Phase) (mask : List String) (hint : Option Nat) (group flushSize : Nat) :
    ∀ (fuel : Nat) (r : Run σ) (b : Batcher) (ws : WorkerState),
      (work ph mask hint group flushSize fuel r b ws).1.world.source = r.world.source
  | 0, _, _, _ => rfl
  | fuel + 1, r, b, ws => by
    unfold work
    split
    · rfl
    rcases b.next group with ⟨e | ⟨_ | batch⟩, b'⟩
    · rfl
    · dsimp only
      split
      · rfl
      have hf := flush_source r ph ws.buffer
      rcases hfl : flush r ph ws.buffer with ⟨r₁, _ | _⟩ <;> rw [hfl] at hf <;> exact hf
    · dsimp only
      rcases batch.records with e | rs
      · rfl
      dsimp only
      have hr := records_source ph mask hint rs [] r ws
      rcases hrec : records ph mask hint rs [] r ws with ⟨r₁, ws₁, e | rs'⟩ <;> rw [hrec] at hr
      · exact hr
      dsimp only
      split
      · have hf := flush_source r₁ ph (ws₁.buffer.addRecords rs.length)
        rcases hfl : flush r₁ ph (ws₁.buffer.addRecords rs.length) with ⟨r₂, _ | _⟩ <;> rw [hfl] at hf
        · exact hf.trans hr
        · exact ((work_source ph mask hint group flushSize fuel _ _ _).trans hf).trans hr
      · exact (work_source ph mask hint group flushSize fuel _ _ _).trans hr

theorem phase_source (r : Run σ) (ph : Phase) (b : Batcher) (hint : Option Nat) :
    (phase r ph b hint).1.world.source = r.world.source := by
  have hs : (phaseWork r ph b hint).1.world.source = r.world.source := work_source _ _ _ _ _ _ _ _ _
  rcases hw : phaseWork r ph b hint with ⟨r₁, b₁, e⟩
  rw [hw] at hs
  rw [phase_eq_work hw]
  cases e.fault r₁.world.cancelled <;> exact hs

/-! ## Opening the source and the relationship phase -/

theorem openSource_agree {r r' : Run σ} (h : Agree r r') (hs : r'.world.source = r.world.source) :
    Agree (openSource r).1 (openSource r').1 ∧
      (openSource r').1.world.source = (openSource r).1.world.source ∧ (openSource r').2 = (openSource r).2 := by
  have hw : r'.world = r.world := by rw [h.world, hs]
  unfold openSource
  rw [hw]
  dsimp only
  rcases (if r.world.sharesStore then GraphStore.readBy r.world.store r.world.source else r.world.source).openPass
    with ⟨_ | items, src⟩
  · exact ⟨⟨by rw [h.conv], rfl⟩, rfl, rfl⟩
  · exact ⟨⟨by rw [h.conv], rfl⟩, rfl, rfl⟩

omit [GraphStore σ] in
theorem finishRelationships_agree {x x' : Run σ × Except ConvertError Batcher} (h : Agree x.1 x'.1)
    (hres : x'.2 = x.2) :
    Agree (finishRelationships x).1 (finishRelationships x').1 ∧ (finishRelationships x').2 = (finishRelationships x).2 ∧
      (finishRelationships x).1.world = x.1.world ∧ (finishRelationships x').1.world = x'.1.world := by
  obtain ⟨r, res⟩ := x
  obtain ⟨r', res'⟩ := x'
  dsimp only at h hres
  subst hres
  rcases res' with e | b
  · exact ⟨h, rfl, rfl, rfl⟩
  · refine ⟨?_, rfl, ?_, ?_⟩ <;> simp only [finishRelationships, complete_eq]
    exact ⟨by rw [h.conv], h.world⟩

theorem phase_ok_cancelled {r : Run σ} {ph : Phase} {b b' : Batcher} {hint : Option Nat}
    (h : (phase r ph b hint).2 = .ok b') : (phase r ph b hint).1.world.cancelled = false := by
  rcases hw : phaseWork r ph b hint with ⟨r₁, b₁, e⟩
  rw [phase_eq_work hw] at h ⊢
  -- a worker end with no fault means the token was clear
  cases hc : r₁.world.cancelled
  · split <;> exact hc
  · cases e with
    | failed err => by_cases hi : err.isCancelled = true <;> simp [WorkerEnd.fault, hc, hi] at h
    | panicked m => simp [WorkerEnd.fault] at h
    | done => simp [WorkerEnd.fault, hc] at h
    | stopped => simp [WorkerEnd.fault, hc] at h

end Run

end GraphIngest
