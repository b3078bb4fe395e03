import GraphIngest.Proofs.Convert.Resume
import GraphIngest.Proofs.Rules.Fields

/-! # Isolated runs run as shared ones

In isolated mode a batch holds its records sealed in a parcel, and the batches the node phase
keeps for the relationship phase are sealed again; in shared mode batches hold their records as
they are. Nothing else a run does reads the mode, nor the batches a converter keeps but where the
relationship phase replays them (`Pool.recast_move`). So where every record that crosses a parcel
crosses it unchanged (`Record.Crosses`), as the records of the source (`Source.Yields`) and those
the node rules leave (`RuleSet.KeepsCrossing`) do, an isolated call and the same call in shared
mode, played by the same schedules, end in the same world with the same converter and the same
result, their kept batches made of the same records (`Run.isolated_call_runs_as_shared`).
-/

namespace GraphIngest

open Run (WorkerEnd)
open GraphIngest.Sequential (envelope)

/-! ## Records that cross a parcel -/

/-- A record crosses a parcel unchanged: the serial form carries its values back, and it holds no
supplies for the parcel to leave behind. -/
def Record.Crosses (x : Record) : Prop := x.Sendable ∧ x.supplies = []

theorem Record.clearSupplies_eq_self {x : Record} (h : x.supplies = []) : x.clearSupplies = x := by
  obtain ⟨t, f, i, s⟩ := x
  dsimp only at h
  subst h
  rfl

theorem Record.Crosses.clearSupplies {x : Record} (h : x.Crosses) : x.clearSupplies = x :=
  Record.clearSupplies_eq_self h.2

/-- A record without supplies whose fields, under rising keys, are integers of 64 signed bits
crosses a parcel unchanged. -/
theorem Record.crosses_of_ints {x : Record} (hs : x.fields.entries.Pairwise (fun a b => a.1 < b.1))
    (hv : ∀ e ∈ x.fields.entries, ∃ i : Int, e.2 = .int i ∧ -2 ^ 63 ≤ i ∧ i < 2 ^ 63) (hsup : x.supplies = []) :
    x.Crosses := by
  refine ⟨⟨hs, fun e he => ?_⟩, hsup⟩
  obtain ⟨i, hi, hlo, hhi⟩ := hv e he
  rw [hi]
  refine ⟨⟨hlo, hhi⟩, ?_⟩
  -- an integer is a number, which nests nothing
  show (Json.int i).nesting ≤ Value.nestingLimit
  unfold Json.int
  split <;> exact Nat.zero_le _

/-- Records that cross a parcel unchanged open, in either mode, to themselves. -/
theorem envelope_of_crosses (m : WorkerMode) {c : List Record} (h : ∀ x ∈ c, x.Crosses) :
    envelope m c = .ok c := by
  cases m with
  | shared => rfl
  | isolated =>
    show Parcel.openRecords (Parcel.sealRecords c) = .ok c
    rw [Parcel.openRecords_sealRecords c fun x hx => (h x hx).1]
    -- the parcel leaves the supplies behind, and there are none
    have hclear : (c.map fun x => { x with supplies := [] }) = c.map id :=
      List.map_congr_left fun x hx => (h x hx).clearSupplies
    rw [hclear, List.map_id]

/-- The node rules leave every record that crosses a parcel unchanged, once without its supplies,
crossing it unchanged, against every state of the world. -/
def RuleSet.KeepsCrossing (σ : Type) [GraphStore σ] (rules : RuleSet) (ph : Phase) : Prop :=
  ∀ (w w' : World σ) (rec rec' : Record) (f : Fragment), w.apply rules ph rec = (w', .ok f, rec') →
    rec.Crosses → rec'.clearSupplies.Crosses

/-- Rules free of code keep records crossing: they change nothing of a record but its supplies. -/
theorem RuleSet.keepsCrossing_of_codeFree (σ : Type) [GraphStore σ] {rules : RuleSet} {ph : Phase}
    (h : rules.CodeFree ph) : RuleSet.KeepsCrossing σ rules ph := by
  intro w w' rec rec' f happ hc
  have hclear := World.apply_clearSupplies w h rec
  rw [happ] at hclear
  dsimp only at hclear
  rw [hclear, hc.clearSupplies]
  exact hc

variable {σ : Type} [GraphStore σ]

/-! ## Sources whose passes cross -/

/-- A source read as it is, or through the database of a store. -/
def Source.readThrough (o : Option σ) (s : Source) : Source :=
  match o with
  | none => s
  | some st => GraphStore.readBy st s

/-- What a source has become after passes opened one after another, each read as it is or
through a store. -/
def Source.reopened (steps : List (Option σ)) (s : Source) : Source :=
  steps.foldl (fun s o => (s.readThrough o).openPass.2) s

/-- Every pass of `s`, and of every source it becomes as passes are opened, read as it is or
through any store, yields only records satisfying `P`. -/
def Source.Yields (σ : Type) [GraphStore σ] (P : Record → Prop) (s : Source) : Prop :=
  ∀ (steps : List (Option σ)) (o : Option σ) (items : List Item),
    (((s.reopened steps).readThrough o).openPass).1 = .ok items → ∀ x, .ok x ∈ items → P x

namespace Source.Yields

variable {P : Record → Prop} {s : Source}

theorem pass (h : Source.Yields σ P s) (o : Option σ) : Source.Yields σ P ((s.readThrough o).openPass.2) :=
  fun steps => h (o :: steps)

theorem items (h : Source.Yields σ P s) (o : Option σ) {items : List Item}
    (hi : (s.readThrough o).openPass.1 = .ok items) : ∀ x, .ok x ∈ items → P x :=
  h [] o items hi

end Source.Yields

namespace Run

/-- Opening the source of a run whose source yields only records satisfying `P` gives such
records, and leaves a source that still does. -/
theorem openSource_yields {P : Record → Prop} {r : Run σ} (h : Source.Yields σ P r.world.source) :
    Source.Yields σ P (openSource r).1.world.source ∧
      ∀ items, (openSource r).2 = .ok items → ∀ x, .ok x ∈ items → P x := by
  have hread : (if r.world.sharesStore then GraphStore.readBy r.world.store r.world.source else r.world.source) =
      r.world.source.readThrough (if r.world.sharesStore then some r.world.store else none) := by
    split <;> rfl
  have hpass := h.pass (if r.world.sharesStore then some r.world.store else none)
  rw [← hread] at hpass
  unfold openSource
  dsimp only
  rcases hp : (if r.world.sharesStore then GraphStore.readBy r.world.store r.world.source else r.world.source).openPass
    with ⟨_ | items, src⟩
  · rw [hp] at hpass
    exact ⟨hpass, fun _ h => nomatch h⟩
  · rw [hp] at hpass
    exact ⟨hpass, fun _ he => by cases he; exact h.items _ (by rw [← hread, hp])⟩

/-! ## Runs that differ in their mode and kept batches -/

/-- The run handing its batches out in mode `m`, keeping the batches `kept`. -/
def recast (r : Run σ) (m : WorkerMode) (kept : Option (List Batch)) : Run σ :=
  { r with conv := { r.conv with config := { r.conv.config with workerMode := m }, retained := kept } }

omit [GraphStore σ]

variable (r : Run σ) (m : WorkerMode) (kept : Option (List Batch))

@[simp] theorem recast_world : (r.recast m kept).world = r.world := rfl

@[simp] theorem recast_rules : (r.recast m kept).conv.rules = r.conv.rules := rfl

@[simp] theorem recast_completed : (r.recast m kept).conv.completed = r.conv.completed := rfl

@[simp] theorem recast_retained : (r.recast m kept).conv.retained = kept := rfl

@[simp] theorem recast_mode : (r.recast m kept).conv.config.workerMode = m := rfl

theorem complete_recast (ph : Phase) : complete (r.recast m kept) ph = (complete r ph).recast m kept := by
  unfold complete
  rw [recast_completed]
  split <;> rfl

end Run

theorem Run.applyRules_recast (r : Run σ) (m : WorkerMode) (kept : Option (List Batch)) (ph : Phase)
    (rec : Record) :
    (r.recast m kept).applyRules ph rec = ((r.applyRules ph rec).1.recast m kept, (r.applyRules ph rec).2) := by
  unfold Run.applyRules
  dsimp only [Run.recast_world, Run.recast_rules]
  rcases r.world.apply r.conv.rules ph rec with ⟨w, ⟨_ | _⟩ | _, rec'⟩ <;> rfl

theorem Run.openSource_recast (r : Run σ) (m : WorkerMode) (kept : Option (List Batch)) :
    Run.openSource (r.recast m kept) = ((Run.openSource r).1.recast m kept, (Run.openSource r).2) := by
  unfold Run.openSource
  rw [Run.recast_world]
  dsimp only
  rcases (if r.world.sharesStore then GraphStore.readBy r.world.store r.world.source else r.world.source).openPass
    with ⟨_ | _, src⟩ <;> rfl

/-! ## A pool never reads its run's mode nor its kept batches -/

namespace Pool

variable {p : Pool σ} {i : Nat} {w : Worker}

theorem Advances.recast {r b w'} (ha : p.Advances i w r b w') (m : WorkerMode) (kept : Option (List Batch)) :
    ({ p with run := p.run.recast m kept } : Pool σ).Advances i w (r.recast m kept) b w' := by
  cases ha with
  | stopAtTop hat hs => exact .stopAtTop hat hs
  | sourceFault hat hs hn => exact .sourceFault hat hs hn
  | drained hat hs hn => exact .drained hat hs hn
  | openFault hat hs hn hr => exact .openFault hat hs hn hr
  | take hat hs hn hr => exact .take hat hs hn hr
  | handBack hat => exact .handBack hat
  | stopInBatch hat hs => exact .stopInBatch hat hs
  | @apply index rec todo done r rec' f hat hs hm happ =>
    have happ' := Run.applyRules_recast p.run m kept p.phase rec
    rw [happ] at happ'
    dsimp only at happ'
    exact Advances.apply (p := { p with run := p.run.recast m kept }) hat hs hm happ'
  | @ruleFault index rec todo done r e hat hs hm happ =>
    have happ' := Run.applyRules_recast p.run m kept p.phase rec
    rw [happ] at happ'
    dsimp only at happ'
    exact Advances.ruleFault (p := { p with run := p.run.recast m kept }) hat hs hm happ'
  | pass hat hs hm => exact .pass hat hs hm
  | wait hat hl => exact .wait hat hl
  | created hat hl hw => exact .created hat hl hw
  | merged hat hl hw => exact .merged hat hl hw
  | gaveUp hat hl hw ha => exact .gaveUp hat hl hw ha
  | backOff hat hl hw ha => exact .backOff hat hl hw ha
  | cutShort hat hs => exact .cutShort hat hs
  | resume hat hs => exact .resume hat hs
  | close hat => exact .close hat
  | ended hat => exact .ended hat
  | joined hat => exact .joined hat

omit [GraphStore σ] in
theorem join_totalHint (p : Pool σ) (i : Nat) : (p.join i).totalHint = p.totalHint := by
  rcases join_eq (p := p) (i := i) with h | ⟨w, e, -, -, h⟩ <;> simp [h, setWorker]

omit [GraphStore σ] in
theorem join_recast (p : Pool σ) (m : WorkerMode) (kept : Option (List Batch)) (i : Nat) :
    ({ p with run := p.run.recast m kept } : Pool σ).join i = { p.join i with run := (p.join i).run.recast m kept } := by
  have h := join_with p (p.run.recast m kept) p.totalHint i
  rw [join_run]
  -- joining keeps the expected total, so the pool `join_with` gives is the one wanted
  rw [h, ← join_totalHint p i]

/-- **A move never reads the run's mode nor its kept batches**: the same pool with its run
recast moves alike, into the same pool with its run recast. -/
theorem recast_move (p : Pool σ) (m : WorkerMode) (kept : Option (List Batch)) :
    ∀ mv, ({ p with run := p.run.recast m kept } : Pool σ).move mv =
      { p.move mv with run := (p.move mv).run.recast m kept }
  | .step i => by
    cases hw : p.workers[i]? with
    | none =>
      simp only [move, hw]
    | some w =>
      have hw' : ({ p with run := p.run.recast m kept } : Pool σ).workers[i]? = some w := hw
      rw [move_step hw, move_step hw']
      obtain ⟨r, b, w', ha, heq⟩ := workerStep_advances hw
      rw [heq, (ha.recast m kept).workerStep_eq hw']
  | .join i => join_recast p m kept i
  | .notice => by
    by_cases hc : (p.run.world.cancelled && !p.cancelSeen) = true
    · simp only [move, Run.recast_world, hc, if_true]
    · simp only [move, Run.recast_world, hc, Bool.false_eq_true, if_false]
  | .cancel => rfl
  | .resize size => by
    by_cases ha : p.adaptive = true
    · simp only [move, ha, if_true]
    · simp only [move, ha, Bool.false_eq_true, if_false]

theorem recast_play (m : WorkerMode) (kept : Option (List Batch)) :
    ∀ (p : Pool σ) (ms : List Move), ({ p with run := p.run.recast m kept } : Pool σ).play ms =
      { p.play ms with run := (p.play ms).run.recast m kept }
  | _, [] => rfl
  | p, mv :: ms => by
    show (({ p with run := p.run.recast m kept } : Pool σ).move mv).play ms =
      { (p.move mv).play ms with run := ((p.move mv).play ms).run.recast m kept }
    rw [recast_move]
    exact recast_play m kept (p.move mv) ms

omit [GraphStore σ] in
theorem recast_outcome (p : Pool σ) (m : WorkerMode) (kept : Option (List Batch)) :
    ({ p with run := p.run.recast m kept } : Pool σ).outcome = (p.outcome.1.recast m kept, p.outcome.2) := by
  unfold outcome
  dsimp only [Run.recast_world]
  cases p.firstError with
  | some e => rfl
  | none =>
    by_cases hc : p.run.world.cancelled = true
    · simp only [hc, if_true]
      rfl
    · simp only [hc, Bool.false_eq_true, if_false]

omit [GraphStore σ] in
theorem start_recast (n : Nat) (r : Run σ) (m : WorkerMode) (kept : Option (List Batch)) (ph : Phase)
    (b : Batcher) (hint : Option Nat) :
    start n (r.recast m kept) ph b hint = { start n r ph b hint with run := r.recast m kept } := rfl

/-- Twin batchers, and a run recast: a phase played by a schedule ends in the recast run, with the
same fault or with twin batchers. -/
theorem runner_recast (sched : Phase → Nat × List Move) (r : Run σ) (m : WorkerMode)
    (kept : Option (List Batch)) (ph : Phase) {b b' : Batcher} (htw : Batcher.Twin b b') (hint : Option Nat) :
    (runner sched (r.recast m kept) ph b' hint).1 = (runner sched r ph b hint).1.recast m kept ∧
      ((∃ e, (runner sched r ph b hint).2 = .error e ∧ (runner sched (r.recast m kept) ph b' hint).2 = .error e) ∨
        ∃ c c', (runner sched r ph b hint).2 = .ok c ∧ (runner sched (r.recast m kept) ph b' hint).2 = .ok c' ∧
          Batcher.Twin c c') := by
  set P := start (sched ph).1 r ph b hint
  -- the twin pool, then its run recast
  have htwin : P.Twin { P with batcher := b' } := ⟨b', rfl, htw⟩
  have hstart : start (sched ph).1 (r.recast m kept) ph b' hint =
      { ({ P with batcher := b' } : Pool σ) with run := ({ P with batcher := b' } : Pool σ).run.recast m kept } := rfl
  obtain ⟨hrun, hend⟩ := (htwin.play (sched ph).2).outcome
  unfold runner
  rw [hstart, recast_play, recast_outcome]
  exact ⟨by rw [hrun], hend⟩

end Pool

/-! ## Pools whose records cross -/

/-- A batcher over a pass whose records cross hands out batches that open to records that cross,
and goes on over a pass whose records cross. -/
theorem Batcher.next_crossing {b b' : Batcher} {g : Nat} {res : Except ConvertError (Option Batch)}
    {its : List Item} (hf : b.feed = .stream its) (hits : ∀ x, .ok x ∈ its → x.Crosses)
    (hn : b.next g = (res, b')) :
    (∃ its', b'.feed = .stream its' ∧ ∀ x, .ok x ∈ its' → x.Crosses) ∧
      ∀ y rs, res = .ok (some y) → y.records = .ok rs → ∀ x ∈ rs, x.Crosses := by
  unfold Batcher.next at hn
  split at hn
  · cases hn
    exact ⟨⟨its, hf, hits⟩, fun _ _ h => nomatch h⟩
  · rw [hf] at hn
    dsimp only at hn
    rcases ht : takeRecords (max g 1) its [] with ⟨e | rs, rest⟩
    · -- what is left of the pass is a part of it
      have hrest : ∀ x, .ok x ∈ rest → x.Crosses := fun x hx => hits x ((takeRecords_suffix ht).subset hx)
      simp only [ht] at hn
      cases hn
      exact ⟨⟨rest, rfl, hrest⟩, fun _ _ h => nomatch h⟩
    · have hrest : ∀ x, .ok x ∈ rest → x.Crosses := fun x hx => hits x ((takeRecords_suffix ht).subset hx)
      obtain ⟨c, hc, hits'⟩ := takeRecords_split ht
      have hcross : ∀ x ∈ rs, x.Crosses := fun x hx =>
        hits x (by rw [hits']; exact List.mem_append_left _ (List.mem_map_of_mem (by simpa [hc] using hx)))
      cases rs with
      | nil =>
        simp only [ht] at hn
        cases hn
        exact ⟨⟨rest, rfl, hrest⟩, fun _ _ h => nomatch h⟩
      | cons x rs =>
        simp only [ht] at hn
        cases hn
        refine ⟨⟨rest, rfl, hrest⟩, fun y out hy hout => ?_⟩
        cases hy
        rw [Batch.records_make, envelope_of_crosses _ hcross] at hout
        cases hout
        exact hcross

namespace Pool

/-- Every record the batcher still has to hand out, every record of a batch it keeps, and every
record a worker holds crosses a parcel unchanged; the pool runs the phase `ph` under `rules`. -/
structure Crossing (rules : RuleSet) (ph : Phase) (p : Pool σ) : Prop where
  rules_eq : p.run.conv.rules = rules
  phase_eq : p.phase = ph
  stream : ∃ its, p.batcher.feed = .stream its ∧ ∀ x, .ok x ∈ its → x.Crosses
  kept : ∀ y ∈ p.batcher.kept, ∀ rs, y.records = .ok rs → ∀ x ∈ rs, x.Crosses
  held : ∀ v ∈ p.workers, ∀ j todo done, v.at_ = .batch j todo done →
    (∀ x ∈ todo, x.Crosses) ∧ ∀ x ∈ done, x.Crosses

section Crossing

variable {rules : RuleSet} {ph : Phase} {p : Pool σ} {i : Nat} {w : Worker}

/-- What one step leaves of the batcher and of its worker crosses, the rules keeping what they
are handed crossing. -/
theorem Advances.crossing (hrules : RuleSet.KeepsCrossing σ rules ph) {r b w'}
    (ha : p.Advances i w r b w') (h : p.Crossing rules ph) (hw : p.workers[i]? = some w) :
    (∃ its, b.feed = .stream its ∧ ∀ x, .ok x ∈ its → x.Crosses) ∧
      (∀ y ∈ b.kept, ∀ rs, y.records = .ok rs → ∀ x ∈ rs, x.Crosses) ∧
      ∀ j todo done, w'.at_ = .batch j todo done → (∀ x ∈ todo, x.Crosses) ∧ ∀ x ∈ done, x.Crosses := by
  have hheld := h.held w (List.mem_of_getElem? hw)
  obtain ⟨its, hf, hits⟩ := h.stream
  -- a worker leaving its batches holds no records
  have hout : ∀ {a : At}, (∀ j todo done, a ≠ .batch j todo done) → ∀ j todo done, a = .batch j todo done →
      (∀ x ∈ todo, x.Crosses) ∧ ∀ x ∈ done, x.Crosses := fun ha j todo done he => absurd he (ha j todo done)
  cases ha with
  | sourceFault hat hs hn | openFault hat hs hn =>
    obtain ⟨hfeed, -⟩ := Batcher.next_crossing hf hits hn
    rw [(Batcher.next_keeps hn).2.2]
    exact ⟨hfeed, h.kept, hout fun _ _ _ => by simp⟩
  | drained hat hs hn =>
    obtain ⟨hfeed, -⟩ := Batcher.next_crossing hf hits hn
    rw [(Batcher.next_keeps hn).2.2]
    refine ⟨hfeed, h.kept, hout fun _ _ _ => ?_⟩
    split <;> simp
  | take hat hs hn hr =>
    obtain ⟨hfeed, hbatch⟩ := Batcher.next_crossing hf hits hn
    rw [(Batcher.next_keeps hn).2.2]
    refine ⟨hfeed, h.kept, fun j todo done he => ?_⟩
    obtain ⟨-, rfl, rfl⟩ := At.batch.inj he
    exact ⟨hbatch _ _ rfl hr, by simp⟩
  | @handBack index done hat =>
    have hdone := (hheld index [] done hat).2
    refine ⟨⟨its, by rw [Batcher.retainProcessed_feed]; exact hf, hits⟩, fun y hy rs hrs => ?_, hout fun _ _ _ => ?_⟩
    · -- the batch kept is made of the records the worker went through
      by_cases hret : p.batcher.retain = true
      · rw [Batcher.retainProcessed_kept hret] at hy
        rcases Batcher.mem_of_mem_insert hy with rfl | hy
        · have hcross : ∀ x ∈ done.reverse, x.Crosses := fun x hx => hdone x (List.mem_reverse.mp hx)
          rw [Batch.records_make, envelope_of_crosses _ hcross] at hrs
          cases hrs
          exact hcross
        · exact h.kept y hy rs hrs
      · simp only [Batcher.retainProcessed, hret, Bool.not_false, if_true] at hy
        exact h.kept y hy rs hrs
    · split <;> simp
  | @apply index rec todo done r rec' f hat hs hm happ =>
    obtain ⟨hrec, htodo⟩ := List.forall_mem_cons.mp (hheld index (rec :: todo) done hat).1
    obtain ⟨w₀, rec₀, happly, hrec'⟩ := Run.applyRules_ok happ
    rw [h.rules_eq, h.phase_eq] at happly
    refine ⟨⟨its, hf, hits⟩, h.kept, fun j todo' done' he => ?_⟩
    obtain ⟨-, rfl, rfl⟩ := At.batch.inj he
    refine ⟨htodo, List.forall_mem_cons.mpr ⟨?_, (hheld index (rec :: todo) done hat).2⟩⟩
    rw [hrec']
    exact hrules _ _ _ _ _ happly hrec
  | @pass index rec todo done hat hs hm =>
    obtain ⟨hrec, htodo⟩ := List.forall_mem_cons.mp (hheld index (rec :: todo) done hat).1
    refine ⟨⟨its, hf, hits⟩, h.kept, fun j todo' done' he => ?_⟩
    obtain ⟨-, rfl, rfl⟩ := At.batch.inj he
    exact ⟨htodo, List.forall_mem_cons.mpr ⟨hrec, (hheld index (rec :: todo) done hat).2⟩⟩
  | created hat hl hw => exact ⟨⟨its, hf, hits⟩, h.kept, hout fun _ _ _ => by simp⟩
  | close hat =>
    refine ⟨⟨its, hf, hits⟩, h.kept, hout fun _ _ _ => ?_⟩
    split <;> simp
  | wait | ended | joined => exact ⟨⟨its, hf, hits⟩, h.kept, hheld⟩
  | _ => exact ⟨⟨its, hf, hits⟩, h.kept, hout fun _ _ _ => by simp⟩

theorem crossing_step (hrules : RuleSet.KeepsCrossing σ rules ph) (h : p.Crossing rules ph)
    (hw : p.workers[i]? = some w) : (p.workerStep i w).Crossing rules ph := by
  obtain ⟨r, b, w', ha, heq⟩ := workerStep_advances hw
  rw [heq]
  obtain ⟨hfeed, hkept, hheld⟩ := ha.crossing hrules h hw
  have hconv : r.conv.rules = p.run.conv.rules := by rw [ha.onlyCounts]
  refine ⟨hconv.trans h.rules_eq, h.phase_eq, hfeed, hkept, fun v hv => ?_⟩
  rcases List.mem_or_eq_of_mem_set hv with hv | rfl
  · exact h.held v hv
  · exact hheld

omit [GraphStore σ] in
theorem crossing_join (h : p.Crossing rules ph) : (p.join i).Crossing rules ph := by
  rcases join_eq (p := p) (i := i) with heq | ⟨w, e, -, -, heq⟩ <;> rw [heq]
  · exact h
  · refine ⟨by simpa [setWorker] using h.rules_eq, by simpa [setWorker] using h.phase_eq,
      by simpa [setWorker] using h.stream, by simpa [setWorker] using h.kept, fun v hv => ?_⟩
    simp only [receive_workers, setWorker] at hv
    rcases List.mem_or_eq_of_mem_set hv with hv | rfl
    · exact h.held v hv
    · intro j todo done he
      cases he

theorem Crossing.move (hrules : RuleSet.KeepsCrossing σ rules ph) (h : p.Crossing rules ph) :
    ∀ m, (p.move m).Crossing rules ph :=
  move_cases h (fun _ _ hw => crossing_step hrules h hw) (fun _ => crossing_join h)
    (fun _ => ⟨h.rules_eq, h.phase_eq, h.stream, h.kept, h.held⟩) ⟨h.rules_eq, h.phase_eq, h.stream, h.kept, h.held⟩
    fun _ => ⟨h.rules_eq, h.phase_eq, h.stream, h.kept, h.held⟩

omit [GraphStore σ] in
theorem crossing_start (n : Nat) (r : Run σ) (ph : Phase) (items : List Item) (mode : WorkerMode)
    (retain : Bool) (hint : Option Nat) (hits : ∀ x, .ok x ∈ items → x.Crosses) :
    (start n r ph (Batcher.ofItems items mode retain) hint).Crossing r.conv.rules ph :=
  ⟨rfl, rfl, ⟨items, rfl, hits⟩, (fun _ h => nomatch h), fun v hv j todo done he => by
    rw [(List.mem_replicate.mp hv).2] at he
    cases he⟩

/-- **A phase over a pass whose records cross keeps batches that cross**, under every schedule
and on any number of workers, when its rules keep what they are handed crossing. -/
theorem play_crossing (hrules : RuleSet.KeepsCrossing σ rules ph) (ms : List Move) {q : Pool σ}
    (h : q.Crossing rules ph) : (q.play ms).Crossing rules ph :=
  play_induction (fun _ m h => h.move hrules m) ms h

end Crossing

end Pool

/-! ## What a phase keeps of its run and batcher -/

namespace Pool

variable {p : Pool σ} {i : Nat} {w : Worker}

theorem Advances.mode {r b w'} (ha : p.Advances i w r b w') : b.mode = p.batcher.mode := by
  cases ha with
  | sourceFault _ _ hn | drained _ _ hn | openFault _ _ hn | take _ _ hn => exact (Batcher.next_keeps hn).1
  | handBack => exact Batcher.retainProcessed_mode _ _ _
  | _ => rfl

theorem move_mode (p : Pool σ) : ∀ m, (p.move m).batcher.mode = p.batcher.mode := by
  refine move_cases (P := fun q => q.batcher.mode = p.batcher.mode) rfl (fun _ _ hw => ?_) (fun i => ?_)
    (fun _ => rfl) rfl fun _ => rfl
  · obtain ⟨r, b, w', ha, heq⟩ := workerStep_advances hw
    rw [heq]
    exact ha.mode
  · show (p.join i).batcher.mode = _
    rcases join_eq (p := p) (i := i) with heq | ⟨w, e, -, -, heq⟩ <;> rw [heq]
    simp [setWorker]

theorem play_mode (p : Pool σ) (ms : List Move) : (p.play ms).batcher.mode = p.batcher.mode :=
  play_induction (P := fun q => q.batcher.mode = p.batcher.mode) (fun q m h => (move_mode q m).trans h) ms rfl

omit [GraphStore σ] in
theorem outcome_batcher {b : Batcher} (h : p.outcome.2 = .ok b) : b = p.batcher := by
  unfold outcome at h
  split at h
  · cases h
  · split at h
    · cases h
    · exact (Except.ok.inj h).symm

/-- A phase played by a schedule ends in a run with the settings, the kept batches and the source
it started with, and normally only with a batcher in the mode it was handed. -/
theorem runner_keeps (sched : Phase → Nat × List Move) (r : Run σ) (ph : Phase) (b : Batcher)
    (hint : Option Nat) :
    (runner sched r ph b hint).1.conv.config = r.conv.config ∧
      (runner sched r ph b hint).1.conv.retained = r.conv.retained ∧
      (runner sched r ph b hint).1.world.source = r.world.source ∧
      ∀ c, (runner sched r ph b hint).2 = .ok c → c.mode = b.mode := by
  have hconv := (outcome_conv ((start (sched ph).1 r ph b hint).play (sched ph).2)).1
  have hcounts := play_onlyCounts (start (sched ph).1 r ph b hint) (sched ph).2
  unfold Run.OnlyCounts at hcounts
  unfold runner
  refine ⟨by rw [hconv, hcounts]; rfl, by rw [hconv, hcounts]; rfl, ?_, fun c hc => ?_⟩
  · rw [outcome_world, play_source]
    rfl
  · rw [outcome_batcher hc, play_mode]
    rfl

/-- The batches a phase over a pass of crossing records keeps cross, when its rules keep records
crossing. -/
theorem runner_kept_crossing (sched : Phase → Nat × List Move) {r : Run σ} {ph : Phase}
    (hrules : RuleSet.KeepsCrossing σ r.conv.rules ph) {items : List Item} (hits : ∀ x, .ok x ∈ items → x.Crosses)
    {m : WorkerMode} {retain : Bool} {hint : Option Nat} {c : Batcher}
    (h : (runner sched r ph (Batcher.ofItems items m retain) hint).2 = .ok c) :
    ∀ y ∈ c.kept, ∀ rs, y.records = .ok rs → ∀ x ∈ rs, x.Crosses := by
  unfold runner at h
  rw [outcome_batcher h]
  exact (play_crossing hrules _ (crossing_start _ r ph items m retain hint hits)).kept

end Pool

/-! ## A call in isolated mode and the same call in shared mode -/

namespace Run

/-- `r'` is the run `r` makes in shared mode, where `r` runs isolated: the same run but for its
mode and its kept batches, which are twins of those of `r`, made of records that cross a parcel
unchanged; and the source of `r` yields only such records, pass after pass. -/
structure SharedTwin (r r' : Run σ) : Prop where
  isolated : r.conv.config.workerMode = .isolated
  recast : r' = r.recast .shared r'.conv.retained
  kept : Option.Rel (List.Forall₂ (Batch.KeptTwin .isolated .shared)) r.conv.retained r'.conv.retained
  crosses : ∀ bs ∈ r'.conv.retained, ∀ y ∈ bs, ∀ rs, y.records = .ok rs → ∀ x ∈ rs, x.Crosses
  source : Source.Yields σ Record.Crosses r.world.source

namespace SharedTwin

variable {r r' : Run σ}

theorem world (h : SharedTwin r r') : r'.world = r.world := by
  rw [h.recast]
  rfl

theorem rules (h : SharedTwin r r') : r'.conv.rules = r.conv.rules := by
  rw [h.recast]
  rfl

theorem counters_eq (h : SharedTwin r r') : r'.conv.counters = r.conv.counters := by
  rw [h.recast]
  rfl

theorem shared (h : SharedTwin r r') : r'.conv.config.workerMode = .shared := by
  rw [h.recast]
  rfl

/-- The kept batches of twins: none on either side, or twin lists. -/
theorem retained_cases (h : SharedTwin r r') :
    (r.conv.retained = none ∧ r'.conv.retained = none) ∨
      ∃ bs bs', r.conv.retained = some bs ∧ r'.conv.retained = some bs' ∧
        List.Forall₂ (Batch.KeptTwin .isolated .shared) bs bs' := by
  have hk := h.kept
  rcases hr : r.conv.retained with _ | bs <;> rcases hr' : r'.conv.retained with _ | bs' <;>
    rw [hr, hr'] at hk
  · exact .inl ⟨rfl, rfl⟩
  · cases hk
  · cases hk
  · cases hk with
    | some hk => exact .inr ⟨bs, bs', rfl, rfl, hk⟩

theorem forget (h : SharedTwin r r') :
    SharedTwin { r with conv := { r.conv with retained := none } } { r' with conv := { r'.conv with retained := none } } :=
  ⟨h.isolated, by rw [h.recast]; rfl, .none, (fun _ hb => nomatch hb), h.source⟩

/-- Twins keeping twin batches, the shared ones made of records that cross. -/
theorem keep (h : SharedTwin r r') {bs bs' : List Batch} (hk : List.Forall₂ (Batch.KeptTwin .isolated .shared) bs bs')
    (hc : ∀ y ∈ bs', ∀ rs, y.records = .ok rs → ∀ x ∈ rs, x.Crosses) :
    SharedTwin { r with conv := { r.conv with retained := some bs } } { r' with conv := { r'.conv with retained := some bs' } } :=
  ⟨h.isolated, by rw [h.recast]; rfl, .some hk, fun _ hb => Option.some_inj.mp hb ▸ hc, h.source⟩

theorem state (h : SharedTwin r r') (st : RunState) :
    SharedTwin { r with conv := { r.conv with state := st } } { r' with conv := { r'.conv with state := st } } :=
  ⟨h.isolated, by rw [h.recast]; rfl, h.kept, h.crosses, h.source⟩

theorem counters (h : SharedTwin r r') (c : Counters) :
    SharedTwin { r with conv := { r.conv with counters := c } } { r' with conv := { r'.conv with counters := c } } :=
  ⟨h.isolated, by rw [h.recast]; rfl, h.kept, h.crosses, h.source⟩

theorem complete (h : SharedTwin r r') (ph : Phase) : SharedTwin (Run.complete r ph) (Run.complete r' ph) := by
  have hc : Run.complete r' ph = (Run.complete r ph).recast .shared r'.conv.retained := by
    conv_lhs => rw [h.recast]
    rw [complete_recast]
  refine ⟨?_, ?_, ?_, ?_, ?_⟩
  · unfold Run.complete; split <;> exact h.isolated
  · rw [hc]; rfl
  · rw [hc]; unfold Run.complete; split <;> exact h.kept
  · rw [hc]; exact h.crosses
  · unfold Run.complete; split <;> exact h.source

end SharedTwin

section Twins

variable (sched : Phase → Nat × List Pool.Move)

/-- Twin batchers over twin runs: the phase ends in twin runs, alike. -/
theorem runner_sharedTwin {r r' : Run σ} (h : SharedTwin r r') (ph : Phase) {b b' : Batcher}
    (htw : Batcher.Twin b b') (hint : Option Nat) :
    SharedTwin (Pool.runner sched r ph b hint).1 (Pool.runner sched r' ph b' hint).1 ∧
      ((∃ e, (Pool.runner sched r ph b hint).2 = .error e ∧ (Pool.runner sched r' ph b' hint).2 = .error e) ∨
        ∃ c c', (Pool.runner sched r ph b hint).2 = .ok c ∧ (Pool.runner sched r' ph b' hint).2 = .ok c' ∧
          Batcher.Twin c c') := by
  have hr' := h.recast
  rw [hr']
  obtain ⟨hrun, hend⟩ := Pool.runner_recast sched r .shared r'.conv.retained ph htw hint
  obtain ⟨hconfig, hret, hsrc, -⟩ := Pool.runner_keeps sched r ph b hint
  refine ⟨⟨by rw [hconfig]; exact h.isolated, by rw [hrun]; rfl, ?_, ?_, by rw [hsrc]; exact h.source⟩, hend⟩
  · rw [hrun, recast_retained, hret]
    exact h.kept
  · rw [hrun, recast_retained]
    exact h.crosses

/-- Records that cross give twin passes. -/
theorem twin_ofItems_crossing {items : List Item} (retain : Bool) (hits : ∀ x, .ok x ∈ items → x.Crosses) :
    Batcher.Twin (Batcher.ofItems items .isolated retain) (Batcher.ofItems items .shared retain) :=
  Batcher.twin_ofItems retain fun _ _ hinf => envelope_of_crosses _ fun x hx =>
    hits x (hinf.subset (List.mem_map_of_mem hx))

theorem openSource_sharedTwin {r r' : Run σ} (h : SharedTwin r r') :
    SharedTwin (openSource r).1 (openSource r').1 ∧ (openSource r').2 = (openSource r).2 ∧
      ∀ items, (openSource r).2 = .ok items → ∀ x, .ok x ∈ items → x.Crosses := by
  obtain ⟨hsrc, hitems⟩ := openSource_yields h.source
  have hr' := h.recast
  rw [hr', openSource_recast]
  have hconv := fun res (hres : openSource r = ((openSource r).1, res)) => openSource_conv hres
  have hc := hconv _ rfl
  refine ⟨⟨by rw [hc]; exact h.isolated, rfl, ?_, ?_, hsrc⟩, rfl, hitems⟩
  · rw [recast_retained, hc]
    exact h.kept
  · exact h.crosses

/-- Twin results of a phase, the relationship phase's end. -/
theorem finishRelationships_sharedTwin {x x' : Run σ × Except ConvertError Batcher} (h : SharedTwin x.1 x'.1)
    (hres : (∃ e, x.2 = .error e ∧ x'.2 = .error e) ∨ ∃ c c', x.2 = .ok c ∧ x'.2 = .ok c' ∧ Batcher.Twin c c') :
    SharedTwin (finishRelationships x).1 (finishRelationships x').1 ∧
      (finishRelationships x').2 = (finishRelationships x).2 := by
  obtain ⟨r, res⟩ := x
  obtain ⟨r', res'⟩ := x'
  rcases hres with ⟨e, rfl, rfl⟩ | ⟨c, c', rfl, rfl, -⟩
  · exact ⟨h, rfl⟩
  · exact ⟨h.forget.complete .relationship, rfl⟩

/-- The relationship phase of twins: the kept batches replayed, sealed again in isolated mode,
or the source read once more. -/
theorem relationshipPhaseBy_sharedTwin {r r' : Run σ} (h : SharedTwin r r') (hint : Option Nat) :
    SharedTwin (relationshipPhaseBy (Pool.runner sched) r hint).1 (relationshipPhaseBy (Pool.runner sched) r' hint).1 ∧
      (relationshipPhaseBy (Pool.runner sched) r' hint).2 = (relationshipPhaseBy (Pool.runner sched) r hint).2 := by
  have h₀ := h.state .relationshipPhase
  rcases h.retained_cases with ⟨hr, hr'⟩ | ⟨bs, bs', hr, hr', hk⟩
  · rw [relationshipPhaseBy_none _ r hint hr, relationshipPhaseBy_none _ r' hint hr', h.isolated, h.shared]
    obtain ⟨ho, hres, hitems⟩ := openSource_sharedTwin h₀
    rcases hop : openSource { r with conv := { r.conv with state := .relationshipPhase } } with ⟨r₁, e | items⟩ <;>
      rcases hop' : openSource { r' with conv := { r'.conv with state := .relationshipPhase } } with
        ⟨r₁', e' | items'⟩ <;> rw [hop, hop'] at ho hres <;> rw [hop] at hitems <;> cases hres
    · exact ⟨ho, rfl⟩
    · have hp := runner_sharedTwin sched ho .relationship (twin_ofItems_crossing false (hitems items rfl)) hint
      exact finishRelationships_sharedTwin hp.1 hp.2
  · -- the kept batches cross, so sealing them again gives them back
    rw [relationshipPhaseBy_retained _ r hint bs hr, relationshipPhaseBy_retained _ r' hint bs' hr', h.isolated,
      h.shared]
    have hrt : ∀ y ∈ bs', ∀ rs, y.records = .ok rs → envelope .isolated rs = .ok rs := fun y hy rs hrs =>
      envelope_of_crosses _ (h.crosses bs' (Option.mem_def.mpr hr') y hy rs hrs)
    have hp := runner_sharedTwin sched h₀ .relationship (Batcher.twin_ofRetained hk hrt) hint
    exact finishRelationships_sharedTwin hp.1 hp.2

/-- The node stage of twins; the batches the shared node phase keeps cross, so the twins it ends
in are twins again. -/
theorem nodeStageBy_sharedTwin {r r' : Run σ} (h : SharedTwin r r') (hrules : RuleSet.KeepsCrossing σ r.conv.rules .node)
    (skip : Bool) (hint : Option Nat) :
    SharedTwin (nodeStageBy (Pool.runner sched) r skip hint).1 (nodeStageBy (Pool.runner sched) r' skip hint).1 ∧
      (nodeStageBy (Pool.runner sched) r' skip hint).2 = (nodeStageBy (Pool.runner sched) r skip hint).2 := by
  unfold nodeStageBy
  cases skip
  · simp only [Bool.false_eq_true, if_false]
    obtain ⟨ho, hres, hitems⟩ := openSource_sharedTwin (h.forget.state .nodePhase)
    rcases hop : openSource { r with conv := { r.conv with state := .nodePhase, retained := none } } with
      ⟨r₁, e | items⟩ <;>
      rcases hop' : openSource { r' with conv := { r'.conv with state := .nodePhase, retained := none } } with
        ⟨r₁', e' | items'⟩ <;> rw [hop, hop'] at ho hres <;> rw [hop] at hitems <;> cases hres
    · exact ⟨ho, rfl⟩
    · dsimp only
      have hits := hitems items rfl
      have hrules₁ : RuleSet.KeepsCrossing σ r₁'.conv.rules .node := by
        rw [ho.rules, openSource_conv hop]
        exact hrules
      rw [ho.isolated, ho.shared, h.rules]
      generalize (!(r.conv.rules.typeMask .relationship).isEmpty) = k
      have hp := runner_sharedTwin sched ho .node (twin_ofItems_crossing k hits) hint
      obtain ⟨-, -, -, hmode⟩ := Pool.runner_keeps sched r₁ .node (Batcher.ofItems items .isolated k) hint
      obtain ⟨-, -, -, hmode'⟩ := Pool.runner_keeps sched r₁' .node (Batcher.ofItems items .shared k) hint
      rcases hph : Pool.runner sched r₁ .node (Batcher.ofItems items .isolated k) hint with ⟨r₂, e | c⟩ <;>
        rcases hph' : Pool.runner sched r₁' .node (Batcher.ofItems items .shared k) hint with ⟨r₂', e' | c'⟩ <;>
        rw [hph, hph'] at hp <;> obtain ⟨hp, hres⟩ := hp <;> simp only [Except.error.injEq, reduceCtorEq,
          Except.ok.injEq, exists_eq_left', false_and, exists_false, or_false, false_or, exists_and_left] at hres
      · exact ⟨hp, by rw [hres]⟩
      · refine ⟨?_, rfl⟩
        cases k
        · exact hp.complete .node
        · -- the kept batches, each made in its batcher's mode
          have hk := hres.kept
          rw [hmode c (by rw [hph]), hmode' c' (by rw [hph'])] at hk
          have hkc := Pool.runner_kept_crossing sched hrules₁ hits
            (show (Pool.runner sched r₁' .node (Batcher.ofItems items .shared true) hint).2 = .ok c' by rw [hph'])
          exact (hp.keep hk hkc).complete .node
  · exact ⟨h, rfl⟩

theorem relStageBy_sharedTwin {r r' : Run σ} (h : SharedTwin r r') (skip : Bool) (ran : List Phase) (hint : Option Nat) :
    SharedTwin (relStageBy (Pool.runner sched) r skip ran hint).1 (relStageBy (Pool.runner sched) r' skip ran hint).1 ∧
      (relStageBy (Pool.runner sched) r' skip ran hint).2 = (relStageBy (Pool.runner sched) r skip ran hint).2 := by
  unfold relStageBy
  cases skip
  · simp only [Bool.false_eq_true, if_false]
    obtain ⟨ha, hres⟩ := relationshipPhaseBy_sharedTwin sched h hint
    rcases hrp : relationshipPhaseBy (Pool.runner sched) r hint with ⟨r₁, e | _⟩ <;>
      rcases hrp' : relationshipPhaseBy (Pool.runner sched) r' hint with ⟨r₁', e' | _⟩ <;> rw [hrp, hrp'] at ha hres <;>
      cases hres
    · exact ⟨ha, rfl⟩
    · exact ⟨ha, rfl⟩
  · exact ⟨h, rfl⟩

/-- **A call in isolated mode ends as the same call in shared mode.** Over a source whose passes
yield only records that cross a parcel unchanged, under node rules that keep the records they are
handed crossing, an isolated run and its shared twin give the same result under every schedule
and any number of workers, and end as twins: the same store, counters, progress, state and
completed phases, and twin kept batches that the next call replays, sealed again, alike. -/
theorem isolated_call_runs_as_shared {r r' : Run σ} (h : SharedTwin r r')
    (hrules : RuleSet.KeepsCrossing σ r.conv.rules .node) (o : RunOptions) :
    (runBy (Pool.runner sched) r' o).2 = (runBy (Pool.runner sched) r o).2 ∧
      SharedTwin (runBy (Pool.runner sched) r o).1 (runBy (Pool.runner sched) r' o).1 := by
  unfold runBy
  dsimp only
  have hw := h.world
  have hc : r'.world.cancelled = r.world.cancelled := by rw [hw]
  have hl : r'.world.source.lenHint = r.world.source.lenHint := by rw [hw]
  simp only [hc, hl]
  by_cases hcan : r.world.cancelled = true
  · rw [if_pos hcan, if_pos hcan]
    exact ⟨rfl, (h.counters {}).state .aborted⟩
  · rw [if_neg hcan, if_neg hcan]
    generalize (r.world.source.lenHint.map fun x => x * ((if o.skipNodes = true then 0 else 1) +
      if o.skipRelationships = true then 0 else 1)) = hint
    obtain ⟨hn, hnres⟩ := nodeStageBy_sharedTwin sched (h.counters {}) hrules o.skipNodes hint
    rcases hns : nodeStageBy (Pool.runner sched) { r with conv := { r.conv with counters := {} } } o.skipNodes hint with
      ⟨r₁, e | ran⟩ <;>
      rcases hns' : nodeStageBy (Pool.runner sched) { r' with conv := { r'.conv with counters := {} } } o.skipNodes
        hint with ⟨r₁', e' | ran'⟩ <;> rw [hns, hns'] at hn hnres <;> cases hnres
    · exact ⟨rfl, hn⟩
    · dsimp only
      obtain ⟨hl, hlres⟩ := relStageBy_sharedTwin sched hn o.skipRelationships ran hint
      rcases hls : relStageBy (Pool.runner sched) r₁ o.skipRelationships ran hint with ⟨r₂, e | ran₂⟩ <;>
        rcases hls' : relStageBy (Pool.runner sched) r₁' o.skipRelationships ran hint with ⟨r₂', e' | ran₂'⟩ <;>
        rw [hls, hls'] at hl hlres <;> cases hlres
      · exact ⟨rfl, hl⟩
      · dsimp only at hl ⊢
        exact ⟨by rw [hl.counters_eq], hl.state .done⟩

end Twins

end Run

/-! ## Sources of records given as items -/

namespace Source

theorem readThrough_items (o : Option Store) (xs : List (Except String Record)) :
    (Source.items xs).readThrough o = .items xs := by
  cases o with
  | none => rfl
  | some st => cases st <;> rfl

theorem reopened_items (steps : List (Option Store)) (xs : List (Except String Record)) :
    (Source.items xs).reopened steps = .items xs := by
  induction steps with
  | nil => rfl
  | cons o steps ih =>
    show (((Source.items xs).readThrough o).openPass.2).reopened steps = _
    rw [readThrough_items]
    exact ih

/-- A source of items yields, on every pass, the records among them. -/
theorem yields_items {P : Record → Prop} {xs : List (Except String Record)} (h : ∀ x, .ok x ∈ xs → P x) :
    Source.Yields Store P (.items xs) := by
  intro steps o items hpass x hx
  rw [reopened_items, readThrough_items] at hpass
  have hi : xs.map (fun x => x.mapError SourceError.other) = items := Except.ok.inj hpass
  subst hi
  obtain ⟨y, hy, hyx⟩ := List.mem_map.mp hx
  cases y with
  | ok r =>
    cases hyx
    exact h _ hy
  | error e => cases hyx

end Source

/-! ## People and a friendship, converted in isolated mode -/

/-- The people and their friendship of `friendsPair`, handed out in isolated mode. -/
def isolatedFriends : Run Store := friendsPair.recast .isolated none

theorem friendsRun_codeFree : friendsRun.converter.rules.CodeFree .node := by
  intro e he
  simp only [friendsRun.converter, List.mem_cons, List.not_mem_nil, or_false] at he
  rcases he with rfl | rfl <;> constructor

/-- The people and the friendship cross a parcel unchanged. -/
theorem friendsPair_crosses : ∀ x, .ok x ∈ ([friendsRun.person (.int 1), friendsRun.person (.int 2),
    friendsRun.friends].map .ok : List (Except String Record)) → x.Crosses := by
  intro x hx
  simp only [List.map_cons, List.map_nil, List.mem_cons, Except.ok.injEq, List.not_mem_nil, or_false] at hx
  have hp : ∀ i : Int, -2 ^ 63 ≤ i → i < 2 ^ 63 → (friendsRun.person (.int i)).Crosses := fun i hlo hhi =>
    Record.crosses_of_ints (by simp [show (friendsRun.person (.int i)).fields.entries = [("id", .int i)] from rfl])
      (by simpa [show (friendsRun.person (.int i)).fields.entries = [("id", .int i)] from rfl] using And.intro hlo hhi)
      rfl
  have hf : friendsRun.friends.fields.entries = [("a", .int 1), ("b", .int 2)] := rfl
  rcases hx with rfl | rfl | rfl
  · exact hp 1 (by decide) (by decide)
  · exact hp 2 (by decide) (by decide)
  · exact Record.crosses_of_ints (by rw [hf]; decide) (by rw [hf]; simp) rfl

/-- In isolated mode, the people and their friendship, the friendship replayed from the batch the
node phase kept and sealed again, convert as in shared mode: the call succeeds and writes the
friendship. -/
theorem isolated_friends_run_as_shared :
    Run.SharedTwin isolatedFriends friendsPair ∧ RuleSet.KeepsCrossing Store isolatedFriends.conv.rules .node ∧
      (Run.runBy (Pool.runner pairedSchedule) isolatedFriends {}).2.isOk = true ∧
      ((Run.runBy (Pool.runner pairedSchedule) isolatedFriends {}).1.world.store.relCount none).toOption = some 1 := by
  have htwin : Run.SharedTwin isolatedFriends friendsPair :=
    ⟨rfl, rfl, .none, (fun _ hb => nomatch hb), Source.yields_items friendsPair_crosses⟩
  have hkeeps : RuleSet.KeepsCrossing Store isolatedFriends.conv.rules .node :=
    RuleSet.keepsCrossing_of_codeFree Store friendsRun_codeFree
  obtain ⟨hres, hend⟩ := Run.isolated_call_runs_as_shared pairedSchedule htwin hkeeps {}
  -- the shared call is computed; the isolated one, whose parcels go through the reader, is not
  have hok : (Run.runBy (Pool.runner pairedSchedule) friendsPair {}).2.isOk = true := by
    decide +kernel
  have hrel : ((Run.runBy (Pool.runner pairedSchedule) friendsPair {}).1.world.store.relCount none).toOption =
      some 1 := by
    decide +kernel
  refine ⟨htwin, hkeeps, by rw [← hres]; exact hok, by rw [← hend.world]; exact hrel⟩

end GraphIngest
