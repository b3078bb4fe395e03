import GraphIngest.Proofs.Convert.Replay
import GraphIngest.Proofs.Convert.Counting

/-! # Progress reports

Each record a worker processes moves the run's count on by one and is reported with its phase,
the count, and the total the run expects. With any number of workers and under any schedule, a
phase that ends normally has read its whole feed, and added one report for each record its
batches opened to, numbered on from where the count stood (`Pool.phase_reads`). A run sets the
count to zero and names one total for all its phases, so its reports number the records its
phases read, one phase after the other, from one (`Run.progress_numbers_records_read`).
-/

namespace GraphIngest

open Run (WorkerEnd)
open GraphIngest.Sequential (envelope)

namespace Progress

/-- The reports of `k` records processed in phase `ph`, oldest first, the count standing at `n`
before them. -/
def ticks (ph : Phase) (hint : Option Nat) (n k : Nat) : List Progress :=
  (List.range k).map fun j => ⟨ph, n + j + 1, hint⟩

/-- The reports of phases run one after the other, each with the number of records it processed,
oldest first, the count standing at `n` before them. -/
def ofRuns (hint : Option Nat) : Nat → List (Phase × Nat) → List Progress
  | _, [] => []
  | n, (ph, k) :: runs => ticks ph hint n k ++ ofRuns hint (n + k) runs

theorem ticks_succ (ph : Phase) (hint : Option Nat) (n k : Nat) :
    ticks ph hint n (k + 1) = ticks ph hint n k ++ [⟨ph, n + k + 1, hint⟩] := by
  simp [ticks, List.range_succ]

theorem ofRuns_append (hint : Option Nat) (n : Nat) (runs runs' : List (Phase × Nat)) :
    ofRuns hint n (runs ++ runs') =
      ofRuns hint n runs ++ ofRuns hint (n + (runs.map Prod.snd).sum) runs' := by
  induction runs generalizing n with
  | nil => simp [ofRuns]
  | cons x runs ih =>
    simp [ofRuns, ih, Nat.add_assoc]

theorem ofRuns_seen (hint : Option Nat) (n : Nat) (runs : List (Phase × Nat)) :
    (ofRuns hint n runs).map (·.seen) = List.range' (n + 1) (runs.map Prod.snd).sum := by
  induction runs generalizing n with
  | nil => rfl
  | cons x runs ih =>
    have hticks : (ticks x.1 hint n x.2).map (·.seen) = List.range' (n + 1) x.2 := by
      simp [ticks, List.range'_eq_map_range, Nat.add_right_comm]
    simp only [ofRuns, List.map_append, hticks, ih, List.map_cons, List.sum_cons]
    rw [Nat.add_right_comm, List.range'_append_1]

theorem ofRuns_phase (hint : Option Nat) (n : Nat) (runs : List (Phase × Nat)) :
    (ofRuns hint n runs).map (·.phase) = runs.flatMap fun x => List.replicate x.2 x.1 := by
  induction runs generalizing n with
  | nil => rfl
  | cons x runs ih => simp [ofRuns, ticks, ih, Function.comp_def, List.map_const']

theorem ofRuns_hint (hint : Option Nat) (n : Nat) (runs : List (Phase × Nat)) :
    ∀ p ∈ ofRuns hint n runs, p.totalHint = hint := by
  induction runs generalizing n with
  | nil => simp [ofRuns]
  | cons x runs ih =>
    intro p hp
    rcases List.mem_append.mp hp with hp | hp
    · obtain ⟨j, -, rfl⟩ := List.mem_map.mp hp
      rfl
    · exact ih _ p hp

end Progress

namespace Batcher

/-- The batches of a feed open in `mode` to `outs`, one list of records per batch: a pass cut
into chunks, each opened as a batch made of it, or batches replayed. -/
def Opens (mode : WorkerMode) : Feed → List (List Record) → Prop
  | .stream items, outs => ∃ chunks, items = chunks.flatten.map .ok ∧
      List.Forall₂ (fun c out => envelope mode c = .ok out) chunks outs
  | .replay bs, outs => bs.map Batch.records = outs.map .ok

/-- The batches `b` handed out of `feed` open in `mode` to `outs`, and `b` holds the rest of the
feed, none of it once it has run dry. -/
def Handed (mode : WorkerMode) (feed : Feed) (b : Batcher) (outs : List (List Record)) : Prop :=
  match feed with
  | .stream items => ∃ chunks rest, b.feed = .stream rest ∧ items = chunks.flatten.map .ok ++ rest ∧
      List.Forall₂ (fun c out => envelope mode c = .ok out) chunks outs ∧ (b.exhausted = true → rest = [])
  | .replay bs => ∃ handed rest, b.feed = .replay rest ∧ bs = handed ++ rest ∧
      handed.map Batch.records = outs.map .ok ∧ (b.exhausted = true → rest = [])

variable {mode : WorkerMode} {feed : Feed} {b b' : Batcher} {outs : List (List Record)} {g : Nat}

theorem handed_self (h : b.exhausted = false) : Handed b.mode b.feed b [] := by
  cases hf : b.feed with
  | stream items => exact ⟨[], items, hf, by simp, .nil, by simp [h]⟩
  | replay bs => exact ⟨[], bs, hf, by simp, rfl, by simp [h]⟩

theorem Handed.opens (h : Handed mode feed b outs) (hex : b.exhausted = true) : Opens mode feed outs := by
  cases feed with
  | stream items =>
    obtain ⟨chunks, rest, -, hitems, hout, hrest⟩ := h
    exact ⟨chunks, by simpa [hrest hex] using hitems, hout⟩
  | replay bs =>
    obtain ⟨handed, rest, -, hbs, hout, hrest⟩ := h
    simpa [Opens, hbs, hrest hex] using hout

theorem Handed.retainProcessed (h : Handed mode feed b outs) (i : Nat) (rs : List Record) :
    Handed mode feed (b.retainProcessed i rs) outs := by
  cases feed <;> simpa [Handed] using h

theorem Handed.next_none (h : Handed mode feed b outs) (hn : b.next g = (.ok none, b')) :
    Handed mode feed b' outs := by
  cases feed with
  | stream items =>
    obtain ⟨chunks, rest, hf, hitems, hout, hrest⟩ := h
    rcases next_none_of_stream hf hn with ⟨-, rfl⟩ | ⟨rfl, hf', -, -⟩
    · exact ⟨chunks, rest, hf, hitems, hout, hrest⟩
    · exact ⟨chunks, [], hf', hitems, hout, fun _ => rfl⟩
  | replay bs =>
    obtain ⟨handed, rest, hf, hbs, hout, hrest⟩ := h
    unfold next at hn
    split at hn
    · obtain ⟨-, rfl⟩ := Prod.mk.inj hn
      exact ⟨handed, rest, hf, hbs, hout, hrest⟩
    · rw [hf] at hn
      cases rest with
      | nil =>
        obtain ⟨-, rfl⟩ := Prod.mk.inj hn
        exact ⟨handed, [], rfl, hbs, hout, fun _ => rfl⟩
      | cons x rest => simp at hn

theorem Handed.next_some {x : Batch} {rs : List Record} (h : Handed mode feed b outs) (hmode : b.mode = mode)
    (hn : b.next g = (.ok (some x), b')) (hr : x.records = .ok rs) : Handed mode feed b' (outs ++ [rs]) := by
  cases feed with
  | stream items =>
    obtain ⟨chunks, rest, hf, hitems, hout, hrest⟩ := h
    obtain ⟨c, rest', hits, -, rfl, hf', -, hex⟩ := next_some_of_stream hf hn
    refine ⟨chunks ++ [c], rest', hf', by simp [hitems, hits], List.rel_append hout (.cons ?_ .nil), fun he => ?_⟩
    · rw [← hmode, ← Batch.records_make]
      exact hr
    · have hnil := hrest (hex ▸ he)
      simp only [hits, List.append_eq_nil_iff] at hnil
      exact hnil.2
  | replay bs =>
    obtain ⟨handed, rest, hf, hbs, hout, hrest⟩ := h
    unfold next at hn
    split at hn
    · cases hn
    next hex =>
      rw [hf] at hn
      cases rest with
      | nil => simp at hn
      | cons y rest =>
        obtain ⟨hxy, rfl⟩ := Prod.mk.inj hn
        cases hxy
        refine ⟨handed ++ [x], rest, rfl, by simp [hbs], by simp [hout, hr], fun he => ?_⟩
        simp_all

theorem Opens.length_of_shared {items : List Item} (h : Opens .shared (.stream items) outs) :
    outs.flatten.length = items.length := by
  obtain ⟨chunks, rfl, hout⟩ := h
  suffices heq : chunks = outs by rw [List.length_map, heq]
  induction hout with
  | nil => rfl
  | cons hc _ ih => simp only [envelope, Except.ok.injEq] at hc; rw [hc, ih]

end Batcher

namespace Run

variable {σ : Type} [GraphStore σ]

/-- `r'` is `r` but for its world and the counts of what was committed: the settings, the count
of records processed and the reports are as they were. -/
def Quiet (r r' : Run σ) : Prop :=
  r'.conv.config = r.conv.config ∧ r'.conv.counters.processed = r.conv.counters.processed ∧
    r'.progress = r.progress

omit [GraphStore σ] in
theorem Quiet.refl (r : Run σ) : Quiet r r := ⟨rfl, rfl, rfl⟩

theorem quiet_applyRules {r r' : Run σ} {ph : Phase} {rec : Record}
    {res : Except WorkerEnd (Record × Fragment)} (ha : r.applyRules ph rec = (r', res)) : Quiet r r' := by
  unfold applyRules at ha
  split at ha
  split at ha <;> cases ha <;> exact Quiet.refl _

end Run

namespace Pool

variable {σ : Type} [GraphStore σ]

section Reading

variable (r₀ : Run σ) (ph : Phase) (hint : Option Nat) (b₀ : Batcher)

/-- What a phase started from `r₀` over `b₀` has read, `k` records processed: its settings are
as they were, the count has grown by `k` with one report for each; and while every worker is
normal, the batches handed out open to the records counted and those the workers inside them
still have to process. -/
structure Reading (p : Pool σ) (k : Nat) : Prop where
  phase_eq : p.phase = ph
  hint_eq : p.totalHint = hint
  mode_eq : p.batcher.mode = b₀.mode
  config : p.run.conv.config = r₀.conv.config
  processed : p.run.conv.counters.processed = r₀.conv.counters.processed + k
  progress : p.run.progress = (Progress.ticks ph hint r₀.conv.counters.processed k).reverse ++ r₀.progress
  read : (∀ w ∈ p.workers, w.Normal) → ∃ outs, Batcher.Handed b₀.mode b₀.feed p.batcher outs ∧
    k + (p.workers.map fun w => w.todo.length).sum = outs.flatten.length

variable {r₀ ph hint b₀} {p : Pool σ} {k : Nat} {i : Nat} {w : Worker}

omit [GraphStore σ] in
/-- **One worker's move in the reading.** Worker `i` goes from `w` to `w'`, the run to `r` with
`k'` records processed, and the batcher to `b`: what the batches handed out open to grows by the
records counted and those the worker took on. -/
theorem Reading.update (h : Reading r₀ ph hint b₀ p k) (hw : p.workers[i]? = some w)
    {r : Run σ} {b : Batcher} {w' : Worker} (k' : Nat) (hconfig : r.conv.config = p.run.conv.config)
    (hprocessed : r.conv.counters.processed = r₀.conv.counters.processed + k')
    (hprogress : r.progress = (Progress.ticks ph hint r₀.conv.counters.processed k').reverse ++ r₀.progress)
    (hmode : b.mode = p.batcher.mode) (hnormal : w'.Normal → w.Normal)
    (hread : w'.Normal → ∀ outs, Batcher.Handed b₀.mode b₀.feed p.batcher outs →
      ∃ outs', Batcher.Handed b₀.mode b₀.feed b outs' ∧
        k' + w'.todo.length + outs.flatten.length = k + w.todo.length + outs'.flatten.length) :
    Reading r₀ ph hint b₀ { p with run := r, batcher := b, workers := p.workers.set i w' } k' where
  phase_eq := h.phase_eq
  hint_eq := h.hint_eq
  mode_eq := hmode.trans h.mode_eq
  config := hconfig.trans h.config
  processed := hprocessed
  progress := hprogress
  read hall := by
    have hw' : w' ∈ p.workers.set i w' :=
      List.mem_of_getElem? (List.getElem?_set_self (List.getElem?_eq_some_iff.mp hw).1)
    obtain ⟨outs, hh, hk⟩ := h.read (List.forall_of_forall_set hw hnormal hall)
    obtain ⟨outs', hh', hk'⟩ := hread (hall w' hw') outs hh
    have hsum := sum_map_set (fun v : Worker => v.todo.length) w' hw
    exact ⟨outs', hh', by dsimp only at hsum ⊢; omega⟩

omit [GraphStore σ] in
theorem Reading.quiet (h : Reading r₀ ph hint b₀ p k) (hw : p.workers[i]? = some w)
    {r : Run σ} {b : Batcher} {w' : Worker} (hr : Run.Quiet p.run r) (hmode : b.mode = p.batcher.mode)
    (hnormal : w'.Normal → w.Normal)
    (hread : w'.Normal → ∀ outs, Batcher.Handed b₀.mode b₀.feed p.batcher outs →
      ∃ outs', Batcher.Handed b₀.mode b₀.feed b outs' ∧
        w'.todo.length + outs.flatten.length = w.todo.length + outs'.flatten.length) :
    Reading r₀ ph hint b₀ { p with run := r, batcher := b, workers := p.workers.set i w' } k :=
  h.update hw k hr.1 (hr.2.1.trans h.processed) (hr.2.2.trans h.progress) hmode hnormal fun hn outs hh => by
    obtain ⟨outs', hh', heq⟩ := hread hn outs hh
    exact ⟨outs', hh', by omega⟩

omit [GraphStore σ] in
theorem Reading.keep (h : Reading r₀ ph hint b₀ p k) (hw : p.workers[i]? = some w)
    {r : Run σ} {w' : Worker} (hr : Run.Quiet p.run r) (hnormal : w'.Normal → w.Normal)
    (htodo : w'.todo = w.todo) :
    Reading r₀ ph hint b₀ { p with run := r, batcher := p.batcher, workers := p.workers.set i w' } k :=
  h.quiet hw hr rfl hnormal fun _ outs hh => ⟨outs, hh, by rw [htodo]⟩

omit [GraphStore σ] in
theorem Reading.drop (h : Reading r₀ ph hint b₀ p k) (hw : p.workers[i]? = some w)
    {r : Run σ} {b : Batcher} (hr : Run.Quiet p.run r) (hmode : b.mode = p.batcher.mode)
    {e : WorkerEnd} (he : e ≠ .done) :
    Reading r₀ ph hint b₀ { p with run := r, batcher := b, workers := p.workers.set i { w with at_ := .ended e } } k :=
  have hab : ¬ ({ w with at_ := .ended e } : Worker).Normal := fun hn => he (hn e (.inl rfl))
  h.quiet hw hr hmode (fun hn => absurd hn hab) (fun hn => absurd hn hab)

omit [GraphStore σ] in
theorem Reading.tick (h : Reading r₀ ph hint b₀ p k) (hw : p.workers[i]? = some w)
    {r : Run σ} {w' : Worker} (hr : Run.Quiet p.run r) (hnormal : w'.Normal → w.Normal)
    (htodo : w'.todo.length + 1 = w.todo.length) :
    Reading r₀ ph hint b₀
      { p with run := r.tick p.phase p.totalHint, batcher := p.batcher, workers := p.workers.set i w' } (k + 1) := by
  refine h.update hw (k + 1) hr.1 ?_ ?_ rfl hnormal fun _ outs hh => ⟨outs, hh, by omega⟩
  · simp [Run.tick, hr.2.1, h.processed, Nat.add_assoc]
  · simp [Run.tick, hr.2.1, hr.2.2, h.progress, h.processed, h.phase_eq, h.hint_eq, Progress.ticks_succ,
      Nat.add_assoc]

omit [GraphStore σ] in
theorem Reading.congr {q : Pool σ} (h : Reading r₀ ph hint b₀ p k) (hr : Run.Quiet p.run q.run)
    (hphase : q.phase = p.phase) (hhint : q.totalHint = p.totalHint) (hb : q.batcher = p.batcher)
    (hws : q.workers = p.workers) : Reading r₀ ph hint b₀ q k where
  phase_eq := hphase.trans h.phase_eq
  hint_eq := hhint.trans h.hint_eq
  mode_eq := hb ▸ h.mode_eq
  config := hr.1.trans h.config
  processed := hr.2.1.trans h.processed
  progress := hr.2.2.trans h.progress
  read := hb ▸ hws ▸ h.read

theorem Reading.step (h : Reading r₀ ph hint b₀ p k) (hw : p.workers[i]? = some w) :
    ∃ k', Reading r₀ ph hint b₀ (p.workerStep i w) k' := by
  obtain ⟨r, b, w', ha, heq⟩ := workerStep_advances hw
  rw [heq]
  -- a worker that is still running is normal, whatever it becomes
  have hrun : w.running = true → w'.Normal → w.Normal := fun hrun _ => Worker.normal_of_running hrun
  cases ha with
  | stopAtTop => exact ⟨k, h.drop hw (.refl _) rfl (by simp)⟩
  | sourceFault _ _ hn => exact ⟨k, h.drop hw (.refl _) (Batcher.next_keeps hn).1 (by simp)⟩
  | drained hat _ hn =>
    refine ⟨k, h.quiet hw (.refl _) (Batcher.next_keeps hn).1
      (hrun (by simp [Worker.running, hat])) fun _ outs hh => ⟨outs, hh.next_none hn, ?_⟩⟩
    split <;> simp [Worker.todo, hat]
  | openFault _ _ hn => exact ⟨k, h.drop hw (.refl _) (Batcher.next_keeps hn).1 (by simp)⟩
  | take hat _ hn hr =>
    refine ⟨k, h.quiet hw (.refl _) (Batcher.next_keeps hn).1 (hrun (by simp [Worker.running, hat]))
      fun _ outs hh => ⟨_, hh.next_some h.mode_eq hn hr, by simp [Worker.todo, hat, Nat.add_comm]⟩⟩
  | handBack hat =>
    refine ⟨k, h.quiet hw (.refl _) (by simp) (hrun (by simp [Worker.running, hat]))
      fun _ outs hh => ⟨outs, hh.retainProcessed _ _, ?_⟩⟩
    split <;> simp [Worker.todo, hat]
  | stopInBatch => exact ⟨k, h.drop hw (.refl _) rfl (by simp)⟩
  | apply hat _ _ ha =>
    exact ⟨k + 1, h.tick hw (Run.quiet_applyRules ha) (hrun (by simp [Worker.running, hat]))
      (by simp [Worker.todo, hat])⟩
  | ruleFault _ _ _ ha =>
    exact ⟨k, h.drop hw (Run.quiet_applyRules ha) rfl
      (WorkerEnd.ne_done_of_fault (Run.applyRules_error_fault ha))⟩
  | pass hat =>
    exact ⟨k + 1, h.tick hw (.refl _) (hrun (by simp [Worker.running, hat])) (by simp [Worker.todo, hat])⟩
  | wait | ended | joined => exact ⟨k, h.keep hw (.refl _) id rfl⟩
  | created hat =>
    refine ⟨k, h.keep hw (by exact ⟨rfl, rfl, rfl⟩) (hrun (by simp [Worker.running, hat])) ?_⟩
    unfold Commit.afterCreate
    split <;> simp [Worker.todo, hat]
  | merged hat | backOff hat | resume hat =>
    exact ⟨k, h.keep hw (by exact ⟨rfl, rfl, rfl⟩) (hrun (by simp [Worker.running, hat])) (by simp [Worker.todo, hat])⟩
  | gaveUp => exact ⟨k, h.drop hw (by exact ⟨rfl, rfl, rfl⟩) rfl (by simp)⟩
  | cutShort => exact ⟨k, h.drop hw (.refl _) rfl (by simp)⟩
  | close hat =>
    refine ⟨k, h.keep hw (by exact ⟨rfl, rfl, rfl⟩) (hrun (by simp [Worker.running, hat])) ?_⟩
    split <;> simp [Worker.todo, hat]

omit [GraphStore σ] in
@[simp] theorem receive_totalHint (p : Pool σ) (e : WorkerEnd) : (p.receive e).totalHint = p.totalHint := by
  rw [receive_eq]

theorem Reading.move (h : Reading r₀ ph hint b₀ p k) : ∀ m, ∃ k', Reading r₀ ph hint b₀ (p.move m) k' := by
  refine move_cases (P := fun q => ∃ k', Reading r₀ ph hint b₀ q k') ⟨k, h⟩ (fun _ _ hw => h.step hw)
    (fun i => ?_) (fun _ => ⟨k, h.congr (.refl _) rfl rfl rfl rfl⟩) ⟨k, h.congr ⟨rfl, rfl, rfl⟩ rfl rfl rfl rfl⟩
    fun _ => ⟨k, h.congr (.refl _) rfl rfl rfl rfl⟩
  rcases join_eq (p := p) (i := i) with heq | ⟨w, e, hw, hat, heq⟩
  · rw [heq]; exact ⟨k, h⟩
  -- the joined worker ends as the ended one did, with nothing left to process
  have hj := h.keep hw (.refl _)
    (fun hn e' he' => by rcases he' with he' | he' <;> rw [hat] at he' <;> cases he'; exact hn _ (.inr rfl))
    (show ({ w with at_ := .joined e } : Worker).todo = w.todo by simp [Worker.todo, hat])
  rw [heq]
  exact ⟨k, hj.congr (by simp [setWorker, Run.Quiet]) (by simp [setWorker]) (by simp [setWorker])
    (by simp [setWorker]) (by simp [setWorker])⟩

omit [GraphStore σ] in
theorem reading_start (n : Nat) (r : Run σ) (ph : Phase) (b : Batcher) (hint : Option Nat)
    (hb : b.exhausted = false) : Reading r ph hint b (start n r ph b hint) 0 where
  phase_eq := rfl
  hint_eq := rfl
  mode_eq := rfl
  config := rfl
  processed := rfl
  progress := by simp [start, Progress.ticks]
  read _ := ⟨[], Batcher.handed_self hb, by simp [start, Worker.todo]⟩

end Reading

omit [GraphStore σ] in
theorem outcome_of_ok {p : Pool σ} {r : Run σ} {b : Batcher} (h : p.outcome = (r, .ok b)) :
    r = p.run ∧ b = p.batcher := by
  unfold outcome at h
  split at h
  · cases h
  · split at h
    · cases h
    · exact ⟨(Prod.mk.inj h).1.symm, (Except.ok.inj (Prod.mk.inj h).2).symm⟩

/-- **What a phase reads.** With any number of workers and under any schedule, a phase over a
batcher that has not run dry, once every worker is joined and the phase has ended normally, has
read the whole feed, in batches opening to `outs`, and counted and reported each of their
records in turn, its settings unchanged. -/
theorem phase_reads {n : Nat} (hn : 0 < n) (r : Run σ) (ph : Phase) (b : Batcher) (hint : Option Nat)
    (ms : List Move) (hb : b.exhausted = false) (hfin : ((start n r ph b hint).play ms).finished = true)
    {r' : Run σ} {b' : Batcher} (hok : ((start n r ph b hint).play ms).outcome = (r', .ok b')) :
    ∃ outs, Batcher.Opens b.mode b.feed outs ∧ r'.conv.config = r.conv.config ∧
      r'.conv.counters.processed = r.conv.counters.processed + outs.flatten.length ∧
      r'.progress = (Progress.ticks ph hint r.conv.counters.processed outs.flatten.length).reverse ++ r.progress := by
  set q := (start n r ph b hint).play ms
  obtain ⟨k, h⟩ : ∃ k, Reading r ph hint b q k :=
    play_induction (P := fun q => ∃ k, Reading r ph hint b q k) (fun _ m ⟨_, h⟩ => h.move m) ms
      ⟨0, reading_start n r ph b hint hb⟩
  obtain ⟨-, hdone, hex, -⟩ := (phase_outcome hn r ph b hint ms hfin).ok b' (congrArg Prod.snd hok)
  obtain ⟨rfl, rfl⟩ := outcome_of_ok hok
  -- every worker was joined after ending normally, with nothing left to process
  have hnormal : ∀ w ∈ q.workers, w.Normal := fun w hw e he => by
    rcases he with he | he <;> rw [(hdone w hw).1] at he <;> cases he
    rfl
  have htodo : (q.workers.map fun w => w.todo.length).sum = 0 := by
    simp only [List.sum_eq_zero_iff, List.mem_map]
    rintro _ ⟨w, hw, rfl⟩
    simp [Worker.todo, (hdone w hw).1]
  obtain ⟨outs, hh, hk⟩ := h.read hnormal
  rw [htodo, Nat.add_zero] at hk
  exact ⟨outs, hh.opens hex, h.config, hk ▸ h.processed, hk ▸ h.progress⟩

end Pool

namespace Run

variable {σ : Type} [GraphStore σ]

/-- A way to run a phase: from a run, over a batcher, naming a total in its reports; on success,
the batcher after it. -/
abbrev PhaseRunner (σ : Type) := Run σ → Phase → Batcher → Option Nat → Run σ × Except ConvertError Batcher

section By

variable (φ : PhaseRunner σ)

/-- `relationshipPhase`, its phase run by `φ`. -/
def relationshipPhaseBy (r : Run σ) (totalHint : Option Nat) : Run σ × Except ConvertError Unit :=
  let r := { r with conv := { r.conv with state := .relationshipPhase } }
  let mode := r.conv.config.workerMode
  let (r, batcher) : Run σ × Except ConvertError Batcher := match r.conv.retained with
    | some bs => (r, .ok (Batcher.ofRetained bs mode))
    | none =>
      match openSource r with
      | (r, .ok items) => (r, .ok (Batcher.ofItems items mode false))
      | (r, .error e) => (r, .error e)
  match batcher with
  | .error e => (r, .error e)
  | .ok b =>
    match φ r .relationship b totalHint with
    | (r, .error e) => (r, .error e)
    | (r, .ok _) =>
      let r := { r with conv := { r.conv with retained := none } }
      (complete r .relationship, .ok ())

/-- The node phase of a run, unless skipped, run by `φ`: the phases it ran. -/
def nodeStageBy (r : Run σ) (skip : Bool) (totalHint : Option Nat) : Run σ × Except ConvertError (List Phase) :=
  if skip then (r, .ok [])
  else
    let r := { r with conv := { r.conv with state := .nodePhase, retained := none } }
    let retain := !(r.conv.rules.typeMask .relationship).isEmpty
    match openSource r with
    | (r, .error e) => (r, .error e)
    | (r, .ok items) =>
      match φ r .node (Batcher.ofItems items r.conv.config.workerMode retain) totalHint with
      | (r, .error e) => (r, .error e)
      | (r, .ok b) =>
        let r := if retain then { r with conv := { r.conv with retained := some b.takeRetained.1 } } else r
        (complete r .node, .ok [.node])

/-- The relationship phase of a run after the phases `ran`, unless skipped, run by `φ`. -/
def relStageBy (r : Run σ) (skip : Bool) (ran : List Phase) (totalHint : Option Nat) :
    Run σ × Except ConvertError (List Phase) :=
  if skip then (r, .ok ran)
  else match relationshipPhaseBy φ r totalHint with
    | (r, .ok _) => (r, .ok (ran ++ [.relationship]))
    | (r, .error e) => (r, .error e)

/-- `run`, its phases run by `φ`. -/
def runBy (r : Run σ) (o : RunOptions) : Run σ × Except ConvertError RunSummary :=
  let r := { r with conv := { r.conv with counters := {} } }
  if r.world.cancelled then ({ r with conv := { r.conv with state := .aborted } }, .error .cancelled)
  else
    let phaseCount := (if o.skipNodes then 0 else 1) + (if o.skipRelationships then 0 else 1)
    let totalHint := r.world.source.lenHint.map (· * phaseCount)
    match nodeStageBy φ r o.skipNodes totalHint with
    | (r, .error e) => (r, .error e)
    | (r, .ok ran) =>
      match relStageBy φ r o.skipRelationships ran totalHint with
      | (r, .error e) => (r, .error e)
      | (r, .ok ran) =>
        let r := { r with conv := { r.conv with state := .done } }
        (r, .ok { counters := r.conv.counters, phasesRun := ran })

/-- Every phase `φ` ends normally is the outcome of a pool of some number of workers over the
phase's batcher, under some schedule played until every worker is joined. -/
def Pooled : Prop :=
  ∀ r ph b hint r' b', φ r ph b hint = (r', .ok b') → ∃ n ms, 0 < n ∧
    ((Pool.start n r ph b hint).play ms).finished = true ∧
    ((Pool.start n r ph b hint).play ms).outcome = (r', .ok b')

end By

theorem run_eq_runBy (r : Run σ) (o : RunOptions) : run r o = runBy phase r o := rfl

omit [GraphStore σ] in
theorem Quiet.trans {r r' r'' : Run σ} (h : Quiet r r') (h' : Quiet r' r'') : Quiet r r'' :=
  ⟨h'.1.trans h.1, h'.2.1.trans h.2.1, h'.2.2.trans h.2.2⟩

omit [GraphStore σ] in
theorem quiet_complete (r : Run σ) (ph : Phase) : Quiet r (complete r ph) := by
  unfold complete
  split <;> exact Quiet.refl _

theorem quiet_openSource {r r' : Run σ} {res : Except ConvertError (List Item)} (h : openSource r = (r', res)) :
    Quiet r r' := by
  revert h
  unfold openSource
  dsimp only
  split <;> split <;> intro h <;> cases h <;> exact ⟨rfl, rfl, rfl⟩

theorem openSource_conv_snd (r : Run σ) (c : Converter) :
    (openSource { r with conv := c }).2 = (openSource r).2 := by
  unfold openSource
  dsimp only
  split <;> rename_i heq <;> simp [heq]

/-- The phases run from `r` to `r'` read `runs`, one entry per phase run with the records its
batches opened to: the settings are as they were, and the count grew by their number, with one
report for each, in turn. -/
structure Reads (hint : Option Nat) (r r' : Run σ) (runs : List (Phase × List (List Record))) : Prop where
  config : r'.conv.config = r.conv.config
  processed : r'.conv.counters.processed = r.conv.counters.processed + (runs.map fun x => x.2.flatten.length).sum
  progress : r'.progress = (Progress.ofRuns hint r.conv.counters.processed
    (runs.map fun x => (x.1, x.2.flatten.length))).reverse ++ r.progress

section Reads

variable {hint : Option Nat} {r r' r'' : Run σ} {runs runs' : List (Phase × List (List Record))}

omit [GraphStore σ] in
theorem Reads.of_quiet (h : Quiet r r') : Reads hint r r' [] :=
  ⟨h.1, by simp [h.2.1], by simp [h.2.2, Progress.ofRuns]⟩

omit [GraphStore σ] in
theorem Reads.quiet_left (hq : Quiet r r') (h : Reads hint r' r'' runs) : Reads hint r r'' runs :=
  ⟨h.config.trans hq.1, by rw [h.processed, hq.2.1], by rw [h.progress, hq.2.1, hq.2.2]⟩

omit [GraphStore σ] in
theorem Reads.quiet_right (h : Reads hint r r' runs) (hq : Quiet r' r'') : Reads hint r r'' runs :=
  ⟨hq.1.trans h.config, by rw [hq.2.1, h.processed], by rw [hq.2.2, h.progress]⟩

omit [GraphStore σ] in
theorem Reads.trans (h : Reads hint r r' runs) (h' : Reads hint r' r'' runs') : Reads hint r r'' (runs ++ runs') where
  config := h'.config.trans h.config
  processed := by simp [h'.processed, h.processed, Nat.add_assoc]
  progress := by
    rw [h'.progress, h.progress, h.processed, List.map_append, Progress.ofRuns_append, List.reverse_append,
      List.append_assoc]
    simp [Function.comp_def]

omit [GraphStore σ] in
/-- Phase runs read from a count of zero number their reports from one, one per record read, with
the phase that read it. If the total names `c` phase runs of the count `L` gives, and every phase
run read that many records, the total is the number of records read. -/
theorem Reads.numbered {L : Option Nat} {c : Nat} (h : Reads (L.map (· * c)) r r' runs)
    (h0 : r.conv.counters.processed = 0) (hlen : runs.length = c) :
    ∃ new : List Progress, r'.progress = new.reverse ++ r.progress ∧
      new.map (·.phase) = runs.flatMap (fun x => List.replicate x.2.flatten.length x.1) ∧
      new.map (·.seen) = List.range' 1 (runs.map fun x => x.2.flatten.length).sum ∧
      (∀ p ∈ new, p.totalHint = L.map (· * c)) ∧
      r'.conv.counters.processed = (runs.map fun x => x.2.flatten.length).sum ∧
      ∀ m, L = some m → (∀ x ∈ runs, x.2.flatten.length = m) →
        L.map (· * c) = some (runs.map fun x => x.2.flatten.length).sum := by
  refine ⟨_, h.progress, ?_, ?_, Progress.ofRuns_hint _ _ _, by rw [h.processed, h0, Nat.zero_add], ?_⟩
  · rw [Progress.ofRuns_phase, List.flatMap_map]
  · rw [Progress.ofRuns_seen, h0, List.map_map]
    rfl
  · rintro m rfl hm
    rw [List.map_congr_left hm, List.map_const', List.sum_replicate, hlen, smul_eq_mul, Nat.mul_comm]
    rfl

end Reads

section By

variable {φ : PhaseRunner σ}

theorem Pooled.reads (hφ : Pooled φ) {r r' : Run σ} {ph : Phase} {b b' : Batcher} {hint : Option Nat}
    (h : φ r ph b hint = (r', .ok b')) (hb : b.exhausted = false) :
    ∃ outs, Batcher.Opens b.mode b.feed outs ∧ Reads hint r r' [(ph, outs)] := by
  obtain ⟨n, ms, hn, hfin, hok⟩ := hφ _ _ _ _ _ _ h
  obtain ⟨outs, hopens, hconfig, hproc, hprog⟩ := Pool.phase_reads hn r ph b hint ms hb hfin hok
  exact ⟨outs, hopens, hconfig, by simp [hproc], by simp [hprog, Progress.ofRuns]⟩

omit [GraphStore σ] in
theorem complete_retained (r : Run σ) (ph : Phase) : (complete r ph).conv.retained = r.conv.retained := by
  unfold complete
  split <;> rfl

theorem length_of_processed_shared {rules : RuleSet} {ph : Phase} {chunks outs : List (List Record)}
    (h : List.Forall₂ (Pool.Processed σ rules ph .shared) chunks outs) : outs.flatten.length = chunks.flatten.length := by
  induction h with
  | nil => rfl
  | cons hc _ ih =>
    rw [Pool.processed_shared] at hc
    simp [ih, hc.length_eq]

/-- **The node stage.** Skipped, or a node phase that read, batch by batch, the pass it opened; in
shared mode, with relationship rules, it keeps batches that open to as many records as it read. -/
theorem nodeStageBy_reads (hφ : Pooled φ) {r r' : Run σ} {skip : Bool} {hint : Option Nat} {ran : List Phase}
    (h : nodeStageBy φ r skip hint = (r', .ok ran)) :
    (skip = true ∧ r' = r ∧ ran = []) ∨
    (skip = false ∧ ran = [.node] ∧ ∃ outs, Reads hint r r' [(.node, outs)] ∧
      (∃ items, (openSource r).2 = .ok items ∧ Batcher.Opens r.conv.config.workerMode (.stream items) outs) ∧
      ((r.conv.rules.typeMask .relationship).isEmpty = false → r.conv.config.workerMode = .shared →
        ∃ bs, r'.conv.retained = some bs ∧ ∀ outs', Batcher.Opens .shared (.replay bs) outs' →
          outs'.flatten.length = outs.flatten.length)) := by
  unfold nodeStageBy at h
  split at h
  next hs =>
    cases h
    exact .inl ⟨hs, rfl, rfl⟩
  next hs =>
  right
  dsimp only at h
  split at h
  next => cases h
  next r₁ items ho =>
  split at h
  next => cases h
  next r₂ b hp =>
  cases h
  have hq₁ : Quiet r r₁ := (show Quiet r { r with conv := { r.conv with state := .nodePhase, retained := none } }
    from ⟨rfl, rfl, rfl⟩).trans (quiet_openSource ho)
  obtain ⟨outs, hopens, hreads⟩ := hφ.reads hp rfl
  have hopens' : Batcher.Opens r.conv.config.workerMode (.stream items) outs := by
    simpa [Batcher.ofItems, hq₁.1] using hopens
  refine ⟨by simpa using hs, rfl, outs, ?_, ⟨items, ?_, hopens'⟩, fun hrel hmode => ?_⟩
  · refine (hreads.quiet_left hq₁).quiet_right (Quiet.trans ?_ (quiet_complete _ _))
    split <;> exact ⟨rfl, rfl, rfl⟩
  · rw [← openSource_conv_snd r, ho]
  -- the node phase kept, in order, what the rules left of each chunk it read
  obtain ⟨n, ms, hn, hfin, hok⟩ := hφ _ _ _ _ _ _ hp
  simp only [hq₁.1, hmode, hrel, Bool.not_false] at hfin hok
  obtain ⟨chunks, outs₀, hitems, -, hproc, -, -, hmap⟩ :=
    Pool.node_phase_keeps_batches hn r₁ items .shared hint ms hfin (congrArg Prod.snd hok)
  refine ⟨b.takeRetained.1, by simp [complete_retained, hrel], fun outs' hout' => ?_⟩
  have heq : outs' = outs₀ := by
    have hinj : Function.Injective (Except.ok : List Record → Except ConvertError (List Record)) :=
      fun _ _ h => Except.ok.inj h
    refine List.map_injective_iff.mpr hinj ?_
    rw [← hout', hmap]
    rfl
  rw [hmode] at hopens'
  rw [heq, length_of_processed_shared hproc, hopens'.length_of_shared, hitems, List.length_map]

/-- **The relationship stage.** Skipped, or a relationship phase that read the batches the
converter kept, if any, else a pass it opened. -/
theorem relStageBy_reads (hφ : Pooled φ) {r r' : Run σ} {skip : Bool} {ran ran' : List Phase}
    {hint : Option Nat} (h : relStageBy φ r skip ran hint = (r', .ok ran')) :
    (skip = true ∧ r' = r ∧ ran' = ran) ∨
    (skip = false ∧ ran' = ran ++ [.relationship] ∧ ∃ outs, Reads hint r r' [(.relationship, outs)] ∧
      (∀ bs, r.conv.retained = some bs → Batcher.Opens r.conv.config.workerMode (.replay bs) outs) ∧
      (r.conv.retained = none → ∃ items, (openSource r).2 = .ok items ∧
        Batcher.Opens r.conv.config.workerMode (.stream items) outs)) := by
  unfold relStageBy at h
  split at h
  next hs =>
    cases h
    exact .inl ⟨hs, rfl, rfl⟩
  next hs =>
  right
  split at h
  · rename_i r₁ u hrp
    cases h
    refine ⟨by simpa using hs, rfl, ?_⟩
    unfold relationshipPhaseBy at hrp
    dsimp only at hrp
    cases hret : r.conv.retained with
    | some bs =>
      simp only [hret] at hrp
      split at hrp
      · cases hrp
      rename_i r₂ b hp
      cases hrp
      obtain ⟨outs, hopens, hreads⟩ := hφ.reads hp rfl
      refine ⟨outs, (hreads.quiet_left (by exact ⟨rfl, rfl, rfl⟩)).quiet_right
        (Quiet.trans (by exact ⟨rfl, rfl, rfl⟩) (quiet_complete _ _)), fun bs' hbs => ?_, fun h => by cases h⟩
      cases hbs
      simpa [Batcher.ofRetained] using hopens
    | none =>
      simp only [hret] at hrp
      split at hrp
      · cases hrp
      rename_i b hb
      split at hb
      · rename_i r₁ items ho
        cases hb
        rw [ho] at hrp
        dsimp only at hrp
        split at hrp
        · cases hrp
        rename_i r₂ b hp
        cases hrp
        have hq₁ : Quiet r r₁ := Quiet.trans (by exact ⟨rfl, rfl, rfl⟩) (quiet_openSource ho)
        obtain ⟨outs, hopens, hreads⟩ := hφ.reads hp rfl
        refine ⟨outs, (hreads.quiet_left hq₁).quiet_right
          (Quiet.trans (by exact ⟨rfl, rfl, rfl⟩) (quiet_complete _ _)), (fun _ h => nomatch h), fun _ => ⟨items, ?_, ?_⟩⟩
        · rw [← openSource_conv_snd r, ho]
        · simpa [Batcher.ofItems, hq₁.1] using hopens
      · cases hb
  · cases h

/-- **Progress over a run.** Under any schedule in each phase, a run that succeeds has one phase
run per phase it ran, in order, each with the records its batches opened to: the node phase read
the pass it opened; after a skipped node phase the relationship phase replayed the kept batches, or
read a pass if none were kept; in shared mode with relationship rules every phase run read as many
records. The reports, one per record read with its phase, are numbered from one to the final count
and name the source's count times the phases not skipped: the last number if that count is exact. -/
theorem progress_numbers_records_read (φ : PhaseRunner σ) (hφ : Pooled φ) (r : Run σ) (o : RunOptions)
    {r' : Run σ} {s : RunSummary} (h : runBy φ r o = (r', .ok s)) :
    let mode := r.conv.config.workerMode
    let hint := r.world.source.lenHint.map
      (· * ((if o.skipNodes then 0 else 1) + (if o.skipRelationships then 0 else 1)))
    ∃ runs : List (Phase × List (List Record)), runs.map Prod.fst = s.phasesRun ∧
      (∀ outs, (Phase.node, outs) ∈ runs →
        ∃ items, (openSource r).2 = .ok items ∧ Batcher.Opens mode (.stream items) outs) ∧
      (o.skipNodes = true → ∀ outs, (Phase.relationship, outs) ∈ runs →
        (∀ bs, r.conv.retained = some bs → Batcher.Opens mode (.replay bs) outs) ∧
        (r.conv.retained = none → ∃ items, (openSource r).2 = .ok items ∧ Batcher.Opens mode (.stream items) outs)) ∧
      (mode = .shared → (r.conv.rules.typeMask .relationship).isEmpty = false →
        ∀ x ∈ runs, ∀ y ∈ runs, x.2.flatten.length = y.2.flatten.length) ∧
      ∃ new : List Progress, r'.progress = new.reverse ++ r.progress ∧
        new.map (·.phase) = runs.flatMap (fun x => List.replicate x.2.flatten.length x.1) ∧
        new.map (·.seen) = List.range' 1 (runs.map fun x => x.2.flatten.length).sum ∧
        (∀ p ∈ new, p.totalHint = hint) ∧
        s.counters.processed = (runs.map fun x => x.2.flatten.length).sum ∧
        ∀ m, r.world.source.lenHint = some m → (∀ x ∈ runs, x.2.flatten.length = m) →
          hint = some (runs.map fun x => x.2.flatten.length).sum := by
  intro mode hint
  unfold runBy at h
  dsimp only at h
  split at h
  · cases h
  split at h
  · cases h
  rename_i r₁ ran hn
  split at h
  · cases h
  rename_i r₂ ran' hr
  cases h
  -- the count starts from zero; each stage adds the phase it ran, if any
  rcases nodeStageBy_reads hφ hn with ⟨hs, rfl, rfl⟩ | ⟨hs, rfl, o₁, hR₁, hpin₁, hkeep⟩ <;>
    rcases relStageBy_reads hφ hr with ⟨hs', rfl, rfl⟩ | ⟨hs', rfl, o₂, hR₂, hrep, hreread⟩
  · exact ⟨[], rfl, by simp, by simp, by simp, (Reads.of_quiet ⟨rfl, rfl, rfl⟩).numbered rfl (by simp [hs, hs'])⟩
  · refine ⟨[(.relationship, o₂)], rfl, by simp, fun _ outs hx => ?_, by simp,
      (hR₂.quiet_right ⟨rfl, rfl, rfl⟩).numbered rfl (by simp [hs, hs'])⟩
    obtain rfl : outs = o₂ := by simpa using hx
    exact ⟨hrep, fun hnone => by simpa [openSource_conv_snd] using hreread hnone⟩
  · refine ⟨[(.node, o₁)], rfl, fun outs hx => ?_, by simp [hs], by simp,
      (hR₁.quiet_right ⟨rfl, rfl, rfl⟩).numbered rfl (by simp [hs, hs'])⟩
    obtain rfl : outs = o₁ := by simpa using hx
    simpa [openSource_conv_snd] using hpin₁
  · refine ⟨[(.node, o₁), (.relationship, o₂)], rfl, fun outs hx => ?_, by simp [hs], fun hmode hrel => ?_,
      ((hR₁.trans hR₂).quiet_right ⟨rfl, rfl, rfl⟩).numbered rfl (by simp [hs, hs'])⟩
    · obtain rfl : outs = o₁ := by simpa using hx
      simpa [openSource_conv_snd] using hpin₁
    -- the relationship phase replays what the node phase kept, which is as long as what it read
    obtain ⟨bs, hbs, hlen⟩ := hkeep hrel hmode
    have hmode' : r.conv.config.workerMode = .shared := hmode
    have hrep' := hrep bs hbs
    rw [hR₁.config] at hrep'
    have h₂ := hlen o₂ (by simpa [hmode'] using hrep')
    intro x hx y hy
    simp only [List.mem_cons, List.not_mem_nil, or_false] at hx hy
    rcases hx with rfl | rfl <;> rcases hy with rfl | rfl <;> dsimp only <;> omega

end By

/-- One worker running each phase under the schedule `Pool.solo`; a phase it leaves unfinished
ends as cancelled. -/
def soloRunner : PhaseRunner Store := fun r ph b hint =>
  let q := (Pool.start 1 r ph b hint).play Pool.solo
  if q.finished then q.outcome else (q.run, .error .cancelled)

theorem soloRunner_pooled : Pooled soloRunner := by
  intro r ph b hint r' b' h
  refine ⟨1, Pool.solo, Nat.one_pos, ?_⟩
  simp only [soloRunner] at h
  split at h
  next hfin => exact ⟨hfin, h⟩
  next => exact absurd (congrArg Prod.snd h) (by simp)

/-- Two records no rule maps, run through both phases by one worker: four reports, numbered one to
four, each naming four records in all. -/
theorem unmapped_run_reports_in_turn :
    ∃ s, runBy soloRunner Pool.unmappedPlan.run {} = ((runBy soloRunner Pool.unmappedPlan.run {}).1, .ok s) ∧
      s.phasesRun = [.node, .relationship] ∧ ∃ new : List Progress,
        (runBy soloRunner Pool.unmappedPlan.run {}).1.progress = new.reverse ∧ new.map (·.seen) = [1, 2, 3, 4] ∧
        ∀ p ∈ new, p.totalHint = some 4 := by
  have hok : ((runBy soloRunner Pool.unmappedPlan.run {}).2.toOption.map fun s => (s.phasesRun, s.counters.processed))
      = some ([.node, .relationship], 4) := by decide +kernel
  generalize hrun : runBy soloRunner Pool.unmappedPlan.run {} = x at hok ⊢
  obtain ⟨r', _ | s⟩ := x
  · simp [Except.toOption] at hok
  simp only [Except.toOption, Option.map_some, Option.some.injEq, Prod.mk.injEq] at hok
  obtain ⟨runs, -, -, -, -, new, hprog, -, hseen, hhint, hcount, -⟩ :=
    progress_numbers_records_read soloRunner soloRunner_pooled Pool.unmappedPlan.run {} hrun
  rw [← hcount, hok.2] at hseen
  exact ⟨s, rfl, hok.1, new, by simpa [Pool.unmappedPlan] using hprog, hseen,
    fun p hp => (hhint p hp).trans (by decide)⟩

end Run

end GraphIngest
