import GraphIngest.Convert.Pool
import GraphIngest.Proofs.Convert.Serialized
import GraphIngest.Proofs.Rules.Token

/-! # What one move of a phase can do

`workerStep_advances` says once what a worker's step can do: it is one of the transitions of
`Pool.Advances`, each with the guards under which it is taken, and it changes nothing of the pool
but the run, the batcher and that one worker. The invariants of a phase are then proved one
transition at a time, and carried over a whole schedule by `play_induction`.
-/

namespace GraphIngest

open Run (WorkerEnd)

namespace Batcher

@[simp] theorem retainProcessed_exhausted (b : Batcher) (i : Nat) (rs : List Record) :
    (b.retainProcessed i rs).exhausted = b.exhausted := by
  unfold Batcher.retainProcessed; split <;> rfl

theorem next_exhausted {b b' : Batcher} {g : Nat} {res : Except ConvertError (Option Batch)}
    (hn : b.next g = (res, b')) (h : b.exhausted = true) : b'.exhausted = true := by
  simp only [next, h, if_true] at hn
  cases hn
  exact h

theorem next_none_exhausted {b b' : Batcher} {g : Nat} (hn : b.next g = (.ok none, b')) :
    b'.exhausted = true := by
  unfold next at hn
  split at hn
  · cases hn; assumption
  · split at hn
    · split at hn <;> cases hn; rfl
    · split at hn <;> cases hn; rfl

theorem next_nextIndex {b b' : Batcher} {g : Nat} {res : Except ConvertError (Option Batch)}
    (hn : b.next g = (res, b')) :
    b'.nextIndex = b.nextIndex + (match res with | .ok (some _) => 1 | _ => 0) := by
  unfold next at hn
  split at hn
  · cases hn; rfl
  · split at hn
    · split at hn <;> cases hn <;> rfl
    · split at hn <;> cases hn <;> rfl

theorem next_error_not_cancelled {b b' : Batcher} {g : Nat} {e : ConvertError}
    (hn : b.next g = (.error e, b')) : e.isCancelled = false := by
  unfold next at hn
  split at hn
  · cases hn
  · split at hn
    · split at hn <;> cases hn
    · split at hn <;> cases hn; rfl

end Batcher

theorem Batch.records_error_not_cancelled {x : Batch} {e : ConvertError} (h : x.records = .error e) :
    e.isCancelled = false := by
  unfold Batch.records at h
  split at h
  · cases h
  · exact Parcel.unwrap_error_not_cancelled h

namespace Pool

variable {σ : Type} [GraphStore σ]

/-- The transitions of worker `i` in state `w`: the run, the batcher and the worker they leave,
under the guards that choose them. -/
inductive Advances (p : Pool σ) (i : Nat) (w : Worker) : Run σ → Batcher → Worker → Prop
  | stopAtTop (hat : w.at_ = .top) (hs : p.shouldStop = true) :
      Advances p i w p.run p.batcher { w with at_ := .ended .stopped }
  | sourceFault {e b} (hat : w.at_ = .top) (hs : p.shouldStop = false)
      (hn : p.batcher.next p.groupSize = (.error e, b)) :
      Advances p i w p.run b { w with at_ := .ended (.failed e) }
  | drained {b} (hat : w.at_ = .top) (hs : p.shouldStop = false)
      (hn : p.batcher.next p.groupSize = (.ok none, b)) :
      Advances p i w p.run b
        (if w.buffer.isEmpty then { w with at_ := .ended .done } else w.startCommit true)
  | openFault {x e b} (hat : w.at_ = .top) (hs : p.shouldStop = false)
      (hn : p.batcher.next p.groupSize = (.ok (some x), b)) (hr : x.records = .error e) :
      Advances p i w p.run b { w with at_ := .ended (.failed e) }
  | take {x rs b} (hat : w.at_ = .top) (hs : p.shouldStop = false)
      (hn : p.batcher.next p.groupSize = (.ok (some x), b)) (hr : x.records = .ok rs) :
      Advances p i w p.run b { w with at_ := .batch x.index rs [] }
  | handBack {index done} (hat : w.at_ = .batch index [] done) :
      Advances p i w p.run (p.batcher.retainProcessed index done.reverse)
        (if (w.buffer.addRecords done.length).size ≥ p.flushSize then
          { w with buffer := w.buffer.addRecords done.length, batches := w.batches + 1 }.startCommit false
        else { w with buffer := w.buffer.addRecords done.length, batches := w.batches + 1, at_ := .top })
  | stopInBatch {index rec todo done} (hat : w.at_ = .batch index (rec :: todo) done)
      (hs : p.shouldStop = true) :
      Advances p i w p.run p.batcher { w with at_ := .ended .stopped }
  | apply {index rec todo done r rec' f} (hat : w.at_ = .batch index (rec :: todo) done)
      (hs : p.shouldStop = false) (hm : p.mask.contains rec.recordType = true)
      (ha : p.run.applyRules p.phase rec = (r, .ok (rec', f))) :
      Advances p i w (r.tick p.phase p.totalHint) p.batcher
        { w with buffer := w.buffer.add f, at_ := .batch index todo (rec' :: done) }
  | ruleFault {index rec todo done r e} (hat : w.at_ = .batch index (rec :: todo) done)
      (hs : p.shouldStop = false) (hm : p.mask.contains rec.recordType = true)
      (ha : p.run.applyRules p.phase rec = (r, .error e)) :
      Advances p i w r p.batcher { w with at_ := .ended e }
  | pass {index rec todo done} (hat : w.at_ = .batch index (rec :: todo) done)
      (hs : p.shouldStop = false) (hm : p.mask.contains rec.recordType = false) :
      Advances p i w (p.run.tick p.phase p.totalHint) p.batcher
        { w with at_ := .batch index todo (rec :: done) }
  | wait {c k a} (hat : w.at_ = .write c k a)
      (hl : (c.locked k && decide (a ≤ 1) && !p.lockFree i) = true) :
      Advances p i w p.run p.batcher w
  | created {c a world f} (hat : w.at_ = .write c .create a)
      (hl : (c.locked .create && decide (a ≤ 1) && !p.lockFree i) = false)
      (hw : p.run.world.write .create c.create = (world, .ok f)) :
      Advances p i w
        ({ p.run with world }.countCommitted c.uncounted c.create.nodes.length c.create.rels.length)
        p.batcher { w with at_ := { c with uncounted := 0 }.afterCreate }
  | merged {c a world f} (hat : w.at_ = .write c .merge a)
      (hl : (c.locked .merge && decide (a ≤ 1) && !p.lockFree i) = false)
      (hw : p.run.world.write .merge c.merge = (world, .ok f)) :
      Advances p i w { p.run with world } p.batcher { w with at_ := .close c }
  | gaveUp {c k a world e} (hat : w.at_ = .write c k a)
      (hl : (c.locked k && decide (a ≤ 1) && !p.lockFree i) = false)
      (hw : p.run.world.write k (c.part k) = (world, .error e)) (ha : a ≥ p.attempts) :
      Advances p i w { p.run with world } p.batcher
        { w with at_ := .ended (.failed (.store p.phase a e)) }
  | backOff {c k a world e} (hat : w.at_ = .write c k a)
      (hl : (c.locked k && decide (a ≤ 1) && !p.lockFree i) = false)
      (hw : p.run.world.write k (c.part k) = (world, .error e)) (ha : a < p.attempts) :
      Advances p i w { p.run with world } p.batcher { w with at_ := .pause c k (a + 1) }
  | cutShort {c k a} (hat : w.at_ = .pause c k a) (hs : p.stop = true) :
      Advances p i w p.run p.batcher { w with at_ := .ended (.failed .cancelled) }
  | resume {c k a} (hat : w.at_ = .pause c k a) (hs : p.stop = false) :
      Advances p i w p.run p.batcher { w with at_ := .write c k a }
  | close {c} (hat : w.at_ = .close c) :
      Advances p i w (p.run.countCommitted c.uncounted c.merge.nodes.length c.merge.rels.length)
        p.batcher { w with at_ := if c.last then .ended .done else .top }
  | ended {e} (hat : w.at_ = .ended e) : Advances p i w p.run p.batcher w
  | joined {e} (hat : w.at_ = .joined e) : Advances p i w p.run p.batcher w

variable {p : Pool σ} {i : Nat} {w : Worker}

omit [GraphStore σ] in
/-- A pool is its own update that puts back the worker it holds. -/
theorem eq_set_self (hw : p.workers[i]? = some w) :
    p = { p with run := p.run, batcher := p.batcher, workers := p.workers.set i w } := by
  obtain ⟨hi, rfl⟩ := List.getElem?_eq_some_iff.mp hw
  rw [List.set_getElem_self hi]

theorem workerStep_advances (hw : p.workers[i]? = some w) :
    ∃ r b w', p.Advances i w r b w' ∧
      p.workerStep i w = { p with run := r, batcher := b, workers := p.workers.set i w' } := by
  -- the transitions that leave the worker as it is rewrite `p` to its own update
  have hself := eq_set_self hw
  unfold workerStep
  split
  next hat =>
    split
    next hs => exact ⟨_, _, _, .stopAtTop hat hs, rfl⟩
    next hs =>
      have hs : p.shouldStop = false := by simpa using hs
      split
      next e b hn => exact ⟨_, _, _, .sourceFault hat hs hn, rfl⟩
      next b hn => exact ⟨_, _, _, .drained hat hs hn, rfl⟩
      next x b hn =>
        split
        next e hr => exact ⟨_, _, _, .openFault hat hs hn hr, rfl⟩
        next rs hr => exact ⟨_, _, _, .take hat hs hn hr, rfl⟩
  next index done hat => exact ⟨_, _, _, .handBack hat, rfl⟩
  next index rec todo done hat =>
    split
    next hs => exact ⟨_, _, _, .stopInBatch hat hs, rfl⟩
    next hs =>
      have hs : p.shouldStop = false := by simpa using hs
      split
      next hm =>
        split
        next r rec' f ha => exact ⟨_, _, _, .apply hat hs hm ha, rfl⟩
        next r e ha => exact ⟨_, _, _, .ruleFault hat hs hm ha, rfl⟩
      next hm =>
        have hm : p.mask.contains rec.recordType = false := by simpa using hm
        exact ⟨_, _, _, .pass hat hs hm, rfl⟩
  next c k a hat =>
    split
    next hl => exact ⟨_, _, _, .wait hat hl, hself⟩
    next hl =>
      have hl : (c.locked k && decide (a ≤ 1) && !p.lockFree i) = false := by simpa using hl
      rcases hwr : p.run.world.write k (c.part k) with ⟨world, res⟩
      cases res with
      | ok f =>
        cases k with
        | create => exact ⟨_, _, _, .created hat hl hwr, rfl⟩
        | merge => exact ⟨_, _, _, .merged hat hl hwr, rfl⟩
      | error e =>
        dsimp only
        split
        next ha => exact ⟨_, _, _, .gaveUp hat hl hwr ha, rfl⟩
        next ha => exact ⟨_, _, _, .backOff hat hl hwr (Nat.lt_of_not_le ha), rfl⟩
  next c k a hat =>
    split
    next hs => exact ⟨_, _, _, .cutShort hat hs, rfl⟩
    next hs =>
      have hs : p.stop = false := by simpa using hs
      exact ⟨_, _, _, .resume hat hs, rfl⟩
  next c hat => exact ⟨_, _, _, .close hat, rfl⟩
  next e hat => exact ⟨_, _, _, .ended hat, hself⟩
  next e hat => exact ⟨_, _, _, .joined hat, hself⟩

theorem play_induction {P : Pool σ → Prop} (hmove : ∀ q m, P q → P (q.move m)) :
    ∀ {q : Pool σ} (ms : List Move), P q → P (q.play ms)
  | _, [], h => h
  | _, m :: ms, h => play_induction hmove ms (hmove _ m h)

theorem move_step (hw : p.workers[i]? = some w) : p.move (.step i) = p.workerStep i w := by
  simp [move, hw]

/-- **What a move can do.** A property that the pool has, and that each worker's step from it,
each join, the orchestrator's stop on seeing the token tripped, a cancellation and a resize bring
about, holds after any move. -/
theorem move_cases {P : Pool σ → Prop} (hp : P p)
    (hstep : ∀ i w, p.workers[i]? = some w → P (p.workerStep i w)) (hjoin : ∀ i, P (p.join i))
    (hnotice : p.run.world.cancelled = true → P { p with cancelSeen := true, stop := true })
    (hcancel : P { p with run := { p.run with world := { p.run.world with cancelled := true } } })
    (hresize : ∀ size, P { p with flushSize := max size 1 }) : ∀ m, P (p.move m)
  | .step i => by
    dsimp only [move]
    split
    next w hw => exact hstep i w hw
    next => exact hp
  | .join i => hjoin i
  | .notice => by
    dsimp only [move]
    split
    next hc => exact hnotice (by simp_all)
    next => exact hp
  | .cancel => hcancel
  | .resize size => by
    dsimp only [move]
    split
    · exact hresize size
    · exact hp

/-! ## What a step can change -/

omit [GraphStore σ] in
@[simp] theorem tick_world (r : Run σ) (phase : Phase) (totalHint : Option Nat) :
    (r.tick phase totalHint).world = r.world := rfl

omit [GraphStore σ] in
@[simp] theorem countCommitted_world (r : Run σ) (records nodes rels : Nat) :
    (r.countCommitted records nodes rels).world = r.world := rfl

theorem World.write_cancelled_eq (wd : World σ) (k : WriteKind) (f : Fragment) :
    (wd.write k f).1.cancelled = (wd.cancelled || wd.plan.cancelAt.contains (wd.writes + 1)) := by
  cases k <;> simp only [World.write] <;> split <;> rfl

theorem World.write_cancelled {wd wd' : World σ} {k : WriteKind} {f : Fragment}
    {res : Except StorageError Fragment} (hw : wd.write k f = (wd', res)) (h : wd.cancelled = true) :
    wd'.cancelled = true := by
  have := World.write_cancelled_eq wd k f
  rw [hw] at this
  simpa [h] using this

theorem Run.applyRules_world (r : Run σ) (phase : Phase) (rec : Record) :
    (r.applyRules phase rec).1.world = (r.world.apply r.conv.rules phase rec).1 := by
  unfold Run.applyRules
  split
  next heq =>
    rw [heq]
    split <;> rfl

theorem Run.applyRules_cancelled {r r' : Run σ} {phase : Phase} {rec : Record}
    {res : Except WorkerEnd (Record × Fragment)} (ha : r.applyRules phase rec = (r', res))
    (h : r.world.cancelled = true) : r'.world.cancelled = true := by
  have happly := World.apply_cancelled r.conv.rules phase rec h
  rwa [← Run.applyRules_world, ha] at happly

theorem Run.applyRules_error_fault {r r' : Run σ} {phase : Phase} {rec : Record} {e : WorkerEnd}
    (ha : r.applyRules phase rec = (r', .error e)) : (e.fault false).isSome = true := by
  unfold Run.applyRules at ha
  split at ha
  split at ha <;> cases ha <;> rfl

theorem Advances.cancelled {r b w'} (ha : p.Advances i w r b w') (h : p.run.world.cancelled = true) :
    r.world.cancelled = true := by
  cases ha with
  | apply _ _ _ happ => simpa using Run.applyRules_cancelled happ h
  | ruleFault _ _ _ happ => exact Run.applyRules_cancelled happ h
  | created _ _ hw => simpa using World.write_cancelled hw h
  | merged _ _ hw => exact World.write_cancelled hw h
  | gaveUp _ _ hw => exact World.write_cancelled hw h
  | backOff _ _ hw => exact World.write_cancelled hw h
  | _ => simpa using h

theorem Run.applyRules_conv {r r' : Run σ} {phase : Phase} {rec : Record}
    {res : Except WorkerEnd (Record × Fragment)} (ha : r.applyRules phase rec = (r', res)) :
    r'.conv = r.conv := by
  unfold Run.applyRules at ha
  split at ha
  split at ha <;> cases ha <;> rfl

theorem Advances.completed {r b w'} (ha : p.Advances i w r b w') :
    r.conv.completed = p.run.conv.completed := by
  cases ha with
  | apply _ _ _ happ | ruleFault _ _ _ happ => simp [Run.tick, Run.applyRules_conv happ]
  | _ => rfl

theorem Advances.ended_cases {r b w' e} (ha : p.Advances i w r b w') (he : w'.at_ = .ended e) :
    (w.at_ = .ended e ∧ w' = w) ∨ e = .done ∨ (e.fault false).isSome = true ∨ p.shouldStop = true := by
  cases ha with
  | stopAtTop _ hs => exact .inr (.inr (.inr hs))
  | sourceFault _ _ hn =>
    cases he
    simp [WorkerEnd.fault, Batcher.next_error_not_cancelled hn]
  | drained =>
    split at he
    · cases he; exact .inr (.inl rfl)
    · simp only [Worker.startCommit, Commit.first, Commit.afterCreate] at he
      split at he <;> (try split at he) <;> cases he
  | openFault _ _ _ hr =>
    cases he
    simp [WorkerEnd.fault, Batch.records_error_not_cancelled hr]
  | take => cases he
  | handBack =>
    split at he
    · simp only [Worker.startCommit, Commit.first, Commit.afterCreate] at he
      split at he <;> (try split at he) <;> cases he
    · cases he
  | stopInBatch _ hs => exact .inr (.inr (.inr hs))
  | apply => cases he
  | ruleFault _ _ _ happ =>
    cases he
    exact .inr (.inr (.inl (Run.applyRules_error_fault happ)))
  | pass => cases he
  | wait hat => rw [he] at hat; cases hat
  | created =>
    simp only [Commit.afterCreate] at he
    split at he <;> cases he
  | merged => cases he
  | gaveUp =>
    cases he
    simp [WorkerEnd.fault, ConvertError.isCancelled]
  | backOff => cases he
  | cutShort _ hs =>
    cases he
    simp [shouldStop, hs]
  | resume => cases he
  | close =>
    split at he
    · cases he; exact .inr (.inl rfl)
    · cases he
  | ended => exact .inl ⟨he, rfl⟩
  | joined hat => rw [he] at hat; cases hat

theorem Advances.joined_iff {r b w' e} (ha : p.Advances i w r b w') :
    w'.at_ = .joined e ↔ w.at_ = .joined e := by
  cases ha with
  | drained hat =>
    rw [hat]
    split
    · simp
    · simp only [Worker.startCommit, Commit.first, Commit.afterCreate]
      split <;> (try split) <;> simp
  | handBack hat =>
    rw [hat]
    split
    · simp only [Worker.startCommit, Commit.first, Commit.afterCreate]
      split <;> (try split) <;> simp
    · simp
  | created hat =>
    rw [hat]
    simp only [Commit.afterCreate]
    split <;> simp
  | close hat =>
    rw [hat]
    split <;> simp
  | wait | ended | joined => rfl
  | _ => simp_all

section Receive

omit [GraphStore σ]

variable (p : Pool σ) (e : WorkerEnd)

/-- Receiving an end changes only what the orchestrator keeps of the ends: those received, the
stop flag and the first fault. -/
theorem receive_eq : p.receive e =
    { p with received := (p.receive e).received, stop := (p.receive e).stop,
             firstError := (p.receive e).firstError } := by
  unfold receive
  cases e <;> dsimp only <;> (repeat' split) <;> rfl

@[simp] theorem receive_received : (p.receive e).received = p.received ++ [e] := by
  unfold receive
  cases e <;> dsimp only <;> (repeat' split) <;> rfl

@[simp] theorem receive_firstError : (p.receive e).firstError = p.firstError.or (e.fault false) := by
  unfold receive
  cases e with
  | done | stopped => cases p.firstError <;> rfl
  | failed err =>
    cases hc : err.isCancelled <;> cases p.firstError <;> simp [hc, WorkerEnd.fault]
  | panicked m => cases p.firstError <;> simp [WorkerEnd.fault]

@[simp] theorem receive_run : (p.receive e).run = p.run := by
  rw [receive_eq]

@[simp] theorem receive_workers : (p.receive e).workers = p.workers := by
  rw [receive_eq]

@[simp] theorem receive_batcher : (p.receive e).batcher = p.batcher := by
  rw [receive_eq]

@[simp] theorem receive_phase : (p.receive e).phase = p.phase := by
  rw [receive_eq]

theorem receive_stop (h : (p.receive e).stop = true) :
    p.stop = true ∨ (∃ err, e = .failed err) ∨ ∃ m, e = .panicked m := by
  unfold receive at h
  cases e with
  | done | stopped => exact .inl h
  | failed err => exact .inr (.inl ⟨err, rfl⟩)
  | panicked m => exact .inr (.inr ⟨m, rfl⟩)

end Receive

omit [GraphStore σ] in
theorem join_eq {p : Pool σ} {i : Nat} :
    p.join i = p ∨ ∃ w e, p.workers[i]? = some w ∧ w.at_ = .ended e ∧
      p.join i = (p.setWorker i { w with at_ := .joined e }).receive e := by
  unfold join
  split
  next w hw =>
    split
    next e hat => exact .inr ⟨w, e, hw, hat, rfl⟩
    next => exact .inl rfl
  next => exact .inl rfl

theorem move_completed (p : Pool σ) : ∀ m, (p.move m).run.conv.completed = p.run.conv.completed := by
  refine move_cases (P := fun q => q.run.conv.completed = p.run.conv.completed) rfl (fun _ _ hw => ?_)
    (fun i => ?_) (fun _ => rfl) rfl fun _ => rfl
  · obtain ⟨r, b, w', ha, heq⟩ := workerStep_advances hw
    rw [heq]
    exact ha.completed
  · rcases join_eq (p := p) (i := i) with h | ⟨w, e, _, _, h⟩ <;> simp [h, setWorker]

theorem move_length (p : Pool σ) : ∀ m, (p.move m).workers.length = p.workers.length := by
  refine move_cases (P := fun q => q.workers.length = p.workers.length) rfl (fun _ _ hw => ?_)
    (fun i => ?_) (fun _ => rfl) rfl fun _ => rfl
  · obtain ⟨r, b, w', ha, heq⟩ := workerStep_advances hw
    rw [heq]
    exact List.length_set
  · rcases join_eq (p := p) (i := i) with h | ⟨w, e, _, _, h⟩ <;> simp [h, setWorker]

end Pool

end GraphIngest
