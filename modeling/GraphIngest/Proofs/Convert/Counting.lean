import GraphIngest.Proofs.Convert.Confluence

/-! # What the counters of a run count

A phase counts what its workers commit: the nodes and relationships of every part the store
takes, and the records of a commit with its first part that has elements, or at its close if none
has. A create the store took stays counted when the merge after it fails.

`events` reads off a schedule every try of a part and every close of a commit without elements;
`committed_play` says the committed counts are those of these events at every point, but for what
a worker that just wrote a merge part has still to add (`closing`). No move lowers a counter
(`counters_le_move`), and a phase that ends normally counted every record delivered
(`resourcesSeen_of_ok`).
-/

namespace GraphIngest

open Run (WorkerEnd)

namespace Counters

/-- The committed counts: records, nodes and relationships. -/
def committed (c : Counters) : Nat × Nat × Nat := (c.resourcesSeen, c.nodesCommitted, c.relsCommitted)

@[simp] theorem committed_add (c : Counters) (records nodes rels : Nat) :
    (c.add records nodes rels).committed = c.committed + (records, nodes, rels) := rfl

@[simp] theorem resourcesSeen_add (c : Counters) (records nodes rels : Nat) :
    (c.add records nodes rels).resourcesSeen = c.resourcesSeen + records := rfl

/-- Counters are below others when each of their counts is. -/
instance : Preorder Counters where
  le a b := a.resourcesSeen ≤ b.resourcesSeen ∧ a.nodesCommitted ≤ b.nodesCommitted ∧
    a.relsCommitted ≤ b.relsCommitted ∧ a.processed ≤ b.processed
  le_refl _ := ⟨le_rfl, le_rfl, le_rfl, le_rfl⟩
  le_trans _ _ _ h h' := ⟨h.1.trans h'.1, h.2.1.trans h'.2.1, h.2.2.1.trans h'.2.2.1, h.2.2.2.trans h'.2.2.2⟩

theorem le_add (c : Counters) (records nodes rels : Nat) : c ≤ c.add records nodes rels :=
  ⟨Nat.le_add_right _ _, Nat.le_add_right _ _, Nat.le_add_right _ _, le_rfl⟩

@[simp] theorem tick_resourcesSeen (r : Run σ) (phase : Phase) (totalHint : Option Nat) :
    (r.tick phase totalHint).conv.counters.resourcesSeen = r.conv.counters.resourcesSeen := rfl

@[simp] theorem tick_committed (r : Run σ) (phase : Phase) (totalHint : Option Nat) :
    (r.tick phase totalHint).conv.counters.committed = r.conv.counters.committed := rfl

end Counters

namespace Run

variable {σ : Type}

theorem le_tick (r : Run σ) (phase : Phase) (totalHint : Option Nat) :
    r.conv.counters ≤ (r.tick phase totalHint).conv.counters :=
  ⟨le_rfl, le_rfl, le_rfl, Nat.le_succ _⟩

@[simp] theorem countCommitted_counters (r : Run σ) (records nodes rels : Nat) :
    (r.countCommitted records nodes rels).conv.counters = r.conv.counters.add records nodes rels := rfl

end Run

@[simp] theorem CommitBuffer.add_records (b : CommitBuffer) (f : Fragment) : (b.add f).records = b.records := by
  have h := congrArg CommitBuffer.records (CommitBuffer.add_withRecords b f b.records)
  exact h

namespace Pool

variable {σ : Type}

/-! ## The events of a schedule -/

/-- What a move of a phase shows of the commits: a try of a part of a commit against the store,
with whether the store took it, or the close of a commit that had no elements to write. -/
inductive Event where
  | call (c : Commit) (k : WriteKind) (ok : Bool)
  | bare (records : Nat)

/-- The records the write of a part of a commit counts: all of the commit's when the part is the
first one with elements, else none. -/
def Commit.firstRecords (c : Commit) : WriteKind → Nat
  | .create => c.uncounted
  | .merge => if c.create.isEmpty then c.uncounted else 0

/-- What an event adds to the committed counts: a part the store took adds its nodes and
relationships, and the records of its commit if it is the commit's first part with elements; a
commit without elements adds its records. -/
def Event.counts : Event → Nat × Nat × Nat
  | .call c k true => (c.firstRecords k, (c.part k).nodes.length, (c.part k).rels.length)
  | .call _ _ false => 0
  | .bare records => (records, 0, 0)

section Events

variable [GraphStore σ]

/-- The events of worker `i`'s step in state `w`: the try of a write, unless the worker waits for
the merge lock, and the close of a commit without elements. -/
def stepEvents (p : Pool σ) (i : Nat) (w : Worker) : List Event :=
  match w.at_ with
  | .write c k attempt =>
    if c.locked k && attempt ≤ 1 && !p.lockFree i then []
    else [.call c k (p.run.world.write k (c.part k)).2.isOk]
  | .close c => if c.create.isEmpty && c.merge.isEmpty then [.bare c.uncounted] else []
  | _ => []

/-- The events of a move: only a worker's step has any. -/
def observe (p : Pool σ) : Move → List Event
  | .step i =>
    match p.workers[i]? with
    | some w => p.stepEvents i w
    | none => []
  | _ => []

/-- The events of a schedule, in order. -/
def events (p : Pool σ) : List Move → List Event
  | [] => []
  | m :: ms => p.observe m ++ (p.move m).events ms

end Events

/-! ## What is still to count -/

/-- What a worker that has written the merge part of its commit is still to count. -/
def At.closing : At → Nat × Nat × Nat
  | .close c => if c.merge.isEmpty then 0 else (c.uncounted, c.merge.nodes.length, c.merge.rels.length)
  | _ => 0

/-- What the workers that have written a merge part are still to count. -/
def closing (p : Pool σ) : Nat × Nat × Nat := (p.workers.map fun w => w.at_.closing).sum

@[simp] theorem At.closing_close (c : Commit) :
    (At.close c).closing = if c.merge.isEmpty then 0 else (c.uncounted, c.merge.nodes.length, c.merge.rels.length) :=
  rfl

@[simp] theorem At.closing_top : At.top.closing = 0 := rfl

@[simp] theorem At.closing_batch (index : Nat) (todo done : List Record) : (At.batch index todo done).closing = 0 := rfl

@[simp] theorem At.closing_write (c : Commit) (k : WriteKind) (a : Nat) : (At.write c k a).closing = 0 := rfl

@[simp] theorem At.closing_pause (c : Commit) (k : WriteKind) (a : Nat) : (At.pause c k a).closing = 0 := rfl

@[simp] theorem At.closing_ended (e : WorkerEnd) : (At.ended e).closing = 0 := rfl
@[simp] theorem At.closing_joined (e : WorkerEnd) : (At.joined e).closing = 0 := rfl

@[simp] theorem Worker.startCommit_at (w : Worker) (last : Bool) :
    (w.startCommit last).at_ = (Commit.ofBuffer w.buffer last).first := rfl

@[simp] theorem Commit.closing_afterCreate (c : Commit) : c.afterCreate.closing = 0 := by
  unfold Commit.afterCreate
  split
  next hm => simp [hm]
  next => rfl

@[simp] theorem Commit.closing_first (c : Commit) : c.first.closing = 0 := by
  unfold Commit.first
  split
  · exact c.closing_afterCreate
  · rfl

/-- Once the create part of a commit that has one is written, none of its records is left to
count. -/
def Commit.RecordsCounted (c : Commit) : Prop := c.create.isEmpty = false → c.uncounted = 0

/-- What holds at each place of a commit: its merge part is tried only if it has elements, and
past its create part no record is left to count. -/
def At.Staged : At → Prop
  | .write c .merge _ | .pause c .merge _ => c.merge.isEmpty = false ∧ c.RecordsCounted
  | .close c => c.RecordsCounted
  | _ => True

/-- Every worker stands where `At.Staged` holds. -/
def Staged (p : Pool σ) : Prop := ∀ w ∈ p.workers, w.at_.Staged

theorem Commit.staged_afterCreate {c : Commit} (h : c.RecordsCounted) : c.afterCreate.Staged := by
  unfold Commit.afterCreate
  split
  next => exact h
  next hm => exact ⟨by simpa using hm, h⟩

theorem Commit.staged_first (c : Commit) : c.first.Staged := by
  unfold Commit.first
  split
  next hc => exact Commit.staged_afterCreate fun h => by rw [hc] at h; cases h
  next => trivial

theorem At.staged_pause {c : Commit} {k : WriteKind} {a a' : Nat} (h : (At.write c k a).Staged) :
    (At.pause c k a').Staged := by
  cases k <;> exact h

theorem At.staged_write {c : Commit} {k : WriteKind} {a a' : Nat} (h : (At.pause c k a).Staged) :
    (At.write c k a').Staged := by
  cases k <;> exact h

/-! ## The records a worker holds -/

/-- The records a worker has taken and not counted, at a point of its loop: those of the batch it
is inside, and those of the commit it is inside. -/
def At.held : At → Nat
  | .batch _ todo done => todo.length + done.length
  | .write c _ _ | .pause c _ _ | .close c => c.uncounted
  | _ => 0

/-- The records a worker has taken and not counted: while it runs, those of its place in the loop
and those handed back into its buffer; once it has ended, none, whatever it dropped. -/
def Worker.held (w : Worker) : Nat := if w.running then w.at_.held + w.buffer.records else 0

theorem At.held_of_commit? {a : At} {c : Commit} (h : a.commit? = some c) : a.held = c.uncounted := by
  cases a <;> simp only [At.commit?, Option.some.injEq, reduceCtorEq] at h <;> subst h <;> rfl

theorem Worker.held_of_commit? {w : Worker} {c : Commit} (h : w.at_.commit? = some c) :
    w.held = c.uncounted + w.buffer.records := by
  rw [Worker.held, if_pos (Worker.running_of_commit? h), At.held_of_commit? h]

@[simp] theorem Worker.held_startCommit (w : Worker) (last : Bool) : (w.startCommit last).held = w.buffer.records := by
  have h : (w.startCommit last).at_.commit? = some (Commit.ofBuffer w.buffer last) := Commit.first_commit? _
  rw [Worker.held_of_commit? h]
  simp [Commit.ofBuffer, Worker.startCommit]

/-- The records of a phase that come to `total`: those counted, those the workers hold, those
dropped by workers that ended otherwise than normally, and those the batcher is still to hand
out. -/
structure RecordFlow (total : Nat) (p : Pool σ) (dropped : Nat) (rest : List Record) : Prop where
  feed : p.batcher.Delivers rest
  balance : p.run.conv.counters.resourcesSeen + (p.workers.map Worker.held).sum + dropped + rest.length = total
  normal : (∀ w ∈ p.workers, w.Normal) → dropped = 0

section Step

variable [GraphStore σ] {p : Pool σ} {i : Nat} {w : Worker}

theorem stepEvents_write {c : Commit} {k : WriteKind} {a : Nat} (hat : w.at_ = .write c k a)
    (hl : (c.locked k && decide (a ≤ 1) && !p.lockFree i) = false) {world : World σ}
    {res : Except StorageError Fragment} (hw : p.run.world.write k (c.part k) = (world, res)) :
    p.stepEvents i w = [.call c k res.isOk] := by
  simp [stepEvents, hat, hl, hw]

theorem Advances.staged {r b w'} (ha : p.Advances i w r b w') (h : w.at_.Staged) : w'.at_.Staged := by
  cases ha with
  | drained =>
    split
    · trivial
    · exact Commit.staged_first _
  | handBack =>
    split
    · exact Commit.staged_first _
    · trivial
  | created => exact Commit.staged_afterCreate fun _ => rfl
  | merged hat => rw [hat] at h; exact h.2
  | backOff hat => rw [hat] at h; exact At.staged_pause h
  | resume hat => rw [hat] at h; exact At.staged_write h
  | close => split <;> trivial
  | wait | ended | joined => exact h
  | _ => trivial

/-- **What one step counts.** The committed counts and what the worker is still to count grow by
what its step shows: the part the store took, with the records of its commit if it is the first
part with elements, or the records of a commit without elements as it closes. -/
theorem Advances.committed {r b w'} (ha : p.Advances i w r b w') (h : w.at_.Staged) :
    r.conv.counters.committed + w'.at_.closing =
      p.run.conv.counters.committed + w.at_.closing + ((p.stepEvents i w).map Event.counts).sum := by
  cases ha with
  | drained hat | handBack hat => split <;> simp [stepEvents, hat]
  | apply hat _ _ happ | ruleFault hat _ _ happ => simp [stepEvents, hat, Run.applyRules_conv happ]
  | wait hat hl => simp [stepEvents, hat, hl]
  | created hat hl hw =>
    simp [stepEvents_write hat hl hw, hat, Except.isOk, Except.toBool, Event.counts, Commit.firstRecords,
      Commit.part]
  | @merged c a world f hat hl hw =>
    rw [hat] at h
    obtain ⟨hm, hc⟩ := h
    -- the merge part counts the commit's records only if there was no create part to count them
    have hrec : c.firstRecords .merge = c.uncounted := by
      cases hcr : c.create.isEmpty
      · simp [Commit.firstRecords, hcr, hc hcr]
      · simp [Commit.firstRecords, hcr]
    simp [stepEvents_write hat hl hw, hat, hm, Except.isOk, Except.toBool, Event.counts, Commit.part, hrec]
  | gaveUp hat hl hw | backOff hat hl hw =>
    simp [stepEvents_write hat hl hw, hat, Except.isOk, Except.toBool, Event.counts]
  | @close c hat =>
    have hnew : (if c.last then At.ended .done else At.top).closing = 0 := by split <;> rfl
    rw [hat] at h
    by_cases hm : c.merge.isEmpty = true
    · -- nothing was merged: what remains to count are the records of a commit without elements
      have hmn : c.merge.nodes = [] ∧ c.merge.rels = [] := by simpa [Fragment.isEmpty] using hm
      cases hcr : c.create.isEmpty
      · simp [stepEvents, hat, hm, hcr, hnew, hmn, h hcr]
      · simp [stepEvents, hat, hm, hcr, hnew, Event.counts, hmn]
    · simp [stepEvents, hat, hm, hnew]
  | stopAtTop hat | sourceFault hat | openFault hat | take hat | stopInBatch hat | pass hat
  | cutShort hat | resume hat | ended hat | joined hat =>
    simp [stepEvents, hat]

theorem Advances.counters_le {r b w'} (ha : p.Advances i w r b w') : p.run.conv.counters ≤ r.conv.counters := by
  cases ha with
  | @apply _ _ _ _ r' _ _ _ _ _ happ =>
    have h := Run.le_tick r' p.phase p.totalHint
    rwa [Run.applyRules_conv happ] at h
  | ruleFault _ _ _ happ => rw [Run.applyRules_conv happ]
  | pass => exact Run.le_tick _ _ _
  | created | close => exact Counters.le_add _ _ _ _
  | _ => exact le_rfl

omit [GraphStore σ] in
theorem flow_drop {r : Run σ} {w' : Worker} {e : WorkerEnd} {rest : List Record}
    (hr : r.conv.counters.resourcesSeen = p.run.conv.counters.resourcesSeen) (hat : w'.at_ = .ended e)
    (he : e ≠ .done) (hfeed : p.batcher.Delivers rest) :
    ∃ d rest', p.batcher.Delivers rest' ∧ (w'.Normal → d = 0) ∧
      r.conv.counters.resourcesSeen + w'.held + d + rest'.length =
        p.run.conv.counters.resourcesSeen + w.held + rest.length :=
  ⟨w.held, rest, hfeed, fun hn => absurd (hn e (.inl hat)) he, by simp [Worker.held, Worker.running, hat, hr]⟩

omit [GraphStore σ] in
theorem flow_keep {r : Run σ} {w' : Worker} {rest : List Record}
    (hbal : r.conv.counters.resourcesSeen + w'.held = p.run.conv.counters.resourcesSeen + w.held)
    (hfeed : p.batcher.Delivers rest) :
    ∃ d rest', p.batcher.Delivers rest' ∧ (w'.Normal → d = 0) ∧
      r.conv.counters.resourcesSeen + w'.held + d + rest'.length =
        p.run.conv.counters.resourcesSeen + w.held + rest.length :=
  ⟨0, rest, hfeed, fun _ => rfl, by omega⟩

/-- **Where one step puts the records.** A step takes a batch's records from what the batcher is
still to deliver, counts those of a commit as it writes the first part with elements or closes
one without, and drops what the worker holds only if it ends otherwise than normally. -/
theorem Advances.flow {r b w'} {rest : List Record} (ha : p.Advances i w r b w')
    (hfeed : p.batcher.Delivers rest) (hbuf : ∀ c, w.at_.commit? = some c → w.buffer.isEmpty = true) :
    ∃ d rest', b.Delivers rest' ∧ (w'.Normal → d = 0) ∧
      r.conv.counters.resourcesSeen + w'.held + d + rest'.length =
        p.run.conv.counters.resourcesSeen + w.held + rest.length := by
  cases ha with
  | stopAtTop hat | stopInBatch hat => exact flow_drop rfl rfl (by simp) hfeed
  | ruleFault _ _ _ happ =>
    exact flow_drop (by rw [Run.applyRules_conv happ]) rfl
      (WorkerEnd.ne_done_of_fault (Run.applyRules_error_fault happ)) hfeed
  | gaveUp => exact flow_drop rfl rfl (by simp) hfeed
  | cutShort => exact flow_drop rfl rfl (by simp) hfeed
  | sourceFault _ _ hn =>
    rcases hfeed.next p.groupSize with ⟨h₁, -⟩ | ⟨x, chunk, rest', h₁, -⟩ <;> simp [hn] at h₁
  | openFault _ _ hn hr =>
    rcases hfeed.next p.groupSize with ⟨h₁, -⟩ | ⟨x, chunk, rest', h₁, hx, -⟩
    · simp [hn] at h₁
    · simp only [hn, Except.ok.injEq, Option.some.injEq] at h₁
      subst h₁
      simp [hr] at hx
  | @drained _ hat _ hn =>
    rcases hfeed.next p.groupSize with ⟨-, rfl, hb⟩ | ⟨x, chunk, rest', h₁, -⟩
    · rw [hn] at hb
      refine ⟨0, [], hb, fun _ => rfl, ?_⟩
      split
      next he =>
        -- an empty buffer holds no record
        have : w.buffer.records = 0 := by simp_all [CommitBuffer.isEmpty]
        simp [Worker.held, Worker.running, At.held, hat, this]
      next =>
        rw [Worker.held_startCommit]
        simp [Worker.held, Worker.running, At.held, hat]
    · simp [hn] at h₁
  | @take x rs _ hat _ hn hr =>
    rcases hfeed.next p.groupSize with ⟨h₁, -⟩ | ⟨x', chunk, rest', h₁, hx, hsplit, hb⟩
    · simp [hn] at h₁
    · simp only [hn, Except.ok.injEq, Option.some.injEq] at h₁
      subst h₁
      rw [hr, Except.ok.injEq] at hx
      subst hx
      rw [hn] at hb
      refine ⟨0, rest', hb, fun _ => rfl, ?_⟩
      simp [Worker.held, Worker.running, At.held, hat, hsplit]
      omega
  | handBack hat =>
    refine ⟨0, rest, hfeed.retainProcessed _ _, fun _ => rfl, ?_⟩
    split
    · rw [Worker.held_startCommit]
      simp [Worker.held, Worker.running, At.held, hat, CommitBuffer.addRecords]
      omega
    · simp [Worker.held, Worker.running, At.held, hat, CommitBuffer.addRecords]
      omega
  | apply hat _ _ happ =>
    refine flow_keep ?_ hfeed
    simp [Worker.held, Worker.running, At.held, hat, Run.applyRules_conv happ]
    omega
  | pass hat =>
    refine flow_keep ?_ hfeed
    simp [Worker.held, Worker.running, At.held, hat]
    omega
  | @created c _ _ _ hat =>
    refine flow_keep ?_ hfeed
    -- the commit's records move from what the worker holds to what is counted
    have hc : w.at_.commit? = some c := by rw [hat]; rfl
    have hc' : ({ w with at_ := { c with uncounted := 0 }.afterCreate } : Worker).at_.commit? =
        some { c with uncounted := 0 } := Commit.afterCreate_commit? _
    rw [Worker.held_of_commit? hc, Worker.held_of_commit? hc']
    simp
    omega
  | merged hat | backOff hat | resume hat =>
    exact flow_keep (by simp [Worker.held, Worker.running, At.held, hat]) hfeed
  | @close c hat =>
    refine flow_keep ?_ hfeed
    have hb := hbuf c (by rw [hat]; rfl)
    split
    next => simp_all [Worker.held, Worker.running, At.held, CommitBuffer.isEmpty]
    next => simp [Worker.held, Worker.running, At.held, hat]; omega
  | wait | ended | joined => exact flow_keep rfl hfeed

theorem Advances.normal {r b w'} (ha : p.Advances i w r b w') (h : w'.Normal) : w.Normal := by
  cases ha with
  | ended | joined => exact h
  | stopAtTop hat | sourceFault hat | drained hat | openFault hat | take hat | handBack hat
  | stopInBatch hat | apply hat | ruleFault hat | pass hat | wait hat | created hat | merged hat
  | gaveUp hat | backOff hat | cutShort hat | resume hat | close hat =>
    exact Worker.normal_of_running (by simp [Worker.running, hat])

end Step

section Move

variable [GraphStore σ] {p : Pool σ} {i : Nat}

omit [GraphStore σ] in
theorem join_run : (p.join i).run = p.run := by
  rcases join_eq (p := p) (i := i) with h | ⟨w, e, _, _, h⟩ <;> simp [h, setWorker]

omit [GraphStore σ] in
theorem join_closing : (p.join i).closing = p.closing := by
  rcases join_eq (p := p) (i := i) with h | ⟨w, e, hw, hat, h⟩
  · rw [h]
  · have hset := sum_map_set_add (fun v : Worker => v.at_.closing) { w with at_ := .joined e } hw
    simp only [hat, At.closing_ended, At.closing_joined, add_zero] at hset
    simpa [h, closing, setWorker] using hset

theorem Staged.move (h : p.Staged) : ∀ m, (p.move m).Staged := by
  refine move_cases h (fun _ w hw => ?_) (fun i => ?_) (fun _ => h) h fun _ => h
  · obtain ⟨r, b, w', ha, heq⟩ := workerStep_advances hw
    rw [heq]
    intro v hv
    rcases List.mem_or_eq_of_mem_set hv with hv | rfl
    · exact h v hv
    · exact ha.staged (h w (List.mem_of_getElem? hw))
  · rcases join_eq (p := p) (i := i) with heq | ⟨w, e, _, _, heq⟩
    · rwa [heq]
    · rw [heq]
      intro v hv
      simp only [receive_workers, setWorker] at hv
      rcases List.mem_or_eq_of_mem_set hv with hv | rfl
      · exact h v hv
      · trivial

theorem committed_move (hs : p.Staged) (m : Move) :
    (p.move m).run.conv.counters.committed + (p.move m).closing =
      p.run.conv.counters.committed + p.closing + ((p.observe m).map Event.counts).sum := by
  cases m with
  | step i =>
    rcases hw : p.workers[i]? with _ | w
    · simp [Pool.move, observe, hw]
    · obtain ⟨r, b, w', ha, heq⟩ := workerStep_advances hw
      have hstep := ha.committed (hs w (List.mem_of_getElem? hw))
      have hset := sum_map_set_add (fun v : Worker => v.at_.closing) w' hw
      have hobs : p.observe (.step i) = p.stepEvents i w := by simp [observe, hw]
      rw [move_step hw, heq, hobs]
      simp only [closing] at hset ⊢
      -- the worker's part of what is still to count is replaced; cancel the old part
      apply add_right_cancel (b := w.at_.closing)
      calc r.conv.counters.committed + ((p.workers.set i w').map fun v => v.at_.closing).sum + w.at_.closing
          = r.conv.counters.committed + w'.at_.closing + (p.workers.map fun v => v.at_.closing).sum := by
            rw [add_assoc, hset]; abel
        _ = p.run.conv.counters.committed + w.at_.closing + ((p.stepEvents i w).map Event.counts).sum +
              (p.workers.map fun v => v.at_.closing).sum := by rw [hstep]
        _ = _ := by abel
  | join i => simp [Pool.move, observe, join_run, join_closing]
  | notice => dsimp only [Pool.move]; split <;> simp [observe, closing]
  | cancel => simp [Pool.move, observe, closing]
  | resize => dsimp only [Pool.move]; split <;> simp [observe, closing]

theorem counters_le_move (p : Pool σ) : ∀ m, p.run.conv.counters ≤ (p.move m).run.conv.counters := by
  refine move_cases (P := fun q => p.run.conv.counters ≤ q.run.conv.counters) le_rfl (fun _ _ hw => ?_)
    (fun i => ?_) (fun _ => le_rfl) le_rfl fun _ => le_rfl
  · obtain ⟨r, b, w', ha, heq⟩ := workerStep_advances hw
    rw [heq]
    exact ha.counters_le
  · show p.run.conv.counters ≤ (p.join i).run.conv.counters
    rw [join_run]

theorem RecordFlow.step {total d : Nat} {rest : List Record} {w : Worker} (h : RecordFlow total p d rest)
    (ht : p.Tidy) (hw : p.workers[i]? = some w) : ∃ d' rest', RecordFlow total (p.workerStep i w) d' rest' := by
  obtain ⟨r, b, w', ha, heq⟩ := workerStep_advances hw
  have hmem := List.mem_of_getElem? hw
  obtain ⟨dw, rest', hfeed, hnormal, hbal⟩ := ha.flow h.feed fun c hc => (ht.committing w hmem c hc).1
  have hset := sum_map_set Worker.held w' hw
  have hold := h.balance
  refine ⟨d + dw, rest', ?_⟩
  rw [heq]
  refine ⟨hfeed, ?_, fun hall => ?_⟩
  · show r.conv.counters.resourcesSeen + ((p.workers.set i w').map Worker.held).sum + (d + dw) + rest'.length = total
    omega
  · obtain ⟨hw', hall'⟩ := Worker.normal_of_set hw ha.normal hall
    rw [h.normal hall', hnormal hw']

omit [GraphStore σ] in
theorem RecordFlow.join {total d : Nat} {rest : List Record} (h : RecordFlow total p d rest) :
    RecordFlow total (p.join i) d rest := by
  rcases join_eq (p := p) (i := i) with heq | ⟨w, e, hw, hat, heq⟩
  · rwa [heq]
  · rw [heq]
    have hset := sum_map_set Worker.held { w with at_ := .joined e } hw
    have hold := h.balance
    refine ⟨by simpa [setWorker] using h.feed, ?_, fun hall => h.normal ?_⟩
    · -- a worker holds nothing once it has ended, joined or not
      have h₁ : w.held = 0 := by simp [Worker.held, Worker.running, hat]
      have h₂ : ({ w with at_ := .joined e } : Worker).held = 0 := by simp [Worker.held, Worker.running]
      rw [h₁, h₂] at hset
      simp only [receive_workers, receive_run, setWorker]
      omega
    · -- the joined worker keeps the end it had
      simp only [receive_workers, setWorker] at hall
      refine (Worker.normal_of_set hw (fun hn e' he => ?_) hall).2
      rcases he with he | he <;> rw [hat] at he <;> cases he
      exact hn e (.inr rfl)

theorem RecordFlow.move {total d : Nat} {rest : List Record} (h : RecordFlow total p d rest) (ht : p.Tidy) :
    ∀ m, ∃ d' rest', RecordFlow total (p.move m) d' rest' :=
  move_cases (P := fun q => ∃ d' rest', RecordFlow total q d' rest') ⟨d, rest, h⟩ (fun _ _ hw => h.step ht hw)
    (fun _ => ⟨d, rest, h.join⟩) (fun _ => ⟨d, rest, h.feed, h.balance, h.normal⟩)
    ⟨d, rest, h.feed, h.balance, h.normal⟩ fun _ => ⟨d, rest, h.feed, h.balance, h.normal⟩

end Move

section Play

variable [GraphStore σ]

/-- **The counts of a schedule.** At every point of a schedule the committed counts, with what
the workers that have written a merge part are still to add, have grown by the counts of the
schedule's events. -/
theorem committed_play {p : Pool σ} (hs : p.Staged) (ms : List Move) :
    (p.play ms).run.conv.counters.committed + (p.play ms).closing =
      p.run.conv.counters.committed + p.closing + ((p.events ms).map Event.counts).sum := by
  induction ms generalizing p with
  | nil => simp [play, events]
  | cons m ms ih =>
    calc ((p.move m).play ms).run.conv.counters.committed + ((p.move m).play ms).closing
        = (p.move m).run.conv.counters.committed + (p.move m).closing +
            (((p.move m).events ms).map Event.counts).sum := ih (hs.move m)
      _ = p.run.conv.counters.committed + p.closing + ((p.observe m).map Event.counts).sum +
            (((p.move m).events ms).map Event.counts).sum := by rw [committed_move hs m]
      _ = p.run.conv.counters.committed + p.closing + ((p.events (m :: ms)).map Event.counts).sum := by
            rw [events, List.map_append, List.sum_append, add_assoc]

theorem counters_le_play (p : Pool σ) (ms : List Move) : p.run.conv.counters ≤ (p.play ms).run.conv.counters := by
  induction ms generalizing p with
  | nil => exact le_rfl
  | cons m ms ih => exact le_trans (counters_le_move p m) (ih (p.move m))

omit [GraphStore σ] in
theorem outcome_counters (p : Pool σ) : p.outcome.1.conv.counters = p.run.conv.counters := by
  unfold outcome
  split
  · rfl
  · split <;> rfl

omit [GraphStore σ] in
theorem closing_of_finished {p : Pool σ} (h : p.finished = true) : p.closing = 0 := by
  refine List.sum_eq_zero fun x hx => ?_
  obtain ⟨w, hw, rfl⟩ := List.mem_map.mp hx
  obtain ⟨e, he⟩ := finished_joined h w hw
  simp [he, At.closing]

section Start

omit [GraphStore σ]

variable (n : Nat) (r : Run σ) (ph : Phase) (b : Batcher) (hint : Option Nat)

theorem staged_start : (start n r ph b hint).Staged := fun w hw => by
  obtain rfl := List.eq_of_mem_replicate hw
  trivial

theorem closing_start : (start n r ph b hint).closing = 0 := by
  simp [start, closing, At.closing]

theorem recordFlow_start {rs : List Record} (hfeed : b.Delivers rs) :
    RecordFlow (r.conv.counters.resourcesSeen + rs.length) (start n r ph b hint) 0 rs where
  feed := hfeed
  balance := by simp [start, Worker.held, Worker.running, At.held]
  normal _ := rfl

end Start

/-- **A phase that ends normally counted every record it read.** A phase over a batcher that
delivers the records `rs`, on at least one worker, under any schedule after which every worker
has been joined: if it ends normally, it has counted `rs` once each among the records seen. -/
theorem resourcesSeen_of_ok {n : Nat} (hn : 0 < n) (r : Run σ) (ph : Phase) (b : Batcher)
    (hint : Option Nat) (ms : List Move) {rs : List Record} (hfeed : b.Delivers rs)
    (hfin : ((start n r ph b hint).play ms).finished = true) {b' : Batcher}
    (hok : ((start n r ph b hint).play ms).outcome.2 = .ok b') :
    ((start n r ph b hint).play ms).outcome.1.conv.counters.resourcesSeen =
      r.conv.counters.resourcesSeen + rs.length := by
  set q := (start n r ph b hint).play ms
  have hflow : (∃ d rest, RecordFlow (r.conv.counters.resourcesSeen + rs.length) q d rest) ∧ q.Tidy :=
    play_induction (P := fun q => (∃ d rest, RecordFlow (r.conv.counters.resourcesSeen + rs.length) q d rest) ∧ q.Tidy)
      (fun _ m ⟨⟨_, _, h⟩, ht⟩ => ⟨h.move ht m, ht.move m⟩) ms
      ⟨⟨0, rs, recordFlow_start n r ph b hint hfeed⟩, tidy_start n r ph b hint⟩
  obtain ⟨⟨d, rest, h⟩, -⟩ := hflow
  obtain ⟨rfl, hdone, hex, -⟩ := (phase_outcome hn r ph b hint ms hfin).ok b' hok
  -- every worker ended normally holding nothing, and the batcher has nothing left to deliver
  have hheld : (q.workers.map Worker.held).sum = 0 := List.sum_eq_zero fun x hx => by
    obtain ⟨w, hw, rfl⟩ := List.mem_map.mp hx
    simp [Worker.held, Worker.running, (hdone w hw).1]
  have hd : d = 0 := h.normal fun w hw e he => by
    rcases he with he | he <;> rw [(hdone w hw).1] at he <;> cases he
    rfl
  have hrest : rest = [] := h.feed.1 hex
  have hbal := h.balance
  rw [hheld, hd, hrest] at hbal
  rw [outcome_counters]
  simpa using hbal

end Play

/-- **A run that succeeds counted the records of both its phases.** -/
theorem RunPlan.resourcesSeen_of_succeeds {c : RunPlan} (hn : 0 < c.workers) {rs rs' : List Record}
    (hnodes : c.nodeBatcher.Delivers rs) (hrels : c.relBatcher.Delivers rs') (hok : c.Succeeds) :
    c.relPhase.outcome.1.conv.counters.resourcesSeen =
      c.run.conv.counters.resourcesSeen + rs.length + rs'.length := by
  obtain ⟨hfin₁, hok₁, hfin₂, hok₂⟩ := hok
  obtain ⟨b₁, hb₁⟩ := exists_ok_of_isOk hok₁
  obtain ⟨b₂, hb₂⟩ := exists_ok_of_isOk hok₂
  have h₁ : c.nodePhase.outcome.1.conv.counters.resourcesSeen = c.run.conv.counters.resourcesSeen + rs.length :=
    resourcesSeen_of_ok hn c.run .node c.nodeBatcher c.hint c.nodeMoves hnodes hfin₁ hb₁
  have h₂ : c.relPhase.outcome.1.conv.counters.resourcesSeen =
      c.nodePhase.outcome.1.conv.counters.resourcesSeen + rs'.length :=
    resourcesSeen_of_ok hn c.nodePhase.outcome.1 .relationship c.relBatcher c.hint c.relMoves hrels hfin₂ hb₂
  rw [h₂, h₁]

/-- **What the counters count.** At every point of a phase, under any schedule (faults,
cancellations and panics included), the committed counts have grown from the run's by the counts
of the schedule's events, but for what a worker that has just written a merge part is still to
add, which is nothing once every worker has been joined. No later point has lower counters, the
end of a phase hands them on unchanged, and a run whose two phases end normally has counted every
record each phase read. -/
theorem counters_account_for_commits {σ : Type} [GraphStore σ] :
    (∀ (n : Nat) (r : Run σ) (ph : Phase) (b : Batcher) (hint : Option Nat) (ms : List Move),
      let p := start n r ph b hint
      let q := p.play ms
      q.run.conv.counters.committed + q.closing =
          r.conv.counters.committed + ((p.events ms).map Event.counts).sum ∧
        (q.finished = true → q.closing = 0) ∧
        (∀ ms', q.run.conv.counters ≤ (q.play ms').run.conv.counters) ∧
        q.outcome.1.conv.counters = q.run.conv.counters) ∧
    ∀ (c : RunPlan) (rs rs' : List Record), 0 < c.workers → c.nodeBatcher.Delivers rs →
      c.relBatcher.Delivers rs' → c.Succeeds →
      c.relPhase.outcome.1.conv.counters.resourcesSeen =
        c.run.conv.counters.resourcesSeen + rs.length + rs'.length := by
  refine ⟨fun n r ph b hint ms => ?_, fun c rs rs' hn hnodes hrels hok => RunPlan.resourcesSeen_of_succeeds hn hnodes hrels hok⟩
  have h := committed_play (staged_start n r ph b hint) ms
  rw [closing_start, add_zero] at h
  exact ⟨h, closing_of_finished, counters_le_play _, outcome_counters _⟩

/-- Two records of a type no rule maps. -/
def unmappedRecords : List Record := [{ recordType := "Note" }, { recordType := "Note" }]

/-- The records converted by one worker under the default settings, with no rules, into an empty
memory store. -/
def unmappedPlan : RunPlan :=
  { workers := 1,
    run := { conv := { config := {}, rules := { entries := [] } },
             world := { store := .memory Graph.empty, source := .items (unmappedRecords.map .ok) } },
    nodeBatcher := Batcher.ofItems (unmappedRecords.map .ok) .shared false,
    relBatcher := Batcher.ofItems (unmappedRecords.map .ok) .shared false,
    hint := none, nodeMoves := solo, relMoves := solo }

/-- Records that build nothing are counted all the same: each phase closes one commit without
elements holding both records. -/
theorem unmapped_records_counted :
    unmappedPlan.Succeeds ∧ unmappedPlan.nodePhase.closing = 0 ∧
      unmappedPlan.relPhase.outcome.1.conv.counters.resourcesSeen =
        unmappedPlan.run.conv.counters.resourcesSeen + unmappedRecords.length + unmappedRecords.length := by
  have hd : (Batcher.ofItems (unmappedRecords.map .ok) .shared false).Delivers unmappedRecords :=
    ⟨fun h => absurd h (by decide), rfl, fun _ _ _ _ _ => rfl⟩
  have hok : unmappedPlan.Succeeds := by decide +kernel
  exact ⟨hok, (counters_account_for_commits.1 1 unmappedPlan.run .node unmappedPlan.nodeBatcher none solo).2.1 hok.1,
    (@counters_account_for_commits Store _).2 unmappedPlan _ _ (by decide) hd hd hok⟩

end Pool

end GraphIngest
