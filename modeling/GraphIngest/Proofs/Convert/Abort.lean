import GraphIngest.Proofs.Convert.Moves

/-! # How a phase ends

Whatever the interleaving, the end of a phase is decided by the ends the orchestrator received
(`phase_outcome`): the fault of the first worker joined that failed on its own or gave up, else
cancellation if the token is tripped. Two invariants carry this: the orchestrator's bookkeeping
(`Accounted`) and the workers' own (`Tidy`, `Counted`).
-/

namespace GraphIngest

open Run (WorkerEnd)

section Lists

variable {α β : Type}

theorem sum_map_set_add {M : Type} [AddCommMonoid M] (f : α → M) (y : α) :
    ∀ {l : List α} {i : Nat} {x : α}, l[i]? = some x → ((l.set i y).map f).sum + f x = (l.map f).sum + f y
  | a :: l, 0, x, h => by
    cases h
    simp only [List.set_cons_zero, List.map_cons, List.sum_cons]
    abel
  | a :: l, i + 1, x, h => by
    simp only [List.getElem?_cons_succ] at h
    simp only [List.set_cons_succ, List.map_cons, List.sum_cons, add_assoc, sum_map_set_add f y h]

theorem sum_map_set (f : α → Nat) (y : α) {l : List α} {i : Nat} {x : α} (h : l[i]? = some x) :
    ((l.set i y).map f).sum + f x = (l.map f).sum + f y :=
  sum_map_set_add f y h

theorem filterMap_set_of_eq (f : α → Option β) (y : α) :
    ∀ {l : List α} {i : Nat} {x : α}, l[i]? = some x → f y = f x →
      (l.set i y).filterMap f = l.filterMap f
  | a :: l, 0, x, h, hf => by
    cases h
    simp only [List.set_cons_zero, List.filterMap_cons, hf]
  | a :: l, i + 1, x, h, hf => by
    simp only [List.getElem?_cons_succ] at h
    simp only [List.set_cons_succ, List.filterMap_cons, filterMap_set_of_eq f y h hf]

theorem filterMap_set_perm (f : α → Option β) (y : α) :
    ∀ {l : List α} {i : Nat} {x : α}, l[i]? = some x → f x = none →
      ((l.set i y).filterMap f).Perm (l.filterMap f ++ (f y).toList)
  | a :: l, 0, x, h, hf => by
    cases h
    cases hy : f y with
    | none => simp [hf, hy]
    | some v => simpa [hf, hy] using (List.perm_append_singleton v (l.filterMap f)).symm
  | a :: l, i + 1, x, h, hf => by
    simp only [List.getElem?_cons_succ] at h
    have ih := filterMap_set_perm f y h hf
    cases ha : f a <;> simp [ha, ih]

end Lists

namespace Run

/-- Whether an end is normal. -/
def WorkerEnd.normal : WorkerEnd → Bool
  | .done => true
  | _ => false

theorem WorkerEnd.ne_done_of_fault {e : WorkerEnd} (h : (e.fault false).isSome = true) : e ≠ .done := by
  rintro rfl; cases h

theorem WorkerEnd.fault_not_cancelled {e : WorkerEnd} {err : ConvertError} (h : e.fault false = some err) :
    err.isCancelled = false := by
  cases e with
  | failed e' =>
    simp only [WorkerEnd.fault] at h
    split at h
    · simp at h
    next hc => cases h; simpa using hc
  | panicked m => cases h; rfl
  | _ => simp [WorkerEnd.fault] at h

end Run

namespace Pool

variable {σ : Type} [GraphStore σ]

/-! ## The orchestrator's account -/

/-- The end of a joined worker. -/
def Worker.joinedEnd (w : Worker) : Option WorkerEnd :=
  match w.at_ with
  | .joined e => some e
  | _ => none

/-- The phase is bound to fail: a fault is kept, or the token is tripped. -/
def Aborting (p : Pool σ) : Prop := p.firstError.isSome = true ∨ p.run.world.cancelled = true

/-- An end is accounted for when it is normal, a fault of the worker's own, or came while the
phase was bound to fail anyway. -/
def Explains (p : Pool σ) (e : WorkerEnd) : Prop :=
  e = .done ∨ (e.fault false).isSome = true ∨ p.Aborting

/-- The orchestrator's bookkeeping at every point of a phase: the kept fault is the first fault
received, the stop flag is raised only once the phase is bound to fail, every end is accounted
for, and the ends received are those of the joined workers. -/
structure Accounted (p : Pool σ) : Prop where
  firstError_eq : p.firstError = p.received.findSome? (·.fault false)
  stop_aborting : p.stop = true → p.Aborting
  ended : ∀ w ∈ p.workers, ∀ e, w.at_ = .ended e → p.Explains e
  received : ∀ e ∈ p.received, p.Explains e
  received_perm : p.received.Perm (p.workers.filterMap Worker.joinedEnd)

variable {p : Pool σ} {i : Nat} {w : Worker}

omit [GraphStore σ] in
theorem Explains.mono {q : Pool σ} {e : WorkerEnd} (he : p.Explains e) (h : p.Aborting → q.Aborting) :
    q.Explains e :=
  he.imp_right (Or.imp_right h)

theorem joinedEnd_eq {w' : Worker} (h : ∀ e, w'.at_ = .joined e ↔ w.at_ = .joined e) :
    w'.joinedEnd = w.joinedEnd := by
  unfold Worker.joinedEnd
  cases hw : w.at_ with
  | joined e => rw [(h e).mpr hw]
  | _ =>
    split
    next e he => have := (h e).mp he; rw [hw] at this; cases this
    next => rfl

theorem accounted_step (h : p.Accounted) (hw : p.workers[i]? = some w) :
    (p.workerStep i w).Accounted := by
  obtain ⟨r, b, w', ha, heq⟩ := workerStep_advances hw
  rw [heq]
  have hab : p.Aborting → Aborting { p with run := r, batcher := b, workers := p.workers.set i w' } :=
    Or.imp_right ha.cancelled
  refine ⟨h.firstError_eq, fun hs => hab (h.stop_aborting hs), ?_,
    fun e he => (h.received e he).mono hab, ?_⟩
  · intro v hv e he
    rcases List.mem_or_eq_of_mem_set hv with hv | rfl
    · exact (h.ended v hv e he).mono hab
    rcases ha.ended_cases he with ⟨hat, rfl⟩ | hd | hf | hs
    · exact (h.ended _ (List.mem_of_getElem? hw) e hat).mono hab
    · exact .inl hd
    · exact .inr (.inl hf)
    · -- told to stop: the phase was bound to fail, by the stop flag or by the token
      rcases Bool.or_eq_true _ _ |>.mp hs with hs | hs
      · exact .inr (.inr (hab (h.stop_aborting hs)))
      · exact .inr (.inr (.inr (ha.cancelled hs)))
  · rw [filterMap_set_of_eq _ _ hw (joinedEnd_eq fun _ => ha.joined_iff)]
    exact h.received_perm

omit [GraphStore σ] in
theorem accounted_join (h : p.Accounted) : (p.join i).Accounted := by
  unfold join
  split
  next w hw =>
    split
    next e hat =>
      set q := p.setWorker i { w with at_ := .joined e }
      -- the end joined was accounted for while the worker waited; a fault it carries is now kept
      have hex : p.Explains e := h.ended w (List.mem_of_getElem? hw) e hat
      have hab : p.Aborting → (q.receive e).Aborting := by
        rintro (hf | hc)
        · left; simp [q, setWorker, hf]
        · right; simpa [q, setWorker] using hc
      have hfault : (e.fault false).isSome = true → (q.receive e).Aborting := by
        intro hf; left; simp [q, setWorker, hf]
      refine ⟨?_, ?_, ?_, ?_, ?_⟩
      · simp [q, setWorker, h.firstError_eq, List.findSome?_append]
      · intro hs
        rcases receive_stop q e hs with hs | ⟨err, rfl⟩ | ⟨m, rfl⟩
        · exact hab (h.stop_aborting hs)
        · rcases hex with hd | hf | ha
          · cases hd
          · exact hfault hf
          · exact hab ha
        · exact hfault rfl
      · intro v hv e' he'
        simp only [receive_workers, q, setWorker] at hv
        rcases List.mem_or_eq_of_mem_set hv with hv | rfl
        · exact (h.ended v hv e' he').mono hab
        · cases he'
      · intro e' he'
        simp only [receive_received, q, setWorker, List.mem_append, List.mem_singleton] at he'
        rcases he' with he' | rfl
        · exact (h.received e' he').mono hab
        · exact hex.mono hab
      · have hperm := filterMap_set_perm Worker.joinedEnd { w with at_ := .joined e } hw
          (by simp [Worker.joinedEnd, hat])
        simp only [receive_received, receive_workers, q, setWorker]
        exact (h.received_perm.append_right [e]).trans (by simpa [Worker.joinedEnd] using hperm.symm)
    next => exact h
  next => exact h

theorem Accounted.move (h : p.Accounted) : ∀ m, (p.move m).Accounted := by
  -- a tripped token is a reason to abort, whoever sees it
  have hab : p.Aborting → Aborting { p with run := { p.run with world := { p.run.world with cancelled := true } } } :=
    fun _ => .inr rfl
  refine move_cases h (fun _ _ hw => accounted_step h hw) (fun _ => accounted_join h) (fun hc => ?_)
    ⟨h.firstError_eq, fun hs => hab (h.stop_aborting hs), fun v hv e he => (h.ended v hv e he).mono hab,
      fun e he => (h.received e he).mono hab, h.received_perm⟩
    fun _ => ⟨h.firstError_eq, h.stop_aborting, h.ended, h.received, h.received_perm⟩
  exact ⟨h.firstError_eq, fun _ => .inr hc, fun v hv e he => (h.ended v hv e he).mono id,
    fun e he => (h.received e he).mono id, h.received_perm⟩

/-! ## The workers' own account -/

/-- The commit a worker is inside, if any. -/
def At.commit? : At → Option Commit
  | .write c _ _ | .pause c _ _ | .close c => some c
  | _ => none

@[simp] theorem Commit.afterCreate_commit? (c : Commit) : c.afterCreate.commit? = some c := by
  unfold Commit.afterCreate; split <;> rfl

@[simp] theorem Commit.first_commit? (c : Commit) : c.first.commit? = some c := by
  unfold Commit.first; split
  · exact Commit.afterCreate_commit? c
  · rfl

@[simp] theorem Commit.first_ne_ended (c : Commit) (e : WorkerEnd) : c.first ≠ .ended e := by
  intro h; have := c.first_commit?; simp [h, At.commit?] at this

@[simp] theorem Commit.first_ne_joined (c : Commit) (e : WorkerEnd) : c.first ≠ .joined e := by
  intro h; have := c.first_commit?; simp [h, At.commit?] at this

/-- A worker that ended normally, or is inside a commit, has handed its buffer to the commit;
one that ended normally, or is inside its last commit, has seen the batcher run dry. -/
structure Tidy (p : Pool σ) : Prop where
  committing : ∀ w ∈ p.workers, ∀ c, w.at_.commit? = some c →
    w.buffer.isEmpty = true ∧ (c.last = true → p.batcher.exhausted = true)
  done : ∀ w ∈ p.workers, w.at_ = .ended .done ∨ w.at_ = .joined .done →
    w.buffer.isEmpty = true ∧ p.batcher.exhausted = true

theorem Advances.exhausted {r b w'} (ha : p.Advances i w r b w') (h : p.batcher.exhausted = true) :
    b.exhausted = true := by
  cases ha with
  | sourceFault _ _ hn | drained _ _ hn | openFault _ _ hn | take _ _ hn =>
    exact Batcher.next_exhausted hn h
  | handBack => simpa using h
  | _ => exact h

theorem Advances.tidy {r b w'} (ha : p.Advances i w r b w')
    (hc : ∀ c, w.at_.commit? = some c → w.buffer.isEmpty = true ∧ (c.last = true → p.batcher.exhausted = true))
    (hd : w.at_ = .ended .done ∨ w.at_ = .joined .done → w.buffer.isEmpty = true ∧ p.batcher.exhausted = true) :
    (∀ c, w'.at_.commit? = some c → w'.buffer.isEmpty = true ∧ (c.last = true → b.exhausted = true)) ∧
      (w'.at_ = .ended .done ∨ w'.at_ = .joined .done → w'.buffer.isEmpty = true ∧ b.exhausted = true) := by
  cases ha with
  | drained _ _ hn =>
    have hb := Batcher.next_none_exhausted hn
    split
    next he => exact ⟨fun c hc => by simp [At.commit?] at hc, fun _ => ⟨he, hb⟩⟩
    next => exact ⟨fun c _ => ⟨rfl, fun _ => hb⟩, fun hd => by simp [Worker.startCommit] at hd⟩
  | handBack =>
    split
    next =>
      refine ⟨fun c hc => ⟨rfl, fun hl => ?_⟩, fun hd => by simp [Worker.startCommit] at hd⟩
      simp only [Worker.startCommit, Commit.first_commit?, Option.some.injEq] at hc
      subst hc; cases hl
    next => exact ⟨fun c hc => by simp [At.commit?] at hc, fun hd => by simp at hd⟩
  | ruleFault _ _ _ happ =>
    refine ⟨fun c hc => by simp [At.commit?] at hc, fun hd => ?_⟩
    have := WorkerEnd.ne_done_of_fault (Run.applyRules_error_fault happ)
    simp_all
  | created hat =>
    obtain ⟨hbuf, hlast⟩ := hc _ (by rw [hat]; rfl)
    refine ⟨fun c' hc' => ?_, fun hd => ?_⟩
    · simp only [Commit.afterCreate_commit?, Option.some.injEq] at hc'
      subst hc'
      exact ⟨hbuf, hlast⟩
    · simp only [Commit.afterCreate] at hd; split at hd <;> simp at hd
  | merged hat | backOff hat | resume hat =>
    obtain ⟨hbuf, hlast⟩ := hc _ (by rw [hat]; rfl)
    refine ⟨fun c' hc' => ?_, fun hd => by simp at hd⟩
    simp only [At.commit?, Option.some.injEq] at hc'
    subst hc'
    exact ⟨hbuf, hlast⟩
  | close hat =>
    obtain ⟨hbuf, hlast⟩ := hc _ (by rw [hat]; rfl)
    split
    next hl => exact ⟨fun c' hc' => by simp [At.commit?] at hc', fun _ => ⟨hbuf, hlast hl⟩⟩
    next => exact ⟨fun c' hc' => by simp [At.commit?] at hc', fun hd => by simp at hd⟩
  | wait | ended | joined => exact ⟨hc, hd⟩
  | _ => exact ⟨fun c hc => by simp [At.commit?] at hc, fun hd => by simp at hd⟩

theorem tidy_step (h : p.Tidy) (hw : p.workers[i]? = some w) : (p.workerStep i w).Tidy := by
  obtain ⟨r, b, w', ha, heq⟩ := workerStep_advances hw
  rw [heq]
  have hw' := List.mem_of_getElem? hw
  obtain ⟨hc', hd'⟩ := ha.tidy (h.committing w hw') (h.done w hw')
  constructor
  · intro v hv c hc
    rcases List.mem_or_eq_of_mem_set hv with hv | rfl
    · exact (h.committing v hv c hc).imp_right fun hl hlast => ha.exhausted (hl hlast)
    · exact hc' c hc
  · intro v hv hd
    rcases List.mem_or_eq_of_mem_set hv with hv | rfl
    · exact (h.done v hv hd).imp_right ha.exhausted
    · exact hd' hd

omit [GraphStore σ] in
theorem tidy_join (h : p.Tidy) : (p.join i).Tidy := by
  unfold join
  split
  next w hw =>
    split
    next e hat =>
      have hw' := List.mem_of_getElem? hw
      constructor
      · intro v hv c hc
        simp only [receive_workers, receive_batcher, setWorker] at hv ⊢
        rcases List.mem_or_eq_of_mem_set hv with hv | rfl
        · exact h.committing v hv c hc
        · cases hc
      · intro v hv hd
        simp only [receive_workers, receive_batcher, setWorker] at hv ⊢
        rcases List.mem_or_eq_of_mem_set hv with hv | rfl
        · exact h.done v hv hd
        · simp only [At.joined.injEq, reduceCtorEq, false_or] at hd
          subst hd
          exact h.done w hw' (.inl hat)
    next => exact h
  next => exact h

theorem Tidy.move (h : p.Tidy) : ∀ m, (p.move m).Tidy :=
  move_cases h (fun _ _ hw => tidy_step h hw) (fun _ => tidy_join h) (fun _ => ⟨h.committing, h.done⟩)
    ⟨h.committing, h.done⟩ fun _ => ⟨h.committing, h.done⟩

/-! ## Counting batches -/

/-- The batches a worker took: those it processed to their end, and the one it is inside. -/
def Worker.taken (w : Worker) : Nat :=
  w.batches + match w.at_ with
    | .batch .. => 1
    | _ => 0

/-- The batches a worker may have taken: one more when it ended otherwise than normally, having
maybe dropped a batch. -/
def Worker.charged (w : Worker) : Nat :=
  w.taken + match w.at_ with
    | .ended e | .joined e => if e.normal then 0 else 1
    | _ => 0

/-- The batches handed out since the count `n₀` are those the workers took, up to one for each
worker that ended otherwise than normally. -/
structure Counted (n₀ : Nat) (p : Pool σ) : Prop where
  taken_le : n₀ + (p.workers.map Worker.taken).sum ≤ p.batcher.dispatched
  le_charged : p.batcher.dispatched ≤ n₀ + (p.workers.map Worker.charged).sum

theorem Worker.taken_of_commit? {w : Worker} {c : Commit} (h : w.at_.commit? = some c) :
    w.taken = w.batches := by
  unfold Worker.taken; split <;> simp_all [At.commit?]

theorem Worker.charged_of_commit? {w : Worker} {c : Commit} (h : w.at_.commit? = some c) :
    w.charged = w.batches := by
  unfold Worker.charged; rw [Worker.taken_of_commit? h]; split <;> simp_all [At.commit?]

@[simp] theorem Worker.taken_startCommit (w : Worker) (last : Bool) :
    (w.startCommit last).taken = w.batches :=
  Worker.taken_of_commit? (Commit.first_commit? _)

@[simp] theorem Worker.charged_startCommit (w : Worker) (last : Bool) :
    (w.startCommit last).charged = w.batches :=
  Worker.charged_of_commit? (Commit.first_commit? _)

theorem Advances.counts {r b w'} (ha : p.Advances i w r b w') :
    ∃ d, b.dispatched = p.batcher.dispatched + d ∧ w'.taken ≤ w.taken + d ∧
      w.charged + d ≤ w'.charged := by
  cases ha with
  | stopAtTop hat | stopInBatch hat | cutShort hat =>
    exact ⟨0, rfl, by simp [Worker.taken, hat],
      by simp [Worker.charged, Worker.taken, hat, WorkerEnd.normal]⟩
  | sourceFault hat _ hn =>
    exact ⟨0, by simpa [Batcher.dispatched] using Batcher.next_nextIndex hn, by simp [Worker.taken, hat],
      by simp [Worker.charged, Worker.taken, hat, WorkerEnd.normal]⟩
  | drained hat _ hn =>
    refine ⟨0, by simpa [Batcher.dispatched] using Batcher.next_nextIndex hn, ?_⟩
    split
    · simp [Worker.charged, Worker.taken, hat, WorkerEnd.normal]
    · rw [Worker.taken_startCommit, Worker.charged_startCommit]
      simp [Worker.charged, Worker.taken, hat]
  | openFault hat _ hn =>
    exact ⟨1, by simpa [Batcher.dispatched] using Batcher.next_nextIndex hn, by simp [Worker.taken, hat],
      by simp [Worker.charged, Worker.taken, hat, WorkerEnd.normal]⟩
  | take hat _ hn =>
    exact ⟨1, by simpa [Batcher.dispatched] using Batcher.next_nextIndex hn, by simp [Worker.taken, hat],
      by simp [Worker.charged, Worker.taken, hat]⟩
  | handBack hat =>
    refine ⟨0, by simp [Batcher.dispatched], ?_⟩
    split
    · rw [Worker.taken_startCommit, Worker.charged_startCommit]
      simp [Worker.charged, Worker.taken, hat]
    · simp [Worker.charged, Worker.taken, hat]
  | ruleFault hat _ _ happ =>
    have hne := WorkerEnd.ne_done_of_fault (Run.applyRules_error_fault happ)
    refine ⟨0, rfl, by simp [Worker.taken, hat], ?_⟩
    have : ∀ e : WorkerEnd, e ≠ .done → e.normal = false := by
      intro e he; cases e <;> simp_all [WorkerEnd.normal]
    simp [Worker.charged, Worker.taken, hat, this _ hne]
  | apply hat | pass hat | merged hat | backOff hat | resume hat =>
    exact ⟨0, rfl, by simp [Worker.taken, hat], by simp [Worker.charged, Worker.taken, hat]⟩
  | @created c _ _ _ hat =>
    have hc : ({ w with at_ := { c with uncounted := 0 }.afterCreate } : Worker).at_.commit? = some _ :=
      Commit.afterCreate_commit? _
    refine ⟨0, rfl, ?_⟩
    rw [Worker.taken_of_commit? hc, Worker.charged_of_commit? hc]
    simp [Worker.charged, Worker.taken, hat]
  | gaveUp hat =>
    exact ⟨0, rfl, by simp [Worker.taken, hat],
      by simp [Worker.charged, Worker.taken, hat, WorkerEnd.normal]⟩
  | close hat =>
    refine ⟨0, rfl, ?_⟩
    split <;> simp [Worker.charged, Worker.taken, hat, WorkerEnd.normal]
  | wait | ended | joined => exact ⟨0, rfl, le_refl _, le_refl _⟩

theorem counted_step {n₀ : Nat} (h : p.Counted n₀) (hw : p.workers[i]? = some w) :
    (p.workerStep i w).Counted n₀ := by
  obtain ⟨r, b, w', ha, heq⟩ := workerStep_advances hw
  rw [heq]
  obtain ⟨d, hd, htaken, hcharged⟩ := ha.counts
  have ht := sum_map_set Worker.taken w' hw
  have hc := sum_map_set Worker.charged w' hw
  have h₁ := h.taken_le
  have h₂ := h.le_charged
  constructor
  · show n₀ + ((p.workers.set i w').map Worker.taken).sum ≤ b.dispatched
    omega
  · show b.dispatched ≤ n₀ + ((p.workers.set i w').map Worker.charged).sum
    omega

omit [GraphStore σ] in
theorem counted_join {n₀ : Nat} (h : p.Counted n₀) : (p.join i).Counted n₀ := by
  unfold join
  split
  next w hw =>
    split
    next e hat =>
      -- joining changes neither what the worker took nor what it may have dropped
      have ht := sum_map_set Worker.taken { w with at_ := .joined e } hw
      have hc := sum_map_set Worker.charged { w with at_ := .joined e } hw
      have het : ({ w with at_ := .joined e } : Worker).taken = w.taken := by
        simp [Worker.taken, hat]
      have hec : ({ w with at_ := .joined e } : Worker).charged = w.charged := by
        simp [Worker.charged, Worker.taken, hat]
      have h₁ := h.taken_le
      have h₂ := h.le_charged
      constructor
      · simp only [receive_workers, receive_batcher, setWorker]
        omega
      · simp only [receive_workers, receive_batcher, setWorker]
        omega
    next => exact h
  next => exact h

theorem Counted.move {n₀ : Nat} (h : p.Counted n₀) : ∀ m, (p.move m).Counted n₀ :=
  move_cases h (fun _ _ hw => counted_step h hw) (fun _ => counted_join h) (fun _ => ⟨h.taken_le, h.le_charged⟩)
    ⟨h.taken_le, h.le_charged⟩ fun _ => ⟨h.taken_le, h.le_charged⟩

section Start

omit [GraphStore σ]

variable (n : Nat) (r : Run σ) (ph : Phase) (b : Batcher) (hint : Option Nat)

theorem accounted_start : (start n r ph b hint).Accounted where
  firstError_eq := rfl
  stop_aborting h := by cases h
  ended w hw e he := by
    obtain rfl := List.eq_of_mem_replicate hw
    cases he
  received e he := by cases he
  received_perm := by simp [start, Worker.joinedEnd]

theorem tidy_start : (start n r ph b hint).Tidy where
  committing w hw c hc := by
    obtain rfl := List.eq_of_mem_replicate hw
    cases hc
  done w hw hd := by
    obtain rfl := List.eq_of_mem_replicate hw
    simp at hd

theorem counted_start : (start n r ph b hint).Counted b.dispatched where
  taken_le := by simp [start, Worker.taken]
  le_charged := by simp [start]

end Start

omit [GraphStore σ] in
theorem finished_joined (h : p.finished = true) : ∀ w ∈ p.workers, ∃ e, w.at_ = .joined e := by
  intro w hw
  have hw := List.all_eq_true.mp h w hw
  simp only [Bool.and_eq_true, Bool.not_eq_true', Worker.running, Worker.awaitsJoin] at hw
  obtain ⟨hr, ha⟩ := hw
  split at hr
  next e hat => simp [hat] at ha
  next e hat => exact ⟨e, hat⟩
  next => cases hr

omit [GraphStore σ] in
theorem Accounted.all_done (h : p.Accounted) (hfin : p.finished = true) (hf : p.firstError = none)
    (hc : p.run.world.cancelled = false) : ∀ w ∈ p.workers, w.at_ = .joined .done := by
  intro w hw
  obtain ⟨e, hat⟩ := finished_joined hfin w hw
  have he : e ∈ p.received :=
    h.received_perm.symm.subset (List.mem_filterMap.mpr ⟨w, hw, by simp [Worker.joinedEnd, hat]⟩)
  rcases h.received e he with rfl | hfault | habort
  · exact hat
  · -- a fault received is kept
    rw [h.firstError_eq, List.findSome?_eq_none_iff] at hf
    simp [hf e he] at hfault
  · rcases habort with hs | hs <;> simp_all

/-- How a phase that started from run `r` and batcher `b` has ended, once every worker has been
joined: the first fault of a worker's own decides it, else a tripped token makes it fail as
cancelled; a failing phase leaves the converter aborted and its completed phases as they were;
and a phase that ends normally had every worker end normally with its buffer committed, and the
workers process every batch the batcher handed out. -/
structure Verdict (q : Pool σ) (r : Run σ) (b : Batcher) : Prop where
  joined : ∀ w ∈ q.workers, ∃ e, w.at_ = .joined e
  received_perm : q.received.Perm (q.workers.filterMap Worker.joinedEnd)
  fault : ∀ err, q.received.findSome? (·.fault false) = some err →
    q.outcome.2 = .error err ∧ err.isCancelled = false
  cancelled : q.received.findSome? (·.fault false) = none → q.run.world.cancelled = true →
    q.outcome.2 = .error .cancelled
  aborted : ∀ err, q.outcome.2 = .error err →
    q.outcome.1.conv.state = .aborted ∧ q.outcome.1.conv.completed = r.conv.completed
  ok : ∀ b', q.outcome.2 = .ok b' → b' = q.batcher ∧
    (∀ w ∈ q.workers, w.at_ = .joined .done ∧ w.buffer.isEmpty = true) ∧
    b'.exhausted = true ∧ b'.dispatched = b.dispatched + (q.workers.map (·.batches)).sum

/-- Every phase, with any number of workers and under any schedule after which every worker has
been joined, ends as `Verdict` says. -/
theorem phase_outcome {n : Nat} (hn : 0 < n) (r : Run σ) (ph : Phase) (b : Batcher)
    (hint : Option Nat) (ms : List Move) (hfin : ((start n r ph b hint).play ms).finished = true) :
    ((start n r ph b hint).play ms).Verdict r b := by
  set q := (start n r ph b hint).play ms
  have hacc : q.Accounted := play_induction (fun _ m h => h.move m) ms (accounted_start n r ph b hint)
  have htidy : q.Tidy := play_induction (fun _ m h => h.move m) ms (tidy_start n r ph b hint)
  have hcount : q.Counted b.dispatched :=
    play_induction (fun _ m h => h.move m) ms (counted_start n r ph b hint)
  have hcompleted : q.run.conv.completed = r.conv.completed :=
    play_induction (P := fun q => q.run.conv.completed = r.conv.completed)
      (fun q m h => (move_completed q m).trans h) ms rfl
  have hlength : q.workers.length = n :=
    play_induction (P := fun q => q.workers.length = n)
      (fun q m h => (move_length q m).trans h) ms (by simp [start])
  refine ⟨finished_joined hfin, hacc.received_perm, ?_, ?_, ?_, ?_⟩
  · intro err herr
    rw [← hacc.firstError_eq] at herr
    refine ⟨by simp [outcome, herr], ?_⟩
    -- the kept fault is some end's own fault, and an end's own fault is never a cancellation
    rw [hacc.firstError_eq, List.findSome?_eq_some_iff] at herr
    obtain ⟨_, _, _, _, he, _⟩ := herr
    exact WorkerEnd.fault_not_cancelled he
  · intro hnone hc
    rw [← hacc.firstError_eq] at hnone
    simp [outcome, hnone, hc]
  · intro err herr
    unfold outcome at herr ⊢
    split
    · exact ⟨rfl, hcompleted⟩
    · split
      · exact ⟨rfl, hcompleted⟩
      · split at herr <;> simp_all
  · intro b' hok
    unfold outcome at hok
    split at hok
    · cases hok
    next hf =>
      split at hok
      · cases hok
      next hc =>
        cases hok
        have hdone := hacc.all_done hfin hf (by simpa using hc)
        -- each worker ended normally: its buffer is empty and its batches were all processed
        have hbuf : ∀ w ∈ q.workers, w.at_ = .joined .done ∧ w.buffer.isEmpty = true :=
          fun w hw => ⟨hdone w hw, (htidy.done w hw (.inr (hdone w hw))).1⟩
        obtain ⟨w, hw⟩ : ∃ w, w ∈ q.workers := List.exists_mem_of_length_pos (by omega)
        have hsum : ∀ f : Worker → Nat, (∀ w ∈ q.workers, f w = w.batches) →
            (q.workers.map f).sum = (q.workers.map (·.batches)).sum :=
          fun f hf => congrArg List.sum (List.map_congr_left hf)
        have ht := hsum Worker.taken fun w hw => by simp [Worker.taken, hdone w hw]
        have hc' := hsum Worker.charged fun w hw => by
          simp [Worker.charged, Worker.taken, hdone w hw, WorkerEnd.normal]
        refine ⟨rfl, hbuf, (htidy.done w hw (.inr (hdone w hw))).2, ?_⟩
        have := hcount.taken_le
        have := hcount.le_charged
        simp only [Batcher.dispatched] at *
        omega

/-- The node phase run again on one worker by a converter that completed it before: the one
record builds a keyed node, and the write that would merge it, the second of the store's life,
fails under the fault plan with one attempt allowed. -/
def failingRerun : Run Store :=
  let keyed : NodeRule :=
    { id := "n", labels := ["N"], properties := [("k", .field "k" none)], primaryKey := some "k" }
  { conv := { config := { retry := { attempts := 1, backoffMs := 0 } },
              rules := { entries := [("R", { nodes := .nodeRules [keyed] })] }, completed := [.node] },
    world := { store := .memory Graph.empty, plan := { failWrites := [2] }, writes := 1,
               source := .items [.ok failingRerun.record] } }
where
  record : Record := { recordType := "R", fields := Props.empty.insert "k" (.int 1), identifying := ["k"] }

/-- The batcher of the rerun. -/
def failingRerun.batcher : Batcher := Batcher.ofItems [.ok failingRerun.record] .shared false

/-- The rerun's worker takes the batch, applies the rules, hands the batch back, tries the merge
and is joined. -/
def failingRerun.pool : Pool Store :=
  (start 1 failingRerun .node failingRerun.batcher none).play [.step 0, .step 0, .step 0, .step 0, .join 0]

theorem failingRerun_verdict :
    0 < 1 ∧ failingRerun.pool.finished = true ∧ failingRerun.pool.Verdict failingRerun failingRerun.batcher := by
  have hfin : failingRerun.pool.finished = true := by decide
  exact ⟨by decide, hfin, phase_outcome (by decide) _ _ _ _ _ hfin⟩

/-- A phase that fails does not take its phase off the converter's completed phases: the rerun
fails on its write, and the node phase stays listed as completed. -/
theorem failed_rerun_stays_completed :
    failingRerun.pool.finished = true ∧
      (match failingRerun.pool.outcome.2 with
        | .error e => some e.message
        | .ok _ => none) = some "node commit failed after 1 attempt(s): Transient store failure: injected" ∧
      Phase.node ∈ failingRerun.pool.outcome.1.conv.completed := by
  decide

end Pool

end GraphIngest
