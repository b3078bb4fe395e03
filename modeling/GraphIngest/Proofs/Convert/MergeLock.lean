import GraphIngest.Proofs.Convert.Abort

/-! # Merges never overlap

A merge, and a create whose fragment carries relationships, may meet a node another worker is
merging, so such commit parts are written under the phase's one merge lock, taken with the first
try of the part and kept through every pause and later try (`Worker.holdsLock`). `LockSafe` is the
invariant: tries are numbered from one, and at most one worker holds the lock. Every move keeps
it, and read through the workers' places in their loops (`Retrying`) it says that only creates of
nodes alone are written while another worker is inside a locked part
(`merge_writes_serialized`).
-/

namespace GraphIngest

open Run (WorkerEnd)

namespace Pool

variable {σ : Type} [GraphStore σ]

/-! ## Holding the lock -/

/-- Whether worker `i` holds the merge lock. -/
def holds (p : Pool σ) (i : Nat) : Bool :=
  match p.workers[i]? with
  | some w => w.holdsLock
  | none => false

/-- Worker `i` is inside a commit part that takes the merge lock, past its first try: pausing
after a failed try, or about to try again. -/
def Retrying (p : Pool σ) (i : Nat) : Prop :=
  ∃ w c k a, p.workers[i]? = some w ∧ c.locked k = true ∧
    (w.at_ = .pause c k a ∨ (w.at_ = .write c k a ∧ 2 ≤ a))

/-- Tries are numbered from one, and a pause comes before a second try or a later one. -/
def At.Numbered : At → Prop
  | .write _ _ a => 1 ≤ a
  | .pause _ _ a => 2 ≤ a
  | _ => True

/-- The invariant of the merge lock: tries numbered from one, and at most one worker holding it. -/
structure LockSafe (p : Pool σ) : Prop where
  numbered : ∀ w ∈ p.workers, w.at_.Numbered
  single : ∀ i j, p.holds i = true → p.holds j = true → i = j

variable {p : Pool σ} {i : Nat} {w : Worker}

omit [GraphStore σ] in
theorem retrying_iff : p.Retrying i ↔ p.holds i = true := by
  unfold Retrying holds
  constructor
  · rintro ⟨w, c, k, a, hw, hl, hat | ⟨hat, ha⟩⟩
    · simp [hw, Worker.holdsLock, hat, hl]
    · simp [hw, Worker.holdsLock, hat, hl, ha]
  · split
    next w hw =>
      intro h
      unfold Worker.holdsLock at h
      split at h
      next c k a hat => simp only [Bool.and_eq_true, decide_eq_true_eq] at h; exact ⟨w, c, k, a, hw, h.1, .inr ⟨hat, h.2⟩⟩
      next c k a hat => exact ⟨w, c, k, a, hw, h, .inl hat⟩
      next => cases h
    next => intro h; cases h

omit [GraphStore σ] in
theorem lockFree_iff : p.lockFree i = true ↔ ∀ j, j ≠ i → p.holds j = false := by
  constructor
  · intro h j hj
    unfold holds
    split
    next v hv =>
      have := List.all_eq_true.mp h (v, j) (List.mem_zipIdx_iff_getElem?.mpr hv)
      simpa [hj] using this
    next => rfl
  · intro h
    refine List.all_eq_true.mpr fun ⟨v, j⟩ hmem => ?_
    have hv : p.workers[j]? = some v := List.mem_zipIdx_iff_getElem?.mp hmem
    by_cases hj : j = i
    · simp [hj]
    · have := h j hj
      simp only [holds, hv] at this
      simp [this]

omit [GraphStore σ] in
theorem holds_set (r : Run σ) (b : Batcher) (w' : Worker) (hw : p.workers[i]? = some w) (j : Nat) :
    ({ p with run := r, batcher := b, workers := p.workers.set i w' } : Pool σ).holds j =
      if j = i then w'.holdsLock else p.holds j := by
  have hi : i < p.workers.length := (List.getElem?_eq_some_iff.mp hw).1
  by_cases hj : j = i
  · subst hj
    simp [holds, List.getElem?_set_self hi]
  · simp [holds, List.getElem?_set_ne (Ne.symm hj), hj]

@[simp] theorem Commit.afterCreate_numbered (c : Commit) : c.afterCreate.Numbered := by
  unfold Commit.afterCreate; split <;> simp [At.Numbered]

@[simp] theorem Commit.first_numbered (c : Commit) : c.first.Numbered := by
  unfold Commit.first; split
  · exact c.afterCreate_numbered
  · simp [At.Numbered]

theorem Commit.holdsLock_afterCreate {w : Worker} {c : Commit} (h : w.at_ = c.afterCreate) :
    w.holdsLock = false := by
  unfold Commit.afterCreate at h
  unfold Worker.holdsLock
  split at h <;> simp [h]

@[simp] theorem Worker.holdsLock_startCommit (w : Worker) (last : Bool) :
    (w.startCommit last).holdsLock = false := by
  unfold Worker.startCommit Commit.first
  split
  · exact Commit.holdsLock_afterCreate rfl
  · simp [Worker.holdsLock]

/-! ## One step -/

theorem Advances.numbered {r b w'} (ha : p.Advances i w r b w') (hn : w.at_.Numbered) : w'.at_.Numbered := by
  cases ha with
  | drained =>
    split
    · simp [At.Numbered]
    · simp [Worker.startCommit]
  | handBack =>
    split
    · simp [Worker.startCommit]
    · simp [At.Numbered]
  | created => simp
  | backOff hat =>
    rw [hat] at hn
    simp only [At.Numbered] at hn ⊢
    omega
  | resume hat =>
    rw [hat] at hn
    simp only [At.Numbered] at hn ⊢
    omega
  | close => split <;> simp [At.Numbered]
  | wait | ended | joined => exact hn
  | _ => simp [At.Numbered]

theorem Advances.holdsLock {r b w'} (ha : p.Advances i w r b w') (hn : w.at_.Numbered)
    (h : w'.holdsLock = true) : w.holdsLock = true ∨ p.lockFree i = true := by
  cases ha with
  | @backOff c k a _ _ hat hl =>
    -- the pause after a failed try keeps the lock the try was made under
    simp only [Worker.holdsLock] at h
    rw [hat] at hn
    simp only [At.Numbered] at hn
    by_cases ha2 : 2 ≤ a
    · left
      simp [Worker.holdsLock, hat, h, ha2]
    · right
      simpa [h, show a ≤ 1 by omega] using hl
  | resume hat =>
    left
    simp only [Worker.holdsLock, hat] at h ⊢
    simp only [Bool.and_eq_true] at h
    exact h.1
  | drained =>
    split at h
    · simp [Worker.holdsLock] at h
    · simp at h
  | handBack =>
    split at h
    · simp at h
    · simp [Worker.holdsLock] at h
  | created =>
    rw [Commit.holdsLock_afterCreate rfl] at h
    cases h
  | close => split at h <;> simp [Worker.holdsLock] at h
  | wait | ended | joined => exact .inl h
  | _ => simp [Worker.holdsLock] at h

theorem Advances.guard_of_write {r b w' c k a} (ha : p.Advances i w r b w') (hat : w.at_ = .write c k a)
    (hwr : r.world.writes ≠ p.run.world.writes) : (c.locked k && decide (a ≤ 1) && !p.lockFree i) = false := by
  cases ha with
  | wait => exact absurd rfl hwr
  | created hat' hl | merged hat' hl | gaveUp hat' hl | backOff hat' hl =>
    rw [hat] at hat'
    cases hat'
    exact hl
  | _ => simp_all

section Moves

theorem lockSafe_step (h : p.LockSafe) (hw : p.workers[i]? = some w) : (p.workerStep i w).LockSafe := by
  obtain ⟨r, b, w', ha, heq⟩ := workerStep_advances hw
  rw [heq]
  have hn := h.numbered w (List.mem_of_getElem? hw)
  refine ⟨fun v hv => ?_, fun j k hj hk => ?_⟩
  · rcases List.mem_or_eq_of_mem_set hv with hv | rfl
    · exact h.numbered v hv
    · exact ha.numbered hn
  rw [holds_set r b w' hw] at hj hk
  -- a worker that took the lock did so with no other worker holding it
  have hother : w'.holdsLock = true → ∀ l, l ≠ i → p.holds l = true → False := by
    intro hl l hli hhl
    rcases ha.holdsLock hn hl with hi | hfree
    · exact hli (h.single l i hhl (by simp [holds, hw, hi]))
    · rw [(lockFree_iff.mp hfree l hli)] at hhl
      cases hhl
  by_cases hji : j = i <;> by_cases hki : k = i
  · rw [hji, hki]
  · simp only [hji, if_true] at hj
    simp only [hki, if_false] at hk
    exact (hother hj k hki hk).elim
  · simp only [hki, if_true] at hk
    simp only [hji, if_false] at hj
    exact (hother hk j hji hj).elim
  · simp only [hji, hki, if_false] at hj hk
    exact h.single j k hj hk

omit [GraphStore σ] in
theorem lockSafe_join (h : p.LockSafe) : (p.join i).LockSafe := by
  rcases join_eq (p := p) (i := i) with heq | ⟨v, e, hv, hat, heq⟩
  · rw [heq]; exact h
  rw [heq]
  have hi : i < p.workers.length := (List.getElem?_eq_some_iff.mp hv).1
  -- a joined worker holds nothing, and the others are as they were
  have hholds : ∀ j, ((p.setWorker i { v with at_ := .joined e }).receive e).holds j =
      if j = i then false else p.holds j := by
    intro j
    by_cases hj : j = i
    · subst hj
      simp [holds, setWorker, List.getElem?_set_self hi, Worker.holdsLock]
    · simp [holds, setWorker, List.getElem?_set_ne (Ne.symm hj), hj]
  refine ⟨fun u hu => ?_, fun j k hj hk => ?_⟩
  · simp only [receive_workers, setWorker] at hu
    rcases List.mem_or_eq_of_mem_set hu with hu | rfl
    · exact h.numbered u hu
    · simp [At.Numbered]
  · rw [hholds] at hj hk
    by_cases hji : j = i
    · simp [hji] at hj
    by_cases hki : k = i
    · simp [hki] at hk
    simp only [hji, hki, if_false] at hj hk
    exact h.single j k hj hk

theorem LockSafe.move (h : p.LockSafe) : ∀ m, (p.move m).LockSafe :=
  move_cases h (fun _ _ hw => lockSafe_step h hw) (fun _ => lockSafe_join h) (fun _ => ⟨h.numbered, h.single⟩)
    ⟨h.numbered, h.single⟩ fun _ => ⟨h.numbered, h.single⟩

omit [GraphStore σ] in
theorem lockSafe_start (n : Nat) (r : Run σ) (ph : Phase) (b : Batcher) (hint : Option Nat) :
    (start n r ph b hint).LockSafe where
  numbered w hw := by
    obtain rfl := List.eq_of_mem_replicate hw
    simp [At.Numbered]
  single i j hi _ := by
    simp only [holds, start] at hi
    split at hi
    next w hw =>
      obtain rfl := List.eq_of_mem_replicate (List.mem_of_getElem? hw)
      cases hi
    next => cases hi

theorem LockSafe.alone {c : Commit} {k : WriteKind} {a : Nat} (h : p.LockSafe) (hw : p.workers[i]? = some w)
    (hat : w.at_ = .write c k a) (hl : c.locked k = true)
    (hwr : (p.workerStep i w).run.world.writes ≠ p.run.world.writes) {j : Nat} (hj : j ≠ i) :
    p.holds j = false ∧ (p.workerStep i w).holds j = false := by
  obtain ⟨r, b, w', ha, heq⟩ := workerStep_advances hw
  rw [heq] at hwr ⊢
  have hguard := ha.guard_of_write hat hwr
  have hbefore : p.holds j = false := by
    by_cases ha1 : a ≤ 1
    · -- a first try: the guard saw no other worker holding the lock
      have hfree : p.lockFree i = true := by simpa [hl, ha1] using hguard
      exact lockFree_iff.mp hfree j hj
    · -- a later try: the worker holds the lock itself
      have hown : p.holds i = true := by
        simp [holds, hw, Worker.holdsLock, hat, hl, show 2 ≤ a by omega]
      cases hhj : p.holds j
      · rfl
      · exact absurd (h.single j i hhj hown) hj
  refine ⟨hbefore, ?_⟩
  rw [holds_set r b w' hw, if_neg hj]
  exact hbefore

end Moves

/-! ## The end of a phase -/

theorem move_of_finished (hfin : p.finished = true) :
    ∀ m, (p.move m).workers = p.workers ∧ (p.move m).run.world.writes = p.run.world.writes := by
  have hjoined := finished_joined hfin
  refine move_cases (P := fun q => q.workers = p.workers ∧ q.run.world.writes = p.run.world.writes)
    ⟨rfl, rfl⟩ (fun _ w hw => ?_) (fun i => ?_) (fun _ => ⟨rfl, rfl⟩) ⟨rfl, rfl⟩ fun _ => ⟨rfl, rfl⟩
  · -- every worker has been joined, so a step leaves it as it is
    obtain ⟨e, hat⟩ := hjoined w (List.mem_of_getElem? hw)
    simp [workerStep, hat]
  · rcases join_eq (p := p) (i := i) with heq | ⟨v, e, hv, hat, -⟩
    · rw [heq]; exact ⟨rfl, rfl⟩
    · obtain ⟨e', hat'⟩ := hjoined v (List.mem_of_getElem? hv)
      rw [hat] at hat'
      cases hat'

theorem play_of_finished (hfin : p.finished = true) :
    ∀ ms, (p.play ms).workers = p.workers ∧ (p.play ms).run.world.writes = p.run.world.writes := by
  intro ms
  induction ms generalizing p with
  | nil => exact ⟨rfl, rfl⟩
  | cons m ms ih =>
    obtain ⟨hws, hwr⟩ := move_of_finished hfin m
    have hfin' : (p.move m).finished = true := by
      simp only [finished, hws]
      exact hfin
    obtain ⟨hws', hwr'⟩ := ih hfin'
    exact ⟨hws'.trans hws, hwr'.trans hwr⟩

omit [GraphStore σ] in
theorem holds_of_finished (hfin : p.finished = true) (i : Nat) : p.holds i = false := by
  unfold holds
  split
  next w hw =>
    obtain ⟨e, hat⟩ := finished_joined hfin w (List.mem_of_getElem? hw)
    simp [Worker.holdsLock, hat]
  next => rfl

/-- **Merges never overlap.** Under any schedule of a phase, at every point at most one worker is
between two tries of a part that takes the merge lock, and a try made while another worker is
there is a create of nodes alone. Once every worker has been joined, no worker of the phase
writes or is between two tries again, whatever moves follow. -/
theorem merge_writes_serialized (n : Nat) (r : Run σ) (ph : Phase) (b : Batcher) (hint : Option Nat)
    (ms : List Move) :
    let p := (start n r ph b hint).play ms
    (∀ i j, p.Retrying i → p.Retrying j → i = j) ∧
    (∀ i w c k a, p.workers[i]? = some w → w.at_ = .write c k a →
      (p.move (.step i)).run.world.writes ≠ p.run.world.writes →
      (∃ j, j ≠ i ∧ (p.Retrying j ∨ (p.move (.step i)).Retrying j)) →
      k = .create ∧ c.create.rels = []) ∧
    (p.finished = true → ∀ ms', (p.play ms').run.world.writes = p.run.world.writes ∧
      ∀ i, ¬ (p.play ms').Retrying i) := by
  intro p
  have hsafe : p.LockSafe := play_induction (fun _ m h => h.move m) ms (lockSafe_start n r ph b hint)
  refine ⟨fun i j hi hj => hsafe.single i j (retrying_iff.mp hi) (retrying_iff.mp hj), ?_, ?_⟩
  · intro i w c k a hw hat hwr hother
    obtain ⟨j, hj, hret⟩ := hother
    rw [move_step hw] at hwr hret
    -- a part that takes the lock would have been tried with no other worker holding it
    cases hl : c.locked k
    · cases k with
      | create => simpa [Commit.locked] using hl
      | merge => cases hl
    · obtain ⟨hbefore, hafter⟩ := hsafe.alone hw hat hl hwr hj
      rcases hret with hret | hret
      · rw [retrying_iff, hbefore] at hret; cases hret
      · rw [retrying_iff, hafter] at hret; cases hret
  · intro hfin ms'
    obtain ⟨hws, hwr⟩ := play_of_finished hfin ms'
    refine ⟨hwr, fun i hi => ?_⟩
    have hfin' : (p.play ms').finished = true := by
      simp only [finished, hws]
      exact hfin
    rw [retrying_iff, holds_of_finished hfin'] at hi
    cases hi

end Pool

end GraphIngest
