import Mathlib
import GraphIngest.Proofs.Convert.Sequential
import GraphIngest.Proofs.Convert.BufferSides
import GraphIngest.Proofs.Convert.Sealing
import GraphIngest.Store.Either

/-! # A serialized run is the sequential reference

With `serialize` set, a conversion runs one worker that takes one record per batch and commits as
soon as anything is buffered. Such a run is the sequential reference run (`Sequential.run`) under
the retry policy and the mode's envelope: same world, completed phases and result
(`serialized_run_eq_sequential`). The runs are aligned batch for record by three invariants: the
batcher will hand out the records still to come (`Batcher.Queue`), it keeps those handed back
(`Batcher.Keeps`), and the buffer holds only the count of records whose commit was put off because
they built nothing (`Counters.defer`).

In shared mode the envelope hands the records over as they are. In isolated mode it does not: a
parcel carries a non-finite double as null, so a record reaches the rules changed and the run
departs from the reference over the records as read (`infiniteField`).
-/

namespace GraphIngest

open GraphIngest.Sequential

/-! ## Batches, buffers and counters -/

/-- Counters with `k` more records counted as committed. -/
def Counters.defer (c : Counters) (k : Nat) : Counters :=
  { c with resourcesSeen := c.resourcesSeen + k }

namespace Counters

@[simp] theorem defer_zero (c : Counters) : c.defer 0 = c := rfl

theorem defer_defer (c : Counters) (k n : Nat) : (c.defer k).defer n = c.defer (k + n) := by
  simp only [defer, Nat.add_assoc]

theorem add_zero_zero (c : Counters) (n : Nat) : c.add n 0 0 = c.defer n := by
  simp only [add, defer, Nat.add_zero]

theorem countCommit_defer (c : Counters) (k n : Nat) (buf : CommitBuffer) :
    countCommit (c.defer k) n buf = countCommit c (k + n) buf := by
  simp only [countCommit, add, defer, Nat.add_assoc]

theorem add_add_eq_countCommit (c : Counters) (k : Nat) (buf : CommitBuffer) :
    (c.add k buf.create.nodes.length buf.create.rels.length).add 0 buf.merge.nodes.length
      buf.merge.rels.length = countCommit c k buf := by
  simp only [countCommit, add, Nat.add_zero, Nat.add_assoc]

end Counters

theorem Batch.records_make (i : Nat) (rs : List Record) (mode : WorkerMode) :
    (Batch.make i rs mode).records = envelope mode rs := by
  cases mode <;> rfl

theorem Parcel.unwrap_error_not_cancelled {bytes : String} {payload : Typed α} {e : ConvertError}
    (h : Parcel.unwrap bytes payload = .error e) : e.isCancelled = false := by
  unfold Parcel.unwrap at h
  cases hv : (Typed.whole Parcel.header bytes).mapError (fun e => ConvertError.codec e.message) with
  | error e' =>
    rw [hv] at h
    cases Except.error.inj h
    simp only [Except.mapError] at hv
    split at hv <;> cases hv
    rfl
  | ok v =>
    rw [hv] at h
    simp only [bind, Except.bind] at h
    split at h
    · cases Except.error.inj h
      rfl
    · simp only [Except.mapError] at h
      split at h <;> cases h
      rfl

theorem ConvertError.eq_cancelled {e : ConvertError} (h : e.isCancelled = true) :
    e = .cancelled := by
  cases e <;> simp_all [ConvertError.isCancelled]

theorem envelope_error_not_cancelled {mode : WorkerMode} {rs : List Record} {e : ConvertError}
    (h : envelope mode rs = .error e) : e.isCancelled = false := by
  cases mode with
  | shared => cases h
  | isolated => exact Parcel.unwrap_error_not_cancelled h

namespace Batcher

/-- The batcher will hand out, one per request for one record, batches opening as `gs` does on
the worker's side, and then none: its pass of records has those records still to come, or it
replays, keeping nothing, batches that open so. -/
def Queue (b : Batcher) (gs : List (List Record)) : Prop :=
  b.exhausted = false ∧
  match b.feed with
  | .stream items => ∃ rs : List Record, items = rs.map .ok ∧ gs = rs.map ([·])
  | .replay bs => b.retain = false ∧ bs.map Batch.records = gs.map (envelope b.mode)

/-- The batches a batcher keeps, if it keeps any, are those handed back so far, in order and
numbered below the next batch. -/
def Keeps (b : Batcher) (handed : List (List Record)) : Prop :=
  b.retain = true →
    b.kept.map Batch.records = handed.map (envelope b.mode) ∧ ∀ x ∈ b.kept, x.index < b.nextIndex

/-- How many batches the feed holds. -/
def feedLength (b : Batcher) : Nat :=
  match b.feed with
  | .stream items => items.length
  | .replay bs => bs.length

theorem Queue.length {b : Batcher} {gs : List (List Record)} (hq : b.Queue gs) :
    b.feedLength = gs.length := by
  obtain ⟨-, hf⟩ := hq
  unfold feedLength
  split at hf
  · obtain ⟨rs, rfl, rfl⟩ := hf
    simp
  · simpa using congrArg List.length hf.2

theorem Queue.next_nil {b : Batcher} (hq : b.Queue []) :
    (b.next 1).1 = .ok none ∧ (b.next 1).2.retain = b.retain ∧ (b.next 1).2.kept = b.kept ∧
      (b.next 1).2.nextIndex = b.nextIndex ∧ (b.next 1).2.mode = b.mode := by
  obtain ⟨hx, hf⟩ := hq
  unfold next
  rw [if_neg (by simp [hx])]
  split at hf
  · rename_i items heq
    obtain ⟨rs, rfl, hrs⟩ := hf
    have : rs = [] := List.map_eq_nil_iff.mp hrs.symm
    subst this
    simp [heq, takeRecords]
  · rename_i bs heq
    have : bs = [] := by simpa using hf.2
    subst this
    simp [heq]

/-- The next batch while records are left: a batch numbered as the batcher counts, opening as
the first of them; the batcher then has the rest to come. -/
theorem Queue.next_cons {b : Batcher} {g : List Record} {gs : List (List Record)}
    (hq : b.Queue (g :: gs)) :
    ∃ x b', b.next 1 = (.ok (some x), b') ∧ x.records = envelope b.mode g ∧
      (b.retain = true → x.index = b.nextIndex) ∧ b'.Queue gs ∧ b'.retain = b.retain ∧ b'.kept = b.kept ∧
      b'.nextIndex = b.nextIndex + 1 ∧ b'.mode = b.mode := by
  obtain ⟨hx, hf⟩ := hq
  unfold next
  rw [if_neg (by simp [hx])]
  split at hf
  · rename_i items heq
    obtain ⟨rs, rfl, hrs⟩ := hf
    cases rs with
    | nil => cases hrs
    | cons r rest =>
      obtain ⟨rfl, rfl⟩ := List.cons.inj hrs
      refine ⟨Batch.make b.nextIndex [r] b.mode,
        { b with feed := .stream (rest.map .ok), nextIndex := b.nextIndex + 1 },
        by simp [heq, takeRecords], Batch.records_make _ _ _, fun _ => rfl, ⟨hx, rest, rfl, rfl⟩,
        rfl, rfl, rfl, rfl⟩
  · rename_i bs heq
    obtain ⟨hkeep, hbs⟩ := hf
    cases bs with
    | nil => cases hbs
    | cons x rest =>
      obtain ⟨hxr, hrest⟩ := List.cons.inj hbs
      exact ⟨x, { b with feed := .replay rest, nextIndex := b.nextIndex + 1 }, by simp [heq], hxr,
        fun h => absurd h (by simp [hkeep]), ⟨hx, hkeep, hrest⟩, rfl, rfl, rfl, rfl⟩

theorem insert_of_lt {x : Batch} :
    ∀ {l : List Batch}, (∀ y ∈ l, y.index < x.index) → retainProcessed.insert x l = l ++ [x]
  | [], _ => rfl
  | y :: rest, h => by
    have hy : y.index < x.index := h y List.mem_cons_self
    have hx : ¬ x.index < y.index := by omega
    have hne : (x.index == y.index) = false := by simp only [beq_eq_false_iff_ne]; omega
    simp only [retainProcessed.insert, hx, if_false, hne, Bool.false_eq_true, List.cons_append]
    rw [insert_of_lt fun z hz => h z (List.mem_cons_of_mem _ hz)]

theorem Keeps.mono {b b' : Batcher} {handed : List (List Record)} (hk : b.Keeps handed)
    (hr : b'.retain = b.retain) (hkept : b'.kept = b.kept) (hm : b'.mode = b.mode)
    (hi : b.nextIndex ≤ b'.nextIndex) : b'.Keeps handed := by
  intro hret
  obtain ⟨hrec, hlt⟩ := hk (hr ▸ hret)
  refine ⟨by rw [hkept, hm, hrec], fun x hx => ?_⟩
  have := hlt x (hkept ▸ hx)
  omega

@[simp] theorem retainProcessed_mode (b : Batcher) (i : Nat) (rs : List Record) :
    (b.retainProcessed i rs).mode = b.mode := by
  unfold Batcher.retainProcessed; split <;> rfl

@[simp] theorem retainProcessed_nextIndex (b : Batcher) (i : Nat) (rs : List Record) :
    (b.retainProcessed i rs).nextIndex = b.nextIndex := by
  unfold Batcher.retainProcessed; split <;> rfl

@[simp] theorem retainProcessed_retain (b : Batcher) (i : Nat) (rs : List Record) :
    (b.retainProcessed i rs).retain = b.retain := by
  unfold Batcher.retainProcessed; split <;> rfl

theorem Keeps.retainProcessed {b : Batcher} {handed : List (List Record)} (hk : b.Keeps handed)
    {i : Nat} (hi : b.retain = true → (∀ x ∈ b.kept, x.index < i) ∧ i < b.nextIndex)
    (rs : List Record) : (b.retainProcessed i rs).Keeps (handed ++ [rs]) := by
  intro hret
  have hret' : b.retain = true := by simpa using hret
  obtain ⟨hi, hn⟩ := hi hret'
  obtain ⟨hrec, hlt⟩ := hk hret'
  have hkept : (b.retainProcessed i rs).kept = b.kept ++ [Batch.make i rs b.mode] := by
    simp only [Batcher.retainProcessed, hret', Bool.not_true, Bool.false_eq_true, if_false]
    exact insert_of_lt hi
  refine ⟨?_, fun x hx => ?_⟩
  · simp only [hkept, List.map_append, hrec, List.map_cons, List.map_nil, Batch.records_make,
      retainProcessed_mode]
  · rw [hkept] at hx
    rw [retainProcessed_nextIndex]
    rcases List.mem_append.mp hx with hx | hx
    · exact hlt x hx
    · rw [List.mem_singleton.mp hx]
      exact hn

end Batcher

namespace Run

/-- The fault a phase reports when its worker ends so, the cancellation token standing as given:
a fault other than a cancellation as it is, a worker that gave up as a worker fault, and
otherwise a cancellation if the token is tripped. -/
def WorkerEnd.fault (cancelled : Bool) : WorkerEnd → Option ConvertError
  | .failed e => if e.isCancelled then (if cancelled then some .cancelled else none) else some e
  | .panicked m => some (.worker (panicText m))
  | _ => if cancelled then some .cancelled else none

end Run

variable {σ : Type} [GraphStore σ]

/-- A worker's pass over the records of a batch agrees with the reference's: the same world, the
same converter but for its counters, the same counters but for `k` records whose commit is put
off, and the same outcome, the buffer holding the elements the reference sorted. -/
structure RecordsAgree (r : Run σ) (k : Nat)
    (code : Run σ × Run.WorkerState × Except Run.WorkerEnd (List Record))
    (ref : World σ × Counters × Except ConvertError (List Record × CommitBuffer)) : Prop where
  world : code.1.world = ref.1
  conv : code.1.conv = { r.conv with counters := code.1.conv.counters }
  counters : code.1.conv.counters.defer k = ref.2.1
  outcome : match ref.2.2 with
    | .ok (out, buf) => code.2.2 = .ok out ∧ code.2.1.buffer = { buf with records := k }
    | .error e => ∃ en, code.2.2 = .error en ∧ en.fault code.1.world.cancelled = some e

omit [GraphStore σ] in
theorem RecordsAgree.of_conv {r r' : Run σ} {k : Nat}
    {code : Run σ × Run.WorkerState × Except Run.WorkerEnd (List Record)}
    {ref : World σ × Counters × Except ConvertError (List Record × CommitBuffer)}
    (h : RecordsAgree r' k code ref) (hc : r'.conv = { r.conv with counters := r'.conv.counters }) :
    RecordsAgree r k code ref where
  world := h.world
  conv := by
    have h1 := h.conv
    rw [hc] at h1
    exact h1
  counters := h.counters
  outcome := h.outcome

theorem records_agree (S : Setup σ) (p : Phase) (mask : List String) (hint : Option Nat)
    {k : Nat} : ∀ (ds acc : List Record) (r : Run σ) (ws : Run.WorkerState) (buf : CommitBuffer),
    r.conv.rules = S.rules → ws.buffer = { buf with records := k } →
    RecordsAgree r k (Run.records p mask hint ds acc r ws)
      (rulesOn S p mask ds acc buf (r.world, r.conv.counters.defer k))
  | [], acc, r, ws, buf, _, hbuf => ⟨rfl, rfl, rfl, ⟨rfl, hbuf⟩⟩
  | rec :: rest, acc, r, ws, buf, hrules, hbuf => by
    by_cases hc : r.world.cancelled = true
    · simp only [Run.records, rulesOn, hc, if_true]
      exact ⟨rfl, rfl, rfl, ⟨.stopped, rfl, by simp [Run.WorkerEnd.fault, hc]⟩⟩
    have hnc : r.world.cancelled = false := by simpa using hc
    by_cases hm : mask.contains rec.recordType = true
    · -- the record's type has rules in the phase: both apply them to the same world
      rcases ha : r.world.apply r.conv.rules p rec with ⟨w', res, rec'⟩
      cases res with
      | ok f =>
        simp only [Run.records, rulesOn, hnc, hm, Run.applyRules, ← hrules, ha, if_true,
          if_false, Bool.false_eq_true]
        refine RecordsAgree.of_conv (records_agree S p mask hint rest _ _ _ _ hrules ?_) rfl
        rw [hbuf, CommitBuffer.add_withRecords]
      | error ae =>
        cases ae with
        | rule e =>
          simp only [Run.records, rulesOn, hnc, hm, Run.applyRules, ← hrules, ha, if_true,
            if_false, Bool.false_eq_true]
          exact ⟨rfl, rfl, rfl, ⟨_, rfl, by simp [Run.WorkerEnd.fault, ConvertError.isCancelled]⟩⟩
        | panic m =>
          simp only [Run.records, rulesOn, hnc, hm, Run.applyRules, ← hrules, ha, if_true,
            if_false, Bool.false_eq_true]
          exact ⟨rfl, rfl, rfl, ⟨_, rfl, rfl⟩⟩
    · -- passed over: only counted
      simp only [Run.records, rulesOn, hnc, hm, if_false, Bool.false_eq_true]
      exact RecordsAgree.of_conv (records_agree S p mask hint rest _ _ _ _ hrules hbuf) rfl

theorem rulesOn_sound (S : Setup σ) (p : Phase) (mask : List String) :
    ∀ (ds acc : List Record) (buf : CommitBuffer) (wc : World σ × Counters),
    buf.Sound → ∀ out buf', (rulesOn S p mask ds acc buf wc).2.2 = .ok (out, buf') → buf'.Sound
  | [], acc, buf, (w, c), hb, out, buf', h => by
    simp only [rulesOn, Except.ok.injEq, Prod.mk.injEq] at h
    exact h.2 ▸ hb
  | rec :: rest, acc, buf, (w, c), hb, out, buf', h => by
    simp only [rulesOn] at h
    split at h
    · cases h
    split at h
    · rcases ha : w.apply S.rules p rec with ⟨w', res, rec'⟩
      rw [ha] at h
      cases res with
      | ok f => exact rulesOn_sound S p mask rest _ _ _ (hb.add f) out buf' h
      | error ae => cases ae <;> cases h
    · exact rulesOn_sound S p mask rest _ _ _ hb out buf' h

/-! ## Commits -/

/-- A worker's commit of a buffer agrees with the reference's commit of its elements: the same
world and outcome, the converter changed only in its counters, which count the buffer's records
and elements once the commit went through. -/
structure FlushAgree (r : Run σ) (b : CommitBuffer) (code : Run σ × Except ConvertError Unit)
    (ref : World σ × Except ConvertError Unit) : Prop where
  world : code.1.world = ref.1
  result : code.2 = ref.2
  conv : code.1.conv = { r.conv with counters := code.1.conv.counters }
  counters : ref.2 = .ok () → code.1.conv.counters = countCommit r.conv.counters b.records b

theorem flush_agree (r : Run σ) (p : Phase) (b : CommitBuffer) :
    FlushAgree r b (Run.flush r p b) (commit (Setup.policy r.conv.config r.conv.rules) p b r.world) := by
  unfold Run.flush commit
  simp only [Setup.policy]
  by_cases hce : b.create.isEmpty = true
  · have hc0 : b.create.nodes = [] ∧ b.create.rels = [] := by simpa [Fragment.isEmpty] using hce
    by_cases hme : b.merge.isEmpty = true
    · have hm0 : b.merge.nodes = [] ∧ b.merge.rels = [] := by simpa [Fragment.isEmpty] using hme
      simp only [hce, hme, if_true]
      refine ⟨rfl, rfl, rfl, fun _ => ?_⟩
      simp [countCommit, hc0, hm0]
    · rcases hm : Run.retry r.conv.config.retry p .merge b.merge
        (max r.conv.config.retry.attempts 1) 1 r.world with ⟨w2, res2⟩
      cases res2 with
      | error e =>
        simp only [hce, hme, hm, if_true, if_false, Bool.false_eq_true]
        exact ⟨rfl, rfl, rfl, fun h => by cases h⟩
      | ok u =>
        simp only [hce, hme, hm, if_true, if_false, Bool.false_eq_true]
        refine ⟨rfl, rfl, rfl, fun _ => ?_⟩
        simp [countCommit, hc0]
  · rcases hc : Run.retry r.conv.config.retry p .create b.create
      (max r.conv.config.retry.attempts 1) 1 r.world with ⟨w1, res1⟩
    cases res1 with
    | error e =>
      simp only [hce, if_false, Bool.false_eq_true]
      exact ⟨rfl, rfl, rfl, fun h => by cases h⟩
    | ok u =>
      by_cases hme : b.merge.isEmpty = true
      · have hm0 : b.merge.nodes = [] ∧ b.merge.rels = [] := by simpa [Fragment.isEmpty] using hme
        simp only [hce, hme, if_true, if_false, Bool.false_eq_true]
        refine ⟨rfl, rfl, rfl, fun _ => ?_⟩
        simp [countCommit, Counters.add, hm0]
      · rcases hm : Run.retry r.conv.config.retry p .merge b.merge
          (max r.conv.config.retry.attempts 1) 1 w1 with ⟨w2, res2⟩
        cases res2 with
        | error e =>
          simp only [hce, hme, hm, if_false, Bool.false_eq_true]
          exact ⟨rfl, rfl, rfl, fun h => by cases h⟩
        | ok u' =>
          simp only [hce, hme, hm, if_false, Bool.false_eq_true]
          exact ⟨rfl, rfl, rfl, fun _ => Counters.add_add_eq_countCommit _ _ _⟩

theorem retry_cancelled (policy : RetryPolicy) (p : Phase) (kind : WriteKind) (f : Fragment) :
    ∀ (fuel attempt : Nat) (w : World σ) (e : ConvertError),
    (Run.retry policy p kind f fuel attempt w).2 = .error e → e.isCancelled = true →
      (Run.retry policy p kind f fuel attempt w).1.cancelled = true
  | 0, _, _, _, h, _ => by cases h
  | fuel + 1, attempt, w, e, h, hc => by
    rcases hw : w.write kind f with ⟨w', res⟩
    cases res with
    | ok _ => simp [Run.retry, hw] at h
    | error e' =>
      simp only [Run.retry, hw] at h ⊢
      by_cases ha : attempt ≥ max policy.attempts 1
      · simp only [ha, if_true] at h
        cases h
        cases hc
      · by_cases hcw : w'.cancelled = true
        · simp [ha, hcw]
        · simp only [ha, hcw, if_false, Bool.false_eq_true] at h ⊢
          exact retry_cancelled policy p kind f fuel (attempt + 1) w' e h hc

theorem commit_cancelled {config : Config} {rules : RuleSet} {p : Phase} {b : CommitBuffer}
    {w : World σ} {e : ConvertError}
    (h : (commit (Setup.policy config rules) p b w).2 = .error e) (hc : e.isCancelled = true) :
    (commit (Setup.policy config rules) p b w).1.cancelled = true := by
  unfold commit at h ⊢
  simp only [Setup.policy] at h ⊢
  by_cases hce : b.create.isEmpty = true
  · by_cases hme : b.merge.isEmpty = true
    · simp [hce, hme] at h
    · simp only [hce, hme, if_true, if_false, Bool.false_eq_true] at h ⊢
      exact retry_cancelled _ _ _ _ _ _ _ _ h hc
  · rcases hr : Run.retry config.retry p .create b.create (max config.retry.attempts 1) 1 w
      with ⟨w1, res1⟩
    cases res1 with
    | error e' =>
      simp only [hce, hr, if_false, Bool.false_eq_true] at h ⊢
      cases h
      have := retry_cancelled config.retry p .create b.create _ _ w _ (by rw [hr]) hc
      rwa [hr] at this
    | ok u =>
      by_cases hme : b.merge.isEmpty = true
      · simp [hce, hme, hr] at h
      · simp only [hce, hme, hr, if_false, Bool.false_eq_true] at h ⊢
        exact retry_cancelled _ _ _ _ _ _ _ _ h hc

omit [GraphStore σ] in
theorem commit_of_size_eq_zero (S : Setup σ) (p : Phase) {b : CommitBuffer} (h : b.size = 0)
    (w : World σ) : commit S p b w = (w, .ok ()) := by
  obtain ⟨hcn, hcr, hmn, hmr⟩ := CommitBuffer.size_eq_zero h
  simp [commit, Fragment.isEmpty, hcn, hcr, hmn, hmr]

theorem Batcher.Queue.retainProcessed {b : Batcher} {gs : List (List Record)} (hq : b.Queue gs)
    (i : Nat) (rs : List Record) : (b.retainProcessed i rs).Queue gs := by
  unfold Batcher.retainProcessed
  split
  · exact hq
  · exact hq

/-! ## The worker loop of a phase -/

/-- A worker's run of a phase from batcher `b` agrees with the reference's phase: the same world,
the converter changed only in its counters, and the fault the phase reports; when the phase goes
through, the same counters, and the batcher, still keeping batches as `b` did and in its mode,
keeps after the records handed back before those the phase handed back. -/
structure WorkAgree (r : Run σ) (b : Batcher) (handed : List (List Record))
    (code : Run σ × Batcher × Run.WorkerEnd)
    (ref : World σ × Counters × Except ConvertError (List (List Record))) : Prop where
  world : code.1.world = ref.1
  conv : code.1.conv = { r.conv with counters := code.1.conv.counters }
  outcome : match ref.2.2 with
    | .ok outs => code.2.2.fault code.1.world.cancelled = none ∧ code.1.conv.counters = ref.2.1 ∧
        code.2.1.Keeps (handed ++ outs) ∧ code.2.1.retain = b.retain ∧ code.2.1.mode = b.mode
    | .error e => code.2.2.fault code.1.world.cancelled = some e

variable (p : Phase) (mask : List String) (hint : Option Nat)

theorem work_agree_nil (fuel : Nat) (r : Run σ) (b : Batcher) (ws : Run.WorkerState) (k : Nat)
    (handed : List (List Record)) (hq : b.Queue []) (hws : ws.buffer = { records := k })
    (hk : b.Keeps handed) :
    WorkAgree r b handed (Run.work p mask hint 1 1 (fuel + 1) r b ws)
      (phase (Setup.policy r.conv.config r.conv.rules) p mask [] (r.world, r.conv.counters.defer k)) := by
  by_cases hc : r.world.cancelled = true
  · simp only [Run.work, phase, hc, if_true]
    exact ⟨rfl, rfl, by simp [Run.WorkerEnd.fault, hc]⟩
  have hnc : r.world.cancelled = false := by simpa using hc
  obtain ⟨hnone, hret, hkept, hidx, hm⟩ := hq.next_nil
  rcases hn : b.next 1 with ⟨res, b'⟩
  rw [hn] at hnone hret hkept hidx hm
  have hres : res = .ok none := hnone
  subst hres
  have hk' : b'.Keeps (handed ++ []) := by
    rw [List.append_nil]
    exact hk.mono hret hkept hm (Nat.le_of_eq hidx.symm)
  by_cases hk0 : k = 0
  · subst hk0
    simp only [Run.work, phase, hnc, hn, hws, CommitBuffer.isEmpty_records, if_false, if_true,
      Bool.false_eq_true, BEq.rfl]
    exact ⟨rfl, rfl, ⟨by simp [Run.WorkerEnd.fault, hnc], rfl, hk', hret, hm⟩⟩
  · have FA := flush_agree r p { records := k }
    rw [commit_of_size_eq_zero _ _ rfl] at FA
    rcases hf : Run.flush r p { records := k } with ⟨r', fres⟩
    rw [hf] at FA
    have hfres : fres = .ok () := FA.result
    subst hfres
    have hw' : r'.world = r.world := FA.world
    simp only [Run.work, phase, hnc, hn, hws, CommitBuffer.isEmpty_records, hf, if_false,
      Bool.false_eq_true, beq_iff_eq, hk0]
    refine ⟨hw', FA.conv, ⟨by simp [Run.WorkerEnd.fault, hw', hnc], ?_, hk', hret, hm⟩⟩
    rw [FA.counters rfl]
    simp [countCommit, Counters.add_zero_zero]

theorem work_batch {fuel : Nat} {r : Run σ} {b b' : Batcher} {ws : Run.WorkerState} {x : Batch}
    {ds : List Record} (hc : r.world.cancelled = false) (hn : b.next 1 = (.ok (some x), b'))
    (hx : x.records = .ok ds) :
    Run.work p mask hint 1 1 (fuel + 1) r b ws =
      match Run.records p mask hint ds [] r ws with
      | (r, _, .error e) => (r, b', e)
      | (r, ws, .ok out) =>
        if ({ ws.buffer with records := ws.buffer.records + ds.length } : CommitBuffer).size ≥ 1 then
          match Run.flush r p { ws.buffer with records := ws.buffer.records + ds.length } with
          | (r, .ok _) => Run.work p mask hint 1 1 fuel r (b'.retainProcessed x.index out) {}
          | (r, .error e) => (r, b'.retainProcessed x.index out, .failed e)
        else Run.work p mask hint 1 1 fuel r (b'.retainProcessed x.index out)
          { buffer := { ws.buffer with records := ws.buffer.records + ds.length } } := by
  rw [Run.work]
  simp only [hc, hn, hx, Bool.false_eq_true, if_false]
  rfl

/-- The outcome of a phase with one more record in front, handed back as `out`. -/
def consOutcome (out : List Record) :
    World σ × Counters × Except ConvertError (List (List Record)) →
      World σ × Counters × Except ConvertError (List (List Record))
  | (w, c, .error e) => (w, c, .error e)
  | (w, c, .ok outs) => (w, c, .ok (out :: outs))

theorem phase_cons_of_record {S : Setup σ} {g : List Record} {gs : List (List Record)}
    {w w' : World σ} {c c' : Counters} {out : List Record} (hc : w.cancelled = false)
    (h : record S p mask g (w, c) = (w', c', .ok out)) :
    phase S p mask (g :: gs) (w, c) = consOutcome out (phase S p mask gs (w', c')) := by
  simp only [phase, hc, h, Bool.false_eq_true, if_false]
  rcases phase S p mask gs (w', c') with ⟨w, c, _ | _⟩ <;> rfl

omit [GraphStore σ] in
theorem WorkAgree.cons {r r' : Run σ} {b b' : Batcher} {handed : List (List Record)}
    {out : List Record} {code : Run σ × Batcher × Run.WorkerEnd}
    {ref : World σ × Counters × Except ConvertError (List (List Record))}
    (h : WorkAgree r' b' (handed ++ [out]) code ref)
    (hc : r'.conv = { r.conv with counters := r'.conv.counters })
    (hret : b'.retain = b.retain) (hmode : b'.mode = b.mode) :
    WorkAgree r b handed code (consOutcome out ref) := by
  obtain ⟨w, c, res⟩ := ref
  have hconv : code.1.conv = { r.conv with counters := code.1.conv.counters } := by
    have h1 := h.conv
    rw [hc] at h1
    exact h1
  cases res with
  | error e => exact ⟨h.world, hconv, h.outcome⟩
  | ok outs =>
    obtain ⟨hf, hcnt, hkeep, hr, hm⟩ := h.outcome
    refine ⟨h.world, hconv, ⟨hf, hcnt, by simpa using hkeep, hr.trans hret, hm.trans hmode⟩⟩

theorem work_agree_cons {g : List Record} {gs : List (List Record)} {fuel : Nat}
    (ih : ∀ (r : Run σ) (b : Batcher) (ws : Run.WorkerState) (k : Nat)
      (handed : List (List Record)), b.Queue gs → b.mode = r.conv.config.workerMode →
      ws.buffer = { records := k } → b.Keeps handed →
      WorkAgree r b handed (Run.work p mask hint 1 1 fuel r b ws)
        (phase (Setup.policy r.conv.config r.conv.rules) p mask gs (r.world, r.conv.counters.defer k)))
    (r : Run σ) (b : Batcher) (ws : Run.WorkerState) (k : Nat) (handed : List (List Record))
    (hq : b.Queue (g :: gs)) (hmode : b.mode = r.conv.config.workerMode)
    (hws : ws.buffer = { records := k }) (hk : b.Keeps handed) :
    WorkAgree r b handed (Run.work p mask hint 1 1 (fuel + 1) r b ws)
      (phase (Setup.policy r.conv.config r.conv.rules) p mask (g :: gs)
        (r.world, r.conv.counters.defer k)) := by
  by_cases hc : r.world.cancelled = true
  · simp only [Run.work, phase, hc, if_true]
    exact ⟨rfl, rfl, by simp [Run.WorkerEnd.fault, hc]⟩
  have hnc : r.world.cancelled = false := by simpa using hc
  obtain ⟨x, b1, hn, hx, hidx, hq1, hret1, hkept1, hnext1, hmode1⟩ := hq.next_cons
  rw [hmode] at hx
  rcases hd : envelope r.conv.config.workerMode g with e | ds
  · -- the batch does not open: a codec fault, the same on both sides
    have hwork : Run.work p mask hint 1 1 (fuel + 1) r b ws = (r, b1, .failed e) := by
      rw [Run.work]
      simp only [hnc, hn, hx, hd, Bool.false_eq_true, if_false]
    rw [hwork]
    simp only [phase, hnc, record, Setup.policy_deliver, hd, Bool.false_eq_true, if_false]
    exact ⟨rfl, rfl, by simp [Run.WorkerEnd.fault, envelope_error_not_cancelled hd]⟩
  · have RA := records_agree (Setup.policy r.conv.config r.conv.rules) p mask hint ds [] r ws {}
      rfl (by rw [hws])
    rw [work_batch p mask hint hnc hn (hx.trans hd)]
    rcases hrec : Run.records p mask hint ds [] r ws with ⟨r1, ws1, cres⟩
    rcases hro : rulesOn (Setup.policy r.conv.config r.conv.rules) p mask ds [] {}
      (r.world, r.conv.counters.defer k) with ⟨w1, c1, res1⟩
    rw [hrec, hro] at RA
    cases res1 with
    | error e =>
      -- a rule fault, a worker that gave up, or a cancellation among the records
      obtain ⟨en, rfl, hfault⟩ := RA.outcome
      simp only [phase, hnc, record, Setup.policy_deliver, hd, hro, Bool.false_eq_true, if_false]
      exact ⟨RA.world, RA.conv, hfault⟩
    | ok ob =>
      obtain ⟨out, buf'⟩ := ob
      obtain ⟨rfl, hbuf1⟩ := RA.outcome
      have hconf : r1.conv.config = r.conv.config := by rw [RA.conv]
      have hrul : r1.conv.rules = r.conv.rules := by rw [RA.conv]
      have hw1 : r1.world = w1 := RA.world
      have hk1 : ws1.buffer.records = k := by rw [hbuf1]
      have hkeep : (b1.retainProcessed x.index out).Keeps (handed ++ [out]) := by
        refine (hk.mono hret1 hkept1 hmode1 (by omega)).retainProcessed (fun hr => ?_) out
        have hr' : b.retain = true := hret1 ▸ hr
        obtain ⟨-, hlt⟩ := hk hr'
        rw [hidx hr', hkept1, hnext1]
        exact ⟨hlt, by omega⟩
      have hmode2 : (b1.retainProcessed x.index out).mode = r1.conv.config.workerMode := by
        rw [Batcher.retainProcessed_mode, hmode1, hmode, hconf]
      have hbc : ws1.buffer.createSide = buf'.createSide := by rw [hbuf1]
      have hbm : ws1.buffer.mergeSide = buf'.mergeSide := by rw [hbuf1]
      have hsound : buf'.Sound :=
        rulesOn_sound _ p mask ds [] {} _ CommitBuffer.sound_empty out buf' (by rw [hro])
      have hc1 : r1.conv.counters.defer k = c1 := RA.counters
      dsimp only
      simp only [hbc, hbm, hk1]
      have hs : ({ createSide := buf'.createSide, mergeSide := buf'.mergeSide, records := k + ds.length } :
          CommitBuffer).size = buf'.size := rfl
      by_cases hsz : buf'.size = 0
      · -- nothing was built: the commit is put off, and the records are counted later
        rw [if_neg (by rw [hs]; omega)]
        have hrecord : record (Setup.policy r.conv.config r.conv.rules) p mask g
            (r.world, r.conv.counters.defer k) = (w1, countCommit c1 ds.length buf', .ok out) := by
          simp only [record, Setup.policy_deliver, hd, hro, commit_of_size_eq_zero _ _ hsz]
        have hcnt : countCommit c1 ds.length buf' = r1.conv.counters.defer (k + ds.length) := by
          obtain ⟨hcn, hcr, hmn, hmr⟩ := CommitBuffer.size_eq_zero hsz
          simp only [countCommit, hcn, hcr, hmn, hmr, List.length_nil, Nat.add_zero,
            Counters.add_zero_zero, ← hc1, Counters.defer_defer]
        rw [phase_cons_of_record p mask hnc hrecord]
        have IH := ih r1 (b1.retainProcessed x.index out)
          ⟨{ createSide := buf'.createSide, mergeSide := buf'.mergeSide, records := k + ds.length }⟩ (k + ds.length)
          (handed ++ [out]) (hq1.retainProcessed _ _) hmode2
          (CommitBuffer.eq_of_size_eq_zero hsound hsz _) hkeep
        rw [hconf, hrul, hw1, ← hcnt] at IH
        exact WorkAgree.cons IH RA.conv (by simp [hret1]) (by simp [hmode1])
      · -- something was built: it is committed at once
        rw [if_pos (by rw [hs]; omega)]
        have FA := flush_agree r1 p
          { createSide := buf'.createSide, mergeSide := buf'.mergeSide, records := k + ds.length }
        rw [hconf, hrul, hw1] at FA
        have hcommit : commit (Setup.policy r.conv.config r.conv.rules) p
            { createSide := buf'.createSide, mergeSide := buf'.mergeSide, records := k + ds.length } w1 =
            commit (Setup.policy r.conv.config r.conv.rules) p buf' w1 := rfl
        rw [hcommit] at FA
        rcases hcm : commit (Setup.policy r.conv.config r.conv.rules) p buf' w1 with ⟨w2, cmres⟩
        rcases hf : Run.flush r1 p
          { createSide := buf'.createSide, mergeSide := buf'.mergeSide, records := k + ds.length } with ⟨r2, fres⟩
        rw [hcm, hf] at FA
        have hfres : fres = cmres := FA.result
        subst hfres
        have hw2 : r2.world = w2 := FA.world
        have hconv2 : r2.conv = { r.conv with counters := r2.conv.counters } := by
          have h1 := FA.conv
          rw [RA.conv] at h1
          exact h1
        cases fres with
        | error e =>
          have hrecord : record (Setup.policy r.conv.config r.conv.rules) p mask g
              (r.world, r.conv.counters.defer k) = (w2, c1, .error e) := by
            simp only [record, Setup.policy_deliver, hd, hro, hcm]
          simp only [phase, hnc, hrecord, Bool.false_eq_true, if_false]
          refine ⟨hw2, hconv2, ?_⟩
          show Run.WorkerEnd.fault r2.world.cancelled (.failed e) = some e
          by_cases hce : e.isCancelled = true
          · -- a commit given up as cancelled: the token is tripped, and the phase says so
            have htrip : r2.world.cancelled = true := by
              have := commit_cancelled (by rw [hcm]) hce
              rwa [hcm, ← hw2] at this
            rw [ConvertError.eq_cancelled hce]
            simp [Run.WorkerEnd.fault, htrip, ConvertError.isCancelled]
          · simp [Run.WorkerEnd.fault, hce]
        | ok u =>
          have hrecord : record (Setup.policy r.conv.config r.conv.rules) p mask g
              (r.world, r.conv.counters.defer k) = (w2, countCommit c1 ds.length buf', .ok out) := by
            simp only [record, Setup.policy_deliver, hd, hro, hcm]
          rw [phase_cons_of_record p mask hnc hrecord]
          have hcnt : r2.conv.counters = countCommit c1 ds.length buf' := by
            rw [FA.counters rfl, ← hc1, Counters.countCommit_defer]
            rfl
          have hconf2 : r2.conv.config = r.conv.config := by rw [hconv2]
          have hrul2 : r2.conv.rules = r.conv.rules := by rw [hconv2]
          have IH := ih r2 (b1.retainProcessed x.index out) {} 0 (handed ++ [out])
            (hq1.retainProcessed _ _) (by rw [hmode2, hconf, hconf2]) rfl hkeep
          rw [hconf2, hrul2, hw2, Counters.defer_zero, hcnt] at IH
          exact WorkAgree.cons IH hconv2 (by simp [hret1]) (by simp [hmode1])

theorem work_agree : ∀ (gs : List (List Record)) (fuel : Nat) (r : Run σ) (b : Batcher)
    (ws : Run.WorkerState) (k : Nat) (handed : List (List Record)),
    b.Queue gs → gs.length < fuel → b.mode = r.conv.config.workerMode →
    ws.buffer = { records := k } → b.Keeps handed →
    WorkAgree r b handed (Run.work p mask hint 1 1 fuel r b ws)
      (phase (Setup.policy r.conv.config r.conv.rules) p mask gs (r.world, r.conv.counters.defer k))
  | _, 0, _, _, _, _, _, _, hfuel, _, _, _ => absurd hfuel (Nat.not_lt_zero _)
  | [], fuel + 1, r, b, ws, k, handed, hq, _, _, hws, hk =>
    work_agree_nil p mask hint fuel r b ws k handed hq hws hk
  | g :: gs, fuel + 1, r, b, ws, k, handed, hq, hfuel, hmode, hws, hk =>
    work_agree_cons p mask hint
      (fun r b ws k handed hq hmode hws hk =>
        work_agree gs fuel r b ws k handed hq (by simp at hfuel; omega) hmode hws hk)
      r b ws k handed hq hmode hws hk

/-! ## A phase -/

/-- A serialized phase agrees with the reference phase from the converter's counters: the same
world, the completed phases untouched, and the same fault; when it goes through, the converter
changed only in its counters, which are the reference's, and the batcher after it, keeping
batches as before and in its mode, keeps those the phase handed back. -/
structure PhaseAgree (r : Run σ) (b : Batcher) (code : Run σ × Except ConvertError Batcher)
    (ref : World σ × Counters × Except ConvertError (List (List Record))) : Prop where
  world : code.1.world = ref.1
  completed : code.1.conv.completed = r.conv.completed
  outcome : match ref.2.2 with
    | .ok outs => ∃ b', code.2 = .ok b' ∧ code.1.conv = { r.conv with counters := ref.2.1 } ∧
        b'.Keeps outs ∧ b'.retain = b.retain ∧ b'.mode = b.mode
    | .error e => code.2 = .error e

theorem phase_of_work {r r' : Run σ} {p : Phase} {b b' : Batcher} {hint : Option Nat}
    {e : Run.WorkerEnd} (hser : r.conv.config.serialize = true)
    (hw : Run.work p (r.conv.rules.typeMask p) hint 1 1 (b.feedLength + 2) r b {} = (r', b', e)) :
    Run.phase r p b hint = match e.fault r'.world.cancelled with
      | some err => ({ r' with conv := { r'.conv with state := .aborted } }, .error err)
      | none => (r', .ok b') := by
  unfold Run.phase
  simp only [Config.initialFlushSize, Config.controllerEnabled, Config.effectiveBatchSize, hser,
    Bool.not_true, Bool.false_and, Bool.and_false, Bool.false_eq_true, if_true, if_false,
    Nat.max_self]
  -- the fuel is the feed's length either way
  cases hf : b.feed <;> simp only [Batcher.feedLength, hf] at hw <;> simp only [hw]
  all_goals
    cases e with
    | failed err =>
      by_cases hi : err.isCancelled = true <;> by_cases hc : r'.world.cancelled = true <;>
        simp [Run.WorkerEnd.fault, hi, hc]
    | panicked m => simp [Run.WorkerEnd.fault]
    | _ => by_cases hc : r'.world.cancelled = true <;> simp [Run.WorkerEnd.fault, hc]

theorem phase_agree {r : Run σ} {p : Phase} {b : Batcher} {hint : Option Nat}
    {code : Run σ × Except ConvertError Batcher} (gs : List (List Record))
    (hph : Run.phase r p b hint = code) (hser : r.conv.config.serialize = true) (hq : b.Queue gs)
    (hmode : b.mode = r.conv.config.workerMode) (hk : b.Keeps []) :
    PhaseAgree r b code
      (phase (Setup.policy r.conv.config r.conv.rules) p (r.conv.rules.typeMask p) gs
        (r.world, r.conv.counters)) := by
  subst hph
  have W := work_agree p (r.conv.rules.typeMask p) hint gs (b.feedLength + 2) r b {} 0 [] hq
    (by rw [hq.length]; omega) hmode rfl hk
  simp only [Counters.defer_zero] at W
  rcases hw : Run.work p (r.conv.rules.typeMask p) hint 1 1 (b.feedLength + 2) r b {}
    with ⟨r', b', e⟩
  rw [phase_of_work hser hw]
  rw [hw] at W
  have hcompleted : r'.conv.completed = r.conv.completed := by rw [W.conv]
  rcases href : phase (Setup.policy r.conv.config r.conv.rules) p (r.conv.rules.typeMask p) gs
    (r.world, r.conv.counters) with ⟨w, c, res⟩
  rw [href] at W
  cases res with
  | ok outs =>
    obtain ⟨hf, hcnt, hkeep, hret, hmd⟩ := W.outcome
    simp only [hf]
    refine ⟨W.world, hcompleted, ⟨b', rfl, ?_, hkeep, hret, hmd⟩⟩
    rw [W.conv]
    simp only at hcnt
    rw [hcnt]
  | error err =>
    have hf : e.fault r'.world.cancelled = some err := W.outcome
    simp only [hf]
    exact ⟨W.world, hcompleted, rfl⟩

/-! ## A whole run -/

omit [GraphStore σ] in
theorem complete_eq (r : Run σ) (p : Phase) :
    Run.complete r p = { r with conv := { r.conv with completed := markCompleted r.conv.completed p } } := by
  unfold Run.complete markCompleted
  split <;> rfl

omit [GraphStore σ] in
theorem Batcher.queue_ofItems (rs : List Record) (mode : WorkerMode) (retain : Bool) :
    (Batcher.ofItems (rs.map .ok) mode retain).Queue (rs.map ([·])) :=
  ⟨rfl, rs, rfl, rfl⟩

omit [GraphStore σ] in
theorem Batcher.keeps_ofItems (items : List Item) (mode : WorkerMode) (retain : Bool) :
    (Batcher.ofItems items mode retain).Keeps [] :=
  fun _ => ⟨rfl, fun _ hx => absurd hx List.not_mem_nil⟩

theorem Batcher.Keeps.queue_ofRetained {b : Batcher} {outs : List (List Record)} {mode : WorkerMode}
    (hk : b.Keeps outs) (hret : b.retain = true) (hmode : b.mode = mode) :
    (Batcher.ofRetained b.kept mode).Queue outs := by
  subst hmode
  exact ⟨rfl, rfl, (hk hret).1⟩

omit [GraphStore σ] in
theorem Batcher.keeps_ofRetained (bs : List Batch) (mode : WorkerMode) :
    (Batcher.ofRetained bs mode).Keeps [] :=
  fun h => Bool.noConfusion h

theorem openSource_records {r : Run Store} {rs : List Record}
    (hsrc : r.world.source = .items (rs.map .ok)) :
    Run.openSource r = (r, .ok (rs.map .ok)) := by
  have hread : (if r.world.sharesStore then GraphStore.readBy r.world.store r.world.source
      else r.world.source) = .items (rs.map .ok) := by
    split
    · rcases r.world.store with g | t <;>
        simp [GraphStore.readBy, Store.readBy, Source.onDatabase, hsrc]
    · exact hsrc
  have hworld : ({ r.world with source := .items (rs.map .ok) } : World Store) = r.world := by
    rw [← hsrc]
  unfold Run.openSource
  simp only [hread, Source.openPass, List.map_map]
  have hitems : List.map ((fun x => Except.mapError SourceError.other x) ∘ Except.ok) rs =
      rs.map .ok := by
    simp [Function.comp_def, Except.mapError]
  rw [hitems, hworld]

/-- How the relationship phase ends: a fault stands, and a success drops the kept batches and
marks the phase completed. -/
def finishRelationships : Run σ × Except ConvertError Batcher → Run σ × Except ConvertError Unit
  | (r, .error e) => (r, .error e)
  | (r, .ok _) => (Run.complete { r with conv := { r.conv with retained := none } } .relationship, .ok ())

/-- The relationship phase of a run once its batcher is settled: the phase over it, then its
end. -/
def relationshipsOver (r : Run σ) (b : Batcher) (hint : Option Nat) :
    Run σ × Except ConvertError Unit :=
  finishRelationships
    (Run.phase { r with conv := { r.conv with state := .relationshipPhase } } .relationship b hint)

theorem relationshipPhase_retained (r : Run σ) (hint : Option Nat) (bs : List Batch)
    (h : r.conv.retained = some bs) :
    Run.relationshipPhase r hint =
      relationshipsOver r (Batcher.ofRetained bs r.conv.config.workerMode) hint := by
  -- Taken apart, the retained batches are a variable and the phase's first match reduces by itself.
  obtain ⟨⟨config, rules, state, completed, retained, counters⟩, world, progress⟩ := r
  change retained = some bs at h
  subst h
  rfl

theorem relationshipPhase_fresh {r : Run Store} {rs : List Record} (hint : Option Nat)
    (h : r.conv.retained = none) (hsrc : r.world.source = .items (rs.map .ok)) :
    Run.relationshipPhase r hint =
      relationshipsOver r (Batcher.ofItems (rs.map .ok) r.conv.config.workerMode false) hint := by
  obtain ⟨⟨config, rules, state, completed, retained, counters⟩, world, progress⟩ := r
  change retained = none at h
  change world.source = _ at hsrc
  subst h
  unfold Run.relationshipPhase relationshipsOver
  simp only [@openSource_records _ rs, hsrc]
  rfl

/-- How the relationship phase ends as the reference has it: in the same world, and either marked
completed with the reference's counters or with the reference's fault. -/
structure RelationshipsAgree (done : List Phase) (code : Run σ × Except ConvertError Unit)
    (ref : World σ × Counters × Except ConvertError (List (List Record))) : Prop where
  world : code.1.world = ref.1
  outcome : match ref.2.2 with
    | .ok _ => code.2 = .ok () ∧ code.1.conv.completed = markCompleted done .relationship ∧
        code.1.conv.counters = ref.2.1
    | .error e => code.2 = .error e ∧ code.1.conv.completed = done

theorem relationshipsOver_agree {r : Run σ} {b : Batcher} {hint : Option Nat}
    {code : Run σ × Except ConvertError Unit} (gs : List (List Record))
    (hro : relationshipsOver r b hint = code) (hser : r.conv.config.serialize = true)
    (hq : b.Queue gs) (hmode : b.mode = r.conv.config.workerMode) (hk : b.Keeps []) :
    RelationshipsAgree r.conv.completed code
      (phase (Setup.policy r.conv.config r.conv.rules) .relationship
        (r.conv.rules.typeMask .relationship) gs (r.world, r.conv.counters)) := by
  subst hro
  unfold relationshipsOver
  rcases hph : Run.phase _ .relationship b hint with ⟨r', res'⟩
  obtain ⟨hw, hdone, hout⟩ := phase_agree gs hph hser hq hmode hk
  dsimp only at hw hdone hout
  rcases href : phase (Setup.policy r.conv.config r.conv.rules) .relationship
    (r.conv.rules.typeMask .relationship) gs (r.world, r.conv.counters) with ⟨w, c, res⟩
  rw [href] at hw hout
  cases res with
  | error e =>
    subst hout
    exact ⟨hw, rfl, hdone⟩
  | ok outs =>
    obtain ⟨b', rfl, hconv, -⟩ := hout
    refine ⟨?_, rfl, ?_, ?_⟩ <;> simp [finishRelationships, complete_eq, hw, hconv]

/-- A serialized run is the reference run under the retry policy, each batch reaching the rules
as the worker mode delivers it. -/
theorem serialized_run_eq_policy (r : Run Store) (rs : List Record)
    (hser : r.conv.config.serialize = true) (hsrc : r.world.source = .items (rs.map .ok)) :
    Sequential.run (Setup.policy r.conv.config r.conv.rules) rs r.world r.conv.completed =
      ((Run.run r {}).1.world, (Run.run r {}).1.conv.completed, (Run.run r {}).2) := by
  unfold Run.run Sequential.run
  by_cases hc : r.world.cancelled = true
  · simp [hc]
  simp only [hc, Bool.false_eq_true, if_false]
  generalize Option.map (fun x => x * (1 + 1)) r.world.source.lenHint = hint
  simp only [@openSource_records _ rs, hsrc]
  rw [Setup.policy_rules]
  -- the node phase, over the source's records one by one
  rcases hph : Run.phase _ .node _ hint with ⟨r₂, res₂⟩
  obtain ⟨hw₂, hdone₂, hout₂⟩ := phase_agree (rs.map ([·])) hph hser (Batcher.queue_ofItems ..) rfl
    (Batcher.keeps_ofItems _ _ _)
  dsimp only at hw₂ hdone₂ hout₂
  rcases href : phase (Setup.policy r.conv.config r.conv.rules) .node (r.conv.rules.typeMask .node)
    (rs.map ([·])) (r.world, {}) with ⟨w₂, c₂, res⟩
  rw [href] at hw₂ hout₂
  cases res with
  | error e =>
    subst hout₂
    simp [hw₂, hdone₂]
  | ok outs =>
    obtain ⟨b', rfl, hconv, hkeep, hret, hmd⟩ := hout₂
    obtain ⟨conv₂, world₂, progress₂⟩ := r₂
    dsimp only at hconv hw₂ hret hmd
    subst hconv hw₂
    have hsrc₂ : world₂.source = .items (rs.map .ok) := by
      rw [← hsrc, ← phase_source .node (r.conv.rules.typeMask .node) (Setup.policy_keepsSource _ _)
        (rs.map ([·])) r.world {}, href]
    dsimp only
    simp only [complete_eq]
    -- the relationship phase: the kept batches replayed, or the source read again
    rcases hrp : Run.relationshipPhase _ hint with ⟨r₅, res₅⟩
    have RA : RelationshipsAgree (markCompleted r.conv.completed .node) (r₅, res₅)
        (phase (Setup.policy r.conv.config r.conv.rules) .relationship
          (r.conv.rules.typeMask .relationship)
          (if (r.conv.rules.typeMask .relationship).isEmpty then rs.map ([·]) else outs) (world₂, c₂)) := by
      cases hrel : (r.conv.rules.typeMask .relationship).isEmpty
      · simp only [hrel, Bool.not_false, if_true, Bool.false_eq_true, if_false] at hrp ⊢
        rw [relationshipPhase_retained _ hint b'.kept rfl] at hrp
        exact relationshipsOver_agree outs hrp hser
          (hkeep.queue_ofRetained (by simp [hret, hrel, Batcher.ofItems]) hmd) rfl
          (Batcher.keeps_ofRetained _ _)
      · simp only [hrel, Bool.not_true, if_true, Bool.false_eq_true, if_false] at hrp ⊢
        rw [relationshipPhase_fresh hint rfl hsrc₂] at hrp
        exact relationshipsOver_agree (rs.map ([·])) hrp hser (Batcher.queue_ofItems ..) rfl
          (Batcher.keeps_ofItems _ _ _)
    rcases href₃ : phase (Setup.policy r.conv.config r.conv.rules) .relationship
      (r.conv.rules.typeMask .relationship)
      (if (r.conv.rules.typeMask .relationship).isEmpty then rs.map ([·]) else outs) (world₂, c₂)
      with ⟨w₃, c₃, res₃⟩
    rw [href₃] at RA
    obtain ⟨hw₃, hout₃⟩ := RA
    dsimp only at hw₃ hout₃
    cases res₃ with
    | error e =>
      obtain ⟨rfl, hdone₃⟩ := hout₃
      simp [hw₃, hdone₃]
    | ok _ =>
      obtain ⟨rfl, hdone₃, hcnt₃⟩ := hout₃
      simp [hw₃, hdone₃, hcnt₃]

/-- In shared mode the rules see the records as read, so the policy's reference is the reference
with the records as they are. -/
theorem Sequential.Setup.policy_of_shared {config : Config} (rules : RuleSet) (h : config.workerMode = .shared) :
    (Setup.policy config rules : Setup σ) = { Setup.policy config rules with deliver := .ok } := by
  have hopen : envelope .shared = (Except.ok : List Record → Except ConvertError (List Record)) :=
    funext fun _ => rfl
  simp only [Setup.policy, h, hopen]

/-- One record that builds a node to create and a node to merge, run serialized with the
cancellation token tripped just before the first write and the second write failing once. -/
def cancelBeforeMerge : Run Store :=
  let named : NodeRule := { id := "a", labels := ["A"], properties := [("name", .field "n" none)] }
  let keyed : NodeRule :=
    { id := "k", labels := ["K"], properties := [("ID", .field "id" (some .int))], primaryKey := some "ID" }
  { conv := { config := { serialize := true },
              rules := { entries := [("R", { nodes := .nodeRules [named, keyed] })] } },
    world := { store := .memory Graph.empty, plan := { failWrites := [2], cancelAt := [1] },
               source := .items [.ok cancelBeforeMerge.record] } }
where
  record : Record :=
    { recordType := "R", fields := (Props.empty.insert "id" (.int 1)).insert "n" (.str "x"),
      identifying := ["id"] }

/-- One record whose double field is infinite, built into a node, run serialized in isolated
mode: its parcel carries the double as null. -/
def infiniteField : Run Store :=
  let rule : NodeRule := { id := "n", labels := ["T"], properties := [("x", .field "x" none)] }
  { conv := { config := { serialize := true, workerMode := .isolated },
              rules := { entries := [("t", { nodes := .nodeRules [rule] })] } },
    world := { store := .memory Graph.empty, source := .items [.ok infiniteField.record] } }
where
  record : Record := { recordType := "t", fields := Props.empty.insert "x" (.float (1.0 / 0.0)) }
  /-- The record as its parcel opens. -/
  opened : Record := { recordType := "t", fields := Props.empty.insert "x" .null }

/-- In isolated mode the record reaches the rules with its infinite double read back as null. -/
theorem infiniteField_envelope :
    envelope infiniteField.conv.config.workerMode [infiniteField.record] = .ok [infiniteField.opened] := by
  have hseal : Parcel.sealRecords [infiniteField.record] = Parcel.sealRecords [infiniteField.opened] := by
    decide
  have hsend : infiniteField.opened.Sendable :=
    ⟨⟨by simp [infiniteField.opened, Props.insert, Props.empty, Props.insertEntry],
      by simp [infiniteField.opened, Props.insert, Props.empty, Props.insertEntry, Value.Sendable,
        Value.toJson, Json.nesting]⟩⟩
  change Parcel.openRecords (Parcel.sealRecords [infiniteField.record]) = _
  rw [hseal, Parcel.openRecords_sealRecords _ (by simpa using hsend)]
  rfl

end GraphIngest
