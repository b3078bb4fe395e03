import GraphIngest.Proofs.Convert.Replay

/-! # Isolated workers run as shared ones

In isolated mode a batch holds its records sealed in a JSON parcel, and a worker takes them out
by opening it; in shared mode it holds them as they are. Nothing else of a phase depends on the
mode, so two phases whose batchers hand out the same batches, opening to the same records, run
alike under every schedule (`Pool.Twin.play`), with batchers that stay twins (`Batcher.Twin`).
Where a parcel changes a record, the two modes part.
-/

namespace GraphIngest

open Run (WorkerEnd)
open GraphIngest.Sequential (envelope)

/-! ## Twin batchers -/

/-- Two batches are twins when they carry the same number and open to the same records. -/
def Batch.Twin (x y : Batch) : Prop := y.index = x.index ∧ y.records = x.records

/-- Two kept batches are twins when they were made of the same records under the same number,
each in its batcher's mode. -/
def Batch.KeptTwin (m m' : WorkerMode) (x y : Batch) : Prop :=
  ∃ i out, x = Batch.make i out m ∧ y = Batch.make i out m'

theorem Batch.KeptTwin.index {m m' : WorkerMode} {x y : Batch} (h : Batch.KeptTwin m m' x y) :
    y.index = x.index := by
  obtain ⟨i, out, rfl, rfl⟩ := h
  rfl

namespace Batcher

/-- Two feeds are twins when they are the same pass, each stretch of which opens alike in the two
modes, or when they replay twin batches. -/
def FeedTwin (m m' : WorkerMode) : Feed → Feed → Prop
  | .stream its, .stream its' =>
    its' = its ∧ ∀ c : List Record, c ≠ [] → c.map .ok <:+: its → envelope m' c = envelope m c
  | .replay xs, .replay ys => List.Forall₂ Batch.Twin xs ys
  | _, _ => False

/-- Two batchers are twins when they will hand out twin batches, stand at the same count, and
keep batches made of the same records. -/
structure Twin (b b' : Batcher) : Prop where
  nextIndex : b'.nextIndex = b.nextIndex
  exhausted : b'.exhausted = b.exhausted
  retain : b'.retain = b.retain
  kept : List.Forall₂ (Batch.KeptTwin b.mode b'.mode) b.kept b'.kept
  feed : FeedTwin b.mode b'.mode b.feed b'.feed

/-- What twin batchers hand out: the same fault, nothing, or twin batches. -/
def NextTwin : Except ConvertError (Option Batch) → Except ConvertError (Option Batch) → Prop
  | .error e, .error e' => e' = e
  | .ok none, .ok none => True
  | .ok (some x), .ok (some y) => Batch.Twin x y
  | _, _ => False

theorem takeRecords_suffix : ∀ {n : Nat} {its : List Item} {acc : List Record}
    {res : Except SourceError (List Record)} {rest : List Item},
    takeRecords n its acc = (res, rest) → rest <:+ its
  | 0, its, acc, res, rest, h => by
    simp only [takeRecords, Prod.mk.injEq] at h
    rw [← h.2]
  | _ + 1, [], acc, res, rest, h => by
    simp only [takeRecords, Prod.mk.injEq] at h
    rw [← h.2]
  | n + 1, .ok r :: its, acc, res, rest, h => (takeRecords_suffix (n := n) h).trans (List.suffix_cons _ _)
  | _ + 1, .error _ :: its, _, res, rest, h => by
    simp only [takeRecords, Prod.mk.injEq] at h
    rw [← h.2]
    exact List.suffix_cons _ _

theorem nextTwin_error {e : ConvertError} {res : Except ConvertError (Option Batch)}
    (h : NextTwin (.error e) res) : res = .error e := by
  rcases res with e' | _ | _ <;> simp_all [NextTwin]

theorem nextTwin_none {res : Except ConvertError (Option Batch)} (h : NextTwin (.ok none) res) :
    res = .ok none := by
  rcases res with e' | _ | _ <;> simp_all [NextTwin]

theorem nextTwin_some {x : Batch} {res : Except ConvertError (Option Batch)}
    (h : NextTwin (.ok (some x)) res) : ∃ y, res = .ok (some y) ∧ Batch.Twin x y := by
  rcases res with e' | _ | y <;> simp_all [NextTwin]

theorem Twin.cut {b b' : Batcher} {its rest : List Item} (h : Twin b b') (hb : b.feed = .stream its)
    (hrest : rest <:+ its) (k : Nat) (x : Bool) :
    Twin { b with feed := .stream rest, nextIndex := b.nextIndex + k, exhausted := x }
      { b' with feed := .stream rest, nextIndex := b'.nextIndex + k, exhausted := x } := by
  have hf := h.feed
  rw [hb] at hf
  unfold FeedTwin at hf
  split at hf
  next its₁ its' heq heq' =>
    cases heq
    exact ⟨by simp [h.nextIndex], rfl, h.retain, h.kept,
      ⟨rfl, fun c hc hinf => hf.2 c hc (hinf.trans hrest.isInfix)⟩⟩
  all_goals simp_all

/-- **Twin batchers hand out alike**: the same fault, nothing, or twin batches, and stay twins. -/
theorem Twin.next {b b' b₁ : Batcher} {g : Nat} {res : Except ConvertError (Option Batch)}
    (h : Twin b b') (hn : b.next g = (res, b₁)) :
    ∃ res' b₁', b'.next g = (res', b₁') ∧ Twin b₁ b₁' ∧ NextTwin res res' := by
  unfold Batcher.next at hn ⊢
  rw [h.exhausted]
  split at hn
  next hx =>
    cases hn
    exact ⟨.ok none, b', by rw [if_pos hx], h, trivial⟩
  next hx =>
    rw [if_neg hx]
    have hf := h.feed
    rcases hb : b.feed with its | xs <;> rcases hb' : b'.feed with its' | ys <;>
      simp only [hb, hb', FeedTwin] at hf hn ⊢
    · -- the same pass: the same stretch is taken off it in both modes
      obtain ⟨hits, hrt⟩ := hf
      rw [hits]
      rcases ht : takeRecords (max g 1) its [] with ⟨_ | rs, rest⟩
      · simp only [ht] at hn ⊢
        cases hn
        exact ⟨_, _, rfl, by simpa using h.cut hb (takeRecords_suffix ht) 0 true, rfl⟩
      · cases rs with
        | nil =>
          simp only [ht] at hn ⊢
          cases hn
          exact ⟨_, _, rfl, by simpa using h.cut hb (takeRecords_suffix ht) 0 true, trivial⟩
        | cons r rs =>
          simp only [ht] at hn ⊢
          cases hn
          obtain ⟨c, hc, hits⟩ := takeRecords_split ht
          simp only [List.reverse_nil, List.nil_append] at hc
          subst hc
          refine ⟨_, _, rfl, by simpa using h.cut hb (takeRecords_suffix ht) 1 b.exhausted, ?_⟩
          -- the stretch taken is a part of the pass, so it opens alike in the two modes
          refine ⟨h.nextIndex, ?_⟩
          simp only [Batch.records_make]
          exact hrt _ (List.cons_ne_nil _ _) (by rw [hits]; exact (List.prefix_append _ _).isInfix)
    · -- twin replays: the next twin batches are handed out
      cases hf with
      | nil =>
        cases hn
        exact ⟨_, _, rfl, ⟨h.nextIndex, rfl, h.retain, h.kept, .nil⟩, trivial⟩
      | cons hxy hrest =>
        cases hn
        exact ⟨_, _, rfl, ⟨by simp [h.nextIndex], rfl, h.retain, h.kept, hrest⟩, hxy⟩

theorem insert_twin {m m' : WorkerMode} {x y : Batch} (hxy : Batch.KeptTwin m m' x y)
    {l l' : List Batch} (h : List.Forall₂ (Batch.KeptTwin m m') l l') :
    List.Forall₂ (Batch.KeptTwin m m') (retainProcessed.insert x l) (retainProcessed.insert y l') := by
  induction h with
  | nil => exact .cons hxy .nil
  | @cons z z' l l' hz hl ih =>
    simp only [retainProcessed.insert, hxy.index, hz.index]
    by_cases hlt : x.index < z.index
    · rw [if_pos hlt, if_pos hlt]
      exact .cons hxy (.cons hz hl)
    · rw [if_neg hlt, if_neg hlt]
      by_cases heq : (x.index == z.index) = true
      · rw [if_pos heq, if_pos heq]
        exact .cons hxy hl
      · rw [if_neg heq, if_neg heq]
        exact .cons hz ih

theorem Twin.retainProcessed {b b' : Batcher} (h : Twin b b') (i : Nat) (rs : List Record) :
    Twin (b.retainProcessed i rs) (b'.retainProcessed i rs) := by
  by_cases hr : b.retain = true
  · have hr' : b'.retain = true := h.retain.trans hr
    refine ⟨by simpa using h.nextIndex, by simpa using h.exhausted, by simpa using h.retain, ?_, ?_⟩
    · rw [retainProcessed_kept hr, retainProcessed_kept hr', retainProcessed_mode, retainProcessed_mode]
      exact insert_twin ⟨i, rs, rfl, rfl⟩ h.kept
    · simpa using h.feed
  · have hr' : b'.retain = false := by simpa [h.retain] using hr
    have hr : b.retain = false := by simpa using hr
    simpa [Batcher.retainProcessed, hr, hr'] using h

theorem twin_ofItems {items : List Item} (retain : Bool)
    (hrt : ∀ c : List Record, c ≠ [] → c.map .ok <:+: items → envelope .isolated c = .ok c) :
    Twin (ofItems items .isolated retain) (ofItems items .shared retain) :=
  ⟨rfl, rfl, rfl, .nil, rfl, fun c hc hinf => (hrt c hc hinf).symm⟩

/-- Batches kept alike replay alike, each shared batch opening, once sealed, to its own records. -/
theorem twin_ofRetained {bs bs' : List Batch} (hk : List.Forall₂ (Batch.KeptTwin .isolated .shared) bs bs')
    (hrt : ∀ y ∈ bs', ∀ rs, y.records = .ok rs → envelope .isolated rs = .ok rs) :
    Twin (ofRetained bs .isolated) (ofRetained bs' .shared) := by
  refine ⟨rfl, rfl, rfl, .nil, ?_⟩
  show List.Forall₂ Batch.Twin bs bs'
  induction hk with
  | nil => exact .nil
  | @cons x y _ _ hxy _ ih =>
    obtain ⟨i, out, rfl, rfl⟩ := hxy
    refine .cons ⟨rfl, ?_⟩ (ih fun z hz => hrt z (List.mem_cons_of_mem _ hz))
    rw [Batch.records_make, Batch.records_make, hrt _ List.mem_cons_self out (Batch.records_make i out .shared)]
    rfl

end Batcher

namespace Pool

variable {σ : Type} [GraphStore σ] {p : Pool σ} {i : Nat} {w : Worker}

theorem Advances.workerStep_eq {r b w'} (ha : p.Advances i w r b w') (hw : p.workers[i]? = some w) :
    p.workerStep i w = { p with run := r, batcher := b, workers := p.workers.set i w' } := by
  have hself := eq_set_self hw
  cases ha with
  | stopAtTop hat hs => simp [workerStep, hat, hs, finish, setWorker]
  | sourceFault hat hs hn => simp [workerStep, hat, hs, hn, finish, setWorker]
  | drained hat hs hn => simp [workerStep, hat, hs, hn, setWorker]
  | openFault hat hs hn hr => simp [workerStep, hat, hs, hn, hr, finish, setWorker]
  | take hat hs hn hr => simp [workerStep, hat, hs, hn, hr, setWorker]
  | handBack hat => simp [workerStep, hat, setWorker]
  | stopInBatch hat hs => simp [workerStep, hat, hs, finish, setWorker]
  | apply hat hs hm ha => simp only [workerStep, hat, hs, hm, ha, Bool.false_eq_true, ↓reduceIte, setWorker]
  | ruleFault hat hs hm ha =>
    simp only [workerStep, hat, hs, hm, ha, Bool.false_eq_true, ↓reduceIte, finish, setWorker]
  | pass hat hs hm => simp only [workerStep, hat, hs, hm, Bool.false_eq_true, ↓reduceIte, setWorker]
  | wait hat hl => simp [workerStep, hat, hl]; exact hself
  | created hat hl hwr => simp [workerStep, hat, hl, Commit.part, hwr, setWorker]
  | merged hat hl hwr => simp [workerStep, hat, hl, Commit.part, hwr, setWorker]
  | gaveUp hat hl hwr ha =>
    simp only [workerStep, hat, hl, hwr, Bool.false_eq_true, ↓reduceIte, attempts, ge_iff_le] at ha ⊢
    simp only [ha, ↓reduceIte, finish, setWorker]
  | backOff hat hl hwr ha =>
    simp only [workerStep, hat, hl, hwr, Bool.false_eq_true, ↓reduceIte, attempts, ge_iff_le] at ha ⊢
    simp only [Nat.not_le.mpr ha, ↓reduceIte, setWorker]
  | cutShort hat hs => simp [workerStep, hat, hs, finish, setWorker]
  | resume hat hs => simp [workerStep, hat, hs, setWorker]
  | close hat => simp [workerStep, hat, setWorker]
  | ended hat => simp [workerStep, hat]; exact hself
  | joined hat => simp [workerStep, hat]; exact hself

/-- **A step reads the batcher only through what it hands out and keeps.** The same pool with a
twin batcher takes the same transition, the batcher it leaves being a twin of the one left. -/
theorem Advances.twin {r b w'} (ha : p.Advances i w r b w') {b₀ : Batcher} (h : Batcher.Twin p.batcher b₀) :
    ∃ b₂, ({ p with batcher := b₀ } : Pool σ).Advances i w r b₂ w' ∧ Batcher.Twin b b₂ := by
  cases ha with
  | stopAtTop hat hs => exact ⟨b₀, .stopAtTop hat hs, h⟩
  | sourceFault hat hs hn =>
    obtain ⟨res, b₂, hn', htw, hres⟩ := h.next hn
    rw [Batcher.nextTwin_error hres] at hn'
    exact ⟨b₂, .sourceFault hat hs hn', htw⟩
  | drained hat hs hn =>
    obtain ⟨res, b₂, hn', htw, hres⟩ := h.next hn
    rw [Batcher.nextTwin_none hres] at hn'
    exact ⟨b₂, .drained hat hs hn', htw⟩
  | openFault hat hs hn hr =>
    obtain ⟨res, b₂, hn', htw, hres⟩ := h.next hn
    obtain ⟨y, rfl, -, hy⟩ := Batcher.nextTwin_some hres
    exact ⟨b₂, .openFault hat hs hn' (hy.trans hr), htw⟩
  | @take x rs _ hat hs hn hr =>
    obtain ⟨res, b₂, hn', htw, hres⟩ := h.next hn
    obtain ⟨y, rfl, hidx, hy⟩ := Batcher.nextTwin_some hres
    -- the twin batch carries the same number and opens to the same records
    have ha' := Advances.take (p := { p with batcher := b₀ }) (i := i) hat hs hn' (hy.trans hr)
    rw [hidx] at ha'
    exact ⟨b₂, ha', htw⟩
  | handBack hat => exact ⟨_, .handBack hat, h.retainProcessed _ _⟩
  | stopInBatch hat hs => exact ⟨b₀, .stopInBatch hat hs, h⟩
  | apply hat hs hm ha => exact ⟨b₀, .apply hat hs hm ha, h⟩
  | ruleFault hat hs hm ha => exact ⟨b₀, .ruleFault hat hs hm ha, h⟩
  | pass hat hs hm => exact ⟨b₀, .pass hat hs hm, h⟩
  | wait hat hl => exact ⟨b₀, .wait hat hl, h⟩
  | created hat hl hwr => exact ⟨b₀, .created hat hl hwr, h⟩
  | merged hat hl hwr => exact ⟨b₀, .merged hat hl hwr, h⟩
  | gaveUp hat hl hwr ha => exact ⟨b₀, .gaveUp hat hl hwr ha, h⟩
  | backOff hat hl hwr ha => exact ⟨b₀, .backOff hat hl hwr ha, h⟩
  | cutShort hat hs => exact ⟨b₀, .cutShort hat hs, h⟩
  | resume hat hs => exact ⟨b₀, .resume hat hs, h⟩
  | close hat => exact ⟨b₀, .close hat, h⟩
  | ended hat => exact ⟨b₀, .ended hat, h⟩
  | joined hat => exact ⟨b₀, .joined hat, h⟩

omit [GraphStore σ] in
theorem receive_batcher_eq (p : Pool σ) (b : Batcher) (e : WorkerEnd) :
    ({ p with batcher := b } : Pool σ).receive e = { p.receive e with batcher := b } := by
  unfold receive
  cases e <;> dsimp only <;> (repeat' split) <;> rfl

omit [GraphStore σ] in
theorem join_batcher_eq (p : Pool σ) (b : Batcher) (i : Nat) :
    ({ p with batcher := b } : Pool σ).join i = { p.join i with batcher := b } := by
  unfold join
  dsimp only
  cases hw : p.workers[i]? with
  | none => rfl
  | some w =>
    dsimp only
    cases hat : w.at_ with
    | ended e =>
      dsimp only
      rw [← receive_batcher_eq]
      rfl
    | _ => rfl

/-- Two pools are twins when they differ in their batchers only, and those are twins. -/
def Twin (p q : Pool σ) : Prop := ∃ b, q = { p with batcher := b } ∧ Batcher.Twin p.batcher b

theorem Twin.move {q : Pool σ} (h : p.Twin q) : ∀ m, (p.move m).Twin (q.move m) := by
  obtain ⟨b₀, rfl, htw⟩ := h
  intro m
  cases m with
  | step i =>
    dsimp only [Pool.move]
    split
    next w hw =>
      obtain ⟨r, b, w', ha, heq⟩ := workerStep_advances hw
      obtain ⟨b₂, ha', htw'⟩ := ha.twin htw
      rw [heq, ha'.workerStep_eq hw]
      exact ⟨b₂, rfl, htw'⟩
    next => exact ⟨b₀, rfl, htw⟩
  | join i =>
    change (p.join i).Twin (({ p with batcher := b₀ } : Pool σ).join i)
    rw [join_batcher_eq p b₀ i]
    rcases join_eq (p := p) (i := i) with heq | ⟨w, e, hw, hat, heq⟩ <;> rw [heq]
    · exact ⟨b₀, rfl, htw⟩
    · exact ⟨b₀, rfl, by simpa [setWorker] using htw⟩
  | notice =>
    dsimp only [Pool.move]
    split
    · exact ⟨b₀, rfl, htw⟩
    · exact ⟨b₀, rfl, htw⟩
  | cancel => exact ⟨b₀, rfl, htw⟩
  | resize size =>
    dsimp only [Pool.move]
    split
    · exact ⟨b₀, rfl, htw⟩
    · exact ⟨b₀, rfl, htw⟩

theorem Twin.play : ∀ {p q : Pool σ}, p.Twin q → ∀ ms, (p.play ms).Twin (q.play ms)
  | _, _, h, [] => h
  | _, _, h, m :: ms => Twin.play (h.move m) ms

omit [GraphStore σ] in
theorem Twin.outcome {q : Pool σ} (h : p.Twin q) :
    q.outcome.1 = p.outcome.1 ∧ ((∃ e, p.outcome.2 = .error e ∧ q.outcome.2 = .error e) ∨
      ∃ b b', p.outcome.2 = .ok b ∧ q.outcome.2 = .ok b' ∧ Batcher.Twin b b') := by
  obtain ⟨b₀, rfl, htw⟩ := h
  unfold Pool.outcome
  dsimp only
  split
  · exact ⟨rfl, .inl ⟨_, rfl, rfl⟩⟩
  · split
    · exact ⟨rfl, .inl ⟨_, rfl, rfl⟩⟩
    · exact ⟨rfl, .inr ⟨_, _, rfl, rfl, htw⟩⟩

end Pool

end GraphIngest
