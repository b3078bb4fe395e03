import GraphIngest.Proofs.Convert.Ledger

/-! # What a node phase keeps for the relationship phase

When the rules have relationship rules, the node phase's batcher keeps every batch a worker hands
back, made of the records as the rules left them, under the number it was handed out with; the
relationship phase replays the kept batches in order. Workers hand batches back in any order, so
the account is kept by batch number (`Retention`): each batch handed out so far is kept, still
being worked on, or lost with a worker that ended otherwise than normally. A phase that ends
normally has lost none, so it keeps the batches of its whole pass, in the order and with the
grouping it read them in (`node_phase_keeps_batches`).
-/

namespace GraphIngest

open Run (WorkerEnd)
open GraphIngest.Sequential (envelope)

/-! ## Lists of workers -/

theorem List.mem_set_or_eq {α : Type} {l : List α} {i : Nat} {v w : α} (w' : α) (hw : l[i]? = some w)
    (hv : v ∈ l) : v ∈ l.set i w' ∨ v = w := by
  obtain ⟨j, hj⟩ := List.getElem?_of_mem hv
  by_cases hji : i = j
  · subst hji
    rw [hw] at hj
    exact .inr (Option.some.inj hj).symm
  · exact .inl (List.mem_of_getElem? (by rw [List.getElem?_set_ne hji]; exact hj))

theorem List.forall_of_forall_set {α : Type} {P : α → Prop} {l : List α} {i : Nat} {x y : α}
    (hx : l[i]? = some x) (hy : P y → P x) (h : ∀ v ∈ l.set i y, P v) : ∀ v ∈ l, P v := by
  intro v hv
  rcases List.mem_set_or_eq y hx hv with hv | rfl
  · exact h v hv
  · exact hy (h y (List.mem_of_getElem? (List.getElem?_set_self (List.getElem?_eq_some_iff.mp hx).1)))

namespace Batcher

theorem takeRecords_split : ∀ {n : Nat} {its : List Item} {acc c : List Record} {rest : List Item},
    takeRecords n its acc = (.ok c, rest) → ∃ c', c = acc.reverse ++ c' ∧ its = c'.map .ok ++ rest
  | 0, its, acc, c, rest, h => by
    simp only [takeRecords, Prod.mk.injEq, Except.ok.injEq] at h
    obtain ⟨rfl, rfl⟩ := h
    exact ⟨[], by simp, by simp⟩
  | _ + 1, [], acc, c, rest, h => by
    simp only [takeRecords, Prod.mk.injEq, Except.ok.injEq] at h
    obtain ⟨rfl, rfl⟩ := h
    exact ⟨[], by simp, by simp⟩
  | n + 1, .ok r :: its, acc, c, rest, h => by
    obtain ⟨c', hc, hits⟩ := takeRecords_split (n := n) h
    exact ⟨r :: c', by simp [hc], by simp [hits]⟩
  | _ + 1, .error _ :: _, _, _, _, h => by simp [takeRecords] at h

theorem takeRecords_nil {n : Nat} {its rest : List Item} (h : takeRecords (n + 1) its [] = (.ok [], rest)) :
    its = [] := by
  cases its with
  | nil => rfl
  | cons it its =>
    cases it with
    | ok r =>
      -- the first record is taken
      simp only [takeRecords] at h
      obtain ⟨c', hc, -⟩ := takeRecords_split h
      simp at hc
    | error e => simp [takeRecords] at h

variable {b b' : Batcher} {its : List Item} {g : Nat}

theorem next_keeps {res : Except ConvertError (Option Batch)}
    (hn : b.next g = (res, b')) : b'.mode = b.mode ∧ b'.retain = b.retain ∧ b'.kept = b.kept := by
  unfold next at hn
  split at hn
  · cases hn; exact ⟨rfl, rfl, rfl⟩
  · split at hn
    · split at hn <;> cases hn <;> exact ⟨rfl, rfl, rfl⟩
    · split at hn <;> cases hn <;> exact ⟨rfl, rfl, rfl⟩

theorem next_stream {res : Except ConvertError (Option Batch)}
    (hf : b.feed = .stream its) (hn : b.next g = (res, b')) : ∃ its', b'.feed = .stream its' := by
  unfold next at hn
  split at hn
  · cases hn; exact ⟨its, hf⟩
  · simp only [hf] at hn
    split at hn <;> cases hn <;> exact ⟨_, rfl⟩

theorem next_some_of_stream {x : Batch}
    (hf : b.feed = .stream its) (hn : b.next g = (.ok (some x), b')) :
    ∃ c rest, its = c.map .ok ++ rest ∧ c ≠ [] ∧ x = Batch.make b.nextIndex c b.mode ∧
      b'.feed = .stream rest ∧ b'.nextIndex = b.nextIndex + 1 ∧ b'.exhausted = b.exhausted := by
  unfold next at hn
  split at hn
  · cases hn
  · simp only [hf] at hn
    split at hn
    · cases hn
    · cases hn
    · rename_i c rest hne htake
      obtain ⟨hxb, rfl⟩ := Prod.mk.inj hn
      obtain ⟨c', hc, hits⟩ := takeRecords_split htake
      simp only [List.reverse_nil, List.nil_append] at hc
      subst hc
      refine ⟨c, rest, hits, fun h => hne h, ?_, rfl, rfl, rfl⟩
      exact (Option.some.inj (Except.ok.inj hxb)).symm

theorem next_none_of_stream
    (hf : b.feed = .stream its) (hn : b.next g = (.ok none, b')) :
    (b.exhausted = true ∧ b' = b) ∨
      (its = [] ∧ b'.feed = .stream [] ∧ b'.nextIndex = b.nextIndex ∧ b'.exhausted = true) := by
  unfold next at hn
  split at hn
  · exact .inl ⟨by assumption, (Prod.mk.inj hn).2.symm⟩
  · simp only [hf] at hn
    obtain ⟨m, hm⟩ : ∃ m, max g 1 = m + 1 := ⟨max g 1 - 1, by omega⟩
    rw [hm] at hn
    split at hn
    · cases hn
    · rename_i rest htake
      obtain ⟨-, rfl⟩ := Prod.mk.inj hn
      have hits := takeRecords_nil htake
      subst hits
      simp only [takeRecords, List.reverse_nil, Prod.mk.injEq] at htake
      rw [← htake.2]
      exact .inr ⟨rfl, rfl, rfl, rfl⟩
    · cases hn

theorem next_error_of_stream {e : ConvertError}
    (hf : b.feed = .stream its) (hn : b.next g = (.error e, b')) :
    ∃ rest, b'.feed = .stream rest ∧ b'.nextIndex = b.nextIndex := by
  unfold next at hn
  split at hn
  · cases hn
  · simp only [hf] at hn
    split at hn <;> cases hn
    exact ⟨_, rfl, rfl⟩

theorem retainProcessed_kept {b : Batcher} (h : b.retain = true) (i : Nat) (rs : List Record) :
    (b.retainProcessed i rs).kept = retainProcessed.insert (Batch.make i rs b.mode) b.kept := by
  simp [retainProcessed, h]

theorem mem_of_mem_insert {x y : Batch} : ∀ {l : List Batch}, y ∈ retainProcessed.insert x l → y = x ∨ y ∈ l
  | [], h => .inl (List.mem_singleton.mp h)
  | z :: rest, h => by
    unfold retainProcessed.insert at h
    split at h
    · exact (List.mem_cons.mp h).imp_right id
    · split at h
      · rcases List.mem_cons.mp h with h | h
        · exact .inl h
        · exact .inr (List.mem_cons_of_mem _ h)
      · rcases List.mem_cons.mp h with h | h
        · exact .inr (h ▸ List.mem_cons_self)
        · exact (mem_of_mem_insert h).imp_right (List.mem_cons_of_mem _)

theorem mem_insert_self (x : Batch) : ∀ l : List Batch, x ∈ retainProcessed.insert x l
  | [] => List.mem_singleton_self x
  | z :: rest => by
    unfold retainProcessed.insert
    split
    · exact List.mem_cons_self
    · split
      · exact List.mem_cons_self
      · exact List.mem_cons_of_mem _ (mem_insert_self x rest)

theorem index_mem_insert {x y : Batch} : ∀ {l : List Batch}, y ∈ l →
    ∃ z ∈ retainProcessed.insert x l, z.index = y.index
  | [], h => absurd h List.not_mem_nil
  | z :: rest, h => by
    unfold retainProcessed.insert
    split
    · exact ⟨y, List.mem_cons_of_mem _ h, rfl⟩
    next hlt =>
      split
      next heq =>
        rcases List.mem_cons.mp h with rfl | h
        · exact ⟨x, List.mem_cons_self, by simpa using heq⟩
        · exact ⟨y, List.mem_cons_of_mem _ h, rfl⟩
      · rcases List.mem_cons.mp h with rfl | h
        · exact ⟨y, List.mem_cons_self, rfl⟩
        · obtain ⟨z', hz', he⟩ := index_mem_insert (x := x) h
          exact ⟨z', List.mem_cons_of_mem _ hz', he⟩

theorem insert_sorted (x : Batch) : ∀ {l : List Batch}, l.Pairwise (·.index < ·.index) →
    (retainProcessed.insert x l).Pairwise (·.index < ·.index)
  | [], _ => List.pairwise_singleton _ _
  | z :: rest, h => by
    obtain ⟨hz, hrest⟩ := List.pairwise_cons.mp h
    unfold retainProcessed.insert
    split
    next hlt =>
      refine List.Pairwise.cons (fun y hy => ?_) h
      rcases List.mem_cons.mp hy with rfl | hy
      · exact hlt
      · exact Nat.lt_trans hlt (hz y hy)
    next hlt =>
      split
      next heq =>
        have heq : x.index = z.index := by simpa using heq
        exact List.Pairwise.cons (fun y hy => heq ▸ hz y hy) hrest
      next hne =>
        have hgt : z.index < x.index := by simp at hne; omega
        refine List.Pairwise.cons (fun y hy => ?_) (insert_sorted x hrest)
        rcases mem_of_mem_insert hy with rfl | hy
        · exact hgt
        · exact hz y hy

end Batcher

namespace Pool

variable {σ : Type} [GraphStore σ]

@[simp] theorem Commit.afterCreate_ne_batch (c : Commit) (j : Nat) (todo done : List Record) :
    c.afterCreate ≠ .batch j todo done := by
  intro h; have := c.afterCreate_commit?; simp [h, At.commit?] at this

@[simp] theorem Commit.first_ne_batch (c : Commit) (j : Nat) (todo done : List Record) :
    c.first ≠ .batch j todo done := by
  intro h; have := c.first_commit?; simp [h, At.commit?] at this

section Leaves

variable (σ) (rules : RuleSet) (ph : Phase)

/-- What the rules of a phase leave of a record a worker was handed: the record itself when its
type has no rules in the phase, else the record they return when applied against some state of
the world, without its supplies. -/
def Leaves (rec out : Record) : Prop :=
  if (rules.typeMask ph).contains rec.recordType then
    ∃ (w w' : World σ) (f : Fragment) (rec' : Record), w.apply rules ph rec = (w', .ok f, rec') ∧
      out = rec'.clearSupplies
  else out = rec

/-- A batch cut from the records `c` of a pass and handed back made of `out`: it opened on the
worker's side to records of which the rules left `out`. -/
def Processed (mode : WorkerMode) (c out : List Record) : Prop :=
  ∃ seen, envelope mode c = .ok seen ∧ List.Forall₂ (Leaves σ rules ph) seen out

end Leaves

theorem leaves_pass {rules : RuleSet} {ph : Phase} {rec : Record}
    (h : (rules.typeMask ph).contains rec.recordType = false) : Leaves σ rules ph rec rec := by
  rw [Leaves, if_neg (by rw [h]; decide)]

theorem Run.applyRules_leaves {r r' : Run σ} {ph : Phase} {rec rec' : Record} {f : Fragment}
    (h : r.applyRules ph rec = (r', .ok (rec', f)))
    (hm : (r.conv.rules.typeMask ph).contains rec.recordType = true) : Leaves σ r.conv.rules ph rec rec' := by
  unfold Run.applyRules at h
  split at h
  next w res rec₀ heq =>
    split at h
    next f₀ =>
      obtain ⟨-, h⟩ := Prod.mk.inj h
      obtain ⟨rfl, rfl⟩ := Prod.mk.inj (Except.ok.inj h)
      rw [Leaves, if_pos hm]
      exact ⟨r.world, w, f₀, rec₀, heq, rfl⟩
    all_goals cases h

@[simp] theorem processed_shared {rules : RuleSet} {ph : Phase} {c out : List Record} :
    Processed σ rules ph .shared c out ↔ List.Forall₂ (Leaves σ rules ph) c out := by
  simp [Processed, envelope]

theorem replay_of_kept {rules : RuleSet} {ph : Phase} {mode : WorkerMode} :
    ∀ {chunks : List (List Record)} {xs : List Batch},
      List.Forall₂ (fun c x => ∃ out, x = Batch.make x.index out mode ∧ Processed σ rules ph mode c out)
        chunks xs →
      ∃ outs, List.Forall₂ (Processed σ rules ph mode) chunks outs ∧
        xs.map Batch.records = outs.map (envelope mode)
  | [], [], .nil => ⟨[], .nil, rfl⟩
  | _ :: _, x :: _, .cons ⟨out, hx, hp⟩ hrest => by
    obtain ⟨outs, hps, hmap⟩ := replay_of_kept hrest
    refine ⟨out :: outs, .cons hp hps, ?_⟩
    rw [List.map_cons, List.map_cons, hmap, hx, Batch.records_make]

section Retention

variable (rules : RuleSet) (ph : Phase) (mode : WorkerMode) (items : List Item)

/-- The account a phase keeps of its batches, `chunks` being the records of the batches handed
out so far, in order. The batcher keeps batches, and every batch it keeps is made of the records
of its chunk as the rules left them; a worker inside a batch has the rules behind it for a first
part of the records the batch opened to. While no worker has ended otherwise than normally, the
pass is the chunks read so far followed by what the batcher still has of it, and every batch
handed out is kept or still being worked on. -/
structure Retention (p : Pool σ) (chunks : List (List Record)) : Prop where
  rules_eq : p.run.conv.rules = rules
  phase_eq : p.phase = ph
  mask_eq : p.mask = rules.typeMask ph
  mode_eq : p.batcher.mode = mode
  retain : p.batcher.retain = true
  stream : ∃ its, p.batcher.feed = .stream its
  read : (∀ w ∈ p.workers, w.Normal) → ∃ its, p.batcher.feed = .stream its ∧
    items = chunks.flatten.map .ok ++ its ∧ (p.batcher.exhausted = true → its = [])
  nonempty : ∀ c ∈ chunks, c ≠ []
  dispatched : p.batcher.nextIndex = chunks.length
  sorted : p.batcher.kept.Pairwise (·.index < ·.index)
  kept : ∀ x ∈ p.batcher.kept, ∃ c out, chunks[x.index]? = some c ∧ x = Batch.make x.index out mode ∧
    Processed σ rules ph mode c out
  held : ∀ w ∈ p.workers, ∀ i todo done, w.at_ = .batch i todo done →
    ∃ c pre, chunks[i]? = some c ∧ envelope mode c = .ok (pre ++ todo) ∧
      List.Forall₂ (Leaves σ rules ph) pre done.reverse
  covered : (∀ w ∈ p.workers, w.Normal) → ∀ i < chunks.length, (∃ x ∈ p.batcher.kept, x.index = i) ∨
    ∃ w ∈ p.workers, ∃ todo done, w.at_ = .batch i todo done

variable {rules ph mode items} {p : Pool σ} {chunks : List (List Record)}

theorem Retention.congr {p q : Pool σ} {chunks : List (List Record)} (h : Retention rules ph mode items p chunks)
    (hrules : q.run.conv.rules = p.run.conv.rules) (hphase : q.phase = p.phase) (hmask : q.mask = p.mask)
    (hb : q.batcher = p.batcher) (hws : q.workers = p.workers) : Retention rules ph mode items q chunks where
  rules_eq := hrules.trans h.rules_eq
  phase_eq := hphase.trans h.phase_eq
  mask_eq := hmask.trans h.mask_eq
  mode_eq := hb ▸ h.mode_eq
  retain := hb ▸ h.retain
  stream := hb ▸ h.stream
  read := hb ▸ hws ▸ h.read
  nonempty := h.nonempty
  dispatched := hb ▸ h.dispatched
  sorted := hb ▸ h.sorted
  kept := hb ▸ h.kept
  held := hws ▸ h.held
  covered := hb ▸ hws ▸ h.covered

/-- **One worker's move in the account.** Worker `i` goes from `w` to `w'` and the batcher to
`b`, which hands out the batches `new`: the account stays kept when every batch kept stays kept,
the worker is inside a batch only as the account wants, and every batch the worker held or that
was handed out is now kept or held by it. -/
theorem Retention.update
    (h : Retention rules ph mode items p chunks) {i : Nat} {w w' : Worker} (hw : p.workers[i]? = some w)
    {r : Run σ} {b : Batcher} (new : List (List Record))
    (hrules : r.conv.rules = p.run.conv.rules) (hmode : b.mode = p.batcher.mode)
    (hretain : b.retain = p.batcher.retain) (hstream : ∃ its, b.feed = .stream its)
    (hnonempty : ∀ c ∈ new, c ≠ []) (hdisp : b.nextIndex = p.batcher.nextIndex + new.length)
    (hsorted : b.kept.Pairwise (·.index < ·.index))
    (hkept : ∀ x ∈ b.kept, x ∈ p.batcher.kept ∨ ∃ c out, (chunks ++ new)[x.index]? = some c ∧
      x = Batch.make x.index out mode ∧ Processed σ rules ph mode c out)
    (hkeep : ∀ x ∈ p.batcher.kept, ∃ y ∈ b.kept, y.index = x.index)
    (hheld : ∀ j todo done, w'.at_ = .batch j todo done → ∃ c pre, (chunks ++ new)[j]? = some c ∧
      envelope mode c = .ok (pre ++ todo) ∧ List.Forall₂ (Leaves σ rules ph) pre done.reverse)
    (hnormal : w'.Normal → w.Normal)
    (hread : w'.Normal → ∀ its, p.batcher.feed = .stream its → items = chunks.flatten.map .ok ++ its →
      (p.batcher.exhausted = true → its = []) → ∃ its', b.feed = .stream its' ∧
        items = (chunks ++ new).flatten.map .ok ++ its' ∧ (b.exhausted = true → its' = []))
    (hcov : w'.Normal → ∀ j < (chunks ++ new).length,
      ((∃ todo done, w.at_ = .batch j todo done) ∨ chunks.length ≤ j) →
        (∃ x ∈ b.kept, x.index = j) ∨ ∃ todo done, w'.at_ = .batch j todo done) :
    Retention rules ph mode items { p with run := r, batcher := b, workers := p.workers.set i w' }
      (chunks ++ new) := by
  have hlift : ∀ {j c}, chunks[j]? = some c → (chunks ++ new)[j]? = some c := fun hj => by
    rw [List.getElem?_append_left (List.getElem?_eq_some_iff.mp hj).1, hj]
  have hw' : w' ∈ p.workers.set i w' :=
    List.mem_of_getElem? (List.getElem?_set_self (List.getElem?_eq_some_iff.mp hw).1)
  refine ⟨hrules.trans h.rules_eq, h.phase_eq, h.mask_eq, hmode.trans h.mode_eq, hretain.trans h.retain,
    hstream, ?_, ?_, ?_, ?_, ?_, ?_, ?_⟩
  · intro hall
    have hold := List.forall_of_forall_set hw hnormal hall
    obtain ⟨its, hf, hits, hex⟩ := h.read hold
    exact hread (hall w' hw') its hf hits hex
  · intro c hc
    rcases List.mem_append.mp hc with hc | hc
    · exact h.nonempty c hc
    · exact hnonempty c hc
  · simp [hdisp, h.dispatched]
  · exact hsorted
  · intro x hx
    rcases hkept x hx with hx | hx
    · obtain ⟨c, out, hc, hrest⟩ := h.kept x hx
      exact ⟨c, out, hlift hc, hrest⟩
    · exact hx
  · intro v hv j todo done hat
    rcases List.mem_or_eq_of_mem_set hv with hv | rfl
    · obtain ⟨c, pre, hc, hrest⟩ := h.held v hv j todo done hat
      exact ⟨c, pre, hlift hc, hrest⟩
    · exact hheld j todo done hat
  · intro hall j hj
    have hold := List.forall_of_forall_set hw hnormal hall
    -- a batch numbered past the old ones is one the move handed out
    by_cases hlt : j < chunks.length
    · rcases h.covered hold j hlt with ⟨x, hx, hxj⟩ | ⟨v, hv, todo, done, hat⟩
      · obtain ⟨y, hy, hyx⟩ := hkeep x hx
        exact .inl ⟨y, hy, hyx.trans hxj⟩
      · rcases List.mem_set_or_eq w' hw hv with hv | rfl
        · exact .inr ⟨v, hv, todo, done, hat⟩
        · exact (hcov (hall w' hw') j hj (.inl ⟨todo, done, hat⟩)).imp_right
            fun ⟨todo', done', hat'⟩ => ⟨w', hw', todo', done', hat'⟩
    · exact (hcov (hall w' hw') j hj (.inr (by omega))).imp_right
        fun ⟨todo', done', hat'⟩ => ⟨w', hw', todo', done', hat'⟩

/-- A move that hands nothing out and keeps nothing: the worker is inside a batch only as the
account wants, and stays inside the batch it was in while it is normal. -/
theorem Retention.keep
    (h : Retention rules ph mode items p chunks) {i : Nat} {w w' : Worker} (hw : p.workers[i]? = some w)
    {r : Run σ} (hrules : r.conv.rules = p.run.conv.rules)
    (hheld : ∀ j todo done, w'.at_ = .batch j todo done → ∃ c pre, chunks[j]? = some c ∧
      envelope mode c = .ok (pre ++ todo) ∧ List.Forall₂ (Leaves σ rules ph) pre done.reverse)
    (hnormal : w'.Normal → w.Normal)
    (hcov : w'.Normal → ∀ j todo done, w.at_ = .batch j todo done → ∃ todo' done', w'.at_ = .batch j todo' done') :
    Retention rules ph mode items { p with run := r, batcher := p.batcher, workers := p.workers.set i w' }
      chunks := by
  have h' := h.update hw [] hrules rfl rfl h.stream (by simp) (by simp) h.sorted (fun x hx => .inl hx)
    (fun x hx => ⟨x, hx, rfl⟩) (by simpa using hheld) hnormal
    (fun _ its hf hits hex => ⟨its, hf, by simpa using hits, hex⟩) (fun hn j hj hor => by
      rcases hor with ⟨todo, done, hat⟩ | hle
      · exact .inr (hcov hn j todo done hat)
      · simp only [List.append_nil] at hj; omega)
  simpa using h'

theorem Retention.quiet
    (h : Retention rules ph mode items p chunks) {i : Nat} {w w' : Worker} (hw : p.workers[i]? = some w)
    {r : Run σ} (hrules : r.conv.rules = p.run.conv.rules) (hrun : w.running = true)
    (hout : ∀ j todo done, w.at_ ≠ .batch j todo done) (hout' : ∀ j todo done, w'.at_ ≠ .batch j todo done) :
    Retention rules ph mode items { p with run := r, batcher := p.batcher, workers := p.workers.set i w' }
      chunks :=
  h.keep hw hrules (fun j todo done hat => absurd hat (hout' j todo done))
    (fun _ => Worker.normal_of_running hrun) (fun _ j todo done hat => absurd hat (hout j todo done))

theorem Retention.drop
    (h : Retention rules ph mode items p chunks) {i : Nat} {w : Worker} (hw : p.workers[i]? = some w)
    {r : Run σ} {b : Batcher} (new : List (List Record)) (hrules : r.conv.rules = p.run.conv.rules)
    (hb : b.mode = p.batcher.mode ∧ b.retain = p.batcher.retain ∧ b.kept = p.batcher.kept)
    (hstream : ∃ its, b.feed = .stream its) (hnonempty : ∀ c ∈ new, c ≠ [])
    (hdisp : b.nextIndex = p.batcher.nextIndex + new.length) {e : WorkerEnd} (he : e ≠ .done) :
    Retention rules ph mode items
      { p with run := r, batcher := b, workers := p.workers.set i { w with at_ := .ended e } } (chunks ++ new) := by
  obtain ⟨hmode, hretain, hkept⟩ := hb
  have hab : ¬ ({ w with at_ := .ended e } : Worker).Normal := fun hn => he (hn e (.inl rfl))
  exact h.update hw new hrules hmode hretain hstream hnonempty hdisp (by rw [hkept]; exact h.sorted)
    (fun x hx => .inl (by rwa [hkept] at hx)) (fun x hx => ⟨x, by rwa [hkept], rfl⟩)
    (fun _ _ _ hat => by cases hat) (fun hn => absurd hn hab) (fun hn => absurd hn hab)
    (fun hn => absurd hn hab)

theorem Retention.advance
    (h : Retention rules ph mode items p chunks) {i : Nat} {w : Worker} (hw : p.workers[i]? = some w)
    {r : Run σ} (hrules : r.conv.rules = p.run.conv.rules) {index : Nat} {rec rec' : Record}
    {todo done : List Record} (hat : w.at_ = .batch index (rec :: todo) done)
    (hl : Leaves σ rules ph rec rec') (buffer : CommitBuffer) :
    Retention rules ph mode items
      { p with run := r, batcher := p.batcher,
               workers := p.workers.set i { w with buffer := buffer, at_ := .batch index todo (rec' :: done) } }
      chunks := by
  obtain ⟨c, pre, hc, henv, hpre⟩ := h.held w (List.mem_of_getElem? hw) index (rec :: todo) done hat
  have hrun : w.running = true := by simp [Worker.running, hat]
  refine h.keep hw hrules (fun j todo' done' hat' => ?_) (fun _ => Worker.normal_of_running hrun)
    (fun _ j todo' done' hat' => ?_)
  · -- the record moves from the part still to do to the part the rules went through
    obtain ⟨rfl, rfl, rfl⟩ := At.batch.inj hat'
    refine ⟨c, pre ++ [rec], hc, by simpa using henv, ?_⟩
    simpa using List.rel_append hpre (List.Forall₂.cons hl .nil)
  · rw [hat] at hat'
    exact ⟨todo, rec' :: done, by rw [(At.batch.inj hat').1]⟩

/-- **The account is kept by every worker step**, whatever the worker does. -/
theorem Retention.step
    (h : Retention rules ph mode items p chunks) {i : Nat} {w : Worker} (hw : p.workers[i]? = some w) :
    ∃ chunks', Retention rules ph mode items (p.workerStep i w) chunks' := by
  obtain ⟨r, b, w', ha, heq⟩ := workerStep_advances hw
  rw [heq]
  obtain ⟨its, hf⟩ := h.stream
  cases ha with
  | stopAtTop hat hs => exact ⟨_, h.drop hw [] rfl ⟨rfl, rfl, rfl⟩ h.stream (by simp) (by simp) (by simp)⟩
  | sourceFault hat hs hn =>
    obtain ⟨rest, hfr, hidx⟩ := Batcher.next_error_of_stream hf hn
    exact ⟨_, h.drop hw [] rfl (Batcher.next_keeps hn) ⟨rest, hfr⟩ (by simp) (by simpa using hidx) (by simp)⟩
  | drained hat hs hn =>
    obtain ⟨hmode, hretain, hkept⟩ := Batcher.next_keeps hn
    have hrun : w.running = true := by simp [Worker.running, hat]
    refine ⟨_, h.update hw [] rfl hmode hretain (Batcher.next_stream hf hn) (by simp)
      (by simpa using Batcher.next_nextIndex hn) (by rw [hkept]; exact h.sorted)
      (fun x hx => .inl (by rwa [hkept] at hx)) (fun x hx => ⟨x, by rwa [hkept], rfl⟩) ?_
      (fun _ => Worker.normal_of_running hrun) ?_ ?_⟩
    · intro j todo done hat'
      split at hat' <;> simp [Worker.startCommit] at hat'
    · -- the pass was over, or had been seen over
      intro _ its' hf' hits hex
      rcases Batcher.next_none_of_stream hf' hn with ⟨hx, rfl⟩ | ⟨rfl, hfeed, -, hx⟩
      · exact ⟨its', hf', by simpa using hits, hex⟩
      · exact ⟨[], hfeed, by simpa using hits, fun _ => rfl⟩
    · intro _ j hj hor
      rcases hor with ⟨todo, done, hat'⟩ | hle
      · rw [hat] at hat'; cases hat'
      · simp only [List.append_nil] at hj; omega
  | openFault hat hs hn hr =>
    obtain ⟨c, rest, -, hne, -, hfeed, hidx, -⟩ := Batcher.next_some_of_stream hf hn
    exact ⟨_, h.drop hw [c] rfl (Batcher.next_keeps hn) ⟨rest, hfeed⟩ (by simpa using hne) (by simpa using hidx)
      (by simp)⟩
  | @take x rs b hat hs hn hr =>
    obtain ⟨hmode, hretain, hkept⟩ := Batcher.next_keeps hn
    obtain ⟨c, rest, hits', hne, rfl, hfeed, hidx, hexh⟩ := Batcher.next_some_of_stream hf hn
    have hrun : w.running = true := by simp [Worker.running, hat]
    -- the batch taken is the next chunk of the pass, numbered after those handed out before
    have hindex : (Batch.make p.batcher.nextIndex c p.batcher.mode).index = chunks.length := h.dispatched
    refine ⟨_, h.update hw [c] rfl hmode hretain ⟨rest, hfeed⟩ (by simpa using hne) (by simpa using hidx)
      (by rw [hkept]; exact h.sorted) (fun x hx => .inl (by rwa [hkept] at hx))
      (fun x hx => ⟨x, by rwa [hkept], rfl⟩) ?_ (fun _ => Worker.normal_of_running hrun) ?_ ?_⟩
    · intro j todo done hat'
      obtain ⟨rfl, rfl, rfl⟩ := At.batch.inj hat'
      refine ⟨c, [], by simp [hindex], ?_, .nil⟩
      rw [← h.mode_eq, ← Batch.records_make]
      exact hr
    · intro _ its' hf' hits hex
      rw [hf, Feed.stream.injEq] at hf'
      subst hf'
      refine ⟨rest, hfeed, by simp [hits, hits'], fun hb => ?_⟩
      have := hex (hexh ▸ hb)
      simp only [hits', List.append_eq_nil_iff] at this
      exact this.2
    · intro _ j hj hor
      rcases hor with ⟨todo, done, hat'⟩ | hle
      · rw [hat] at hat'; cases hat'
      · simp only [List.length_append, List.length_singleton] at hj
        exact .inr ⟨rs, [], by rw [hindex, show j = chunks.length by omega]⟩
  | @handBack index done hat =>
    obtain ⟨c, pre, hc, henv, hpre⟩ := h.held w (List.mem_of_getElem? hw) index [] done hat
    have hrun : w.running = true := by simp [Worker.running, hat]
    have hkept := Batcher.retainProcessed_kept h.retain index done.reverse
    refine ⟨_, h.update hw [] rfl (by simp) (by simp) ⟨its, by simpa using hf⟩ (by simp) (by simp)
      (by rw [hkept]; exact Batcher.insert_sorted _ h.sorted) (fun x hx => ?_)
      (fun x hx => by rw [hkept]; exact Batcher.index_mem_insert hx) ?_
      (fun _ => Worker.normal_of_running hrun) ?_ ?_⟩
    · -- the batch handed back is made of what the rules left of what its chunk opened to
      rw [hkept] at hx
      rcases Batcher.mem_of_mem_insert hx with rfl | hx
      · refine .inr ⟨c, done.reverse, by rw [List.append_nil]; exact hc, by rw [h.mode_eq]; rfl, pre, ?_, hpre⟩
        simpa using henv
      · exact .inl hx
    · intro j todo done' hat'
      split at hat' <;> simp [Worker.startCommit] at hat'
    · intro _ its' hf' hits hex
      exact ⟨its', by simpa using hf', by simpa using hits, by simpa using hex⟩
    · intro _ j hj hor
      rcases hor with ⟨todo, done', hat'⟩ | hle
      · rw [hat] at hat'
        obtain ⟨rfl, -, -⟩ := At.batch.inj hat'
        rw [hkept]
        exact .inl ⟨_, Batcher.mem_insert_self _ _, rfl⟩
      · simp only [List.append_nil] at hj; omega
  | stopInBatch hat hs => exact ⟨_, h.drop hw [] rfl ⟨rfl, rfl, rfl⟩ h.stream (by simp) (by simp) (by simp)⟩
  | apply hat hs hm ha =>
    have hm' : (rules.typeMask ph).contains _ = true := h.mask_eq ▸ hm
    have hl := Run.applyRules_leaves ha (by rw [h.rules_eq, h.phase_eq]; exact hm')
    rw [h.rules_eq, h.phase_eq] at hl
    exact ⟨_, h.advance hw (by simp [Run.tick, Run.applyRules_conv ha]) hat hl _⟩
  | ruleFault hat hs hm ha =>
    exact ⟨_, h.drop hw [] (by rw [Run.applyRules_conv ha]) ⟨rfl, rfl, rfl⟩ h.stream (by simp) (by simp)
      (WorkerEnd.ne_done_of_fault (Run.applyRules_error_fault ha))⟩
  | pass hat hs hm =>
    have hm' : (rules.typeMask ph).contains _ = false := h.mask_eq ▸ hm
    exact ⟨_, h.advance hw (by simp [Run.tick]) hat (leaves_pass hm') w.buffer⟩
  | wait hat hl | ended hat | joined hat =>
    exact ⟨_, h.keep hw rfl (h.held w (List.mem_of_getElem? hw)) id fun _ j todo done hat' => ⟨todo, done, hat'⟩⟩
  | created hat hl hwr =>
    exact ⟨_, h.quiet hw rfl (by simp [Worker.running, hat]) (by simp [hat]) (by simp)⟩
  | merged hat hl hwr | gaveUp hat hl hwr | backOff hat hl hwr | cutShort hat hs | resume hat hs =>
    exact ⟨_, h.quiet hw rfl (by simp [Worker.running, hat]) (by simp [hat]) (by simp)⟩
  | close hat =>
    refine ⟨_, h.quiet hw rfl (by simp [Worker.running, hat]) (by simp [hat]) fun j todo done => ?_⟩
    split <;> simp

theorem Retention.move
    (h : Retention rules ph mode items p chunks) :
    ∀ m, ∃ chunks', Retention rules ph mode items (p.move m) chunks' := by
  refine move_cases (P := fun q => ∃ chunks', Retention rules ph mode items q chunks') ⟨chunks, h⟩
    (fun _ _ hw => h.step hw) (fun i => ?_) (fun _ => ⟨chunks, h.congr rfl rfl rfl rfl rfl⟩)
    ⟨chunks, h.congr rfl rfl rfl rfl rfl⟩ fun _ => ⟨chunks, h.congr rfl rfl rfl rfl rfl⟩
  rcases join_eq (p := p) (i := i) with heq | ⟨w, e, hw, hat, heq⟩
  · rw [heq]; exact ⟨chunks, h⟩
  have hj : Retention rules ph mode items
      { p with run := p.run, batcher := p.batcher, workers := p.workers.set i { w with at_ := .joined e } }
      chunks := by
    refine h.keep hw rfl (fun _ _ _ hat' => by cases hat') (fun hn e' he' => ?_)
      (fun _ _ _ _ hat' => by rw [hat] at hat'; cases hat')
    -- the joined worker ends as the ended one did
    rcases he' with he' | he' <;> rw [hat] at he' <;> cases he'
    exact hn _ (.inr rfl)
  rw [heq]
  exact ⟨chunks, hj.congr (by simp [setWorker]) (by simp [setWorker]) (by simp [setWorker])
    (by simp [setWorker]) (by simp [setWorker])⟩

theorem retention_start (n : Nat) (r : Run σ) (ph : Phase) (items : List Item) (mode : WorkerMode)
    (hint : Option Nat) :
    Retention r.conv.rules ph mode items (start n r ph (Batcher.ofItems items mode true) hint) [] where
  rules_eq := rfl
  phase_eq := rfl
  mask_eq := rfl
  mode_eq := rfl
  retain := rfl
  stream := ⟨items, rfl⟩
  read _ := ⟨items, rfl, by simp, fun h => by cases h⟩
  nonempty c hc := by cases hc
  dispatched := rfl
  sorted := List.Pairwise.nil
  kept x hx := by cases hx
  held w hw j todo done hat := by
    obtain rfl := List.eq_of_mem_replicate hw
    cases hat
  covered _ j hj := absurd hj (Nat.not_lt_zero j)

/-- The account of a phase that ended normally is closed: the pass is the chunks read, and the
batcher keeps one batch for each, in order, made of what the rules left of its records. -/
theorem Retention.settled
    (h : Retention rules ph mode items p chunks) (hacc : p.Accounted) (ht : p.Tidy) (hne : p.workers ≠ [])
    (hfin : p.finished = true) (hf : p.firstError = none) (hc : p.run.world.cancelled = false) :
    items = chunks.flatten.map .ok ∧ p.batcher.kept.map (·.index) = List.range chunks.length ∧
      List.Forall₂ (fun c x => ∃ out, x = Batch.make x.index out mode ∧ Processed σ rules ph mode c out)
        chunks p.batcher.kept := by
  have hdone := hacc.all_done hfin hf hc
  have hnormal : ∀ w ∈ p.workers, w.Normal := fun w hw e he => by
    rcases he with he | he <;> rw [hdone w hw] at he <;> cases he
    rfl
  -- a worker that ended normally saw the batcher run dry, so the whole pass was read
  obtain ⟨w, hw⟩ := List.exists_mem_of_ne_nil _ hne
  obtain ⟨its, -, hits, hex⟩ := h.read hnormal
  have hitems : items = chunks.flatten.map .ok := by
    simpa [hex (ht.done w hw (.inr (hdone w hw))).2] using hits
  -- no worker is inside a batch, so every batch handed out is kept
  have hindex : p.batcher.kept.map (·.index) = List.range chunks.length := by
    refine List.Pairwise.eq_of_mem_iff (List.pairwise_map.mpr h.sorted) List.pairwise_lt_range fun j => ?_
    simp only [List.mem_map, List.mem_range]
    constructor
    · rintro ⟨x, hx, rfl⟩
      obtain ⟨c, -, hc, -⟩ := h.kept x hx
      exact (List.getElem?_eq_some_iff.mp hc).1
    · intro hj
      rcases h.covered hnormal j hj with hx | ⟨v, hv, todo, done, hat⟩
      · exact hx
      · rw [hdone v hv] at hat; cases hat
  have hlen : p.batcher.kept.length = chunks.length := by
    simpa using congrArg List.length hindex
  refine ⟨hitems, hindex, List.forall₂_of_length_eq_of_get hlen.symm fun j hj hj' => ?_⟩
  have hxj : p.batcher.kept[j].index = j := by
    have := congrArg (·[j]?) hindex
    simpa [hj, hj'] using this
  obtain ⟨c, out, hc, hx, hp⟩ := h.kept _ (List.getElem_mem hj')
  rw [hxj, List.getElem?_eq_getElem hj, Option.some.injEq] at hc
  subst hc
  exact ⟨out, hx, hp⟩

end Retention

/-- **A node phase keeps its whole pass for the relationship phase.** Under any schedule, a node
phase that keeps its batches and ends normally has read the whole pass, in nonempty chunks and in
order; replaying what it kept, the relationship phase hands out one batch per chunk, in the same
order, opening as what the rules left of the chunk's records. -/
theorem node_phase_keeps_batches {n : Nat} (hn : 0 < n) (r : Run σ) (items : List Item)
    (mode : WorkerMode) (hint : Option Nat) (ms : List Move)
    (hfin : ((start n r .node (Batcher.ofItems items mode true) hint).play ms).finished = true) {b' : Batcher}
    (hok : ((start n r .node (Batcher.ofItems items mode true) hint).play ms).outcome.2 = .ok b') :
    ∃ chunks outs, items = chunks.flatten.map .ok ∧ (∀ c ∈ chunks, c ≠ []) ∧
      List.Forall₂ (Processed σ r.conv.rules .node mode) chunks outs ∧
      (Batcher.ofRetained b'.takeRetained.1 mode).Queue outs := by
  set q := (start n r .node (Batcher.ofItems items mode true) hint).play ms
  obtain ⟨chunks, h⟩ : ∃ chunks, Retention r.conv.rules .node mode items q chunks :=
    play_induction (P := fun q => ∃ chunks, Retention r.conv.rules .node mode items q chunks)
      (fun _ m ⟨_, h⟩ => h.move m) ms ⟨_, retention_start n r .node items mode hint⟩
  have hacc : q.Accounted := play_induction (fun _ m h => h.move m) ms (accounted_start n r .node _ hint)
  have ht : q.Tidy := play_induction (fun _ m h => h.move m) ms (tidy_start n r .node _ hint)
  have hlength : q.workers.length = n :=
    play_induction (P := fun q => q.workers.length = n)
      (fun q m h => (move_length q m).trans h) ms (by simp [start])
  -- a phase that ended normally kept no fault, saw no cancellation, and left its batcher
  have hend : q.firstError = none ∧ q.run.world.cancelled = false ∧ q.batcher = b' := by
    unfold outcome at hok
    split at hok
    · cases hok
    next hf =>
      split at hok
      · cases hok
      next hc => exact ⟨hf, by simpa using hc, Except.ok.inj hok⟩
  obtain ⟨hf, hc, rfl⟩ := hend
  obtain ⟨hitems, -, hkept⟩ := h.settled hacc ht (List.ne_nil_of_length_pos (by omega)) hfin hf hc
  obtain ⟨outs, hps, hmap⟩ := replay_of_kept hkept
  exact ⟨chunks, outs, hitems, h.nonempty, hps, rfl, rfl, hmap⟩

/-- A node phase on two workers over two records, in batches of one: each record builds a node
keyed on its field `k`. -/
def outOfOrder : Run Store :=
  let keyed : NodeRule :=
    { id := "n", labels := ["N"], properties := [("k", .field "k" none)], primaryKey := some "k" }
  { conv := { config := { workers := some 2, batchSize := 1 },
              rules := { entries := [("R", { nodes := .nodeRules [keyed] })] } },
    world := { store := .memory Graph.empty, source := .items [] } }

/-- The pass of the phase. -/
def outOfOrder.items : List Item :=
  [.ok { recordType := "R", fields := Props.empty.insert "k" (.str "a"), identifying := ["k"] },
   .ok { recordType := "R", fields := Props.empty.insert "k" (.str "b"), identifying := ["k"] }]

/-- The first worker takes the first batch and the second the second; the second processes its
batch, hands it back and commits before the first does, and both are joined. -/
def outOfOrder.pool : Pool Store :=
  (start 2 outOfOrder .node (Batcher.ofItems outOfOrder.items .shared true) none).play
    ([.step 0] ++ List.replicate 7 (.step 1) ++ List.replicate 7 (.step 0) ++ [.join 0, .join 1])

theorem outOfOrder_keeps_batches :
    0 < 2 ∧ outOfOrder.pool.finished = true ∧ outOfOrder.pool.outcome.2 = .ok outOfOrder.pool.batcher ∧
      ∃ chunks outs, outOfOrder.items = chunks.flatten.map .ok ∧ (∀ c ∈ chunks, c ≠ []) ∧
        List.Forall₂ (Processed Store outOfOrder.conv.rules .node .shared) chunks outs ∧
        (Batcher.ofRetained outOfOrder.pool.batcher.takeRetained.1 .shared).Queue outs := by
  have hfin : outOfOrder.pool.finished = true := by decide
  have hf : outOfOrder.pool.firstError = none := Option.isNone_iff_eq_none.mp (by decide)
  have hc : outOfOrder.pool.run.world.cancelled = false := by decide
  have hok : outOfOrder.pool.outcome.2 = .ok outOfOrder.pool.batcher := by simp [outcome, hf, hc]
  exact ⟨by decide, hfin, hok, node_phase_keeps_batches (by decide) _ _ _ _ _ hfin hok⟩

end Pool

end GraphIngest
