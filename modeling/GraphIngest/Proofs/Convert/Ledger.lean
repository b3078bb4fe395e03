import GraphIngest.Proofs.Convert.KeyedPhase

/-! # Where the records of a phase go

Every record a phase takes ends up in exactly one place: processed, dropped by a worker that ended
abnormally, still to do in a worker's batch, or still in the batcher; every element built for a
processed record is written, held by a running worker, or dropped. `Books` keeps these accounts,
with ghost lists of records and elements (`Tally`), through every move of any schedule.

A buffer keeps a node once per handle, and the rules mint handles afresh, so a phase that ends
normally has written the elements of every record exactly once; what the store makes of them is
left to a predicate on stores (`Good`) and the laws its writes obey (`WriteLaws`).
-/

namespace GraphIngest

open Run (WorkerEnd)

section Lists

variable {α β : Type}

theorem flatMap_set_perm (f : α → List β) (y : α) :
    ∀ {l : List α} {i : Nat} {x : α}, l[i]? = some x →
      ((l.set i y).flatMap f ++ f x).Perm (l.flatMap f ++ f y)
  | a :: l, 0, x, h => by
    cases h
    rw [← Multiset.coe_eq_coe]
    simp only [List.set_cons_zero, List.flatMap_cons, ← Multiset.coe_add]
    abel
  | a :: l, i + 1, x, h => by
    simp only [List.getElem?_cons_succ] at h
    simpa [List.append_assoc] using (flatMap_set_perm f y h).append_left (f a)

end Lists

/-! ## What a write stores -/

/-- An element a write stores: an uncommitted node or a relationship without an identity. -/
inductive Element where
  | node (n : Node)
  | rel (r : Relationship)
  deriving Inhabited

/-- What the rules decide of an element: all of it but a node's handle, which they mint. -/
def Element.shape : Element → Element
  | .node n => .node { n with handle := default }
  | .rel r => .rel r

/-- The elements a write of a fragment stores, in the order it stores them: its uncommitted
nodes, then its relationships without an identity. -/
def Fragment.elements (f : Fragment) : List Element :=
  f.fresh.map .node ++ (f.rels.filter (·.identity.isNone)).map .rel

theorem Fragment.elements_of_isEmpty {f : Fragment} (h : f.isEmpty = true) : f.elements = [] := by
  simp only [Fragment.isEmpty, Bool.and_eq_true, List.isEmpty_iff] at h
  simp [Fragment.elements, Fragment.fresh, h.1, h.2]

/-- The parts of a commit, or of a buffer, as a buffer sorts elements: what it creates has no
key, what it merges has one. -/
structure Bucketed (create merge : Fragment) : Prop where
  createNodes : ∀ n ∈ create.nodes, n.primaryKey = none
  createRels : ∀ r ∈ create.rels, r.key = none
  mergeNodes : ∀ n ∈ merge.nodes, n.primaryKey.isSome = true
  mergeRels : ∀ r ∈ merge.rels, r.key.isSome = true

namespace CommitBuffer

/-- The elements the buffer's commit would store. -/
def elements (b : CommitBuffer) : List Element := b.create.elements ++ b.merge.elements

/-- The handles both sides' sets hold. -/
def handles (b : CommitBuffer) : List Handle := b.createSide.handles ++ b.mergeSide.handles

@[simp] theorem addRecords_elements (b : CommitBuffer) (k : Nat) : (b.addRecords k).elements = b.elements := rfl

@[simp] theorem addRecords_handles (b : CommitBuffer) (k : Nat) : (b.addRecords k).handles = b.handles := rfl

@[simp] theorem empty_elements : ({} : CommitBuffer).elements = [] := rfl

@[simp] theorem empty_handles : ({} : CommitBuffer).handles = [] := rfl

theorem elements_of_isEmpty {b : CommitBuffer} (h : b.isEmpty = true) : b.elements = [] := by
  simp only [isEmpty, size, Fragment.size, Bool.and_eq_true, beq_iff_eq] at h
  have hc : b.create.isEmpty = true := by
    simp only [Fragment.isEmpty, Bool.and_eq_true, List.isEmpty_iff, ← List.length_eq_zero_iff]; omega
  have hm : b.merge.isEmpty = true := by
    simp only [Fragment.isEmpty, Bool.and_eq_true, List.isEmpty_iff, ← List.length_eq_zero_iff]; omega
  simp [elements, Fragment.elements_of_isEmpty hc, Fragment.elements_of_isEmpty hm]

theorem putNode_elements {b : CommitBuffer} {n : Node} (hn : n.isCommitted = false)
    (h : n.handle ∉ b.handles) :
    (b.putNode n).elements.Perm (b.elements ++ [.node n]) ∧
      ∀ x, x ∈ (b.putNode n).handles ↔ x ∈ b.handles ∨ x = n.handle := by
  have hfresh : [n].filter (!·.isCommitted) = [n] := by simp [hn]
  unfold putNode
  split
  · rw [Side.pushNode_of_not_mem fun h' => h (List.mem_append_left _ h')]
    refine ⟨?_, fun x => by simp [handles]; tauto⟩
    rw [← Multiset.coe_eq_coe]
    simp only [elements, create_mk, merge_mk, Fragment.elements, Fragment.fresh, List.filter_append,
      hfresh, List.map_append, List.map_cons, List.map_nil, ← Multiset.coe_add]
    unfold create merge
    abel
  · rw [Side.pushNode_of_not_mem fun h' => h (List.mem_append_right _ h')]
    refine ⟨?_, fun x => by simp [handles]; tauto⟩
    rw [← Multiset.coe_eq_coe]
    simp only [elements, create_mk, merge_mk, Fragment.elements, Fragment.fresh, List.filter_append,
      hfresh, List.map_append, List.map_cons, List.map_nil, ← Multiset.coe_add]
    unfold create merge
    abel

theorem putRel_elements (b : CommitBuffer) (r : Relationship) :
    (b.putRel r).elements.Perm (b.elements ++ ([r].filter (·.identity.isNone)).map .rel) ∧
      (b.putRel r).handles = b.handles := by
  unfold putRel
  split
  · refine ⟨?_, rfl⟩
    rw [← Multiset.coe_eq_coe]
    simp only [elements, create_mk, merge_mk, Side.pushRel_fragment, Fragment.elements, Fragment.fresh,
      Fragment.pushRel, List.filter_append, List.map_append, ← Multiset.coe_add]
    unfold create merge
    abel
  · refine ⟨?_, rfl⟩
    rw [← Multiset.coe_eq_coe]
    simp only [elements, create_mk, merge_mk, Side.pushRel_fragment, Fragment.elements, Fragment.fresh,
      Fragment.pushRel, List.filter_append, List.map_append, ← Multiset.coe_add]
    unfold create merge
    abel

theorem foldl_putNode : ∀ (ns : List Node) (b : CommitBuffer), (∀ n ∈ ns, n.isCommitted = false) →
    (∀ n ∈ ns, n.handle ∉ b.handles) → (ns.map (·.handle)).Nodup →
    (ns.foldl putNode b).elements.Perm (b.elements ++ ns.map .node) ∧
      ∀ x, x ∈ (ns.foldl putNode b).handles ↔ x ∈ b.handles ∨ x ∈ ns.map (·.handle)
  | [], b, _, _, _ => by simp
  | n :: ns, b, hc, hh, hnd => by
    obtain ⟨hn, hns⟩ := List.nodup_cons.mp hnd
    obtain ⟨he₁, hh₁⟩ := putNode_elements (hc n List.mem_cons_self) (hh n List.mem_cons_self)
    -- the rest meet a buffer whose sets hold one more handle, not theirs
    have hh' : ∀ x ∈ ns, x.handle ∉ (b.putNode n).handles := by
      intro x hx hmem
      rcases (hh₁ _).mp hmem with hmem | he
      · exact hh x (List.mem_cons_of_mem _ hx) hmem
      · exact hn (List.mem_map.mpr ⟨x, hx, he⟩)
    obtain ⟨he, hhs⟩ := foldl_putNode ns (b.putNode n) (fun x hx => hc x (List.mem_cons_of_mem _ hx)) hh' hns
    rw [List.foldl_cons]
    refine ⟨he.trans ?_, fun x => ?_⟩
    · simpa using he₁.append_right (ns.map .node)
    · rw [hhs, hh₁]
      simp only [List.map_cons, List.mem_cons]
      tauto

theorem foldl_putRel : ∀ (rs : List Relationship) (b : CommitBuffer),
    (rs.foldl putRel b).elements.Perm (b.elements ++ (rs.filter (·.identity.isNone)).map .rel) ∧
      (rs.foldl putRel b).handles = b.handles
  | [], b => by simp
  | r :: rs, b => by
    obtain ⟨he₁, hh₁⟩ := putRel_elements b r
    obtain ⟨he, hh⟩ := foldl_putRel rs (b.putRel r)
    rw [List.foldl_cons]
    refine ⟨he.trans ?_, hh.trans hh₁⟩
    have := he₁.append_right ((rs.filter (·.identity.isNone)).map .rel)
    by_cases hr : r.identity.isNone = true
    · simpa [List.filter_cons, hr] using this
    · simpa [List.filter_cons, hr] using this

/-- **Adding a fragment to a buffer** stores its elements with the buffer's, provided its nodes
are uncommitted and carry handles that neither the buffer's sets nor each other hold; the sets
gain those handles. -/
theorem add_elements {b : CommitBuffer} {f : Fragment} (hc : ∀ n ∈ f.nodes, n.isCommitted = false)
    (hh : ∀ n ∈ f.nodes, n.handle ∉ b.handles) (hnd : (f.nodes.map (·.handle)).Nodup) :
    (b.add f).elements.Perm (b.elements ++ f.elements) ∧
      ∀ x, x ∈ (b.add f).handles ↔ x ∈ b.handles ∨ x ∈ f.nodes.map (·.handle) := by
  obtain ⟨he₁, hh₁⟩ := foldl_putNode f.nodes b hc hh hnd
  obtain ⟨he₂, hh₂⟩ := foldl_putRel f.rels (f.nodes.foldl putNode b)
  have hfresh : f.fresh = f.nodes := List.filter_eq_self.mpr fun n hn => by simp [hc n hn]
  rw [add_eq]
  refine ⟨he₂.trans ?_, fun x => hh₂ ▸ hh₁ x⟩
  simpa [Fragment.elements, hfresh] using he₁.append_right ((f.rels.filter (·.identity.isNone)).map .rel)

theorem Bucketed.add {b : CommitBuffer} (hb : Bucketed b.create b.merge) (f : Fragment) :
    Bucketed (b.add f).create (b.add f).merge := by
  rw [add_eq]
  refine List.foldlRecOn (motive := fun b : CommitBuffer => Bucketed b.create b.merge) f.rels _ ?_ ?_
  · refine List.foldlRecOn (motive := fun b : CommitBuffer => Bucketed b.create b.merge) f.nodes _ hb
      fun b hb n _ => ?_
    unfold putNode
    split
    next hk =>
      have hpk : n.primaryKey = none := by
        simp only [Bucket.ofNode] at hk; split at hk <;> simp_all
      refine ⟨fun x hx => ?_, by simpa [create] using hb.createRels, hb.mergeNodes, hb.mergeRels⟩
      rcases Side.mem_pushNode hx with hx | rfl
      · exact hb.createNodes x hx
      · exact hpk
    next hk =>
      have hpk : n.primaryKey.isSome = true := by
        simp only [Bucket.ofNode] at hk; split at hk <;> simp_all
      refine ⟨hb.createNodes, hb.createRels, fun x hx => ?_, by simpa [merge] using hb.mergeRels⟩
      rcases Side.mem_pushNode hx with hx | rfl
      · exact hb.mergeNodes x hx
      · exact hpk
  · intro b hb r _
    unfold putRel
    split
    next hk =>
      have hrk : r.key = none := by
        simp only [Bucket.ofRel] at hk; split at hk <;> simp_all
      exact ⟨hb.createNodes, KeyedParts.forall_pushRel hb.createRels hrk, hb.mergeNodes, hb.mergeRels⟩
    next hk =>
      have hrk : r.key.isSome = true := by
        simp only [Bucket.ofRel] at hk; split at hk <;> simp_all
      exact ⟨hb.createNodes, hb.createRels, hb.mergeNodes, KeyedParts.forall_pushRel hb.mergeRels hrk⟩

end CommitBuffer

theorem bucketed_empty : Bucketed {} {} := ⟨by simp, by simp, by simp, by simp⟩

/-! ## What a batcher still hands out -/

theorem Handle.minted_inj {m s s' : Nat} (h₁ : m ≤ s) (h₂ : m ≤ s') (h₃ : s < m + 2 ^ 48)
    (h₄ : s' < m + 2 ^ 48) (h : Handle.minted s = Handle.minted s') : s = s' := by
  simp only [Handle.minted, Handle.mk.injEq] at h
  have : s % 2 ^ 48 = s' % 2 ^ 48 := by simpa using h
  omega

namespace Batcher

theorem takeRecords_ok : ∀ (n : Nat) (rs acc : List Record),
    takeRecords n (rs.map .ok) acc = (.ok (acc.reverse ++ rs.take n), (rs.drop n).map .ok)
  | 0, rs, acc => by simp [takeRecords]
  | n + 1, [], acc => by simp [takeRecords]
  | n + 1, r :: rs, acc => by
    simp only [List.map_cons, takeRecords, takeRecords_ok n rs (r :: acc)]
    simp

/-- The batcher hands out the records `rest` and then runs dry: its batches open to consecutive
pieces of `rest`. A pass of records opens as it is: each piece of it, sealed or not, opens to
itself. -/
def Delivers (b : Batcher) (rest : List Record) : Prop :=
  (b.exhausted = true → rest = []) ∧
  match b.feed with
  | .stream items => items = rest.map .ok ∧
      ∀ s c t, rest = s ++ c ++ t → c ≠ [] → Sequential.envelope b.mode c = .ok c
  | .replay bs => ∃ chunks : List (List Record), bs.map Batch.records = chunks.map .ok ∧ chunks.flatten = rest

theorem Delivers.next {b : Batcher} {rest : List Record} (hb : b.Delivers rest) (g : Nat) :
    ((b.next g).1 = .ok none ∧ rest = [] ∧ (b.next g).2.Delivers []) ∨
      ∃ x chunk rest', (b.next g).1 = .ok (some x) ∧ x.records = .ok chunk ∧ rest = chunk ++ rest' ∧
        (b.next g).2.Delivers rest' := by
  obtain ⟨hx, hf⟩ := hb
  by_cases he : b.exhausted = true
  · obtain rfl := hx he
    have hnext : b.next g = (.ok none, b) := by simp [Batcher.next, he]
    rw [hnext]
    exact .inl ⟨rfl, rfl, hx, hf⟩
  have he' : b.exhausted = false := by simpa using he
  unfold Batcher.next
  rw [if_neg he]
  rcases hfeed : b.feed with items | bs
  · rw [hfeed] at hf
    obtain ⟨rfl, henv⟩ := hf
    dsimp only
    rw [takeRecords_ok]
    simp only [List.reverse_nil, List.nil_append]
    rcases htake : rest.take (max g 1) with _ | ⟨c₀, cs⟩
    · -- nothing is left: a first piece of at least one record would be taken
      have hrest : rest = [] := by
        rcases List.take_eq_nil_iff.mp htake with h | h
        · omega
        · exact h
      subst hrest
      refine .inl ⟨rfl, rfl, fun _ => rfl, ?_⟩
      dsimp only
      refine ⟨by simp, fun s c t h hne => ?_⟩
      simp only [List.nil_eq, List.append_eq_nil_iff] at h
      exact absurd h.1.2 hne
    · have hsplit : rest = (c₀ :: cs) ++ rest.drop (max g 1) := by rw [← htake, List.take_append_drop]
      refine .inr ⟨_, c₀ :: cs, rest.drop (max g 1), rfl, ?_, hsplit, ?_⟩
      · rw [Batch.records_make]
        exact henv [] _ _ (by simpa using hsplit) (List.cons_ne_nil _ _)
      · refine ⟨fun h => by simp [he'] at h, ?_⟩
        dsimp only
        refine ⟨rfl, fun s c t h hne => henv ((c₀ :: cs) ++ s) c t ?_ hne⟩
        rw [hsplit, h]
        simp [List.append_assoc]
  · rw [hfeed] at hf
    obtain ⟨chunks, hbs, rfl⟩ := hf
    dsimp only
    cases bs with
    | nil =>
      cases chunks with
      | nil => exact .inl ⟨rfl, rfl, fun _ => rfl, [], rfl, rfl⟩
      | cons _ _ => cases hbs
    | cons x bs =>
      cases chunks with
      | nil => cases hbs
      | cons c cs =>
        obtain ⟨hxc, hrest⟩ := List.cons.inj hbs
        exact .inr ⟨x, c, cs.flatten, rfl, hxc, rfl, by simp [he'], cs, hrest, rfl⟩

@[simp] theorem retainProcessed_feed (b : Batcher) (i : Nat) (rs : List Record) :
    (b.retainProcessed i rs).feed = b.feed := by
  unfold Batcher.retainProcessed; split <;> rfl

theorem Delivers.retainProcessed {b : Batcher} {rest : List Record} (hb : b.Delivers rest)
    (i : Nat) (rs : List Record) : (b.retainProcessed i rs).Delivers rest := by
  obtain ⟨hx, hf⟩ := hb
  refine ⟨by simpa using hx, ?_⟩
  simpa using hf

end Batcher

namespace Pool

/-- The records a worker still has to process in the batch it is inside. -/
def Worker.todo (w : Worker) : List Record :=
  match w.at_ with
  | .batch _ todo _ => todo
  | _ => []

/-- The elements of the commit parts still to be written at a point of the loop. -/
def At.unwritten : At → List Element
  | .write c .create _ | .pause c .create _ => c.create.elements ++ c.merge.elements
  | .write c .merge _ | .pause c .merge _ => c.merge.elements
  | _ => []

/-- The elements a worker holds and has not written: while it runs, its buffer's and those of
the commit parts it has still to write; once it has ended, none. -/
def Worker.pending (w : Worker) : List Element :=
  if w.running then w.buffer.elements ++ w.at_.unwritten else []

/-- A worker that has not ended otherwise than normally. -/
def Worker.Normal (w : Worker) : Prop :=
  ∀ e, (w.at_ = .ended e ∨ w.at_ = .joined e) → e = .done

@[simp] theorem Commit.unwritten_afterCreate (c : Commit) : c.afterCreate.unwritten = c.merge.elements := by
  unfold Commit.afterCreate
  split
  next h => simp [At.unwritten, Fragment.elements_of_isEmpty h]
  next => rfl

@[simp] theorem Commit.unwritten_first (c : Commit) :
    c.first.unwritten = c.create.elements ++ c.merge.elements := by
  unfold Commit.first
  split
  next h => simp [Fragment.elements_of_isEmpty h]
  next => rfl

theorem Worker.running_of_commit? {w : Worker} {c : Commit} (h : w.at_.commit? = some c) :
    w.running = true := by
  unfold Worker.running; split <;> simp_all [At.commit?]

theorem Worker.todo_of_commit? {w : Worker} {c : Commit} (h : w.at_.commit? = some c) : w.todo = [] := by
  unfold Worker.todo; split <;> simp_all [At.commit?]

theorem Worker.pending_startCommit (w : Worker) (last : Bool) :
    (w.startCommit last).pending = w.buffer.elements := by
  rw [Worker.pending, if_pos (Worker.running_of_commit? (Commit.first_commit? _))]
  simp only [Worker.startCommit, CommitBuffer.empty_elements, Commit.unwritten_first, Commit.ofBuffer,
    List.nil_append]
  rfl

theorem Worker.todo_startCommit (w : Worker) (last : Bool) : (w.startCommit last).todo = [] :=
  Worker.todo_of_commit? (Commit.first_commit? _)

theorem Worker.pending_of_running {w : Worker} (h : w.running = true) :
    w.pending = w.buffer.elements ++ w.at_.unwritten := if_pos h

theorem At.part_subset_unwritten (c : Commit) (k : WriteKind) (a : Nat) :
    (c.part k).elements ⊆ (At.write c k a).unwritten := by
  cases k <;> simp [Commit.part, At.unwritten]

theorem Worker.normal_of_running {w : Worker} (h : w.running = true) : w.Normal := by
  intro e he
  rcases he with he | he <;> simp [Worker.running, he] at h

/-- Workers all normal after one of them was replaced by a worker normal only if the one it
replaced was: the new worker is normal, and so were all the old ones. -/
theorem Worker.normal_of_set {l : List Worker} {i : Nat} {w w' : Worker} (hw : l[i]? = some w)
    (hn : w'.Normal → w.Normal) (hall : ∀ v ∈ l.set i w', v.Normal) :
    w'.Normal ∧ ∀ v ∈ l, v.Normal := by
  have hi : (l.set i w')[i]? = some w' := List.getElem?_set_self (List.getElem?_eq_some_iff.mp hw).1
  have hw' : w'.Normal := hall w' (List.mem_of_getElem? hi)
  refine ⟨hw', fun v hv => ?_⟩
  obtain ⟨j, hj⟩ := List.getElem?_of_mem hv
  by_cases hji : i = j
  · subst hji
    rw [hw] at hj
    cases hj
    exact hn hw'
  · exact hall v (List.mem_of_getElem? (by rw [List.getElem?_set_ne hji]; exact hj))

/-- The elements the rules build for a record by `F`, if the phase applies rules to its type. -/
def produce (F : Record → List Element) (mask : List String) (rec : Record) : List Element :=
  if mask.contains rec.recordType then F rec else []

theorem produce_pos {F : Record → List Element} {mask : List String} {rec : Record}
    (h : mask.contains rec.recordType = true) : produce F mask rec = F rec := if_pos h

theorem produce_neg {F : Record → List Element} {mask : List String} {rec : Record}
    (h : mask.contains rec.recordType = false) : produce F mask rec = [] := if_neg (ne_true_of_eq_false h)

/-! ## What a phase needs of its rules and its store -/

/-- The rules of a phase build, against every store `Good` describes, a fragment whose elements
have the shapes `F` gives the record; its nodes are uncommitted and carry distinct handles that
this application minted. -/
def Yields (rules : RuleSet) (ph : Phase) (Good : Graph → List Element → Prop) (F : Record → List Element) :
    Prop :=
  ∀ (w : World Store) (g : Graph) (C : List Element) (rec : Record) (w' : World Store) (f : Fragment)
    (rec' : Record), w.store = .memory g → Good g C → w.apply rules ph rec = (w', .ok f, rec') →
      f.elements.map Element.shape = F rec ∧ (∀ n ∈ f.nodes, n.isCommitted = false) ∧
        (f.nodes.map (·.handle)).Nodup ∧
        ∀ n ∈ f.nodes, ∃ s, w.minted ≤ s ∧ s < w'.minted ∧ n.handle = Handle.minted s

/-- Applying the rules of a phase mints at most `K` handles. -/
def MintsAtMost (rules : RuleSet) (ph : Phase) (K : Nat) : Prop :=
  ∀ (w : World Store) (rec : Record),
    w.minted ≤ (w.apply rules ph rec).1.minted ∧ (w.apply rules ph rec).1.minted ≤ w.minted + K

/-- What writes do to the stores `Good` describes, for elements of shapes among `U`: a create of
unkeyed elements, or a merge of keyed ones, that goes through adds the part's elements to those
written; one that fails leaves a store `Good` describes with what was written. -/
structure WriteLaws (Good : Graph → List Element → Prop) (U : List Element) : Prop where
  create : ∀ {g C f g' f'}, Good g C → (∀ e ∈ C ++ f.elements.map Element.shape, e ∈ U) →
    (∀ n ∈ f.nodes, n.primaryKey = none) → (∀ r ∈ f.rels, r.key = none) →
    g.create f = (g', .ok f') → Good g' (C ++ f.elements.map Element.shape)
  merge : ∀ {g C f g' f'}, Good g C → (∀ e ∈ C ++ f.elements.map Element.shape, e ∈ U) →
    (∀ n ∈ f.nodes, n.primaryKey.isSome = true) → (∀ r ∈ f.rels, r.key.isSome = true) →
    g.merge f = (g', .ok f') → Good g' (C ++ f.elements.map Element.shape)
  createFails : ∀ {g C f g' e}, Good g C → g.create f = (g', .error e) → Good g' C
  mergeFails : ∀ {g C f g' e}, Good g C → g.merge f = (g', .error e) → Good g' C

section Writes

variable {Good : Graph → List Element → Prop} {U : List Element}

theorem World.minted_of_write {w w' : World Store} {k : WriteKind} {f : Fragment}
    {res : Except StorageError Fragment} (h : w.write k f = (w', res)) : w'.minted = w.minted := by
  have : (w.write k f).1.minted = w.minted := by
    cases k <;> simp only [World.write] <;> split <;> rfl
  rwa [h] at this

theorem WriteLaws.write_ok (hl : WriteLaws Good U) {w w' : World Store} {g : Graph} {C : List Element}
    {k : WriteKind} {c : Commit} {f : Fragment} (hst : w.store = .memory g) (hg : Good g C)
    (hb : Bucketed c.create c.merge) (hU : ∀ e ∈ C ++ (c.part k).elements.map Element.shape, e ∈ U)
    (h : w.write k (c.part k) = (w', .ok f)) :
    ∃ g', w'.store = .memory g' ∧ Good g' (C ++ (c.part k).elements.map Element.shape) := by
  rcases World.write_cases h with ⟨-, e, he⟩ | hw
  · cases he
  cases k with
  | create =>
    change Store.create w.store c.create = (w'.store, .ok f) at hw
    rw [hst, Store.create_memory] at hw
    obtain ⟨hs, hres⟩ := Prod.mk.inj hw
    exact ⟨_, hs.symm, hl.create hg hU hb.createNodes hb.createRels (Prod.ext rfl hres)⟩
  | merge =>
    change Store.merge w.store c.merge = (w'.store, .ok f) at hw
    rw [hst, Store.merge_memory] at hw
    obtain ⟨hs, hres⟩ := Prod.mk.inj hw
    exact ⟨_, hs.symm, hl.merge hg hU hb.mergeNodes hb.mergeRels (Prod.ext rfl hres)⟩

theorem WriteLaws.write_error (hl : WriteLaws Good U) {w w' : World Store} {g : Graph} {C : List Element}
    {k : WriteKind} {f : Fragment} {e : StorageError} (hst : w.store = .memory g) (hg : Good g C)
    (h : w.write k f = (w', .error e)) : ∃ g', w'.store = .memory g' ∧ Good g' C := by
  rcases World.write_cases h with ⟨hs, -⟩ | hw
  · exact ⟨g, hs.trans hst, hg⟩
  cases k with
  | create =>
    change Store.create w.store f = (w'.store, .error e) at hw
    rw [hst, Store.create_memory] at hw
    obtain ⟨hs, hres⟩ := Prod.mk.inj hw
    exact ⟨_, hs.symm, hl.createFails hg (Prod.ext rfl hres)⟩
  | merge =>
    change Store.merge w.store f = (w'.store, .error e) at hw
    rw [hst, Store.merge_memory] at hw
    obtain ⟨hs, hres⟩ := Prod.mk.inj hw
    exact ⟨_, hs.symm, hl.mergeFails hg (Prod.ext rfl hres)⟩

end Writes

/-! ## The books of a phase -/

/-- The ghost accounts of a phase: the records the batcher still holds, those processed and those
dropped, and the elements written and those dropped, by shape. -/
structure Tally where
  rest : List Record
  done : List Record
  dropped : List Record
  written : List Element
  lost : List Element

section Books

variable (rules : RuleSet) (ph : Phase) (F : Record → List Element) (Good : Graph → List Element → Prop)
  (rs : List Record) (m₀ K : Nat)

/-- The books of a phase over the records `rs`, with the rules `rules` building `F`: every record
is processed, dropped, still to do or still to come, and every element the rules built for a
processed record is written, pending or dropped; records and elements are dropped only by a worker
that ended otherwise than normally. The store is one `Good` describes with what is written; the
buffers and commits hold what their buckets allow; and every buffered node carries a handle
minted since the phase began, no more than `K` handles being minted per record taken. -/
structure Books (p : Pool Store) (t : Tally) : Prop where
  rules_eq : p.run.conv.rules = rules
  phase_eq : p.phase = ph
  mask_eq : p.mask = rules.typeMask ph
  feed : p.batcher.Delivers t.rest
  records : rs.Perm (t.done ++ t.dropped ++ p.workers.flatMap Worker.todo ++ t.rest)
  elements : (t.written ++ (p.workers.flatMap Worker.pending).map Element.shape ++ t.lost).Perm
    (t.done.flatMap (produce F p.mask))
  normal : (∀ w ∈ p.workers, w.Normal) → t.dropped = [] ∧ t.lost = []
  store : ∃ g, p.run.world.store = .memory g ∧ Good g t.written
  bucketed : ∀ w ∈ p.workers, Bucketed w.buffer.create w.buffer.merge ∧
    ∀ c, w.at_.commit? = some c → Bucketed c.create c.merge
  mintedFrom : m₀ ≤ p.run.world.minted
  mintedBelow : p.run.world.minted ≤ m₀ + K * (t.done.length + t.dropped.length)
  fresh : ∀ w ∈ p.workers, ∀ x ∈ w.buffer.handles,
    ∃ s, m₀ ≤ s ∧ s < p.run.world.minted ∧ x = Handle.minted s

variable {rules ph F Good rs m₀ K} {p : Pool Store} {t : Tally}

theorem Books.congr {p q : Pool Store} {t : Tally} (h : Books rules ph F Good rs m₀ K p t)
    (hrules : q.run.conv.rules = p.run.conv.rules) (hstore : q.run.world.store = p.run.world.store)
    (hminted : q.run.world.minted = p.run.world.minted) (hphase : q.phase = p.phase)
    (hmask : q.mask = p.mask) (hb : q.batcher = p.batcher) (hws : q.workers = p.workers) :
    Books rules ph F Good rs m₀ K q t where
  rules_eq := hrules.trans h.rules_eq
  phase_eq := hphase.trans h.phase_eq
  mask_eq := hmask.trans h.mask_eq
  feed := hb ▸ h.feed
  records := hws ▸ h.records
  elements := hws ▸ hmask ▸ h.elements
  normal := hws ▸ h.normal
  store := hstore ▸ h.store
  bucketed := hws ▸ h.bucketed
  mintedFrom := hminted ▸ h.mintedFrom
  mintedBelow := hminted ▸ h.mintedBelow
  fresh := hws ▸ hminted ▸ h.fresh

theorem Books.fresh_le (h : Books rules ph F Good rs m₀ K p t) {w : Worker} (hw : w ∈ p.workers)
    {m : Nat} (hm : p.run.world.minted ≤ m) :
    ∀ x ∈ w.buffer.handles, ∃ s, m₀ ≤ s ∧ s < m ∧ x = Handle.minted s := fun x hx => by
  obtain ⟨s, h₁, h₂, h₃⟩ := h.fresh w hw x hx
  exact ⟨s, h₁, Nat.lt_of_lt_of_le h₂ hm, h₃⟩

/-- **One worker's move in the books.** Worker `i` goes from `w` to `w'`, the run to `r` and the
batcher to `b`: the books stay kept when the worker's records and elements are accounted for by
what it processed (`dd`), dropped (`dr`, `dl`) and wrote (`dw`), it drops only on ending
otherwise than normally, and the store, buckets and minted handles are as the books want. -/
theorem Books.update (h : Books rules ph F Good rs m₀ K p t) {i : Nat}
    {w w' : Worker} (hw : p.workers[i]? = some w) {r : Run Store} {b : Batcher}
    (rest' dd dr : List Record) (dw dl : List Element)
    (hrules : r.conv.rules = p.run.conv.rules) (hfeed : b.Delivers rest')
    (hrecords : (w.todo ++ t.rest).Perm (dd ++ dr ++ w'.todo ++ rest'))
    (helements : (w.pending.map Element.shape ++ dd.flatMap (produce F p.mask)).Perm
      (dw ++ w'.pending.map Element.shape ++ dl))
    (hnormal : w'.Normal → w.Normal ∧ dr = [] ∧ dl = [])
    (hstore : ∃ g, r.world.store = .memory g ∧ Good g (t.written ++ dw))
    (hbucketed : Bucketed w'.buffer.create w'.buffer.merge ∧
      ∀ c, w'.at_.commit? = some c → Bucketed c.create c.merge)
    (hmono : p.run.world.minted ≤ r.world.minted)
    (hminted : r.world.minted ≤ p.run.world.minted + K * (dd.length + dr.length))
    (hfresh : ∀ x ∈ w'.buffer.handles, ∃ s, m₀ ≤ s ∧ s < r.world.minted ∧ x = Handle.minted s) :
    Books rules ph F Good rs m₀ K { p with run := r, batcher := b, workers := p.workers.set i w' }
      { rest := rest', done := t.done ++ dd, dropped := t.dropped ++ dr, written := t.written ++ dw,
        lost := t.lost ++ dl } := by
  classical
  have hset := flatMap_set_perm Worker.todo w' hw
  have hsetp := (flatMap_set_perm Worker.pending w' hw).map Element.shape
  have hmem : ∀ v ∈ p.workers.set i w', v ∈ p.workers ∨ v = w' := fun v hv => List.mem_or_eq_of_mem_set hv
  refine ⟨hrules.trans h.rules_eq, h.phase_eq, h.mask_eq, hfeed, ?_, ?_, ?_, hstore, ?_, ?_, ?_, ?_⟩
  · -- the records: count each one through the old books and the worker's account
    rw [List.perm_iff_count] at hrecords hset ⊢
    have hr := h.records
    rw [List.perm_iff_count] at hr
    intro a
    have h₁ := hr a
    have h₂ := hset a
    have h₃ := hrecords a
    simp only [List.count_append] at h₁ h₂ h₃ ⊢
    omega
  · have he := h.elements
    rw [List.perm_iff_count] at he helements hsetp ⊢
    intro a
    have h₁ := he a
    have h₂ := hsetp a
    have h₃ := helements a
    simp only [List.map_append, List.count_append, List.flatMap_append] at h₁ h₂ h₃ ⊢
    omega
  · intro hall
    -- every worker of the old pool is normal: the replaced one by `hnormal`, the others are kept
    obtain ⟨hw', hold⟩ := Worker.normal_of_set hw (fun hn => (hnormal hn).1) hall
    obtain ⟨-, rfl, rfl⟩ := hnormal hw'
    obtain ⟨h₁, h₂⟩ := h.normal hold
    simp [h₁, h₂]
  · intro v hv
    rcases hmem v hv with hv | rfl
    · exact h.bucketed v hv
    · exact hbucketed
  · exact h.mintedFrom.trans hmono
  · have := h.mintedBelow
    simp only [List.length_append, Nat.mul_add] at this hminted ⊢
    omega
  · intro v hv n hn
    rcases hmem v hv with hv | rfl
    · exact h.fresh_le hv hmono n hn
    · exact hfresh n hn

theorem Books.keep (h : Books rules ph F Good rs m₀ K p t) {i : Nat}
    {w w' : Worker} (hw : p.workers[i]? = some w) {r : Run Store} {b : Batcher}
    (hrules : r.conv.rules = p.run.conv.rules) (hfeed : b.Delivers t.rest)
    (htodo : w'.todo = w.todo) (hpending : w'.pending = w.pending) (hnormal : w'.Normal → w.Normal)
    (hstore : ∃ g, r.world.store = .memory g ∧ Good g t.written)
    (hbucketed : Bucketed w'.buffer.create w'.buffer.merge ∧
      ∀ c, w'.at_.commit? = some c → Bucketed c.create c.merge)
    (hminted : r.world.minted = p.run.world.minted) (hbuf : ∀ x ∈ w'.buffer.handles, x ∈ w.buffer.handles) :
    ∃ t', Books rules ph F Good rs m₀ K { p with run := r, batcher := b, workers := p.workers.set i w' } t' := by
  refine ⟨_, h.update hw t.rest [] [] [] [] hrules hfeed (by simp [htodo]) (by simp [hpending])
    (fun hn => ⟨hnormal hn, rfl, rfl⟩) (by simpa using hstore) hbucketed (by omega) (by omega)
    fun n hn => h.fresh_le (List.mem_of_getElem? hw) hminted.ge n (hbuf n hn)⟩

/-- A running worker with no record left to process that hands its buffer to a commit keeps the
books: the buffer's elements move into the commit as they are. -/
theorem Books.keep_startCommit (h : Books rules ph F Good rs m₀ K p t) {i : Nat} {w₀ w : Worker}
    (hw : p.workers[i]? = some w₀) {b : Batcher} (hfeed : b.Delivers t.rest) (hrun : w₀.running = true)
    (htodo : w₀.todo = []) (hpending : w₀.pending = w.buffer.elements)
    (hbk : Bucketed w.buffer.create w.buffer.merge) (last : Bool) :
    ∃ t', Books rules ph F Good rs m₀ K
      { p with run := p.run, batcher := b, workers := p.workers.set i (w.startCommit last) } t' := by
  refine h.keep hw rfl hfeed (by rw [Worker.todo_startCommit, htodo])
    (by rw [Worker.pending_startCommit, hpending]) (fun _ => Worker.normal_of_running hrun) h.store
    ⟨bucketed_empty, fun c hc => ?_⟩ rfl (fun n hn => by simp [Worker.startCommit] at hn)
  simp only [Worker.startCommit, Commit.first_commit?, Option.some.injEq] at hc
  subst hc
  exact hbk

theorem Books.drop (h : Books rules ph F Good rs m₀ K p t) {i : Nat}
    {w : Worker} (hw : p.workers[i]? = some w) {r : Run Store} {e : WorkerEnd} (he : e ≠ .done)
    (hrules : r.conv.rules = p.run.conv.rules) (hstore : ∃ g, r.world.store = .memory g ∧ Good g t.written)
    (hmono : p.run.world.minted ≤ r.world.minted)
    (hminted : r.world.minted ≤ p.run.world.minted + K * w.todo.length) :
    ∃ t', Books rules ph F Good rs m₀ K
      { p with run := r, batcher := p.batcher, workers := p.workers.set i { w with at_ := .ended e } } t' := by
  refine ⟨_, h.update hw t.rest [] w.todo [] (w.pending.map Element.shape) hrules h.feed
    (by simp [Worker.todo]) (by simp [Worker.pending, Worker.running])
    (fun hn => absurd (hn e (.inl rfl)) he) (by simpa using hstore)
    ⟨(h.bucketed w (List.mem_of_getElem? hw)).1, fun c hc => by cases hc⟩ hmono (by simpa using hminted)
    (h.fresh_le (List.mem_of_getElem? hw) hmono)⟩

theorem Books.mem_of_done (h : Books rules ph F Good rs m₀ K p t)
    {x : Record} (hx : x ∈ t.done) : x ∈ rs :=
  h.records.symm.subset (by simp [hx])

theorem Books.mem_produce (h : Books rules ph F Good rs m₀ K p t)
    {e : Element} (he : e ∈ t.written ∨ e ∈ (p.workers.flatMap Worker.pending).map Element.shape) :
    e ∈ rs.flatMap (produce F p.mask) := by
  have hd : e ∈ t.done.flatMap (produce F p.mask) := h.elements.subset (by
    rcases he with he | he <;> simp [he])
  obtain ⟨x, hx, hex⟩ := List.mem_flatMap.mp hd
  exact List.mem_flatMap.mpr ⟨x, h.mem_of_done hx, hex⟩

theorem Books.mem_part (h : Books rules ph F Good rs m₀ K p t)
    {w : Worker} (hw : w ∈ p.workers) {c : Commit} {k : WriteKind} {a : Nat} (hat : w.at_ = .write c k a) :
    ∀ e ∈ t.written ++ (c.part k).elements.map Element.shape, e ∈ rs.flatMap (produce F p.mask) := by
  intro e he
  refine h.mem_produce ?_
  rcases List.mem_append.mp he with he | he
  · exact .inl he
  · obtain ⟨x, hx, rfl⟩ := List.mem_map.mp he
    have hrun : w.running = true := by simp [Worker.running, hat]
    have hxw : x ∈ w.pending := by
      rw [Worker.pending_of_running hrun, hat]
      exact List.mem_append_right _ (At.part_subset_unwritten c k a hx)
    exact .inr (List.mem_map_of_mem (List.mem_flatMap.mpr ⟨w, hw, hxw⟩))

/-- The books are kept by every worker step of a phase whose rules yield `F`, mint at most `K`
handles each, for fewer records than `2 ^ 48 / K`, and whose store obeys the write laws. -/
theorem Books.step (h : Books rules ph F Good rs m₀ K p t)
    (hy : Yields rules ph Good F) (hk : MintsAtMost rules ph K) (hK : K * rs.length ≤ 2 ^ 48)
    (hwl : WriteLaws Good (rs.flatMap (produce F p.mask))) (ht : p.Tidy) {i : Nat} {w : Worker}
    (hw : p.workers[i]? = some w) : ∃ t', Books rules ph F Good rs m₀ K (p.workerStep i w) t' := by
  obtain ⟨r, b, w', ha, heq⟩ := workerStep_advances hw
  rw [heq]
  have hwm := List.mem_of_getElem? hw
  have hbk := h.bucketed w hwm
  obtain ⟨g, hg, hgood⟩ := h.store
  -- the elements of a commit the worker is inside are elements the rules built
  have hpend : ∀ e ∈ w.pending.map Element.shape, e ∈ rs.flatMap (produce F p.mask) := by
    intro e he
    refine h.mem_produce (.inr ?_)
    obtain ⟨x, hx, rfl⟩ := List.mem_map.mp he
    exact List.mem_map_of_mem (List.mem_flatMap.mpr ⟨w, hwm, hx⟩)
  have hwritten : ∀ e ∈ t.written, e ∈ rs.flatMap (produce F p.mask) := fun e he => h.mem_produce (.inl he)
  cases ha with
  | stopAtTop hat hs => exact h.drop hw (fun he => by cases he) rfl ⟨g, hg, hgood⟩ le_rfl (by omega)
  | sourceFault hat hs hn =>
    rcases h.feed.next p.groupSize with ⟨h₁, -⟩ | ⟨x, _, _, h₁, -⟩ <;> rw [hn] at h₁ <;> cases h₁
  | drained hat hs hn =>
    rcases h.feed.next p.groupSize with ⟨-, hrest, hfeed⟩ | ⟨x, _, _, h₁, -⟩
    · rw [hn] at hfeed
      have hrun : w.running = true := by simp [Worker.running, hat]
      split
      next hempty =>
        refine h.keep hw rfl (hrest ▸ hfeed) (by simp [Worker.todo, hat]) ?_ (fun _ => Worker.normal_of_running hrun)
          ⟨g, hg, hgood⟩ ⟨hbk.1, fun c hc => by cases hc⟩ rfl fun n hn => hn
        simp [Worker.pending, Worker.running, CommitBuffer.elements_of_isEmpty hempty, At.unwritten, hat]
      next =>
        apply h.keep_startCommit hw (hrest ▸ hfeed) hrun (by simp [Worker.todo, hat])
        · simp [Worker.pending, hrun, At.unwritten, hat]
        · exact hbk.1
    · rw [hn] at h₁; cases h₁
  | openFault hat hs hn hr =>
    rcases h.feed.next p.groupSize with ⟨h₁, -⟩ | ⟨x, _, _, h₁, hx, -⟩ <;> rw [hn] at h₁ <;> cases h₁
    rw [hr] at hx; cases hx
  | take hat hs hn hr =>
    rcases h.feed.next p.groupSize with ⟨h₁, -⟩ | ⟨x, chunk, rest', h₁, hx, hrest, hfeed⟩ <;> rw [hn] at h₁ <;>
      cases h₁
    rw [hr] at hx
    cases hx
    rw [hn] at hfeed
    have hrun : w.running = true := by simp [Worker.running, hat]
    refine ⟨_, h.update hw rest' [] [] [] [] rfl hfeed (by simp [Worker.todo, hat, hrest]) ?_
      (fun _ => ⟨Worker.normal_of_running hrun, rfl, rfl⟩) (by simpa using ⟨g, hg, hgood⟩)
      ⟨hbk.1, fun c hc => by cases hc⟩ le_rfl (by omega) fun n hn => ?_⟩
    · simp [Worker.pending, Worker.running, At.unwritten, hat]
    · exact h.fresh w hwm n hn
  | @handBack index done hat =>
    have hrun : w.running = true := by simp [Worker.running, hat]
    have hfeed := h.feed.retainProcessed index done.reverse
    split
    next =>
      -- the records of the batch are added to the buffer handed over
      apply h.keep_startCommit hw hfeed hrun (by simp [Worker.todo, hat])
      · simp [Worker.pending, hrun, At.unwritten, hat]
      · exact hbk.1
    next =>
      exact h.keep hw rfl hfeed (by simp [Worker.todo, hat])
        (by simp [Worker.pending, Worker.running, At.unwritten, hat])
        (fun _ => Worker.normal_of_running hrun) ⟨g, hg, hgood⟩ ⟨hbk.1, fun c hc => by cases hc⟩ rfl
        fun n hn => hn
  | stopInBatch hat hs =>
    exact h.drop hw (fun he => by cases he) rfl ⟨g, hg, hgood⟩ le_rfl (by omega)
  | @apply index rec todo done r rec' f hat hs hm happ =>
    have hrun : w.running = true := by simp [Worker.running, hat]
    obtain ⟨w₁, rec'', happly, -⟩ := Run.applyRules_ok happ
    have hr : r.world = w₁ := by
      have := Run.applyRules_world p.run p.phase rec
      rw [happ, happly] at this
      exact this
    have happly' : p.run.world.apply rules ph rec = (w₁, .ok f, rec'') := by
      rw [← h.rules_eq, ← h.phase_eq]; exact happly
    obtain ⟨hshape, hcommitted, hnodup, hminted⟩ := hy _ _ _ _ _ _ _ hg hgood happly'
    obtain ⟨hmono, hbound⟩ : p.run.world.minted ≤ w₁.minted ∧ w₁.minted ≤ p.run.world.minted + K := by
      simpa only [happly'] using hk p.run.world rec
    have hst : w₁.store = p.run.world.store := by rw [← World.apply_store p.run.world rules ph rec, happly']
    -- the record is one of the records the batcher handed out, so fewer than `2 ^ 48 / K` came before it
    have hlen : t.done.length + t.dropped.length + 1 ≤ rs.length := by
      have hmem : rec ∈ p.workers.flatMap Worker.todo :=
        List.mem_flatMap.mpr ⟨w, hwm, by simp [Worker.todo, hat]⟩
      have := h.records.length_eq
      have := List.length_pos_of_mem hmem
      simp only [List.length_append] at *
      omega
    have hcap : w₁.minted ≤ m₀ + 2 ^ 48 := by
      have h₁ := h.mintedBelow
      have h₂ := Nat.mul_le_mul_left K hlen
      simp only [Nat.mul_add, Nat.mul_one] at h₁ h₂
      omega
    -- a node of the fragment was minted after every buffered one
    have hclash : ∀ n ∈ f.nodes, n.handle ∉ w.buffer.handles := by
      intro n hn hmb
      obtain ⟨s, hs₁, hs₂, hs₃⟩ := h.fresh w hwm _ hmb
      obtain ⟨s', hs₁', hs₂', hs₃'⟩ := hminted n hn
      have := Handle.minted_inj (m := m₀) hs₁ (h.mintedFrom.trans hs₁') (by omega) (by omega)
        (hs₃.symm.trans hs₃')
      omega
    obtain ⟨hadd, hhandles⟩ := CommitBuffer.add_elements hcommitted hclash hnodup
    refine ⟨_, h.update hw t.rest [rec] [] [] [] (by simp [Run.tick, Run.applyRules_conv happ]) h.feed
      (by simp [Worker.todo, hat]) ?_ (fun _ => ⟨Worker.normal_of_running hrun, rfl, rfl⟩)
      ⟨g, by simp [hr, hst, hg], by simpa using hgood⟩ ⟨CommitBuffer.Bucketed.add hbk.1 f, fun c hc => by cases hc⟩
      (by simpa [hr] using hmono) (by simpa [hr] using hbound) fun n hn => ?_⟩
    · have hwp : w.pending = w.buffer.elements := by simp [Worker.pending, hrun, At.unwritten, hat]
      have hwp' : ({ w with buffer := w.buffer.add f, at_ := .batch index todo (rec' :: done) } : Worker).pending =
          (w.buffer.add f).elements := by simp [Worker.pending, Worker.running, At.unwritten]
      rw [hwp, hwp']
      simpa [produce_pos hm, hshape] using (hadd.map Element.shape).symm
    · rcases (hhandles n).mp hn with hn | hn
      · exact h.fresh_le hwm (by simp only [tick_world, hr]; omega) n hn
      · obtain ⟨x, hx, rfl⟩ := List.mem_map.mp hn
        obtain ⟨s, h₁, h₂, h₃⟩ := hminted x hx
        exact ⟨s, h.mintedFrom.trans h₁, by simpa [hr] using h₂, h₃⟩
  | @ruleFault index rec todo done r e hat hs hm happ =>
    have hr : r.world = (p.run.world.apply p.run.conv.rules p.phase rec).1 := by
      have := Run.applyRules_world p.run p.phase rec
      rw [happ] at this
      exact this
    obtain ⟨hmono, hbound⟩ := hk p.run.world rec
    rw [← h.rules_eq, ← h.phase_eq, ← hr] at hmono hbound
    refine h.drop hw (WorkerEnd.ne_done_of_fault (Run.applyRules_error_fault happ))
      (by rw [Run.applyRules_conv happ]) ⟨g, (Run.applyRules_store happ).trans hg, hgood⟩ hmono ?_
    have : K ≤ K * w.todo.length := Nat.le_mul_of_pos_right K (by simp [Worker.todo, hat])
    omega
  | @pass index rec todo done hat hs hm =>
    have hrun : w.running = true := by simp [Worker.running, hat]
    refine ⟨_, h.update hw t.rest [rec] [] [] [] rfl h.feed (by simp [Worker.todo, hat]) ?_
      (fun _ => ⟨Worker.normal_of_running hrun, rfl, rfl⟩) (by simpa using ⟨g, hg, hgood⟩)
      ⟨hbk.1, fun c hc => by cases hc⟩ (by simp) (by simp) fun n hn => ?_⟩
    · simp [Worker.pending, Worker.running, At.unwritten, hat, produce_neg hm]
    · exact h.fresh_le hwm (by simp) n hn
  | wait =>
    exact h.keep hw rfl h.feed rfl rfl id ⟨g, hg, hgood⟩ hbk rfl fun n hn => hn
  | @created c a world f hat hl hwr =>
    have hrun : w.running = true := by simp [Worker.running, hat]
    have hc : w.at_.commit? = some c := by rw [hat]; rfl
    have hmint := World.minted_of_write hwr
    obtain ⟨g', hg', hgood'⟩ := hwl.write_ok (k := .create) hg hgood (hbk.2 c hc) (h.mem_part hwm hat) hwr
    have hrun' := Worker.running_of_commit? (w := { w with at_ := { c with uncounted := 0 }.afterCreate })
      (Commit.afterCreate_commit? _)
    have htodo' := Worker.todo_of_commit? (w := { w with at_ := { c with uncounted := 0 }.afterCreate })
      (Commit.afterCreate_commit? _)
    refine ⟨_, h.update hw t.rest [] [] (c.create.elements.map Element.shape) [] rfl h.feed
      (by rw [htodo']; simp [Worker.todo, hat]) ?_
      (fun _ => ⟨Worker.normal_of_running hrun, rfl, rfl⟩) ⟨g', by simp [hg'], hgood'⟩
      ⟨hbk.1, fun c' hc' => ?_⟩ (by simp [hmint]) (by simp [hmint]) fun n hn => ?_⟩
    · -- the created part leaves what is pending, the merge part stays
      rw [Worker.pending_of_running hrun, Worker.pending_of_running hrun', hat]
      simp only [Commit.unwritten_afterCreate]
      simpa [At.unwritten] using List.perm_append_comm_assoc (w.buffer.elements.map Element.shape)
        (c.create.elements.map Element.shape) (c.merge.elements.map Element.shape)
    · simp only [Commit.afterCreate_commit?, Option.some.injEq] at hc'
      subst hc'
      exact hbk.2 c hc
    · exact h.fresh_le hwm (by simp [hmint]) n hn
  | @merged c a world f hat hl hwr =>
    have hrun : w.running = true := by simp [Worker.running, hat]
    have hc : w.at_.commit? = some c := by rw [hat]; rfl
    have hmint := World.minted_of_write hwr
    obtain ⟨g', hg', hgood'⟩ := hwl.write_ok (k := .merge) hg hgood (hbk.2 c hc) (h.mem_part hwm hat) hwr
    refine ⟨_, h.update hw t.rest [] [] (c.merge.elements.map Element.shape) [] rfl h.feed
      (by simp [Worker.todo, hat]) ?_ (fun _ => ⟨Worker.normal_of_running hrun, rfl, rfl⟩)
      ⟨g', by simp [hg'], hgood'⟩ ⟨hbk.1, fun c' hc' => ?_⟩ (by simp [hmint]) (by simp [hmint]) fun n hn => ?_⟩
    · rw [Worker.pending_of_running hrun, hat]
      simpa [Worker.pending, Worker.running, At.unwritten] using List.perm_append_comm
    · simp only [At.commit?, Option.some.injEq] at hc'
      subst hc'
      exact hbk.2 c hc
    · exact h.fresh_le hwm (by simp [hmint]) n hn
  | gaveUp hat hl hwr ha =>
    have hmint := World.minted_of_write hwr
    obtain ⟨g', hg', hgood'⟩ := hwl.write_error hg hgood hwr
    exact h.drop hw (fun he => by cases he) rfl ⟨g', hg', hgood'⟩ (by simp [hmint]) (by simp [hmint])
  | @backOff c k a world e hat hl hwr ha =>
    have hrun : w.running = true := by simp [Worker.running, hat]
    have hmint := World.minted_of_write hwr
    obtain ⟨g', hg', hgood'⟩ := hwl.write_error hg hgood hwr
    refine h.keep hw rfl h.feed (by simp [Worker.todo, hat]) ?_ (fun _ => Worker.normal_of_running hrun)
      ⟨g', hg', hgood'⟩ ⟨hbk.1, fun c' hc' => ?_⟩ hmint fun n hn => hn
    · cases k <;> simp [Worker.pending, Worker.running, At.unwritten, hat]
    · simp only [At.commit?, Option.some.injEq] at hc'
      subst hc'
      exact hbk.2 c (by rw [hat]; rfl)
  | cutShort hat hs =>
    exact h.drop hw (fun he => by cases he) rfl ⟨g, hg, hgood⟩ le_rfl (by omega)
  | @resume c k a hat hs =>
    have hrun : w.running = true := by simp [Worker.running, hat]
    refine h.keep hw rfl h.feed (by simp [Worker.todo, hat]) ?_ (fun _ => Worker.normal_of_running hrun)
      ⟨g, hg, hgood⟩ ⟨hbk.1, fun c' hc' => ?_⟩ rfl fun n hn => hn
    · cases k <;> simp [Worker.pending, Worker.running, At.unwritten, hat]
    · simp only [At.commit?, Option.some.injEq] at hc'
      subst hc'
      exact hbk.2 c (by rw [hat]; rfl)
  | @close c hat =>
    have hrun : w.running = true := by simp [Worker.running, hat]
    -- a worker inside a commit has handed its buffer over
    have hempty := CommitBuffer.elements_of_isEmpty (ht.committing w hwm c (by rw [hat]; rfl)).1
    refine h.keep hw rfl h.feed ?_ ?_ (fun _ => Worker.normal_of_running hrun) ⟨g, hg, hgood⟩
      ⟨hbk.1, fun c' hc' => ?_⟩ (by simp) fun n hn => hn
    · split <;> simp [Worker.todo, hat]
    · split <;> simp [Worker.pending, Worker.running, At.unwritten, hat, hempty]
    · split at hc' <;> cases hc'
  | ended hat => exact h.keep hw rfl h.feed rfl rfl id ⟨g, hg, hgood⟩ hbk rfl fun n hn => hn
  | joined hat => exact h.keep hw rfl h.feed rfl rfl id ⟨g, hg, hgood⟩ hbk rfl fun n hn => hn

@[simp] theorem receive_mask {σ : Type} [GraphStore σ] (p : Pool σ) (e : WorkerEnd) :
    (p.receive e).mask = p.mask := by
  rw [receive_eq]

theorem Books.join (h : Books rules ph F Good rs m₀ K p t) (i : Nat) :
    ∃ t', Books rules ph F Good rs m₀ K (p.join i) t' := by
  rcases join_eq (p := p) (i := i) with heq | ⟨w, e, hw, hat, heq⟩
  · exact ⟨t, by rw [heq]; exact h⟩
  have hjoined : ∃ t', Books rules ph F Good rs m₀ K
      { p with run := p.run, batcher := p.batcher, workers := p.workers.set i { w with at_ := .joined e } } t' := by
    refine h.keep hw rfl h.feed (by simp [Worker.todo, hat]) (by simp [Worker.pending, Worker.running, hat])
      (fun hn e' he' => ?_) h.store ⟨(h.bucketed w (List.mem_of_getElem? hw)).1, fun c hc => by cases hc⟩ rfl
      fun n hn => hn
    -- the joined worker ends as the ended one did
    rcases he' with he' | he' <;> rw [hat] at he' <;> cases he'
    exact hn _ (.inr rfl)
  obtain ⟨t', h'⟩ := hjoined
  rw [heq]
  exact ⟨t', h'.congr (by simp [setWorker]) (by simp [setWorker]) (by simp [setWorker]) (by simp [setWorker])
    (by simp [setWorker]) (by simp [setWorker]) (by simp [setWorker])⟩

theorem Books.move (h : Books rules ph F Good rs m₀ K p t)
    (hy : Yields rules ph Good F) (hk : MintsAtMost rules ph K) (hK : K * rs.length ≤ 2 ^ 48)
    (hwl : WriteLaws Good (rs.flatMap (produce F (rules.typeMask ph)))) (ht : p.Tidy) :
    ∀ m, ∃ t', Books rules ph F Good rs m₀ K (p.move m) t' :=
  move_cases (P := fun q => ∃ t', Books rules ph F Good rs m₀ K q t') ⟨t, h⟩
    (fun _ _ hw => h.step hy hk hK (h.mask_eq ▸ hwl) ht hw) h.join
    (fun _ => ⟨t, h.congr rfl rfl rfl rfl rfl rfl rfl⟩) ⟨t, h.congr rfl rfl rfl rfl rfl rfl rfl⟩
    fun _ => ⟨t, h.congr rfl rfl rfl rfl rfl rfl rfl⟩

theorem books_start {n : Nat} {r : Run Store} {b : Batcher} {hint : Option Nat} {g₀ : Graph}
    (hfeed : b.Delivers rs) (hstore : r.world.store = .memory g₀) (hgood : Good g₀ []) :
    Books r.conv.rules ph F Good rs r.world.minted K (start n r ph b hint)
      { rest := rs, done := [], dropped := [], written := [], lost := [] } where
  rules_eq := rfl
  phase_eq := rfl
  mask_eq := rfl
  feed := hfeed
  records := by
    have : (List.replicate n ({} : Worker)).flatMap Worker.todo = [] :=
      List.flatMap_eq_nil_iff.mpr fun w hw => by obtain rfl := List.eq_of_mem_replicate hw; rfl
    simp [start, this]
  elements := by simp [start, Worker.pending, Worker.running, At.unwritten]
  normal _ := ⟨rfl, rfl⟩
  store := ⟨g₀, hstore, hgood⟩
  bucketed w hw := by
    obtain rfl := List.eq_of_mem_replicate hw
    exact ⟨bucketed_empty, fun c hc => by cases hc⟩
  mintedFrom := le_rfl
  mintedBelow := by simp [start]
  fresh w hw n hn := by
    obtain rfl := List.eq_of_mem_replicate hw
    simp at hn

/-- The books of a phase that ended normally are closed: every record was processed, and the
elements written are, up to order, those the rules build for the records of the phase's types. -/
theorem Books.settled (h : Books rules ph F Good rs m₀ K p t)
    (hacc : p.Accounted) (ht : p.Tidy) (hne : p.workers ≠ []) (hfin : p.finished = true)
    (hf : p.firstError = none) (hc : p.run.world.cancelled = false) :
    ∃ g, p.run.world.store = .memory g ∧ Good g t.written ∧
      t.written.Perm (rs.flatMap (produce F (rules.typeMask ph))) := by
  have hdone := hacc.all_done hfin hf hc
  -- every worker ended normally, with nothing left to do or to write
  have hnormal : ∀ w ∈ p.workers, w.Normal := fun w hw e he => by
    rcases he with he | he <;> rw [hdone w hw] at he <;> cases he
    rfl
  have htodo : p.workers.flatMap Worker.todo = [] := by
    simp only [List.flatMap_eq_nil_iff]
    intro w hw
    simp [Worker.todo, hdone w hw]
  have hpending : p.workers.flatMap Worker.pending = [] := by
    simp only [List.flatMap_eq_nil_iff]
    intro w hw
    simp [Worker.pending, Worker.running, hdone w hw]
  obtain ⟨hdropped, hlost⟩ := h.normal hnormal
  -- a worker that ended normally saw the batcher run dry, so nothing is still to come
  obtain ⟨w, hw⟩ := List.exists_mem_of_ne_nil _ hne
  have hrest : t.rest = [] := h.feed.1 (ht.done w hw (.inr (hdone w hw))).2
  have hrecords : rs.Perm t.done := by simpa [hdropped, htodo, hrest] using h.records
  obtain ⟨g, hg, hgood⟩ := h.store
  refine ⟨g, hg, hgood, ?_⟩
  have helements : t.written.Perm (t.done.flatMap (produce F p.mask)) := by
    simpa [hpending, hlost] using h.elements
  rw [h.mask_eq] at helements
  exact helements.trans (hrecords.flatMap_right _).symm

end Books

/-- **The ledger of a phase.** A phase started on a memory store that `Good` describes with
nothing written, whose rules build the elements `F` gives each record, and whose store obeys the
write laws: once it ended normally, under any schedule, the store is one `Good` describes with
exactly the elements, up to order, that the rules build for the records of the phase's types. -/
theorem phase_ledger {n : Nat} (hn : 0 < n) (r : Run Store) (ph : Phase) (b : Batcher)
    (hint : Option Nat) (ms : List Move) (F : Record → List Element)
    (Good : Graph → List Element → Prop) (rs : List Record) (K : Nat) {g₀ : Graph}
    (hfeed : b.Delivers rs) (hstore : r.world.store = .memory g₀) (hgood : Good g₀ [])
    (hy : Yields r.conv.rules ph Good F) (hk : MintsAtMost r.conv.rules ph K)
    (hK : K * rs.length ≤ 2 ^ 48) (hwl : WriteLaws Good (rs.flatMap (produce F (r.conv.rules.typeMask ph))))
    (hfin : ((start n r ph b hint).play ms).finished = true) {b' : Batcher}
    (hok : ((start n r ph b hint).play ms).outcome.2 = .ok b') :
    ∃ g C, ((start n r ph b hint).play ms).run.world.store = .memory g ∧ Good g C ∧
      C.Perm (rs.flatMap (produce F (r.conv.rules.typeMask ph))) := by
  set q := (start n r ph b hint).play ms
  have hbooks : (∃ t, Books r.conv.rules ph F Good rs r.world.minted K q t) ∧ q.Tidy :=
    play_induction (P := fun q => (∃ t, Books r.conv.rules ph F Good rs r.world.minted K q t) ∧ q.Tidy)
      (fun _ m ⟨⟨_, h⟩, ht⟩ => ⟨h.move hy hk hK hwl ht m, ht.move m⟩) ms
      ⟨⟨_, books_start hfeed hstore hgood⟩, tidy_start n r ph b hint⟩
  obtain ⟨⟨t, h⟩, ht⟩ := hbooks
  have hacc : q.Accounted := play_induction (fun _ m h => h.move m) ms (accounted_start n r ph b hint)
  have hlength : q.workers.length = n :=
    play_induction (P := fun q => q.workers.length = n)
      (fun q m h => (move_length q m).trans h) ms (by simp [start])
  -- a phase that ended normally kept no fault and saw no cancellation
  have hf : q.firstError = none ∧ q.run.world.cancelled = false := by
    unfold outcome at hok
    split at hok
    · cases hok
    next hf =>
      split at hok
      · cases hok
      next hc => exact ⟨hf, by simpa using hc⟩
  obtain ⟨g, hg, hgood, hperm⟩ :=
    h.settled hacc ht (List.ne_nil_of_length_pos (by omega)) hfin hf.1 hf.2
  exact ⟨g, t.written, hg, hgood, hperm⟩

end Pool

end GraphIngest
