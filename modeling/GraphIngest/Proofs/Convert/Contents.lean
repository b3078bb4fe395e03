import GraphIngest.Proofs.Convert.Ledger

/-! # What a phase's writes leave in a store

A store is read here through its contents, the identities forgotten. Merged elements fall into
classes by what they are merged on; when the elements of a class agree, a phase leaves every
element created and the first of each class merged (`canonNodes`, `canonRels`), the order of
writing showing only in the identities. For this an unkeyed element must never be found by a
merge: each phase gets a predicate on stores (`NodeStore`, `RelStore`) and the laws its writes
obey (`nodeStore_writeLaws`, `relStore_writeLaws`), which `Books` carries through any schedule.
-/

namespace GraphIngest

section Firsts

variable {α β γ : Type} [BEq β] (k : α → β)

/-- Keeps `x` unless a member kept before has a key equal to its. -/
def firstsStep (acc : List α) (x : α) : List α :=
  if acc.any (fun y => k y == k x) then acc else acc ++ [x]

/-- The first member of each class of a list, members of a class having keys that compare equal. -/
def firstsBy (l : List α) : List α := l.foldl (firstsStep k) []

theorem firstsBy_append_singleton (l : List α) (x : α) :
    firstsBy k (l ++ [x]) = firstsStep k (firstsBy k l) x := by
  simp [firstsBy, List.foldl_append]

variable {k}

theorem subset_foldl_firstsStep : ∀ {l : List α} {acc : List α}, acc ⊆ l.foldl (firstsStep k) acc
  | [], _ => List.Subset.refl _
  | x :: l, acc => by
    rw [List.foldl_cons]
    refine List.Subset.trans ?_ (subset_foldl_firstsStep (l := l))
    unfold firstsStep
    split
    · exact List.Subset.refl _
    · exact List.subset_append_left _ _

theorem mem_of_mem_foldl_firstsStep :
    ∀ {l acc : List α} {x : α}, x ∈ l.foldl (firstsStep k) acc → x ∈ acc ∨ x ∈ l
  | [], _, _, h => .inl h
  | y :: l, acc, x, h => by
    rw [List.foldl_cons] at h
    rcases mem_of_mem_foldl_firstsStep h with h | h
    · unfold firstsStep at h
      split at h
      · exact .inl h
      · rcases List.mem_append.mp h with h | h
        · exact .inl h
        · exact .inr (List.mem_singleton.mp h ▸ List.mem_cons_self)
    · exact .inr (List.mem_cons_of_mem _ h)

theorem mem_of_mem_firstsBy {l : List α} {x : α} (h : x ∈ firstsBy k l) : x ∈ l :=
  (mem_of_mem_foldl_firstsStep h).resolve_left List.not_mem_nil

theorem exists_mem_firstsBy {l : List α} {x : α} (hx : x ∈ l) (hs : (k x == k x) = true) :
    ∃ y ∈ firstsBy k l, (k y == k x) = true := by
  suffices ∀ {l acc : List α}, x ∈ l → ∃ y ∈ l.foldl (firstsStep k) acc, (k y == k x) = true from this hx
  intro l
  induction l with
  | nil => intro _ h; exact absurd h List.not_mem_nil
  | cons z l ih =>
    intro acc h
    rw [List.foldl_cons]
    rcases List.mem_cons.mp h with rfl | h
    · -- the step at `x` keeps it or finds the member of its class kept before
      have hstep : ∃ y ∈ firstsStep k acc x, (k y == k x) = true := by
        unfold firstsStep
        split
        next hany =>
          obtain ⟨y, hy, hyx⟩ := List.any_eq_true.mp hany
          exact ⟨y, hy, hyx⟩
        next => exact ⟨x, List.mem_append_right _ List.mem_cons_self, hs⟩
      obtain ⟨y, hy, hyx⟩ := hstep
      exact ⟨y, subset_foldl_firstsStep hy, hyx⟩
    · exact ih h

theorem pairwise_firstsBy (l : List α) : (firstsBy k l).Pairwise fun a b => (k a == k b) = false := by
  suffices ∀ {l acc : List α}, acc.Pairwise (fun a b => (k a == k b) = false) →
      (l.foldl (firstsStep k) acc).Pairwise fun a b => (k a == k b) = false from this List.Pairwise.nil
  intro l
  induction l with
  | nil => exact id
  | cons x l ih =>
    intro acc hacc
    rw [List.foldl_cons]
    refine ih ?_
    unfold firstsStep
    split
    · exact hacc
    · next hany =>
      refine List.pairwise_append.mpr ⟨hacc, List.pairwise_singleton _ _, fun a ha b hb => ?_⟩
      rw [List.mem_singleton.mp hb]
      simpa using fun h => hany (List.any_eq_true.mpr ⟨a, ha, h⟩)

/-- When keys compare equal exactly where contents are equal, the contents of the first members
of the classes do not depend on the order of the list: they are its contents, each once. -/
theorem perm_map_firstsBy (c : α → γ) {l l' : List α} (hp : l.Perm l')
    (hc : ∀ x ∈ l, ∀ y ∈ l, (k x == k y) = true ↔ c x = c y) :
    ((firstsBy k l).map c).Perm ((firstsBy k l').map c) := by
  have hc' : ∀ x ∈ l', ∀ y ∈ l', (k x == k y) = true ↔ c x = c y :=
    fun x hx y hy => hc x (hp.mem_iff.mpr hx) y (hp.mem_iff.mpr hy)
  -- both sides hold each content of the list once
  have key : ∀ {m : List α}, (∀ x ∈ m, ∀ y ∈ m, (k x == k y) = true ↔ c x = c y) →
      ((firstsBy k m).map c).Nodup ∧ ∀ z, z ∈ (firstsBy k m).map c ↔ ∃ x ∈ m, c x = z := by
    intro m hm
    refine ⟨List.pairwise_map.mpr ((pairwise_firstsBy m).imp_of_mem fun {a b} ha hb hab he => ?_), ?_⟩
    · rw [← hm a (mem_of_mem_firstsBy ha) b (mem_of_mem_firstsBy hb)] at he
      rw [he] at hab
      cases hab
    · intro z
      constructor
      · intro hz
        obtain ⟨x, hx, rfl⟩ := List.mem_map.mp hz
        exact ⟨x, mem_of_mem_firstsBy hx, rfl⟩
      · rintro ⟨x, hx, rfl⟩
        obtain ⟨y, hy, hyx⟩ := exists_mem_firstsBy hx ((hm x hx x hx).mpr rfl)
        exact List.mem_map.mpr ⟨y, hy, (hm y (mem_of_mem_firstsBy hy) x hx).mp hyx⟩
  obtain ⟨hn, hmem⟩ := key hc
  obtain ⟨hn', hmem'⟩ := key hc'
  refine (List.perm_ext_iff_of_nodup hn hn').mpr fun z => ?_
  rw [hmem, hmem']
  exact ⟨fun ⟨x, hx, he⟩ => ⟨x, hp.subset hx, he⟩, fun ⟨x, hx, he⟩ => ⟨x, hp.symm.subset hx, he⟩⟩

end Firsts

section Canon

variable {α β γ : Type} [BEq β] (keyed : α → Bool) (entry : α → β) (content : α → γ)

/-- The contents a phase leaves for elements of one kind: those of every unkeyed one, and of the
first keyed one of each class of equal entries. -/
def canon (l : List α) : List γ :=
  (l.filter (!keyed ·)).map content ++ (firstsBy entry (l.filter keyed)).map content

variable {keyed entry content} {l l' : List α} {x : α}

/-- When entries of keyed elements compare equal exactly where contents are equal, what a phase
leaves does not depend on the order of its elements. -/
theorem canon_perm (hp : l.Perm l')
    (hc : ∀ x ∈ l, ∀ y ∈ l, keyed x = true → keyed y = true → ((entry x == entry y) = true ↔ content x = content y)) :
    (canon keyed entry content l).Perm (canon keyed entry content l') := by
  refine ((hp.filter _).map _).append (perm_map_firstsBy _ (hp.filter _) fun x hx y hy => ?_)
  obtain ⟨hx, hkx⟩ := List.mem_filter.mp hx
  obtain ⟨hy, hky⟩ := List.mem_filter.mp hy
  exact hc x hx y hy hkx hky

theorem canon_append_unkeyed (h : keyed x = false) :
    (canon keyed entry content (l ++ [x])).Perm (canon keyed entry content l ++ [content x]) := by
  simp only [canon, List.filter_append, List.filter_cons, List.filter_nil, h, Bool.not_false, if_true,
    Bool.false_eq_true, if_false, List.append_nil, List.map_append, List.map_cons, List.map_nil, List.append_assoc]
  exact List.Perm.append_left _ List.perm_append_comm

theorem canon_append_new (h : keyed x = true)
    (hnew : (firstsBy entry (l.filter keyed)).any (fun y => entry y == entry x) = false) :
    canon keyed entry content (l ++ [x]) = canon keyed entry content l ++ [content x] := by
  simp only [canon, List.filter_append, List.filter_cons, List.filter_nil, h, Bool.not_true, if_true,
    Bool.false_eq_true, if_false, List.append_nil]
  rw [firstsBy_append_singleton, firstsStep, if_neg (by simp [hnew])]
  simp

theorem canon_append_old (h : keyed x = true)
    (hold : (firstsBy entry (l.filter keyed)).any (fun y => entry y == entry x) = true) :
    canon keyed entry content (l ++ [x]) = canon keyed entry content l := by
  simp only [canon, List.filter_append, List.filter_cons, List.filter_nil, h, Bool.not_true, if_true,
    Bool.false_eq_true, if_false, List.append_nil]
  rw [firstsBy_append_singleton, firstsStep, if_pos hold]

end Canon

namespace Props

theorem insertEntry_of_mem {k : String} {v : Value} :
    ∀ {l : List (String × Value)}, l.Pairwise (·.1 < ·.1) → (k, v) ∈ l → insertEntry k v l = l
  | [], _, h => absurd h List.not_mem_nil
  | (k', v') :: rest, hs, h => by
    obtain ⟨hlt, hrest⟩ := List.pairwise_cons.mp hs
    unfold insertEntry
    rcases List.mem_cons.mp h with he | hm
    · obtain ⟨rfl, rfl⟩ := Prod.mk.inj he
      simp
    · -- the entry stands behind the head, so its key is the larger
      have hk : k' < k := hlt _ hm
      rw [if_neg (lt_asymm hk), if_neg (ne_of_gt hk)]
      rw [insertEntry_of_mem hrest hm]

theorem extend_self {ps : Props} (hs : ps.entries.Pairwise (·.1 < ·.1)) : ps.extend ps = ps := by
  unfold extend
  suffices ∀ l : List (String × Value), l ⊆ ps.entries →
      l.foldl (fun acc e => acc.insert e.1 e.2) ps = ps from this _ (List.Subset.refl _)
  intro l
  induction l with
  | nil => intro _; rfl
  | cons e l ih =>
    intro hl
    rw [List.foldl_cons]
    have he : ps.insert e.1 e.2 = ps := by
      show (⟨insertEntry e.1 e.2 ps.entries⟩ : Props) = ps
      rw [insertEntry_of_mem hs (hl List.mem_cons_self)]
    rw [he]
    exact ih fun x hx => hl (List.mem_cons_of_mem _ hx)

end Props

theorem setAssoc_map_of_mem {α β γ : Type} [BEq α] [LawfulBEq α] {k : α} {old x : β} (c : β → γ)
    {l : List (α × β)} (hn : (l.map Prod.fst).Nodup) (hm : (k, old) ∈ l) (hx : c x = c old) :
    (setAssoc k x l).map (fun p => c p.2) = l.map fun p => c p.2 := by
  rw [setAssoc_eq_map hn hm, List.map_map]
  refine List.map_congr_left fun p hp => ?_
  by_cases hk : p.1 = k
  · -- the one entry under `k` is the replaced one
    have hp' : p = (k, old) := by
      have h₁ := lookup_of_mem_nodup hn hm
      have h₂ := lookup_of_mem_nodup hn (hk ▸ hp : (k, p.2) ∈ l)
      rw [h₁] at h₂
      exact Prod.ext hk (Option.some.inj h₂).symm
    subst hp'
    simpa using hx
  · simp [hk]

namespace Write

theorem foldlM_inv {γ α : Type} {f : γ → α → Write γ} (P : Txn → List α → Prop) :
    ∀ {l d : List α} {a : γ} {t : Txn} {a' : γ} {t' : Txn},
      (∀ x ∈ l, ∀ done b t b' t', P t done → (f b x).run t = .ok b' t' → P t' (done ++ [x])) →
      P t d → (l.foldlM f a).run t = .ok a' t' → P t' (d ++ l)
  | [], done, _, _, _, _, _, h, hrun => by
    obtain ⟨-, rfl⟩ := EStateM.Result.ok.inj hrun
    simpa using h
  | x :: l, done, a, t, a', t', hf, h, hrun => by
    rw [List.foldlM_cons] at hrun
    obtain ⟨b, t₁, h₁, h₂⟩ := run_ok_bind hrun
    have := foldlM_inv P (fun y hy => hf y (List.mem_cons_of_mem _ hy))
      (hf x List.mem_cons_self done a t b t₁ h h₁) h₂
    simpa using this

theorem insertRel_nodes {r : Relationship} {s d id : Nat} {t t' : Txn} (h : (insertRel r s d).run t = .ok id t') :
    t'.graph.nodes = t.graph.nodes ∧
      t'.graph.rels = t.graph.rels ++ [(id, ⟨r.relType, s, d, r.properties⟩)] := by
  cases h
  exact ⟨rfl, rfl⟩

theorem insertNode_rels {n : Node} {id : Nat} {t t' : Txn} (h : (insertNode n).run t = .ok id t') :
    t'.graph.rels = t.graph.rels ∧
      t'.graph.nodes = t.graph.nodes ++ [(id, ⟨n.handle, n.labels, n.properties⟩)] := by
  cases h
  exact ⟨rfl, rfl⟩

theorem mergeNode_rels {n : Node} {id : Nat} {t t' : Txn} (h : (mergeNode n).run t = .ok id t') :
    t'.graph.rels = t.graph.rels := by
  unfold mergeNode at h
  split at h
  · exact (insertNode_rels h).1
  · rw [run_bind_ok (rfl : graph.run t = .ok t.graph t)] at h
    split at h
    · exact (insertNode_rels h).1
    · obtain ⟨u, t₁, hrep, h₁⟩ := run_ok_bind h
      obtain ⟨v, t₂, hbind, hret⟩ := run_ok_bind h₁
      obtain ⟨-, rfl⟩ := EStateM.Result.ok.inj hret
      cases hrep
      cases hbind
      rfl
    · cases h

theorem foldlM_run_eq {γ α : Type} {f : γ → α → Write γ} :
    ∀ {l : List α} {a : γ} {t : Txn}, (∀ x ∈ l, ∀ b t, (f b x).run t = .ok b t) → (l.foldlM f a).run t = .ok a t
  | [], _, _, _ => rfl
  | x :: l, a, t, hf => by
    rw [List.foldlM_cons, run_bind_ok (hf x List.mem_cons_self a t)]
    exact foldlM_run_eq fun y hy => hf y (List.mem_cons_of_mem _ hy)

theorem writeRels_identified {put : Relationship → Nat → Nat → Write Nat} {rels : List Relationship}
    (h : ∀ r ∈ rels, r.identity.isSome = true) (a : Assigned) (t : Txn) :
    (writeRels put rels a).run t = .ok a t := by
  unfold writeRels
  apply foldlM_run_eq
  rintro ⟨r, i⟩ hx b t
  dsimp only
  rw [if_pos (h r (List.fst_mem_of_mem_zipIdx hx))]
  rfl

end Write

theorem Graph.write_ok {g g' : Graph} {w : Fragment → Write Write.Assigned} {f f' : Fragment}
    (h : g.write w f = (g', .ok f')) :
    ∃ a t, (w f).run { graph := g, journal := Journal.begin g } = .ok a t ∧ t.graph = g' := by
  unfold Graph.write at h
  cases hrun : (w f).run { graph := g, journal := Journal.begin g } with
  | ok a t =>
    rw [hrun] at h
    exact ⟨a, t, rfl, (Prod.mk.inj h).1⟩
  | error e t =>
    rw [hrun] at h
    cases (Prod.mk.inj h).2

theorem Fragment.elements_shape_of_identified {f : Fragment} (h : ∀ r ∈ f.rels, r.identity.isSome = true) :
    f.elements.map Element.shape = f.fresh.map fun n => .node { n with handle := default } := by
  have hnil : f.rels.filter (·.identity.isNone) = [] :=
    List.filter_eq_nil_iff.mpr fun r hr => by simp [Option.isNone_iff_eq_none, ← Option.isSome_iff_ne_none, h r hr]
  simp [Fragment.elements, hnil, Element.shape]

/-! ## The contents of nodes -/

/-- A node as a store keeps it beside its identity and handle: its labels and properties. -/
def Node.content (n : Node) : List String × Props := (n.labels, n.properties)

/-- A stored node's labels and properties. -/
def StoredNode.content (n : StoredNode) : List String × Props := (n.labels, n.props)

/-- The labels and properties of the stored nodes, by identity. -/
def Graph.nodeContents (g : Graph) : List (List String × Props) := g.nodes.map (·.2.content)

/-- The node an element is, if it is one. -/
def Element.node? : Element → Option Node
  | .node n => some n
  | .rel _ => none

theorem Element.mem_filterMap_node {C : List Element} {n : Node} : n ∈ C.filterMap Element.node? ↔ .node n ∈ C := by
  constructor
  · intro h
    obtain ⟨e, he, hn⟩ := List.mem_filterMap.mp h
    cases e with
    | node m => cases hn; exact he
    | rel r => cases hn
  · intro h
    exact List.mem_filterMap.mpr ⟨_, h, rfl⟩

/-- The keyed nodes among elements. -/
def Element.keyedNodes (C : List Element) : List Node := (C.filterMap Element.node?).filter (·.primaryKey.isSome)

/-- The contents a node phase leaves for its elements: those of every unkeyed node, and of the
first keyed node of each class of equal entries, `key` naming each label's key property. -/
def canonNodes (key : String → String) (C : List Element) : List (List String × Props) :=
  canon (·.primaryKey.isSome) (Node.entry key) Node.content (C.filterMap Element.node?)

/-- Elements a node phase merges alike in any order, `key` naming each label's key property: they
are nodes; a keyed node fits the schema and lists its properties in key order; an unkeyed node
carries no label keyed nodes are merged on; and keyed nodes with equal entries have the same
labels and properties. -/
structure NodeShapes (key : String → String) (U : List Element) : Prop where
  nodes : ∀ e ∈ U, ∃ n, e = .node n
  fits : ∀ n, .node n ∈ U → n.primaryKey.isSome = true →
    n.Fits key ∧ n.properties.entries.Pairwise (·.1 < ·.1)
  apart : ∀ n m, .node n ∈ U → .node m ∈ U → n.primaryKey = none → m.primaryKey.isSome = true →
    m.mergeLabel.getD "" ∉ n.labels
  same : ∀ n m, .node n ∈ U → .node m ∈ U → n.primaryKey.isSome = true → m.primaryKey.isSome = true →
    (n.entry key == m.entry key) = true → n.content = m.content

/-- What a node phase leaves in a store for the elements `C` written: a sane store without
relationships holding the contents `canonNodes` gives, in some order. -/
structure NodeStore (key : String → String) (g : Graph) (C : List Element) : Prop where
  sane : g.Sane
  rels : g.rels = []
  contents : g.nodeContents.Perm (canonNodes key C)

section NodeContents

variable {key : String → String} {U : List Element}

theorem Node.Fits.of_shape {n : Node} (h : Node.Fits key { n with handle := default }) : n.Fits key :=
  ⟨h.labels, h.primaryKey, h.keySelf, h.keysNodup⟩

theorem Node.Fits.entry_eq {n m : Node} (hn : n.Fits key) (hm : m.Fits key) (h : n.content = m.content) :
    n.entry key = m.entry key := by
  obtain ⟨hl, hp⟩ := Prod.mk.inj h
  have hL : n.mergeLabel.getD "" = m.mergeLabel.getD "" := by
    have := hn.labels.symm.trans (hl.trans hm.labels)
    exact List.singleton_inj.mp this
  simp only [Node.entry, hL, hp]

theorem NodeShapes.beq_iff_content (hU : NodeShapes key U) {n m : Node} (hn : .node n ∈ U) (hm : .node m ∈ U)
    (hkn : n.primaryKey.isSome = true) (hkm : m.primaryKey.isSome = true) :
    (n.entry key == m.entry key) = true ↔ n.content = m.content := by
  refine ⟨hU.same n m hn hm hkn hkm, fun h => ?_⟩
  rw [(hU.fits n hn hkn).1.entry_eq (hU.fits m hm hkm).1 h]
  exact (hU.fits m hm hkm).1.keySelf

theorem NodeShapes.canonNodes_perm (hU : NodeShapes key U) {C C' : List Element} (hC : ∀ e ∈ C, e ∈ U)
    (hp : C.Perm C') : (canonNodes key C).Perm (canonNodes key C') :=
  canon_perm (hp.filterMap _) fun _ hx _ hy hkx hky =>
    hU.beq_iff_content (hC _ (Element.mem_filterMap_node.mp hx)) (hC _ (Element.mem_filterMap_node.mp hy)) hkx hky

section Append

variable {C : List Element} {n : Node}

theorem canonNodes_append_node :
    canonNodes key (C ++ [.node n]) =
      canon (·.primaryKey.isSome) (Node.entry key) Node.content (C.filterMap Element.node? ++ [n]) := by
  simp [canonNodes, Element.node?]

theorem canonNodes_append_unkeyed (h : n.primaryKey = none) :
    (canonNodes key (C ++ [.node n])).Perm (canonNodes key C ++ [n.content]) := by
  rw [canonNodes_append_node]
  exact canon_append_unkeyed (by simp [h])

theorem canonNodes_append_new (h : n.primaryKey.isSome = true)
    (hnew : (firstsBy (Node.entry key) (Element.keyedNodes C)).any (fun y => y.entry key == n.entry key) = false) :
    canonNodes key (C ++ [.node n]) = canonNodes key C ++ [n.content] := by
  rw [canonNodes_append_node]
  exact canon_append_new h hnew

theorem canonNodes_append_old (h : n.primaryKey.isSome = true)
    (hold : (firstsBy (Node.entry key) (Element.keyedNodes C)).any (fun y => y.entry key == n.entry key) = true) :
    canonNodes key (C ++ [.node n]) = canonNodes key C := by
  rw [canonNodes_append_node]
  exact canon_append_old h hold

end Append

/-- A stored node with contents the elements `C` leave that the lookup of a keyed node finds holds
the contents of the first keyed node of that node's class. -/
theorem NodeShapes.found_class (hU : NodeShapes key U) {C : List Element} (hC : ∀ e ∈ C, e ∈ U) {n : Node}
    (hn : .node n ∈ U) (hk : n.primaryKey.isSome = true) {x : StoredNode} (hx : x.content ∈ canonNodes key C)
    (hL : n.mergeLabel.getD "" ∈ x.labels)
    (hv : propertyMatches x.props (key (n.mergeLabel.getD "")) (n.entry key).2 = true) :
    ∃ y ∈ firstsBy (Node.entry key) (Element.keyedNodes C), y.content = x.content ∧
      (y.entry key == n.entry key) = true := by
  rcases List.mem_append.mp hx with hx | hx
  · -- an unkeyed node carries no label keyed nodes are merged on
    obtain ⟨m, hm, hmx⟩ := List.mem_map.mp hx
    obtain ⟨hm, hkm⟩ := List.mem_filter.mp hm
    have hmU := hC _ (Element.mem_filterMap_node.mp hm)
    have hlab : m.labels = x.labels := congrArg Prod.fst hmx
    exact absurd (hlab ▸ hL) (hU.apart m n hmU hn (by simpa using hkm) hk)
  · obtain ⟨y, hy, hyx⟩ := List.mem_map.mp hx
    obtain ⟨hyC, hky⟩ := List.mem_filter.mp (mem_of_mem_firstsBy hy)
    have hfy := (hU.fits y (hC _ (Element.mem_filterMap_node.mp hyC)) hky).1
    refine ⟨y, hy, hyx, ?_⟩
    -- the stored node's one label is the one looked up, and its key value the one matched
    have hlab : y.labels = x.labels := congrArg Prod.fst hyx
    have hprops : y.properties = x.props := congrArg Prod.snd hyx
    have hLy : y.mergeLabel.getD "" = n.mergeLabel.getD "" := by
      rw [← hlab, hfy.labels] at hL
      exact (List.mem_singleton.mp hL).symm
    rw [entry_beq_iff]
    refine ⟨hLy, ?_⟩
    show (y.properties.keyValue (key (y.mergeLabel.getD ""))).beq (Node.entry key n).2 = true
    rw [hLy, hprops, ← propertyMatches_eq_keyValue]
    exact hv

/-- **One merge of a node.** Merging a keyed node into a store holding the contents the elements
`C` leave gives one holding those that `C` and the node leave. -/
theorem NodeShapes.mergeNode_contents (hU : NodeShapes key U) {C : List Element} (hC : ∀ e ∈ C, e ∈ U)
    {n : Node} (hn : .node { n with handle := default } ∈ U) (hk : n.primaryKey.isSome = true)
    {t t' : Txn} {id : Nat} (hs : t.graph.Sane) (hg : t.graph.nodeContents.Perm (canonNodes key C))
    (hm : (Write.mergeNode n).run t = .ok id t') :
    t'.graph.nodeContents.Perm (canonNodes key (C ++ [.node { n with handle := default }])) := by
  obtain ⟨hfit', hsorted⟩ := hU.fits _ hn hk
  have hfit : n.Fits key := hfit'.of_shape
  set L := n.mergeLabel.getD ""
  rcases Write.mergeNode_cases hfit.mergeKey hm with ⟨hnone, hnodes⟩ | ⟨old, hone, hnodes⟩
  · -- written as new: no class kept so far is the node's, or the lookup would have found it
    have hnew : (firstsBy (Node.entry key) (Element.keyedNodes C)).any
        (fun y => y.entry key == (Node.entry key { n with handle := default })) = false := by
      refine Bool.eq_false_iff.mpr fun hany => ?_
      obtain ⟨y, hy, hyn⟩ := List.any_eq_true.mp hany
      obtain ⟨hyC, hky⟩ := List.mem_filter.mp (mem_of_mem_firstsBy hy)
      have hfy := (hU.fits y (hC _ (Element.mem_filterMap_node.mp hyC)) hky).1
      obtain ⟨hLy, hvy⟩ := entry_beq_iff.mp hyn
      obtain ⟨⟨id', x⟩, hx, hxy⟩ :=
        List.mem_map.mp (hg.symm.subset (List.mem_append_right _ (List.mem_map_of_mem (f := Node.content) hy)))
      have hfound : (id', x) ∈ t.graph.find [L] (Props.empty.insert (key L) (n.entry key).2) := by
        refine List.mem_filter.mpr ⟨hx, ?_⟩
        have hlab : x.labels = y.labels := congrArg Prod.fst hxy
        have hprops : x.props = y.properties := congrArg Prod.snd hxy
        simp only [List.all_cons, List.all_nil, Bool.and_true, conditionsMatch_single, Bool.and_eq_true,
          List.contains_iff_mem, propertyMatches_eq_keyValue]
        have hLy' : y.mergeLabel.getD "" = L := hLy
        refine ⟨?_, ?_⟩
        · rw [hlab, hfy.labels]
          exact List.mem_singleton.mpr hLy'.symm
        · show (x.props.keyValue (key L)).beq (n.properties.keyValue (key L)) = true
          have hvy' : (y.properties.keyValue (key (y.mergeLabel.getD ""))).beq
              (n.properties.keyValue (key L)) = true := hvy
          rw [hLy'] at hvy'
          rw [hprops]
          exact hvy'
      rw [hnone] at hfound
      exact List.not_mem_nil hfound
    rw [canonNodes_append_new (n := { n with handle := default }) hk hnew]
    have he : t'.graph.nodeContents = t.graph.nodeContents ++ [Node.content { n with handle := default }] := by
      simp [Graph.nodeContents, hnodes, StoredNode.content, Node.content]
    rw [he]
    exact hg.append_right _
  · -- merged into the one stored node found, which holds the node's own contents
    have hmem : (id, old) ∈ t.graph.find [L] (Props.empty.insert (key L) (n.entry key).2) :=
      hone ▸ List.mem_singleton_self _
    obtain ⟨hold, hpass⟩ := List.mem_filter.mp hmem
    simp only [List.all_cons, List.all_nil, Bool.and_true, conditionsMatch_single,
      Bool.and_eq_true, List.contains_iff_mem] at hpass
    have hoc : old.content ∈ canonNodes key C :=
      hg.subset (List.mem_map_of_mem (f := fun p : Nat × StoredNode => p.2.content) hold)
    obtain ⟨y, hy, hyo, hyn⟩ := hU.found_class hC hn hk hoc hpass.1 hpass.2
    obtain ⟨hyC, hky⟩ := List.mem_filter.mp (mem_of_mem_firstsBy hy)
    have hyn' : y.content = Node.content { n with handle := default } :=
      hU.same y _ (hC _ (Element.mem_filterMap_node.mp hyC)) hn hky hk hyn
    have hon : old.content = n.content := hyo.symm.trans hyn'
    have hupd : StoredNode.content
        { old with labels := labelSet (old.labels ++ n.labels), props := old.props.extend n.properties } =
          old.content := by
      have hl : old.labels = n.labels := congrArg Prod.fst hon
      have hp : old.props = n.properties := congrArg Prod.snd hon
      simp only [StoredNode.content, hl, hp, hfit.labels, List.singleton_append, labelSet_pair,
        Props.extend_self hsorted]
    rw [canonNodes_append_old (n := { n with handle := default }) hk (List.any_eq_true.mpr ⟨y, hy, hyn⟩)]
    have he : t'.graph.nodeContents = t.graph.nodeContents := by
      rw [Graph.nodeContents, hnodes]
      exact setAssoc_map_of_mem StoredNode.content hs.nodeKeys hold hupd
    rw [he]
    exact hg

theorem NodeShapes.identified (hU : NodeShapes key U) {f : Fragment}
    (hf : ∀ e ∈ f.elements.map Element.shape, e ∈ U) : ∀ r ∈ f.rels, r.identity.isSome = true := by
  intro r hr
  by_contra hid
  have hmem : Element.rel r ∈ f.elements.map Element.shape := by
    refine List.mem_map.mpr ⟨.rel r, List.mem_append_right _ (List.mem_map_of_mem ?_), rfl⟩
    exact List.mem_filter.mpr ⟨hr, by simpa [Option.isNone_iff_eq_none, Option.isSome_iff_ne_none] using hid⟩
  obtain ⟨n, hn⟩ := hU.nodes _ (hf _ hmem)
  cases hn

theorem Fragment.shape_mem_of_fresh {f : Fragment} {C : List Element}
    (hf : ∀ e ∈ C ++ f.elements.map Element.shape, e ∈ U) {n : Node} (hn : n ∈ f.fresh) :
    Element.node { n with handle := default } ∈ U :=
  hf _ (List.mem_append_right _ (List.mem_map.mpr ⟨.node n, List.mem_append_left _ (List.mem_map_of_mem hn), rfl⟩))

theorem NodeStore.restored {g g' : Graph} {C : List Element} {hs : List Handle} (hg : NodeStore key g C)
    (hr : g'.RestoredBut g hs) : NodeStore key g' C :=
  ⟨hr.sane hg.sane, hr.rels.trans hg.rels, by rw [Graph.nodeContents, hr.nodes]; exact hg.contents⟩

/-- **A create in a node phase** that goes through stores the contents of its unkeyed nodes. -/
theorem NodeShapes.create_store (hU : NodeShapes key U) {g g' : Graph} {C : List Element} {f f' : Fragment}
    (hg : NodeStore key g C) (hf : ∀ e ∈ C ++ f.elements.map Element.shape, e ∈ U)
    (hnodes : ∀ n ∈ f.nodes, n.primaryKey = none) (h : g.create f = (g', .ok f')) :
    NodeStore key g' (C ++ f.elements.map Element.shape) := by
  have hid := hU.identified fun e he => hf e (List.mem_append_right _ he)
  have hsane : g'.Sane := by simpa [h] using Graph.create_sane hg.sane f
  obtain ⟨a, t, hrun, rfl⟩ := Graph.write_ok h
  unfold Write.create at hrun
  obtain ⟨a₀, t₀, hloop, hrels⟩ := Write.run_ok_bind hrun
  rw [Write.writeRels_identified hid] at hrels
  obtain ⟨-, rfl⟩ := EStateM.Result.ok.inj hrels
  -- each node written as new adds its contents
  have hstep := Write.foldlM_inv
    (fun t done => t.graph.nodeContents.Perm
      (canonNodes key (C ++ done.map fun n => .node { n with handle := default })) ∧ t.graph.rels = g.rels)
    (l := f.nodes.filter (!·.isCommitted)) (d := [])
    (fun n hn done b t b' t' ⟨hc, hr⟩ hput => by
      obtain ⟨id, t₁, hins, hret⟩ := Write.run_ok_bind hput
      obtain ⟨-, rfl⟩ := EStateM.Result.ok.inj hret
      obtain ⟨hr₁, hn₁⟩ := Write.insertNode_rels hins
      refine ⟨?_, hr₁.trans hr⟩
      have hu : (canonNodes key (C ++ done.map (fun n => .node { n with handle := default }) ++
          [.node { n with handle := default }])).Perm
          (canonNodes key (C ++ done.map fun n => .node { n with handle := default }) ++
            [Node.content { n with handle := default }]) :=
        canonNodes_append_unkeyed (hnodes n (List.mem_filter.mp hn).1)
      rw [Graph.nodeContents, hn₁, List.map_append, List.map_append, ← List.append_assoc]
      simp only [List.map_cons, List.map_nil]
      exact (hc.append_right _).trans hu.symm)
    ⟨by simpa using hg.contents, rfl⟩ hloop
  refine ⟨hsane, hstep.2.trans hg.rels, ?_⟩
  rw [Fragment.elements_shape_of_identified hid]
  simpa [Fragment.fresh] using hstep.1

/-- **A merge in a node phase** that goes through stores the contents of its keyed nodes, each
class once. -/
theorem NodeShapes.merge_store (hU : NodeShapes key U) {g g' : Graph} {C : List Element} {f f' : Fragment}
    (hg : NodeStore key g C) (hf : ∀ e ∈ C ++ f.elements.map Element.shape, e ∈ U)
    (hnodes : ∀ n ∈ f.nodes, n.primaryKey.isSome = true) (h : g.merge f = (g', .ok f')) :
    NodeStore key g' (C ++ f.elements.map Element.shape) := by
  have hid := hU.identified fun e he => hf e (List.mem_append_right _ he)
  have hsane : g'.Sane := by simpa [h] using Graph.merge_sane hg.sane f
  have hC : ∀ e ∈ C, e ∈ U := fun e he => hf e (List.mem_append_left _ he)
  obtain ⟨a, t, hrun, rfl⟩ := Graph.write_ok h
  unfold Write.merge at hrun
  obtain ⟨a₀, t₀, hloop, hrels⟩ := Write.run_ok_bind hrun
  rw [Write.writeRels_identified hid] at hrels
  obtain ⟨-, rfl⟩ := EStateM.Result.ok.inj hrels
  -- each node merged keeps the contents those merged before leave, the write staying tracked
  have hstep := Write.foldlM_inv
    (fun t done => Write.Tracks g f.handles t ∧ (∀ m ∈ done, m ∈ f.fresh) ∧ t.graph.rels = g.rels ∧
      t.graph.nodeContents.Perm (canonNodes key (C ++ done.map fun n => .node { n with handle := default })))
    (l := f.nodes.filter (!·.isCommitted)) (d := [])
    (fun n hn done b t b' t' ⟨ht, hdone, hr, hc⟩ hput => by
      obtain ⟨id, t₁, hm, hret⟩ := Write.run_ok_bind hput
      obtain ⟨-, rfl⟩ := EStateM.Result.ok.inj hret
      have hfresh : n ∈ f.fresh := hn
      have ht₁ : Write.Tracks g f.handles t₁ := by
        simpa [Write.endState, hm] using
          Write.mergeNode_keeps (Write.Fragment.handles_of_node (List.mem_filter.mp hn).1) t ht
      have hCd : ∀ e ∈ C ++ done.map fun n => Element.node { n with handle := default }, e ∈ U := by
        intro e he
        rcases List.mem_append.mp he with he | he
        · exact hC e he
        · obtain ⟨m, hm, rfl⟩ := List.mem_map.mp he
          exact Fragment.shape_mem_of_fresh hf (hdone m hm)
      refine ⟨ht₁, fun m hm => ?_, (Write.mergeNode_rels hm).trans hr, ?_⟩
      · rcases List.mem_append.mp hm with hm | hm
        · exact hdone m hm
        · exact List.mem_singleton.mp hm ▸ hfresh
      · simpa using hU.mergeNode_contents hCd (Fragment.shape_mem_of_fresh hf hfresh)
          (hnodes n (List.mem_filter.mp hn).1) ht.sane hc hm)
    ⟨Write.tracks_begin f.handles hg.sane, by simp, rfl, by simpa using hg.contents⟩ hloop
  refine ⟨hsane, hstep.2.2.1.trans hg.rels, ?_⟩
  rw [Fragment.elements_shape_of_identified hid]
  simpa [Fragment.fresh] using hstep.2.2.2

theorem NodeShapes.writeLaws (hU : NodeShapes key U) : Pool.WriteLaws (NodeStore key) U where
  create hg hf hn _ h := hU.create_store hg hf hn h
  merge hg hf hn _ h := hU.merge_store hg hf hn h
  createFails hg h := hg.restored (Graph.create_restores hg.sane h)
  mergeFails hg h := hg.restored (Graph.merge_restores hg.sane h)

end NodeContents

end GraphIngest
