import GraphIngest.Proofs.Convert.RelationshipContents
import GraphIngest.Proofs.Convert.RelationshipPhase

/-! # Every schedule converts records into the same graph

The phases of a conversion by a pool, under any number of workers, batch and commit sizes,
controller and interleaving, leave graphs that differ only in the identities of nodes
(`Graph.Iso`).

The node rules build nodes that do not depend on the store, merged alike in any order
(`NodePhaseRules`), so every node phase leaves the same nodes (`NodeTable`, `node_phase_table`).
The relationship rules depend on that table only up to renaming (`RelPhaseRules`), so a
relationship phase's result is renamed with it (`rel_phase_edges`, `canonEdges_rename`), and two
stores so left are alike but for identities (`iso_of_tables`). Within one relationship type all
relationships are written one way: a buffer commits creates before merges, so mixing them depends
on batching (`mixed_kinds_depend_on_batching`).
-/

namespace GraphIngest

section Map

variable {α α' β β' γ γ' : Type} [BEq β] [BEq β']

theorem firstsBy_map {k : α → β} {k' : α' → β'} (φ : α → α') {l : List α}
    (h : ∀ x ∈ l, ∀ y ∈ l, (k' (φ x) == k' (φ y)) = (k x == k y)) :
    firstsBy k' (l.map φ) = (firstsBy k l).map φ := by
  -- the fold, from a start and over a rest both drawn from `l`
  suffices hfold : ∀ (rest acc : List α), rest ⊆ l → acc ⊆ l →
      (rest.map φ).foldl (firstsStep k') (acc.map φ) = (rest.foldl (firstsStep k) acc).map φ from
    hfold l [] (List.Subset.refl _) (List.nil_subset _)
  intro rest
  induction rest with
  | nil => intro acc _ _; rfl
  | cons x rest ih =>
    intro acc hrest hacc
    have hx : x ∈ l := hrest List.mem_cons_self
    have hany : (acc.map φ).any (fun y => k' y == k' (φ x)) = acc.any (fun y => k y == k x) := by
      rw [List.any_map, Bool.eq_iff_iff, List.any_eq_true, List.any_eq_true]
      constructor
      · rintro ⟨y, hy, hb⟩
        exact ⟨y, hy, (h y (hacc hy) x hx).symm.trans hb⟩
      · rintro ⟨y, hy, hb⟩
        exact ⟨y, hy, (h y (hacc hy) x hx).trans hb⟩
    have hstep : firstsStep k' (acc.map φ) (φ x) = (firstsStep k acc x).map φ := by
      unfold firstsStep
      rw [hany]
      split <;> simp
    have hacc' : firstsStep k acc x ⊆ l := by
      unfold firstsStep
      split
      · exact hacc
      · exact List.append_subset.mpr ⟨hacc, fun y hy => List.mem_singleton.mp hy ▸ hx⟩
    rw [List.map_cons, List.foldl_cons, List.foldl_cons, hstep]
    exact ih _ (fun y hy => hrest (List.mem_cons_of_mem _ hy)) hacc'

/-- What a phase leaves of mapped elements is what it leaves of the elements, mapped, when the map
keeps which elements are merged, which are in one class, and what is kept of each. -/
theorem canon_map {keyed : α → Bool} {keyed' : α' → Bool} {entry : α → β} {entry' : α' → β'}
    {content : α → γ} {content' : α' → γ'} (φ : α → α') (ψ : γ → γ') {l : List α}
    (hk : ∀ x ∈ l, keyed' (φ x) = keyed x)
    (he : ∀ x ∈ l, ∀ y ∈ l, (entry' (φ x) == entry' (φ y)) = (entry x == entry y))
    (hc : ∀ x ∈ l, content' (φ x) = ψ (content x)) :
    canon keyed' entry' content' (l.map φ) = (canon keyed entry content l).map ψ := by
  have hneg : (l.map φ).filter (!keyed' ·) = (l.filter (!keyed ·)).map φ := by
    rw [List.filter_map]
    congr 1
    exact List.filter_congr fun x hx => by simp [hk x hx]
  have hpos : (l.map φ).filter keyed' = (l.filter keyed).map φ := by
    rw [List.filter_map]
    congr 1
    exact List.filter_congr fun x hx => by simp [hk x hx]
  unfold canon
  rw [hneg, hpos,
    firstsBy_map φ fun x hx y hy => he x (List.mem_filter.mp hx).1 y (List.mem_filter.mp hy).1,
    List.map_append, List.map_map, List.map_map, List.map_map, List.map_map]
  congr 1
  · exact List.map_congr_left fun x hx => hc x (List.mem_filter.mp hx).1
  · exact List.map_congr_left fun x hx => hc x (List.mem_filter.mp (mem_of_mem_firstsBy hx)).1

end Map

/-! ## Renaming the identities of nodes -/

/-- An edge with its endpoints renamed. -/
def Edge.rename (π : Nat → Nat) (e : Edge) : Edge := { e with source := π e.source, target := π e.target }

/-- A stored relationship with its endpoints renamed. -/
def StoredRel.rename (π : Nat → Nat) (x : StoredRel) : StoredRel :=
  { x with source := π x.source, target := π x.target }

/-- **Renaming the endpoints of edges renames what a phase leaves of them**, when the renaming
tells their endpoints apart: it keeps the classes, and what is stored of each edge is renamed with
it. -/
theorem canonEdges_rename (π : Nat → Nat) {E : List Edge} {ids : List Nat}
    (hids : ∀ e ∈ E, e.source ∈ ids ∧ e.target ∈ ids) (hπ : ∀ i ∈ ids, ∀ j ∈ ids, π i = π j → i = j) :
    canonEdges (E.map (Edge.rename π)) = (canonEdges E).map (StoredRel.rename π) := by
  refine canon_map _ _ (fun _ _ => rfl) (fun x hx y hy => ?_) (fun _ _ => rfl)
  rw [Bool.eq_iff_iff, Edge.cls_beq, Edge.cls_beq]
  change x.relType = y.relType ∧ π x.source = π y.source ∧ π x.target = π y.target ∧
      x.keyPart.beq y.keyPart = true ↔ _
  constructor
  · rintro ⟨hT, hs, hd, hk⟩
    exact ⟨hT, hπ _ (hids x hx).1 _ (hids y hy).1 hs, hπ _ (hids x hx).2 _ (hids y hy).2 hd, hk⟩
  · rintro ⟨hT, hs, hd, hk⟩
    exact ⟨hT, congrArg π hs, congrArg π hd, hk⟩

/-- `π` renames the node table `N` into `N'`: it tells the identities of `N` apart, and `N'` holds,
by identity, the labels and properties `N` holds under the renamed identities. -/
structure Renames (π : Nat → Nat) (N N' : List (Nat × StoredNode)) : Prop where
  injective : ∀ i ∈ N.map Prod.fst, ∀ j ∈ N.map Prod.fst, π i = π j → i = j
  contents : (N'.map fun p => (p.1, p.2.content)).Perm (N.map fun p => (π p.1, p.2.content))

theorem Renames.mem {π : Nat → Nat} {N N' : List (Nat × StoredNode)} (h : Renames π N N') {i : Nat}
    (hi : i ∈ N.map Prod.fst) : π i ∈ N'.map Prod.fst := by
  obtain ⟨p, hp, rfl⟩ := List.mem_map.mp hi
  obtain ⟨q, hq, he⟩ := List.mem_map.mp (h.contents.symm.subset
    (List.mem_map_of_mem (f := fun p : Nat × StoredNode => (π p.1, p.2.content)) hp))
  exact List.mem_map.mpr ⟨q, hq, congrArg Prod.fst he⟩

/-- **Two tables with the same contents are renamings of each other**: identities told apart in
each, and the same labels and properties, as many times, in some order. -/
theorem exists_renames : ∀ {N N' : List (Nat × StoredNode)}, (N.map Prod.fst).Nodup →
    (N'.map Prod.fst).Nodup → (N.map (·.2.content)).Perm (N'.map (·.2.content)) → ∃ π, Renames π N N'
  | [], N', _, _, h => by
    obtain rfl : N' = [] := List.map_eq_nil_iff.mp h.nil_eq.symm
    exact ⟨id, by simp, by simp⟩
  | p :: N, N', hN, hN', h => by
    -- the first node's contents stand somewhere in `N'`: its identity goes there
    obtain ⟨q, hq, hqc⟩ : ∃ q ∈ N', q.2.content = p.2.content := by
      obtain ⟨q, hq, he⟩ := List.mem_map.mp (h.subset List.mem_cons_self)
      exact ⟨q, hq, he⟩
    obtain ⟨l₁, l₂, rfl⟩ := List.append_of_mem hq
    have hmid : (l₁ ++ q :: l₂).Perm (q :: (l₁ ++ l₂)) := List.perm_middle
    have hN'' := (hmid.map Prod.fst).nodup_iff.mp hN'
    rw [List.map_cons, List.nodup_cons] at hN hN''
    have hrest : (N.map (·.2.content)).Perm ((l₁ ++ l₂).map (·.2.content)) := by
      have h' := h.trans (hmid.map _)
      rw [List.map_cons, List.map_cons, hqc] at h'
      exact h'.cons_inv
    obtain ⟨π, hπ⟩ := exists_renames hN.2 hN''.2 hrest
    have hother : ∀ i ∈ N.map Prod.fst, i ≠ p.1 := fun i hi he => hN.1 (he ▸ hi)
    refine ⟨fun i => if i = p.1 then q.1 else π i, ?_, ?_⟩
    · -- the rest of the table goes among the other identities of `N'`, none of which is `q`'s
      intro i hi j hj hij
      rw [List.map_cons, List.mem_cons] at hi hj
      have hne : ∀ i ∈ N.map Prod.fst, π i ≠ q.1 := fun i hi he => hN''.1 (he ▸ hπ.mem hi)
      rcases hi with rfl | hi <;> rcases hj with rfl | hj
      · rfl
      · simp only [if_neg (hother j hj)] at hij
        exact absurd hij.symm (hne j hj)
      · simp only [if_neg (hother i hi)] at hij
        exact absurd hij (hne i hi)
      · simp only [if_neg (hother i hi), if_neg (hother j hj)] at hij
        exact hπ.injective i hi j hj hij
    · -- `q` holds `p`'s contents, and the rest of `N'` the rest of the table renamed
      have hsame : (N.map fun p' => ((if p'.1 = p.1 then q.1 else π p'.1), p'.2.content)) =
          N.map fun p' => (π p'.1, p'.2.content) :=
        List.map_congr_left fun p' hp' => by rw [if_neg (hother _ (List.mem_map_of_mem hp'))]
      refine (hmid.map _).trans ?_
      rw [List.map_cons, List.map_cons, if_pos rfl, hsame, hqc]
      exact hπ.contents.cons _

/-! ## Finding nodes in a renamed table -/

theorem Graph.matchNodes_ids (g : Graph) (labels : List String) (conditions : Props) :
    (g.matchNodes labels conditions).map (·.identity.getD 0) = (g.find labels conditions).map Prod.fst := by
  simp [Graph.matchNodes, Graph.toNode, Function.comp_def]

theorem Graph.ident_mem_of_mem_matchNodes {N : List (Nat × StoredNode)} {labels : List String}
    {conditions : Props} {x : Node} (hx : x ∈ ({ nodes := N } : Graph).matchNodes labels conditions) :
    x.identity.getD 0 ∈ N.map Prod.fst := by
  have hmem := List.mem_map_of_mem (f := (·.identity.getD 0)) hx
  rw [Graph.matchNodes_ids] at hmem
  obtain ⟨p, hp, hpx⟩ := List.mem_map.mp hmem
  exact hpx ▸ List.mem_map_of_mem (List.mem_of_mem_filter hp)

theorem Graph.find_length (N : List (Nat × StoredNode)) (labels : List String) (conditions : Props) :
    (({ nodes := N } : Graph).find labels conditions).length =
      ((N.map (·.2.content)).filter fun c => labels.all (c.1.contains ·) && conditionsMatch c.2 conditions).length := by
  simp [Graph.find, List.filter_map, StoredNode.content, Function.comp_def]

theorem Renames.find_ids {π : Nat → Nat} {N N' : List (Nat × StoredNode)} (h : Renames π N N')
    (labels : List String) (conditions : Props) :
    ((({ nodes := N' } : Graph).find labels conditions).map Prod.fst).Perm
      (((({ nodes := N } : Graph).find labels conditions).map Prod.fst).map π) := by
  have hp := (h.contents.filter fun p => labels.all (p.2.1.contains ·) && conditionsMatch p.2.2 conditions).map Prod.fst
  simpa [Graph.find, List.filter_map, StoredNode.content, Function.comp_def] using hp

theorem Renames.matchNodes_ids {π : Nat → Nat} {N N' : List (Nat × StoredNode)} (h : Renames π N N')
    {labels : List String} {conditions : Props}
    (hone : (({ nodes := N } : Graph).find labels conditions).length ≤ 1) :
    (({ nodes := N' } : Graph).matchNodes labels conditions).map (·.identity.getD 0) =
      ((({ nodes := N } : Graph).matchNodes labels conditions).map (·.identity.getD 0)).map π := by
  rw [Graph.matchNodes_ids, Graph.matchNodes_ids]
  have hp := h.find_ids labels conditions
  -- a list of at most one member is its only permutation
  rcases hl : ({ nodes := N } : Graph).find labels conditions with _ | ⟨a, _ | ⟨b, l⟩⟩
  · rw [hl] at hp
    exact List.perm_nil.mp hp
  · rw [hl] at hp
    exact List.perm_singleton.mp hp
  · rw [hl] at hone
    simp at hone

theorem heads_of_ids {π : Nat → Nat} {l l' : List Node}
    (h : l'.map (·.identity.getD 0) = (l.map (·.identity.getD 0)).map π) :
    (l = [] ∧ l' = []) ∨
      ∃ x xs x' xs', l = x :: xs ∧ l' = x' :: xs' ∧ x'.identity.getD 0 = π (x.identity.getD 0) := by
  cases l with
  | nil => cases l' <;> simp_all
  | cons x xs =>
    cases l' with
    | nil => simp at h
    | cons x' xs' =>
      simp only [List.map_cons, List.cons.injEq] at h
      exact .inr ⟨x, xs, x', xs', rfl, rfl, h.1⟩

/-- Two stores hold the same graph but for the identities: a renaming of node identities carries
the nodes of the first, with their labels and properties, onto those of the second, and its
relationships, with their types and properties, onto those of the second, as many of each. -/
def Graph.Iso (g g' : Graph) : Prop :=
  ∃ π, Renames π g.nodes g'.nodes ∧ (g'.rels.map Prod.snd).Perm (g.rels.map fun p => p.2.rename π)

theorem Graph.Iso.rels_length {g g' : Graph} (h : g.Iso g') : g'.rels.length = g.rels.length := by
  obtain ⟨π, -, hr⟩ := h
  simpa using hr.length_eq

theorem Element.edges_flatMap {δ : Type} (l : List δ) (f : δ → List Element) :
    Element.edges (l.flatMap f) = l.flatMap fun x => Element.edges (f x) := by
  simp [Element.edges, List.filterMap_flatMap, List.map_flatMap]

namespace Pool

/-! ## Conversions by a pool -/

theorem outcome_world {σ : Type} (p : Pool σ) : p.outcome.1.world = p.run.world := by
  unfold outcome
  split
  · rfl
  · split <;> rfl

/-- A conversion by a pool of workers: how many, the run it starts from, the batchers of its node
and relationship phases, the total its progress reports name, and the schedule of each phase. -/
structure RunPlan where
  workers : Nat
  run : Run Store
  nodeBatcher : Batcher
  relBatcher : Batcher
  hint : Option Nat
  nodeMoves : List Move
  relMoves : List Move

namespace RunPlan

/-- The node phase, its schedule played. -/
def nodePhase (c : RunPlan) : Pool Store :=
  (start c.workers c.run .node c.nodeBatcher c.hint).play c.nodeMoves

/-- The relationship phase, from the run the node phase handed on, its schedule played. -/
def relPhase (c : RunPlan) : Pool Store :=
  (start c.workers c.nodePhase.outcome.1 .relationship c.relBatcher c.hint).play c.relMoves

/-- Both phases ended normally, every worker joined. -/
def Succeeds (c : RunPlan) : Prop :=
  c.nodePhase.finished = true ∧ c.nodePhase.outcome.2.isOk = true ∧
    c.relPhase.finished = true ∧ c.relPhase.outcome.2.isOk = true

instance (c : RunPlan) : Decidable c.Succeeds := inferInstanceAs (Decidable (_ ∧ _ ∧ _ ∧ _))

end RunPlan

theorem exists_ok_of_isOk {ε α : Type} {x : Except ε α} (h : x.isOk = true) : ∃ a, x = .ok a := by
  cases x with
  | ok a => exact ⟨a, rfl⟩
  | error e => simp [Except.isOk, Except.toBool] at h

/-! ## What the rules are asked -/

/-- Node rules whose nodes do not depend on the store and are merged alike in any order: against
every store a node phase leaves they build the nodes `Fn` gives each record, their handles minted
afresh, at most `K` a record; and the nodes they build for the records `rs` have the shapes
`NodeShapes` asks. -/
structure NodePhaseRules (rules : RuleSet) (key : String → String) (Fn : Record → List Element)
    (rs : List Record) (K : Nat) : Prop where
  yields : Yields rules .node (NodeStore key) Fn
  mints : MintsAtMost rules .node K
  bound : K * rs.length ≤ 2 ^ 48
  shapes : NodeShapes key (rs.flatMap (produce Fn (rules.typeMask .node)))

/-- The node tables a node phase can leave of the nodes `U` built: identities told apart, and the
labels and properties `canonNodes` gives, in some order. -/
def NodeTable (key : String → String) (U : List Element) (N : List (Nat × StoredNode)) : Prop :=
  (N.map Prod.fst).Nodup ∧ (N.map (·.2.content)).Perm (canonNodes key U)

/-- Relationship rules that, against every store with the nodes `N`, build the relationships `F N`
gives each record, minting at most `K` handles a record; against every table in `tables`, the
relationships they build for the records `rs` join nodes of the table and have the shapes
`EdgeShapes` asks, and against a renamed table they are the same relationships renamed, in some
order. -/
structure RelPhaseRules (rules : RuleSet) (kind : String → Option RelKey)
    (tables : List (Nat × StoredNode) → Prop) (F : List (Nat × StoredNode) → Record → List Element)
    (rs : List Record) (K : Nat) : Prop where
  yields : ∀ N, Yields rules .relationship (RelStore N) (F N)
  mints : MintsAtMost rules .relationship K
  bound : K * rs.length ≤ 2 ^ 48
  shapes : ∀ N, tables N → EdgeShapes kind (rs.flatMap (produce (F N) (rules.typeMask .relationship)))
  joins : ∀ N, tables N → ∀ e ∈ Element.edges (rs.flatMap (produce (F N) (rules.typeMask .relationship))),
    e.source ∈ N.map Prod.fst ∧ e.target ∈ N.map Prod.fst
  renamed : ∀ N N' π, tables N → tables N' → Renames π N N' →
    ∀ rec, (Element.edges (F N' rec)).Perm ((Element.edges (F N rec)).map (Edge.rename π))

section Confluence

variable {rules : RuleSet} {key : String → String} {kind : String → Option RelKey}
  {Fn : Record → List Element} {F : List (Nat × StoredNode) → Record → List Element}
  {rs rs' : List Record} {K K' : Nat}

theorem nodeStore_empty : NodeStore key Graph.empty [] :=
  ⟨Graph.sane_empty, rfl, by simp [Graph.nodeContents, canonNodes, canon, firstsBy, Graph.empty]⟩

/-- **What a node phase leaves.** A node phase over the records `rs`, started on an empty memory
store, that ends normally under any schedule leaves a store with no relationships whose node table
is one a node phase leaves of the nodes the rules built, whatever identities it gave them. -/
theorem node_phase_table (hn : NodePhaseRules rules key Fn rs K) {n : Nat} (hpos : 0 < n) (r : Run Store)
    (b : Batcher) (hint : Option Nat) (ms : List Move) (hrules : r.conv.rules = rules)
    (hst : r.world.store = .memory Graph.empty) (hb : b.Delivers rs)
    (hfin : ((start n r .node b hint).play ms).finished = true) {b' : Batcher}
    (hok : ((start n r .node b hint).play ms).outcome.2 = .ok b') :
    ∃ g, ((start n r .node b hint).play ms).run.world.store = .memory g ∧ g.Sane ∧ g.rels = [] ∧
      NodeTable key (rs.flatMap (produce Fn (rules.typeMask .node))) g.nodes := by
  obtain ⟨g, C, hst₁, hg, hp⟩ := phase_ledger hpos r .node b hint ms Fn (NodeStore key) rs K hb hst nodeStore_empty
    (by rw [hrules]; exact hn.yields) (by rw [hrules]; exact hn.mints) hn.bound
    (by rw [hrules]; exact hn.shapes.writeLaws) hfin hok
  rw [hrules] at hp
  exact ⟨g, hst₁, hg.sane, hg.rels,
    hg.sane.nodeKeys, hg.contents.trans (hn.shapes.canonNodes_perm (fun e he => hp.subset he) hp)⟩

/-- **What a relationship phase leaves.** A relationship phase over the records `rs'`, started on a
memory store holding a node table of `tables` and no relationship, that ends normally under any
schedule keeps the nodes and leaves what a relationship phase leaves of the relationships the
rules built against them. -/
theorem rel_phase_edges {tables : List (Nat × StoredNode) → Prop} (hr : RelPhaseRules rules kind tables F rs' K')
    {n : Nat} (hpos : 0 < n) (r : Run Store) (b : Batcher) (hint : Option Nat) (ms : List Move)
    (hrules : r.conv.rules = rules) {g₁ : Graph} (hst : r.world.store = .memory g₁) (hs : g₁.Sane)
    (hrels : g₁.rels = []) (htab : tables g₁.nodes) (hb : b.Delivers rs')
    (hfin : ((start n r .relationship b hint).play ms).finished = true) {b' : Batcher}
    (hok : ((start n r .relationship b hint).play ms).outcome.2 = .ok b') :
    ∃ g, ((start n r .relationship b hint).play ms).run.world.store = .memory g ∧ g.nodes = g₁.nodes ∧
      (g.rels.map Prod.snd).Perm
        (canonEdges (Element.edges (rs'.flatMap (produce (F g₁.nodes) (rules.typeMask .relationship))))) := by
  have hU := hr.shapes _ htab
  obtain ⟨g, C, hst₂, hg, hp⟩ := phase_ledger hpos r .relationship b hint ms (F g₁.nodes) (RelStore g₁.nodes) rs' K'
    hb hst (relStore_start hs hrels) (by rw [hrules]; exact hr.yields _) (by rw [hrules]; exact hr.mints) hr.bound
    (by rw [hrules]; exact hU.writeLaws) hfin hok
  rw [hrules] at hp
  refine ⟨g, hst₂, hg.nodes, hg.contents.trans (hU.canonEdges_perm (fun x hx => ?_) ((hp.filterMap _).map _))⟩
  obtain ⟨e, he, rfl⟩ := Element.mem_edges.mp hx
  exact ⟨e, hp.subset he, rfl⟩

/-- **Two stores the rules could have left hold the same graph, but for identities.** Each holds a
node table of the nodes the rules built, and what a relationship phase leaves of the relationships
the rules built against it: the two tables are a renaming of each other, and so are the
relationships. -/
theorem iso_of_tables {U : List Element}
    (hr : RelPhaseRules rules kind (NodeTable key U) F rs' K') {gA gB : Graph}
    (htA : NodeTable key U gA.nodes)
    (hrelA : (gA.rels.map Prod.snd).Perm
      (canonEdges (Element.edges (rs'.flatMap (produce (F gA.nodes) (rules.typeMask .relationship))))))
    (htB : NodeTable key U gB.nodes)
    (hrelB : (gB.rels.map Prod.snd).Perm
      (canonEdges (Element.edges (rs'.flatMap (produce (F gB.nodes) (rules.typeMask .relationship)))))) :
    gA.Iso gB := by
  -- the two node tables hold the same contents: one is a renaming of the other
  obtain ⟨π, hπ⟩ := exists_renames htA.1 htB.1 (htA.2.trans htB.2.symm)
  refine ⟨π, hπ, ?_⟩
  -- the relationships built against the second table are those built against the first, renamed
  have hedges : (Element.edges (rs'.flatMap (produce (F gB.nodes) (rules.typeMask .relationship)))).Perm
      ((Element.edges (rs'.flatMap (produce (F gA.nodes) (rules.typeMask .relationship)))).map (Edge.rename π)) := by
    rw [Element.edges_flatMap, Element.edges_flatMap, List.map_flatMap]
    refine List.Perm.flatMap_left _ fun rec _ => ?_
    unfold produce
    split
    · exact hr.renamed _ _ _ htA htB hπ rec
    · simp [Element.edges]
  have hcanon := (hr.shapes _ htB).canonEdges_perm (fun x hx => Element.mem_edges.mp hx) hedges
  rw [canonEdges_rename π (hr.joins _ htA) hπ.injective] at hcanon
  have hA' := (hrelA.map (StoredRel.rename π)).symm
  rw [List.map_map] at hA'
  exact (hrelB.trans hcanon).trans hA'

end Confluence

end Pool

/-! ## People and the edges between them -/

/-- A node rule building a `Person` node keyed on `ID`, the record's field `ID` as it is. -/
def personRule : NodeRule :=
  { id := "p", labels := ["Person"], properties := [("ID", .field "ID" none)], primaryKey := some "ID" }

/-- People from records of type `P`, and the edges of `ghostEdgeRules` from records of type `E`. -/
def peopleRules : RuleSet :=
  { entries := [("E", { relationships := .fn (Hook.rule (.edge "T" "from" "to" (some "ghost"))) }),
      ("P", { nodes := .nodeRules [personRule] })] }

/-- A record naming a person. -/
def personRecord (i : Int) : Record :=
  { recordType := "P", fields := Props.empty.insert "ID" (.int i), identifying := ["ID"] }

/-- Persons 1, 2 and 1 again, then twice the edge from 1 to 2. -/
def peopleRecords : List Record :=
  [personRecord 1, personRecord 2, personRecord 1, oneToTwo, oneToTwo]

/-- What the node rules build for a record: its person, for a record of type `P`. -/
def personNodes (rec : Record) : List Element :=
  if rec.recordType = "P" then
    match personRule.build default rec with
    | .ok n => [.node n]
    | .error _ => []
  else []

/-- The person of id `i`. -/
def personNode (i : Int) : Node :=
  { Node.new default ["Person"] with properties := Props.empty.insert "ID" (.int i), primaryKey := some "ID" }

theorem peopleRules_chainFor (rec : Record) (ph : Phase) :
    peopleRules.chainFor? rec.recordType ph =
      if rec.recordType = "E" then some (RuleEntry.get { relationships := .fn (Hook.rule (.edge "T" "from" "to" (some "ghost"))) } ph)
      else if rec.recordType = "P" then some (RuleEntry.get { nodes := .nodeRules [personRule] } ph)
      else none := by
  by_cases hE : rec.recordType = "E"
  · simp [RuleSet.chainFor?, peopleRules, hE]
  · have hbE : (rec.recordType == "E") = false := by simpa using hE
    by_cases hP : rec.recordType = "P"
    · simp [RuleSet.chainFor?, peopleRules, List.lookup, hP]
    · have hbP : (rec.recordType == "P") = false := by simpa using hP
      simp [RuleSet.chainFor?, peopleRules, List.lookup, hbE, hbP, hE, hP]

theorem RuleM.run_nodeRules_single (rule : NodeRule) (env : RuleEnv) (s : RuleState) :
    (RuleM.nodeRules [rule]).run env s =
      match rule.build (Handle.minted s.minted) s.record with
      | .ok n => (.ok (Fragment.ofNode n),
          { s with minted := s.minted + 1, record := s.record.setSupply rule.id (Fragment.ofNode n) })
      | .error e => (.error (.rule e), { s with minted := s.minted + 1 }) := by
  simp only [RuleM.nodeRules, List.foldlM_cons, List.foldlM_nil, RuleM.run_bind, RuleM.run_freshHandle,
    RuleM.run_record]
  cases rule.build (Handle.minted s.minted) s.record <;> rfl

theorem peopleRules_yield_nodes (key : String → String) :
    Pool.Yields peopleRules .node (NodeStore key) personNodes := by
  intro w g C rec w' f rec' _ _ h
  dsimp only [World.apply] at h
  have hm := congrArg World.minted (Prod.mk.inj h).1
  have hres := (Prod.mk.inj (Prod.mk.inj h).2).1
  rw [RuleM.run_ruleSet, peopleRules_chainFor] at hm hres
  dsimp only at hm hres
  split_ifs at hm hres with hE hP
  · -- a record of type `E` has no node rules
    simp only [RuleEntry.get, RuleM.chain, RuleM.run_pure] at hres
    cases hres
    simp [Fragment.elements, Fragment.empty, Fragment.fresh, personNodes, hE]
  · simp only [RuleEntry.get, RuleM.chain, RuleM.run_nodeRules_single] at hm hres
    cases hb : personRule.build (Handle.minted w.minted) rec with
    | error e => simp [hb] at hres
    | ok n =>
      simp only [hb, Except.ok.injEq] at hm hres
      subst hres
      obtain ⟨ps, -, rfl⟩ := NodeRule.build_ok hb
      have hb₀ := NodeRule.build_again default hb rfl
      refine ⟨?_, ?_, ?_, ?_⟩
      · simp [personNodes, hP, hb₀, Fragment.elements, Fragment.ofNode, Fragment.fresh, Element.shape,
          Node.isCommitted, Node.new]
      · simp [Fragment.ofNode, Node.isCommitted, Node.new]
      · simp [Fragment.ofNode]
      · simp only [Fragment.ofNode, List.mem_singleton]
        rintro _ rfl
        exact ⟨w.minted, le_refl _, by omega, rfl⟩
  · cases hres
    simp [Fragment.elements, Fragment.empty, Fragment.fresh, personNodes, hP]

theorem peopleRules_mints_nodes : Pool.MintsAtMost peopleRules .node 1 := by
  intro w rec
  dsimp only [World.apply]
  rw [RuleM.run_ruleSet, peopleRules_chainFor]
  dsimp only
  split_ifs
  · simp [RuleEntry.get, RuleM.chain]
  · simp only [RuleEntry.get, RuleM.chain, RuleM.run_nodeRules_single]
    split <;> simp
  · simp

theorem peopleRules_yield_edges (N : List (Nat × StoredNode)) :
    Pool.Yields peopleRules .relationship (RelStore N) (ghostEdges N) := by
  intro w g C rec w' f rec' hst hg h
  dsimp only [World.apply] at h
  have hres := (Prod.mk.inj (Prod.mk.inj h).2).1
  rw [RuleM.run_ruleSet, peopleRules_chainFor, hst] at hres
  dsimp only at hres
  split_ifs at hres with hE hP
  · simp only [RuleEntry.get, RuleM.chain, Hook.rule] at hres
    obtain ⟨hel, hnodes⟩ := RuleM.hook_ghostEdge_elements hg.nodes hE (Prod.ext hres rfl)
    refine ⟨hel, ?_⟩
    simp [hnodes]
  · simp only [RuleEntry.get, RuleM.chain, RuleM.run_pure] at hres
    cases hres
    simp [Fragment.elements, Fragment.empty, Fragment.fresh, ghostEdges, hE]
  · cases hres
    simp [Fragment.elements, Fragment.empty, Fragment.fresh, ghostEdges, hE]

theorem peopleRules_mints_edges : Pool.MintsAtMost peopleRules .relationship 0 := by
  intro w rec
  have hframe : ∀ env (st : RuleState), env.phase = .relationship → st.record = rec →
      ((RuleM.ruleSet peopleRules).run env st).2 = st := by
    intro env st hph hst
    rw [RuleM.run_ruleSet, peopleRules_chainFor, hst, hph]
    split_ifs
    · simp only [RuleEntry.get, RuleM.chain, Hook.rule]
      exact RuleM.frames_hook_edge _ _ _ _ env st
    · rfl
    · rfl
  dsimp only [World.apply]
  rw [hframe _ _ rfl rfl]
  simp

theorem ghostEdge_edge_rename (π : Nat → Nat) {x y x' y' : Node} (rec : Record)
    (hx : x'.identity.getD 0 = π (x.identity.getD 0)) (hy : y'.identity.getD 0 = π (y.identity.getD 0)) :
    (ghostEdge x' y' rec).edge = (ghostEdge x y rec).edge.rename π := by
  unfold ghostEdge
  split <;> simp [Relationship.edge, Edge.rename, Relationship.ghostKeyed, Relationship.withKey,
    Relationship.withProperty, Relationship.new, hx, hy]

theorem ghostEdges_eq_nil_or (N : List (Nat × StoredNode)) (rec : Record) :
    ghostEdges N rec = [] ∨ ∃ x y, x.identity.getD 0 ∈ N.map Prod.fst ∧ y.identity.getD 0 ∈ N.map Prod.fst ∧
      ghostEdges N rec = [.rel (ghostEdge x y rec)] := by
  unfold ghostEdges
  split_ifs
  · split
    · split
      next x xs y ys hx hy =>
        exact .inr ⟨x, y, Graph.ident_mem_of_mem_matchNodes (hx ▸ List.mem_cons_self),
          Graph.ident_mem_of_mem_matchNodes (hy ▸ List.mem_cons_self), rfl⟩
      · exact .inl rfl
    · exact .inl rfl
  · exact .inl rfl

theorem ghostEdges_renamed {π : Nat → Nat} {N N' : List (Nat × StoredNode)} (h : Renames π N N')
    (hone : ∀ i : Int, (({ nodes := N } : Graph).find ["Person"] (Props.empty.insert "ID" (.int i))).length ≤ 1)
    (rec : Record) :
    Element.edges (ghostEdges N' rec) = (Element.edges (ghostEdges N rec)).map (Edge.rename π) := by
  unfold ghostEdges
  split_ifs with ht
  · rcases hi : (rec.get? "from").bind Value.asInt? with _ | i
    · simp [Element.edges]
    rcases hj : (rec.get? "to").bind Value.asInt? with _ | j
    · simp [Element.edges]
    dsimp only
    -- the first person found for each id is the same in both tables, renamed
    rcases heads_of_ids (h.matchNodes_ids (hone i)) with ⟨hx, hx'⟩ | ⟨x, xs, x', xs', hx, hx', hxx⟩
    · simp [hx, hx', Element.edges]
    rcases heads_of_ids (h.matchNodes_ids (hone j)) with ⟨hy, hy'⟩ | ⟨y, ys, y', ys', hy, hy', hyy⟩
    · simp [hx, hx', hy, hy', Element.edges]
    simp [hx, hx', hy, hy', Element.edges, Element.rel?, ghostEdge_edge_rename π rec hxx hyy]
  · simp [Element.edges]

theorem ghostEdge_edge_ends (x y : Node) (rec : Record) :
    (ghostEdge x y rec).edge.source = x.identity.getD 0 ∧ (ghostEdge x y rec).edge.target = y.identity.getD 0 := by
  unfold ghostEdge
  split <;> exact ⟨rfl, rfl⟩

theorem ghostEdge_sorted (x y : Node) (rec : Record) :
    (ghostEdge x y rec).properties.entries.Pairwise (·.1 < ·.1) := by
  unfold ghostEdge
  split <;> simp [Relationship.ghostKeyed, Relationship.withKey, Relationship.withProperty, Relationship.new,
    Props.insert, Props.insertEntry]

theorem ghostEdges_joins (N : List (Nat × StoredNode)) (rec : Record) :
    ∀ e ∈ Element.edges (ghostEdges N rec), e.source ∈ N.map Prod.fst ∧ e.target ∈ N.map Prod.fst := by
  intro e he
  rcases ghostEdges_eq_nil_or N rec with h | ⟨x, y, hx, hy, h⟩
  · simp [h, Element.edges] at he
  · simp only [h, Element.edges, List.filterMap_cons, Element.rel?, List.filterMap_nil, List.map_cons,
      List.map_nil, List.mem_singleton] at he
    subst he
    obtain ⟨hs, ht⟩ := ghostEdge_edge_ends x y rec
    exact ⟨hs ▸ hx, ht ▸ hy⟩

theorem peopleRecords_nodes :
    peopleRecords.flatMap (Pool.produce personNodes (peopleRules.typeMask .node)) =
      [.node (personNode 1), .node (personNode 2), .node (personNode 1)] := rfl

theorem mem_peopleRecords_edges (N : List (Nat × StoredNode)) {e : Element} :
    e ∈ peopleRecords.flatMap (Pool.produce (ghostEdges N) (peopleRules.typeMask .relationship)) ↔
      e ∈ ghostEdges N oneToTwo := by
  have hmask : peopleRules.typeMask .relationship = ["E"] := by decide
  simp [peopleRecords, Pool.produce, hmask, personRecord, oneToTwo]

theorem personNode_fits (i : Int) : (personNode i).Fits (fun _ => "ID") :=
  ⟨rfl, rfl, by simp [personNode, Node.entry, Node.mergeLabel, Node.new, Props.keyValue, Props.get?, Props.insert,
    Props.insertEntry, Props.empty, BEq.beq, Value.beq], by simp [personNode, Props.insert, Props.insertEntry, Props.empty]⟩

theorem peopleNodes_shapes :
    NodeShapes (fun _ => "ID") (peopleRecords.flatMap (Pool.produce personNodes (peopleRules.typeMask .node))) := by
  rw [peopleRecords_nodes]
  refine ⟨?_, ?_, ?_, ?_⟩
  · intro e he
    simp only [List.mem_cons, List.not_mem_nil, or_false] at he
    rcases he with rfl | rfl | rfl <;> exact ⟨_, rfl⟩
  · intro n hn _
    simp only [List.mem_cons, List.not_mem_nil, or_false, Element.node.injEq] at hn
    rcases hn with rfl | rfl | rfl <;>
      exact ⟨personNode_fits _, by simp [personNode, Props.insert, Props.insertEntry, Props.empty]⟩
  · intro n m hn _ hkn _
    simp only [List.mem_cons, List.not_mem_nil, or_false, Element.node.injEq] at hn
    rcases hn with rfl | rfl | rfl <;> simp [personNode] at hkn
  · intro n m hn hm _ _ he
    simp only [List.mem_cons, List.not_mem_nil, or_false, Element.node.injEq] at hn hm
    rcases hn with rfl | rfl | rfl <;> rcases hm with rfl | rfl | rfl <;> first | rfl | exact absurd he (by decide)

theorem peopleTable_finds_once {N : List (Nat × StoredNode)}
    (hN : Pool.NodeTable (fun _ => "ID") (peopleRecords.flatMap (Pool.produce personNodes (peopleRules.typeMask .node))) N)
    (i : Int) : (({ nodes := N } : Graph).find ["Person"] (Props.empty.insert "ID" (.int i))).length ≤ 1 := by
  have hc : canonNodes (fun _ => "ID") (peopleRecords.flatMap (Pool.produce personNodes (peopleRules.typeMask .node))) =
      [(["Person"], Props.empty.insert "ID" (.int 1)), (["Person"], Props.empty.insert "ID" (.int 2))] := rfl
  rw [Graph.find_length, (hN.2.filter _).length_eq, hc]
  simp [conditionsMatch, propertyMatches, Props.get?, Props.insert, Props.empty, Props.insertEntry, List.filter,
    BEq.beq, Value.beq]
  -- persons 1 and 2 are told apart by their ids
  by_cases h1 : 1 = i
  · have h2 : ¬ 2 = i := by omega
    simp [h1, h2]
  · by_cases h2 : 2 = i <;> simp [h1, h2]

namespace Pool

theorem peopleNodePhase : NodePhaseRules peopleRules (fun _ => "ID") personNodes peopleRecords 1 :=
  ⟨peopleRules_yield_nodes _, peopleRules_mints_nodes, by decide, peopleNodes_shapes⟩

theorem peopleRelPhase :
    RelPhaseRules peopleRules ghostKind
      (NodeTable (fun _ => "ID") (peopleRecords.flatMap (produce personNodes (peopleRules.typeMask .node))))
      ghostEdges peopleRecords 0 where
  yields := peopleRules_yield_edges
  mints := peopleRules_mints_edges
  bound := by decide
  shapes N _ := by
    -- the rules build the edge of `oneToTwo` twice, if at all
    have hedge : ∀ r, .rel r ∈ peopleRecords.flatMap (produce (ghostEdges N) (peopleRules.typeMask .relationship)) →
        ∃ x y, ghostEdges N oneToTwo = [.rel (ghostEdge x y oneToTwo)] ∧ r = ghostEdge x y oneToTwo := by
      intro r hr
      replace hr := (mem_peopleRecords_edges N).mp hr
      rcases ghostEdges_eq_nil_or N oneToTwo with h | ⟨x, y, -, -, h⟩
      · simp [h] at hr
      · simp only [h, List.mem_singleton, Element.rel.injEq] at hr
        exact ⟨x, y, h, hr⟩
    refine ⟨fun e he => ghostEdges_fit N oneToTwo e ((mem_peopleRecords_edges N).mp he), fun r hr => ?_,
      fun r r' hr hr' _ _ => ?_⟩
    · obtain ⟨x, y, -, rfl⟩ := hedge r hr
      exact ghostEdge_sorted x y oneToTwo
    · obtain ⟨x, y, h, rfl⟩ := hedge r hr
      obtain ⟨x', y', h', rfl⟩ := hedge r' hr'
      simp only [h, List.cons.injEq, Element.rel.injEq, and_true] at h'
      rw [h']
  joins N _ e he := by
    obtain ⟨r, hr, rfl⟩ := Element.mem_edges.mp he
    exact ghostEdges_joins N oneToTwo _ (Element.mem_edges.mpr ⟨r, (mem_peopleRecords_edges N).mp hr, rfl⟩)
  renamed _ _ _ hN _ hπ rec := List.Perm.of_eq (ghostEdges_renamed hπ (peopleTable_finds_once hN) rec)

/-- A conversion of the people and their edges into an empty memory store, under the settings
`c`. -/
def peopleRun (c : Config) : Run Store :=
  { conv := { config := c, rules := peopleRules },
    world := { store := .memory Graph.empty, source := .items (peopleRecords.map .ok) } }

/-- Two workers stepping in turn, then both joined. -/
def alternating : List Move := (List.replicate 30 [Move.step 0, .step 1]).flatten ++ [.join 0, .join 1]

/-- One worker stepping, then joined. -/
def solo : List Move := List.replicate 60 (Move.step 0) ++ [.join 0]

end Pool

/-! ## Mixed kinds within one type -/

/-- Rules that write one relationship type both ways: a record of type `G` merges a `T` between
any two `N` nodes, one of type `U` creates one. -/
def mixedKindRules : RuleSet :=
  let keyed : NodeRule := { id := "n", labels := ["N"], properties := [("k", .field "k" none)], primaryKey := some "k" }
  let anyN : Endpoint := .lookup ["N"] []
  { entries := [("G", { relationships := .relRules [{ relType := "T", source := anyN, target := anyN, merge := true }] [] }),
                ("N", { nodes := .nodeRules [keyed] }),
                ("U", { relationships := .relRules [{ relType := "T", source := anyN, target := anyN }] [] })] }

/-- An `N` node, then one record of each kind. -/
def mixedKindRecords : List Record :=
  [{ recordType := "N", fields := Props.empty.insert "k" (.str "a"), identifying := ["k"] },
   { recordType := "G", fields := Props.empty, identifying := [] },
   { recordType := "U", fields := Props.empty, identifying := [] }]

/-- A conversion of the records into an empty memory store, under the settings `c`. -/
def mixedKindRun (c : Config) : Run Store :=
  { conv := { config := c, rules := mixedKindRules },
    world := { store := .memory Graph.empty, source := .items (mixedKindRecords.map .ok) } }

/-- **Mixing kinds within a type makes the graph depend on the batching.** One worker taking
batches of five commits the created `T` before the merged one, which then finds it and writes
nothing; serialize mode merges first and creates after, and keeps both. Both conversions succeed,
and no renaming of identities makes the two graphs alike. -/
theorem mixed_kinds_depend_on_batching :
    (Run.run (mixedKindRun { workers := some 1, batchSize := 5 }) {}).2.isOk = true ∧
    (Run.run (mixedKindRun Config.serialized) {}).2.isOk = true ∧
    ∀ gA gB, (Run.run (mixedKindRun { workers := some 1, batchSize := 5 }) {}).1.world.store = .memory gA →
      (Run.run (mixedKindRun Config.serialized) {}).1.world.store = .memory gB → ¬ gA.Iso gB := by
  have hA : (Run.run (mixedKindRun { workers := some 1, batchSize := 5 }) {}).2.isOk = true ∧
      ((Run.run (mixedKindRun { workers := some 1, batchSize := 5 }) {}).1.world.store.relCount none).toOption
        = some 1 := by decide +kernel
  have hB : (Run.run (mixedKindRun Config.serialized) {}).2.isOk = true ∧
      ((Run.run (mixedKindRun Config.serialized) {}).1.world.store.relCount none).toOption = some 2 := by
    decide +kernel
  refine ⟨hA.1, hB.1, fun gA gB hgA hgB hiso => ?_⟩
  have hA1 : gA.rels.length = 1 := by
    simpa [hgA, Store.relCount, Graph.relCount, Except.toOption] using hA.2
  have hB2 : gB.rels.length = 2 := by
    simpa [hgB, Store.relCount, Graph.relCount, Except.toOption] using hB.2
  have hlen := hiso.rels_length
  omega

end GraphIngest
