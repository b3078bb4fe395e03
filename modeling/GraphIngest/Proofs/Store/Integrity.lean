import GraphIngest.Proofs.Store.Atomicity

/-! # References of a memory store

A memory store refers to nodes by identity in relationship endpoints and in the node each handle
is bound to; its references are sound (`Graph.Refs`) when each names a stored node. A write that
goes through keeps them sound (`Write.resolve_sound`). A failed write is rolled back, restoring
nodes and relationships but not a handle bound before, which can stay bound to a node the
rollback dropped (`Store.failed_create_keeps_rebinding`). Along every sequence of creates and
merges from the empty store in which no failed call names a handle bound before it
(`Graph.Reached`), the references stay sound and every failed call leaves the store as it was
(`Graph.Reached.integrity`). -/

namespace GraphIngest

section Assoc
variable {α β : Type} [BEq α] [LawfulBEq α]

omit [LawfulBEq α] in
theorem mem_setAssoc {k : α} {v : β} {p : α × β} :
    ∀ {l : List (α × β)}, p ∈ setAssoc k v l → p = (k, v) ∨ p ∈ l
  | [], h => by simpa [setAssoc] using h
  | (k', v') :: rest, h => by
    unfold setAssoc at h
    split at h
    · rcases List.mem_cons.mp h with h | h
      · exact .inl h
      · exact .inr (List.mem_cons_of_mem _ h)
    · rcases List.mem_cons.mp h with h | h
      · exact .inr (h ▸ List.mem_cons_self)
      · exact (mem_setAssoc h).imp_right (List.mem_cons_of_mem _)

theorem keys_subset_setAssoc (k : α) (v : β) (l : List (α × β)) :
    l.map Prod.fst ⊆ (setAssoc k v l).map Prod.fst := by
  by_cases hk : k ∈ l.map Prod.fst
  · rw [setAssoc_keys_of_mem hk]
    exact List.Subset.refl _
  · rw [setAssoc_of_not_mem hk, List.map_append]
    exact List.subset_append_left _ _

theorem eq_of_keys_lookup :
    ∀ {l m : List (α × β)}, l.map Prod.fst = m.map Prod.fst → (l.map Prod.fst).Nodup →
      (∀ k, l.lookup k = m.lookup k) → l = m
  | [], [], _, _, _ => rfl
  | [], _ :: _, hk, _, _ => by simp at hk
  | _ :: _, [], hk, _, _ => by simp at hk
  | (k, v) :: l, (k', v') :: m, hk, hn, hl => by
    simp only [List.map_cons, List.cons.injEq] at hk
    obtain ⟨rfl, hrest⟩ := hk
    have hv : v = v' := by simpa using hl k
    subst hv
    have hout : k ∉ l.map Prod.fst := (List.nodup_cons.mp hn).1
    have hrest' : ∀ j, l.lookup j = m.lookup j := by
      intro j
      by_cases hj : j = k
      · subst hj
        rw [(List.lookup_eq_none_iff.mpr fun p hp => by
              simpa using fun he : j = p.1 => hout (he ▸ List.mem_map_of_mem hp)),
          (List.lookup_eq_none_iff.mpr fun p hp => by
              simpa using fun he : j = p.1 => hout (hrest ▸ he ▸ List.mem_map_of_mem hp))]
      · have := hl j
        rwa [lookup_cons_ne _ hj, lookup_cons_ne _ hj] at this
    rw [eq_of_keys_lookup hrest (List.nodup_cons.mp hn).2 hrest']

theorem mem_of_lookup {k : α} {v : β} : ∀ {l : List (α × β)}, l.lookup k = some v → (k, v) ∈ l
  | [], h => by simp at h
  | (k', v') :: rest, h => by
    by_cases hk : k = k'
    · subst hk
      simp only [List.lookup_cons_self, Option.some.injEq] at h
      exact h ▸ List.mem_cons_self
    · rw [lookup_cons_ne _ hk] at h
      exact List.mem_cons_of_mem _ (mem_of_lookup h)

end Assoc

namespace Graph

/-- The identities of the stored nodes. -/
def nodeIds (g : Graph) : List Nat := g.nodes.map Prod.fst

/-- A store whose references are sound: every relationship's endpoints and every handle's node
are stored nodes. -/
structure Refs (g : Graph) : Prop where
  rels : ∀ p ∈ g.rels, p.2.source ∈ g.nodeIds ∧ p.2.target ∈ g.nodeIds
  handles : ∀ p ∈ g.handles, p.2 ∈ g.nodeIds

theorem refs_empty : Graph.empty.Refs := ⟨by simp [empty], by simp [empty]⟩

theorem Refs.of_subset {g g' : Graph} (hg : g.Refs) (hids : g.nodeIds ⊆ g'.nodeIds)
    (hrels : ∀ p ∈ g'.rels, p ∈ g.rels ∨ (p.2.source ∈ g'.nodeIds ∧ p.2.target ∈ g'.nodeIds))
    (hhandles : ∀ p ∈ g'.handles, p ∈ g.handles ∨ p.2 ∈ g'.nodeIds) : g'.Refs where
  rels p hp := (hrels p hp).elim (fun h => ⟨hids (hg.rels p h).1, hids (hg.rels p h).2⟩) id
  handles p hp := (hhandles p hp).elim (fun h => hids (hg.handles p h)) id

theorem mem_nodeIds_of_lookup {g : Graph} {id : Nat} (h : (g.nodes.lookup id).isSome) :
    id ∈ g.nodeIds :=
  Classical.byContradiction fun hn => by
    rw [Option.isNone_iff_eq_none.mp (lookup_isNone_iff.mpr hn)] at h
    cases h

end Graph

namespace Write

/-- From `t` to `t'` the references stay sound and every stored node stays stored. -/
def Kept (t t' : Txn) : Prop := t'.graph.Refs ∧ t.graph.nodeIds ⊆ t'.graph.nodeIds

theorem Kept.trans {t t' t'' : Txn} (h₁ : Kept t t') (h₂ : Kept t' t'') : Kept t t'' :=
  ⟨h₂.1, List.Subset.trans h₁.2 h₂.2⟩

theorem run_ok_bind {x : Write α} {f : α → Write β} {t t'' : Txn} {b : β}
    (h : (x >>= f).run t = .ok b t'') : ∃ a t', x.run t = .ok a t' ∧ (f a).run t' = .ok b t'' := by
  cases hx : x.run t with
  | ok a t' => exact ⟨a, t', rfl, by rwa [run_bind_ok hx] at h⟩
  | error e t' => rw [run_bind_error hx] at h; cases h

/-- A write that goes through from a store with sound references keeps them and every node. -/
def Sound (x : Write α) : Prop := ∀ t a t', t.graph.Refs → x.run t = .ok a t' → Kept t t'

/-- A write that goes through from a store with sound references keeps them and every node, and
returns a stored node. -/
def SoundNode (x : Write Nat) : Prop :=
  ∀ t a t', t.graph.Refs → x.run t = .ok a t' → Kept t t' ∧ a ∈ t'.graph.nodeIds

theorem sound_bind {x : Write α} {f : α → Write β} (hx : Sound x) (hf : ∀ a, Sound (f a)) :
    Sound (x >>= f) := by
  intro t b t'' ht h
  obtain ⟨a, t', h₁, h₂⟩ := run_ok_bind h
  have k₁ := hx t a t' ht h₁
  exact k₁.trans (hf a t' b t'' k₁.1 h₂)

theorem sound_foldlM {γ : Type} {f : γ → α → Write γ} :
    ∀ {l : List α} (a : γ), (∀ x ∈ l, ∀ b, Sound (f b x)) → Sound (l.foldlM f a)
  | [], a, _ => by
    intro t b t' ht h
    cases h
    exact ⟨ht, List.Subset.refl _⟩
  | x :: rest, a, h => by
    rw [List.foldlM_cons]
    exact sound_bind (h x List.mem_cons_self a) fun b =>
      sound_foldlM b fun y hy c => h y (List.mem_cons_of_mem _ hy) c

theorem insertNode_sound (n : Node) : SoundNode (insertNode n) := by
  intro t a t' ht h
  obtain ⟨t₁, hrun, hnodes, hrels, hhandles⟩ := insertNode_run n t
  rw [hrun] at h
  obtain ⟨rfl, rfl⟩ := EStateM.Result.ok.inj h
  have hkeys : t₁.graph.nodeIds = t.graph.nodeIds ++ [t.graph.lastNode + 1] := by
    simp [Graph.nodeIds, hnodes]
  have hids : t.graph.nodeIds ⊆ t₁.graph.nodeIds := hkeys ▸ List.subset_append_left _ _
  have hnew : t.graph.lastNode + 1 ∈ t₁.graph.nodeIds := by simp [hkeys]
  refine ⟨⟨Graph.Refs.of_subset ht hids (fun p hp => .inl (hrels ▸ hp)) fun p hp => ?_, hids⟩, hnew⟩
  rw [hhandles] at hp
  rcases mem_setAssoc hp with rfl | hp
  · exact .inr hnew
  · exact .inl hp

theorem replaceNode_sound (id : Nat) (old x : StoredNode) : Sound (replaceNode id old x) := by
  intro t a t' ht h
  cases h
  have hids := keys_subset_setAssoc id x t.graph.nodes
  exact ⟨Graph.Refs.of_subset ht hids (fun p hp => .inl hp) (fun p hp => .inl hp), hids⟩

theorem bind_sound {h : Handle} {id : Nat} {t : Txn} {a : Unit} {t' : Txn} (ht : t.graph.Refs)
    (hid : id ∈ t.graph.nodeIds) (hrun : (bind h id).run t = .ok a t') : Kept t t' := by
  cases hrun
  refine ⟨Graph.Refs.of_subset ht (List.Subset.refl _) (fun p hp => .inl hp) fun p hp => ?_,
    List.Subset.refl _⟩
  rcases mem_setAssoc hp with rfl | hp
  · exact .inr hid
  · exact .inl hp

theorem mergeNode_sound (n : Node) : SoundNode (mergeNode n) := by
  intro t a t' ht h
  unfold mergeNode at h
  split at h
  · exact insertNode_sound n t a t' ht h
  · rw [run_bind_ok (rfl : graph.run t = .ok t.graph t)] at h
    split at h
    · exact insertNode_sound n t a t' ht h
    · rename_i id old hfind
      -- the one node found is stored, so the handle is bound to a stored node
      have hid : id ∈ t.graph.nodeIds := by
        have hf : (id, old) ∈ t.graph.find [n.mergeLabel.getD ""] _ := hfind ▸ List.mem_singleton_self _
        exact List.mem_map_of_mem (f := Prod.fst) (List.mem_filter.mp hf).1
      obtain ⟨u, t₁, hrep, h⟩ := run_ok_bind h
      obtain ⟨u', t₂, hbind, hret⟩ := run_ok_bind h
      obtain ⟨rfl, rfl⟩ := EStateM.Result.ok.inj hret
      have k₁ := replaceNode_sound id old _ t u t₁ ht hrep
      have k₂ := bind_sound k₁.1 (k₁.2 hid) hbind
      exact ⟨k₁.trans k₂, k₂.2 (k₁.2 hid)⟩
    · cases h

/-- A relationship endpoint resolves to a stored node: its own identity, checked to exist, the
node its handle is bound to, or a node written for it. -/
theorem resolve_sound (n : Node) : SoundNode (resolve n) := by
  intro t a t' ht h
  unfold resolve at h
  rw [run_bind_ok (rfl : graph.run t = .ok t.graph t)] at h
  split at h
  · split at h
    · cases h
      exact ⟨⟨ht, List.Subset.refl _⟩, Graph.mem_nodeIds_of_lookup ‹_›⟩
    · cases h
  · split at h
    · rename_i id hbound
      cases h
      exact ⟨⟨ht, List.Subset.refl _⟩, ht.handles _ (mem_of_lookup hbound)⟩
    · split at h
      · exact mergeNode_sound n t a t' ht h
      · exact insertNode_sound n t a t' ht h

/-- A write of one relationship between stored nodes keeps the references sound and every
node. -/
def SoundRel (put : Relationship → Nat → Nat → Write Nat) : Prop :=
  ∀ r s d t a t', t.graph.Refs → s ∈ t.graph.nodeIds → d ∈ t.graph.nodeIds →
    (put r s d).run t = .ok a t' → Kept t t'

theorem insertRel_sound : SoundRel insertRel := by
  intro r s d t a t' ht hs hd h
  cases h
  refine ⟨Graph.Refs.of_subset ht (List.Subset.refl _) (fun p hp => ?_) (fun p hp => .inl hp),
    List.Subset.refl _⟩
  rcases List.mem_append.mp hp with hp | hp
  · exact .inl hp
  · rw [List.mem_singleton.mp hp]
    exact .inr ⟨hs, hd⟩

theorem mergeRel_sound : SoundRel mergeRel := by
  intro r s d t a t' ht hs hd h
  unfold mergeRel at h
  split at h
  · exact insertRel_sound r s d t a t' ht hs hd h
  · rw [run_bind_ok (rfl : graph.run t = .ok t.graph t)] at h
    dsimp only at h
    split at h
    · exact insertRel_sound r s d t a t' ht hs hd h
    · rename_i id old hhits
      obtain ⟨u, t₁, hrep, hret⟩ := run_ok_bind h
      obtain ⟨rfl, rfl⟩ := EStateM.Result.ok.inj hret
      cases hrep
      -- the relationship merged into keeps its endpoints, which are stored
      have hold : (id, old) ∈ t.graph.rels := by
        have hf : (id, old) ∈ [(id, old)] := List.mem_singleton_self _
        rw [← hhits] at hf
        exact (List.mem_filter.mp hf).1
      refine ⟨Graph.Refs.of_subset ht (List.Subset.refl _) (fun p hp => ?_) (fun p hp => .inl hp),
        List.Subset.refl _⟩
      rcases mem_setAssoc hp with rfl | hp
      · exact .inr (ht.rels (id, old) hold)
      · exact .inl hp
    · cases h

theorem writeRels_sound {put : Relationship → Nat → Nat → Write Nat} (hput : SoundRel put)
    (rels : List Relationship) (a : Assigned) : Sound (writeRels put rels a) := by
  unfold writeRels
  apply sound_foldlM
  rintro ⟨r, i⟩ - b
  intro t c t' ht h
  dsimp only at h
  split at h
  · cases h
    exact ⟨ht, List.Subset.refl _⟩
  · obtain ⟨s, t₁, hs, h⟩ := run_ok_bind h
    obtain ⟨d, t₂, hd, h⟩ := run_ok_bind h
    obtain ⟨id, t₃, hput', hret⟩ := run_ok_bind h
    obtain ⟨rfl, rfl⟩ := EStateM.Result.ok.inj hret
    obtain ⟨k₁, hs₁⟩ := resolve_sound _ t s t₁ ht hs
    obtain ⟨k₂, hd₂⟩ := resolve_sound _ t₁ d t₂ k₁.1 hd
    exact k₁.trans (k₂.trans (hput r s d t₂ id t₃ k₂.1 (k₂.2 hs₁) hd₂ hput'))

theorem create_sound (f : Fragment) : Sound (create f) := by
  unfold create
  refine sound_bind (sound_foldlM _ fun n _ b => ?_) fun a => writeRels_sound insertRel_sound _ a
  intro t c t' ht h
  obtain ⟨id, t₁, hins, hret⟩ := run_ok_bind h
  obtain ⟨rfl, rfl⟩ := EStateM.Result.ok.inj hret
  exact (insertNode_sound n t id t₁ ht hins).1

theorem merge_sound (f : Fragment) : Sound (merge f) := by
  unfold merge
  refine sound_bind (sound_foldlM _ fun n _ b => ?_) fun a => writeRels_sound mergeRel_sound _ a
  intro t c t' ht h
  obtain ⟨id, t₁, hins, hret⟩ := run_ok_bind h
  obtain ⟨rfl, rfl⟩ := EStateM.Result.ok.inj hret
  exact (mergeNode_sound n t id t₁ ht hins).1

end Write

namespace Graph

variable {g g' : Graph} {f f' : Fragment} {e : StorageError}

theorem write_refs {w : Fragment → Write Write.Assigned} (hw : Write.Sound (w f)) (hg : g.Refs)
    (h : g.write w f = (g', .ok f')) : g'.Refs := by
  unfold write at h
  split at h
  · rename_i a t hrun
    obtain ⟨rfl, -⟩ := Prod.mk.inj h
    exact (hw _ a t hg hrun).1
  · cases (Prod.mk.inj h).2

theorem create_refs (hg : g.Refs) (h : g.create f = (g', .ok f')) : g'.Refs :=
  write_refs (Write.create_sound f) hg h

theorem merge_refs (hg : g.Refs) (h : g.merge f = (g', .ok f')) : g'.Refs :=
  write_refs (Write.merge_sound f) hg h

theorem RestoredBut.eq_of_unbound {hs : List Handle} (hr : g'.RestoredBut g hs) (hg : g.Sane)
    (hfree : ∀ h ∈ hs, g.handles.lookup h = none) : g' = g := by
  have hhandles : g'.handles = g.handles := by
    refine eq_of_keys_lookup hr.handleKeys (hr.handleKeys ▸ hg.handleKeys) fun h => ?_
    by_cases hh : h ∈ hs
    · -- a handle of the fragment was unbound before, and the rollback keeps the bound handles
      have hout : h ∉ g.handles.map Prod.fst := lookup_isNone_iff.mp (by simp [hfree h hh])
      rw [hfree h hh, ← Option.isNone_iff_eq_none, lookup_isNone_iff, hr.handleKeys]
      exact hout
    · exact hr.frame h hh
  cases g'
  cases g
  simp only [mk.injEq]
  exact ⟨hr.nodes, hr.rels, hhandles, hr.lastNode, hr.lastRel⟩

/-- A call that goes through, or a failed one whose fragment names no handle bound before it. -/
def Unrebound (g : Graph) (f : Fragment) (r : Except StorageError Fragment) : Prop :=
  (∃ f', r = .ok f') ∨ ∀ h ∈ f.handles, g.handles.lookup h = none

/-- The memory stores reached from the empty one by creates and merges, successful or failed,
where no failed call names a handle bound before it. -/
inductive Reached : Graph → Prop
  | empty : Reached Graph.empty
  | create {g : Graph} (f : Fragment) : Reached g → g.Unrebound f (g.create f).2 → Reached (g.create f).1
  | merge {g : Graph} (f : Fragment) : Reached g → g.Unrebound f (g.merge f).2 → Reached (g.merge f).1

theorem Reached.sane (h : g.Reached) : g.Sane := by
  induction h with
  | empty => exact sane_empty
  | create f _ _ ih => exact create_sane ih f
  | merge f _ _ ih => exact merge_sane ih f

theorem refs_of_call {g : Graph} (hg : g.Refs) (hs : g.Sane) {f : Fragment}
    {call : Graph → Fragment → Graph × Except StorageError Fragment}
    (hok : ∀ {g' f'}, call g f = (g', .ok f') → g'.Refs)
    (hfail : ∀ {g' e}, call g f = (g', .error e) → g'.RestoredBut g f.handles)
    (hu : g.Unrebound f (call g f).2) : (call g f).1.Refs := by
  rcases hc : call g f with ⟨g', r⟩
  cases r with
  | ok f' => exact hok hc
  | error e =>
    rw [hc] at hu
    rcases hu with ⟨_, hu⟩ | hu
    · cases hu
    · rw [(hfail hc).eq_of_unbound hs hu]
      exact hg

theorem Reached.refs (h : g.Reached) : g.Refs := by
  induction h with
  | empty => exact refs_empty
  | create f hr hu ih =>
    exact refs_of_call ih hr.sane (fun h => create_refs ih h) (fun h => create_restores hr.sane h) hu
  | merge f hr hu ih =>
    exact refs_of_call ih hr.sane (fun h => merge_refs ih h) (fun h => merge_restores hr.sane h) hu

/-- **Referential integrity of a memory store.** Along every sequence of creates and merges from
the empty store in which no failed call names a handle bound before it, every relationship's
endpoints and every handle's node are stored nodes, and a call that then fails without naming a
bound handle leaves the store as it was. -/
theorem Reached.integrity (h : g.Reached) :
    g.Refs ∧ ∀ f g' e, (g.create f = (g', .error e) ∨ g.merge f = (g', .error e)) →
      (∀ h ∈ f.handles, g.handles.lookup h = none) → g' = g := by
  refine ⟨h.refs, fun f g' e hfail hfree => ?_⟩
  rcases hfail with hc | hc
  · exact (create_restores h.sane hc).eq_of_unbound h.sane hfree
  · exact (merge_restores h.sane hc).eq_of_unbound h.sane hfree

/-- A node is created under handle 1; a create naming only the unbound handle 9 then fails on a
relationship to a missing node and leaves the store as it was. -/
theorem Reached.failed_unbound_create_leaves_store :
    let f₁ : Fragment := { nodes := [{ handle := ⟨1⟩, labels := ["P"] }] }
    let f₂ : Fragment :=
      { rels := [{ relType := "T", source := { handle := ⟨9⟩, identity := some 99 },
                   target := { handle := ⟨9⟩, identity := some 99 } }] }
    let g := (Graph.empty.create f₁).1
    g.Reached ∧ g.Refs ∧ (g.create f₂).1 = g := by
  intro f₁ f₂ g
  have hg : g.Reached := .create f₁ .empty (.inl ⟨_, rfl⟩)
  have hfail : g.create f₂ = ((g.create f₂).1, .error (.missingEndpoint "() (identity 99)")) := rfl
  have hfree : ∀ h ∈ f₂.handles, g.handles.lookup h = none := by decide
  exact ⟨hg, hg.integrity.1, hg.integrity.2 f₂ _ _ (.inl hfail) hfree⟩

end Graph

end GraphIngest
