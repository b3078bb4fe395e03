import GraphIngest.Store.Graph

/-! # Undoing a failed write through its log

A memory store undoes a failed write through its log: changed entries are put back, latest first,
then the entries written as new are dropped, first bindings of handles removed, and the identity
counters reset. The log is faithful by one invariant of a write under way (`Tracks`): undoing it
now gives back the nodes and relationships the write started from, and no handle outside those the
write may touch has changed. Every step keeps it, so every write does (`create_keeps`,
`merge_keeps`), and rolling back restores the store but for the handles the fragment names
(`Write.Tracks.rollback`). -/

namespace GraphIngest

section Assoc
variable {α β : Type} [BEq α] [LawfulBEq α]

theorem setAssoc_keys_of_mem {k : α} {v : β} :
    ∀ {l : List (α × β)}, k ∈ l.map Prod.fst → (setAssoc k v l).map Prod.fst = l.map Prod.fst
  | [], h => by simp at h
  | (k', v') :: rest, h => by
    by_cases hk : k' = k
    · subst hk; simp [setAssoc]
    · have hr : k ∈ rest.map Prod.fst := by
        simp only [List.map_cons, List.mem_cons] at h
        rcases h with h | h
        · exact absurd h.symm hk
        · exact h
      simp [setAssoc, hk, setAssoc_keys_of_mem hr]

theorem setAssoc_of_not_mem {k : α} {v : β} :
    ∀ {l : List (α × β)}, k ∉ l.map Prod.fst → setAssoc k v l = l ++ [(k, v)]
  | [], _ => rfl
  | (k', v') :: rest, h => by
    have hk : k' ≠ k := fun he => h (by simp [he])
    have hr : k ∉ rest.map Prod.fst := fun hm => h (List.mem_cons_of_mem _ hm)
    simp [setAssoc, hk, setAssoc_of_not_mem hr]

theorem setAssoc_setAssoc (k : α) (a b : β) :
    ∀ l : List (α × β), setAssoc k a (setAssoc k b l) = setAssoc k a l
  | [] => by simp [setAssoc]
  | (k', v') :: rest => by
    by_cases hk : k' = k
    · subst hk; simp [setAssoc]
    · simp [setAssoc, hk, setAssoc_setAssoc k a b rest]

theorem lookup_cons_ne {k k' : α} {v : β} (l : List (α × β)) (h : k ≠ k') :
    ((k', v) :: l).lookup k = l.lookup k := by
  have hb : (k == k') = false := by simpa using h
  simp [List.lookup_cons, hb]

theorem setAssoc_of_lookup {k : α} {v : β} :
    ∀ {l : List (α × β)}, l.lookup k = some v → setAssoc k v l = l
  | [], h => by simp at h
  | (k', v') :: rest, h => by
    by_cases hk : k' = k
    · subst hk
      simp only [List.lookup_cons_self, Option.some.injEq] at h
      subst h; simp [setAssoc]
    · rw [lookup_cons_ne rest (Ne.symm hk)] at h
      simp [setAssoc, hk, setAssoc_of_lookup h]

theorem setAssoc_append_of_mem {k : α} {v : β} (m : List (α × β)) :
    ∀ {l : List (α × β)}, k ∈ l.map Prod.fst → setAssoc k v (l ++ m) = setAssoc k v l ++ m
  | [], h => by simp at h
  | (k', v') :: rest, h => by
    by_cases hk : k' = k
    · subst hk; simp [setAssoc]
    · have hr : k ∈ rest.map Prod.fst := by
        simp only [List.map_cons, List.mem_cons] at h
        rcases h with h | h
        · exact absurd h.symm hk
        · exact h
      simp [setAssoc, hk, setAssoc_append_of_mem m hr]

@[simp] theorem lookup_setAssoc_self (k : α) (v : β) :
    ∀ l : List (α × β), (setAssoc k v l).lookup k = some v
  | [] => by simp [setAssoc]
  | (k', v') :: rest => by
    by_cases hk : k' = k
    · subst hk; simp [setAssoc]
    · simp [setAssoc, hk, lookup_cons_ne _ (Ne.symm hk), lookup_setAssoc_self k v rest]

theorem lookup_setAssoc_ne {k k' : α} (v : β) (h : k' ≠ k) :
    ∀ l : List (α × β), (setAssoc k v l).lookup k' = l.lookup k'
  | [] => by simp [setAssoc, lookup_cons_ne _ h]
  | (k'', v') :: rest => by
    by_cases hk : k'' = k
    · subst hk; simp [setAssoc, lookup_cons_ne _ h]
    · simp only [setAssoc, hk, beq_iff_eq, if_false]
      by_cases h' : k' = k''
      · subst h'; simp
      · rw [lookup_cons_ne _ h', lookup_cons_ne _ h', lookup_setAssoc_ne v h rest]

theorem setAssoc_nodup {k : α} {v : β} {l : List (α × β)} (h : (l.map Prod.fst).Nodup) :
    ((setAssoc k v l).map Prod.fst).Nodup := by
  by_cases hk : k ∈ l.map Prod.fst
  · rwa [setAssoc_keys_of_mem hk]
  · rw [setAssoc_of_not_mem hk, List.map_append, List.nodup_append]
    refine ⟨h, by simp, ?_⟩
    intro a ha b hb he
    simp only [List.map_cons, List.map_nil, List.mem_singleton] at hb
    exact hk (hb ▸ he ▸ ha)

theorem lookup_of_mem_nodup {k : α} {v : β} :
    ∀ {l : List (α × β)}, (l.map Prod.fst).Nodup → (k, v) ∈ l → l.lookup k = some v
  | [], _, h => by simp at h
  | (k', v') :: rest, hn, h => by
    simp only [List.map_cons, List.nodup_cons] at hn
    rcases List.mem_cons.mp h with he | hm
    · cases he; simp
    · have hk : k ≠ k' := fun he => hn.1 (he ▸ List.mem_map_of_mem (f := Prod.fst) hm)
      rw [lookup_cons_ne _ hk, lookup_of_mem_nodup hn.2 hm]

omit [LawfulBEq α] in
theorem restore_append_change (ch : List (α × β)) (k : α) (v : β) (l : List (α × β)) :
    restore (ch ++ [(k, v)]) l = restore ch (setAssoc k v l) := by
  simp [restore, List.foldr_append]

theorem restore_keys {ch l : List (α × β)} (h : ∀ p ∈ ch, p.1 ∈ l.map Prod.fst) :
    (restore ch l).map Prod.fst = l.map Prod.fst := by
  induction ch with
  | nil => rfl
  | cons c rest ih =>
    have hr := ih fun p hp => h p (List.mem_cons_of_mem _ hp)
    have hc : c.1 ∈ (restore rest l).map Prod.fst := hr ▸ h c List.mem_cons_self
    change (setAssoc c.1 c.2 (restore rest l)).map Prod.fst = _
    rw [setAssoc_keys_of_mem hc, hr]

theorem restore_append_right {ch l : List (α × β)} (m : List (α × β))
    (h : ∀ p ∈ ch, p.1 ∈ l.map Prod.fst) : restore ch (l ++ m) = restore ch l ++ m := by
  induction ch with
  | nil => rfl
  | cons c rest ih =>
    have hr := ih fun p hp => h p (List.mem_cons_of_mem _ hp)
    have hc : c.1 ∈ (restore rest l).map Prod.fst := by
      rw [restore_keys fun p hp => h p (List.mem_cons_of_mem _ hp)]
      exact h c List.mem_cons_self
    change setAssoc c.1 c.2 (restore rest (l ++ m)) = setAssoc c.1 c.2 (restore rest l) ++ m
    rw [hr, setAssoc_append_of_mem m hc]

@[simp] theorem dropKeys_nil (l : List (α × β)) : dropKeys [] l = l := by
  simp [dropKeys]

theorem dropKeys_keys (ks : List α) (l : List (α × β)) :
    (dropKeys ks l).map Prod.fst = (l.map Prod.fst).filter fun k => !ks.contains k := by
  simp [dropKeys, List.filter_map, Function.comp_def]

theorem lookup_dropKeys_of_mem {ks : List α} {k : α} (hk : k ∈ ks) :
    ∀ l : List (α × β), (dropKeys ks l).lookup k = none
  | [] => by simp [dropKeys]
  | (k', v') :: rest => by
    have ih := lookup_dropKeys_of_mem hk rest
    simp only [dropKeys] at ih ⊢
    by_cases hk' : k' ∈ ks
    · rwa [List.filter_cons_of_neg (by simpa using hk')]
    · rw [List.filter_cons_of_pos (by simpa using hk'), lookup_cons_ne _ (fun he : k = k' => hk' (he ▸ hk)), ih]

theorem lookup_dropKeys_of_not_mem {ks : List α} {k : α} (hk : k ∉ ks) :
    ∀ l : List (α × β), (dropKeys ks l).lookup k = l.lookup k
  | [] => by simp [dropKeys]
  | (k', v') :: rest => by
    have ih := lookup_dropKeys_of_not_mem hk rest
    simp only [dropKeys] at ih ⊢
    by_cases hk' : k' ∈ ks
    · have hne : k ≠ k' := fun he => hk (he ▸ hk')
      rw [List.filter_cons_of_neg (by simpa using hk'), ih, lookup_cons_ne _ hne]
    · rw [List.filter_cons_of_pos (by simpa using hk')]
      by_cases h : k = k'
      · subst h; simp
      · rw [lookup_cons_ne _ h, lookup_cons_ne _ h, ih]

omit [LawfulBEq α] in
theorem dropKeys_append (ks : List α) (l m : List (α × β)) :
    dropKeys ks (l ++ m) = dropKeys ks l ++ dropKeys ks m := List.filter_append _ _

theorem dropKeys_snoc {ks : List α} {l : List (α × β)} {k : α} (x : β)
    (hk : k ∉ l.map Prod.fst) : dropKeys (ks ++ [k]) (l ++ [(k, x)]) = dropKeys ks l := by
  have hl : dropKeys (ks ++ [k]) l = dropKeys ks l := List.filter_congr fun p hp => by
    have : p.1 ≠ k := fun he => hk (he ▸ List.mem_map_of_mem hp)
    simp [this]
  have hx : dropKeys (ks ++ [k]) [(k, x)] = [] := by simp [dropKeys]
  rw [dropKeys_append, hl, hx, List.append_nil]

theorem lookup_isNone_iff {k : α} {l : List (α × β)} : (l.lookup k).isNone ↔ k ∉ l.map Prod.fst := by
  rw [Option.isNone_iff_eq_none, List.lookup_eq_none_iff]
  constructor
  · intro h hm
    obtain ⟨p, hp, he⟩ := List.mem_map.mp hm
    simpa [he] using h p hp
  · intro h p hp
    have : k ≠ p.1 := fun he => h (he ▸ List.mem_map_of_mem hp)
    simpa using this

theorem filter_not_mem_append {K J : List α} (h : (K ++ J).Nodup) :
    (K ++ J).filter (fun k => !J.contains k) = K := by
  rw [List.filter_append]
  have hJ : J.filter (fun k => !J.contains k) = [] := List.filter_eq_nil_iff.mpr (by simp)
  have hK : K.filter (fun k => !J.contains k) = K := List.filter_eq_self.mpr fun a ha => by
    have hd := (List.nodup_append.mp h).2.2 a ha
    simpa using fun hj => hd a hj rfl
  rw [hJ, hK, List.append_nil]

end Assoc

namespace Graph

/-- A store whose node and relationship identities are distinct and none above the last one handed
out, and whose handles are bound once each. -/
structure Sane (g : Graph) : Prop where
  nodeKeys : (g.nodes.map Prod.fst).Nodup
  nodesBelow : ∀ p ∈ g.nodes, p.1 ≤ g.lastNode
  relKeys : (g.rels.map Prod.fst).Nodup
  relsBelow : ∀ p ∈ g.rels, p.1 ≤ g.lastRel
  handleKeys : (g.handles.map Prod.fst).Nodup

theorem sane_empty : Graph.empty.Sane :=
  ⟨by simp [empty], by simp [empty], by simp [empty], by simp [empty], by simp [empty]⟩

theorem Sane.fresh_node {g : Graph} (hg : g.Sane) : g.lastNode + 1 ∉ g.nodes.map Prod.fst := by
  intro hm
  obtain ⟨p, hp, he⟩ := List.mem_map.mp hm
  have := hg.nodesBelow p hp
  omega

theorem Sane.fresh_rel {g : Graph} (hg : g.Sane) : g.lastRel + 1 ∉ g.rels.map Prod.fst := by
  intro hm
  obtain ⟨p, hp, he⟩ := List.mem_map.mp hm
  have := hg.relsBelow p hp
  omega

end Graph

/-- The handles a fragment names: those of its nodes and of its relationships' endpoints. -/
def Fragment.handles (f : Fragment) : List Handle :=
  f.nodes.map (·.handle) ++ f.rels.flatMap fun r => [r.source.handle, r.target.handle]

namespace Write

/-- A write under way from the store `g` that binds only handles among `hs`: undoing its log now
gives back `g`'s nodes and relationships, every entry it changed still exists, the handles bound
are `g`'s followed by those the log lists, and a handle outside `hs` is bound as in `g`. -/
structure Tracks (g : Graph) (hs : List Handle) (t : Txn) : Prop where
  sane : t.graph.Sane
  lastNode : t.journal.lastNode = g.lastNode
  lastRel : t.journal.lastRel = g.lastRel
  replacedNodes : ∀ p ∈ t.journal.replacedNodes, p.1 ∈ t.graph.nodes.map Prod.fst
  replacedRels : ∀ p ∈ t.journal.replacedRels, p.1 ∈ t.graph.rels.map Prod.fst
  nodes : dropKeys t.journal.insertedNodes (restore t.journal.replacedNodes t.graph.nodes) = g.nodes
  rels : dropKeys t.journal.insertedRels (restore t.journal.replacedRels t.graph.rels) = g.rels
  handleKeys : t.graph.handles.map Prod.fst = g.handles.map Prod.fst ++ t.journal.handles
  frame : ∀ h, h ∉ hs → t.graph.handles.lookup h = g.handles.lookup h

theorem tracks_begin {g : Graph} (hs : List Handle) (hg : g.Sane) :
    Tracks g hs { graph := g, journal := Journal.begin g } where
  sane := hg
  lastNode := rfl
  lastRel := rfl
  replacedNodes := by simp [Journal.begin]
  replacedRels := by simp [Journal.begin]
  nodes := by simp [Journal.begin, restore]
  rels := by simp [Journal.begin, restore]
  handleKeys := by simp [Journal.begin]
  frame _ _ := rfl

section Steps
variable {g : Graph} {hs : List Handle} {t : Txn}

theorem Tracks.insertNode (ht : Tracks g hs t) (x : StoredNode) :
    Tracks g hs { graph := { t.graph with lastNode := t.graph.lastNode + 1,
                                          nodes := t.graph.nodes ++ [(t.graph.lastNode + 1, x)] },
                  journal := { t.journal with insertedNodes := t.journal.insertedNodes ++ [t.graph.lastNode + 1] } } := by
  have hfresh := ht.sane.fresh_node
  refine { ht with sane := ?_, replacedNodes := ?_, nodes := ?_ }
  · refine { ht.sane with nodeKeys := ?_, nodesBelow := ?_ }
    · rw [List.map_append, List.nodup_append]
      refine ⟨ht.sane.nodeKeys, by simp, ?_⟩
      intro a ha b hb he
      simp only [List.map_cons, List.map_nil, List.mem_singleton] at hb
      exact hfresh (hb ▸ he ▸ ha)
    · intro p hp
      rcases List.mem_append.mp hp with hp | hp
      · have := ht.sane.nodesBelow p hp
        simp only
        omega
      · simp at hp; simp [hp]
  · intro p hp
    simp only [List.map_append, List.mem_append]
    exact .inl (ht.replacedNodes p hp)
  · simp only
    rw [restore_append_right _ ht.replacedNodes, dropKeys_snoc]
    · exact ht.nodes
    · rwa [restore_keys ht.replacedNodes]

theorem Tracks.replaceNode (ht : Tracks g hs t) {id : Nat} {old : StoredNode} (x : StoredNode)
    (hm : (id, old) ∈ t.graph.nodes) :
    Tracks g hs { graph := { t.graph with nodes := setAssoc id x t.graph.nodes },
                  journal := { t.journal with replacedNodes := t.journal.replacedNodes ++ [(id, old)] } } := by
  have hk : id ∈ t.graph.nodes.map Prod.fst := List.mem_map_of_mem (f := Prod.fst) hm
  have hkeys := setAssoc_keys_of_mem (v := x) hk
  refine { ht with sane := ?_, replacedNodes := ?_, nodes := ?_ }
  · refine { ht.sane with nodeKeys := by simpa only [hkeys] using ht.sane.nodeKeys, nodesBelow := ?_ }
    intro p hp
    have hp' : p.1 ∈ t.graph.nodes.map Prod.fst := hkeys ▸ List.mem_map_of_mem (f := Prod.fst) hp
    obtain ⟨q, hq, he⟩ := List.mem_map.mp hp'
    simpa only [← he] using ht.sane.nodesBelow q hq
  · intro p hp
    rw [hkeys]
    rcases List.mem_append.mp hp with hp | hp
    · exact ht.replacedNodes p hp
    · simp at hp; simp [hp, hk]
  · simp only
    rw [restore_append_change, setAssoc_setAssoc,
      setAssoc_of_lookup (lookup_of_mem_nodup ht.sane.nodeKeys hm)]
    exact ht.nodes

theorem Tracks.insertRel (ht : Tracks g hs t) (x : StoredRel) :
    Tracks g hs { graph := { t.graph with lastRel := t.graph.lastRel + 1,
                                          rels := t.graph.rels ++ [(t.graph.lastRel + 1, x)] },
                  journal := { t.journal with insertedRels := t.journal.insertedRels ++ [t.graph.lastRel + 1] } } := by
  have hfresh := ht.sane.fresh_rel
  refine { ht with sane := ?_, replacedRels := ?_, rels := ?_ }
  · refine { ht.sane with relKeys := ?_, relsBelow := ?_ }
    · rw [List.map_append, List.nodup_append]
      refine ⟨ht.sane.relKeys, by simp, ?_⟩
      intro a ha b hb he
      simp only [List.map_cons, List.map_nil, List.mem_singleton] at hb
      exact hfresh (hb ▸ he ▸ ha)
    · intro p hp
      rcases List.mem_append.mp hp with hp | hp
      · have := ht.sane.relsBelow p hp
        simp only
        omega
      · simp at hp; simp [hp]
  · intro p hp
    simp only [List.map_append, List.mem_append]
    exact .inl (ht.replacedRels p hp)
  · simp only
    rw [restore_append_right _ ht.replacedRels, dropKeys_snoc]
    · exact ht.rels
    · rwa [restore_keys ht.replacedRels]

theorem Tracks.replaceRel (ht : Tracks g hs t) {id : Nat} {old : StoredRel} (x : StoredRel)
    (hm : (id, old) ∈ t.graph.rels) :
    Tracks g hs { graph := { t.graph with rels := setAssoc id x t.graph.rels },
                  journal := { t.journal with replacedRels := t.journal.replacedRels ++ [(id, old)] } } := by
  have hk : id ∈ t.graph.rels.map Prod.fst := List.mem_map_of_mem (f := Prod.fst) hm
  have hkeys := setAssoc_keys_of_mem (v := x) hk
  refine { ht with sane := ?_, replacedRels := ?_, rels := ?_ }
  · refine { ht.sane with relKeys := by simpa only [hkeys] using ht.sane.relKeys, relsBelow := ?_ }
    intro p hp
    have hp' : p.1 ∈ t.graph.rels.map Prod.fst := hkeys ▸ List.mem_map_of_mem (f := Prod.fst) hp
    obtain ⟨q, hq, he⟩ := List.mem_map.mp hp'
    simpa only [← he] using ht.sane.relsBelow q hq
  · intro p hp
    rw [hkeys]
    rcases List.mem_append.mp hp with hp | hp
    · exact ht.replacedRels p hp
    · simp at hp; simp [hp, hk]
  · simp only
    rw [restore_append_change, setAssoc_setAssoc,
      setAssoc_of_lookup (lookup_of_mem_nodup ht.sane.relKeys hm)]
    exact ht.rels

theorem Tracks.bind (ht : Tracks g hs t) {h : Handle} (hh : h ∈ hs) (id : Nat) :
    Tracks g hs { graph := { t.graph with handles := setAssoc h id t.graph.handles },
                  journal := if (t.graph.handles.lookup h).isNone then
                      { t.journal with handles := t.journal.handles ++ [h] } else t.journal } := by
  have hframe : ∀ h', h' ∉ hs → (setAssoc h id t.graph.handles).lookup h' = g.handles.lookup h' :=
    fun h' hn => by rw [lookup_setAssoc_ne _ (fun he : h' = h => hn (he ▸ hh))]; exact ht.frame h' hn
  have hnodup := setAssoc_nodup (k := h) (v := id) ht.sane.handleKeys
  by_cases hb : (t.graph.handles.lookup h).isNone
  · have hnot := lookup_isNone_iff.mp hb
    rw [if_pos hb]
    refine { ht with sane := { ht.sane with handleKeys := hnodup }, handleKeys := ?_, frame := hframe }
    simp only
    rw [setAssoc_of_not_mem hnot, List.map_append, ht.handleKeys]
    simp
  · have hmem : h ∈ t.graph.handles.map Prod.fst := Classical.byContradiction fun hn =>
      hb (lookup_isNone_iff.mpr hn)
    rw [if_neg hb]
    refine { ht with sane := { ht.sane with handleKeys := hnodup }, handleKeys := ?_, frame := hframe }
    simp only
    rw [setAssoc_keys_of_mem hmem, ht.handleKeys]

end Steps

/-! ## Writes keep the invariant -/

/-- The state a write ends in, normally or with a fault. -/
def endState : EStateM.Result StorageError Txn α → Txn
  | .ok _ t => t
  | .error _ t => t

/-- A write keeps `P` when, started in a state where `P` holds, it ends in one where `P` holds,
normally or with a fault. -/
def Keeps (P : Txn → Prop) (x : Write α) : Prop := ∀ t, P t → P (endState (x.run t))

theorem run_bind_ok {x : Write α} {f : α → Write β} {t t' : Txn} {a : α}
    (h : x.run t = .ok a t') : (x >>= f).run t = (f a).run t' := by
  simp only [EStateM.run] at h ⊢
  show EStateM.bind x f t = _
  simp only [EStateM.bind, h]

theorem run_bind_error {x : Write α} {f : α → Write β} {t t' : Txn} {e : StorageError}
    (h : x.run t = .error e t') : (x >>= f).run t = .error e t' := by
  simp only [EStateM.run] at h ⊢
  show EStateM.bind x f t = _
  simp only [EStateM.bind, h]

section Keeps
variable {P : Txn → Prop}

theorem keeps_pure (a : α) : Keeps P (pure a) := fun _ h => h

theorem keeps_bind {x : Write α} {f : α → Write β} (hx : Keeps P x) (hf : ∀ a, Keeps P (f a)) :
    Keeps P (x >>= f) := by
  intro t ht
  have h := hx t ht
  cases hxt : x.run t with
  | ok a t' =>
    rw [hxt] at h
    rw [run_bind_ok hxt]
    exact hf a t' h
  | error e t' =>
    rw [hxt] at h
    rw [run_bind_error hxt]
    exact h

theorem keeps_modify {F : Txn → Txn} (hF : ∀ t, P t → P (F t)) : Keeps P (modify F : Write Unit) :=
  fun t ht => hF t ht

theorem keeps_graph_bind {f : Graph → Write α} (hf : ∀ t, P t → P (endState ((f t.graph).run t))) :
    Keeps P (graph >>= f) :=
  fun t ht => hf t ht

theorem keeps_foldlM {γ : Type} {f : γ → α → Write γ} :
    ∀ {l : List α} (a : γ), (∀ x ∈ l, ∀ b, Keeps P (f b x)) → Keeps P (l.foldlM f a)
  | [], _, _ => keeps_pure _
  | x :: rest, a, h => by
    rw [List.foldlM_cons]
    exact keeps_bind (h x List.mem_cons_self a) fun b =>
      keeps_foldlM b fun y hy c => h y (List.mem_cons_of_mem _ hy) c

end Keeps

/-! ## Each write keeps it -/

/-- A node written as new takes the identity after the last one and binds its handle there; the
relationships stay as they were. -/
theorem insertNode_run (n : Node) (t : Txn) :
    ∃ t', (insertNode n).run t = .ok (t.graph.lastNode + 1) t' ∧
      t'.graph.nodes = t.graph.nodes ++ [(t.graph.lastNode + 1, ⟨n.handle, n.labels, n.properties⟩)] ∧
      t'.graph.rels = t.graph.rels ∧
      t'.graph.handles = setAssoc n.handle (t.graph.lastNode + 1) t.graph.handles :=
  ⟨_, rfl, rfl, rfl, rfl⟩

section Writes
variable {g : Graph} {hs : List Handle}

theorem bind_keeps {h : Handle} (hh : h ∈ hs) (id : Nat) : Keeps (Tracks g hs) (bind h id) :=
  keeps_modify fun _ ht => ht.bind hh id

theorem insertNode_keeps {n : Node} (hn : n.handle ∈ hs) : Keeps (Tracks g hs) (insertNode n) := by
  intro t ht
  have hrun : (insertNode n).run t =
      ((bind n.handle (t.graph.lastNode + 1) >>= fun _ => pure (t.graph.lastNode + 1)) : Write Nat).run
        { graph := { t.graph with lastNode := t.graph.lastNode + 1,
                                  nodes := t.graph.nodes ++ [(t.graph.lastNode + 1,
                                    { handle := n.handle, labels := n.labels, props := n.properties })] },
          journal := { t.journal with insertedNodes := t.journal.insertedNodes ++ [t.graph.lastNode + 1] } } := rfl
  rw [hrun]
  exact keeps_bind (bind_keeps hn _) (fun _ => keeps_pure _) _ (ht.insertNode _)

theorem replaceNode_then {t : Txn} (ht : Tracks g hs t) {id : Nat} {old : StoredNode} (x : StoredNode)
    (hm : (id, old) ∈ t.graph.nodes) {k : Write α} (hk : Keeps (Tracks g hs) k) :
    Tracks g hs (endState ((replaceNode id old x >>= fun _ => k).run t)) := by
  rw [run_bind_ok (x := replaceNode id old x) rfl]
  exact hk _ (ht.replaceNode x hm)

theorem replaceRel_then {t : Txn} (ht : Tracks g hs t) {id : Nat} {old : StoredRel} (x : StoredRel)
    (hm : (id, old) ∈ t.graph.rels) {k : Write α} (hk : Keeps (Tracks g hs) k) :
    Tracks g hs (endState ((replaceRel id old x >>= fun _ => k).run t)) := by
  rw [run_bind_ok (x := replaceRel id old x) rfl]
  exact hk _ (ht.replaceRel x hm)

theorem mergeNode_keeps {n : Node} (hn : n.handle ∈ hs) : Keeps (Tracks g hs) (mergeNode n) := by
  unfold mergeNode
  split
  · exact insertNode_keeps hn
  · apply keeps_graph_bind
    intro t ht
    split
    · exact insertNode_keeps hn t ht
    · rename_i id old hfind
      have hm : (id, old) ∈ t.graph.nodes := by
        have hf : (id, old) ∈ [(id, old)] := List.mem_singleton_self _
        rw [← hfind] at hf
        unfold Graph.find at hf
        exact (List.mem_filter.mp hf).1
      exact replaceNode_then ht _ hm (keeps_bind (bind_keeps hn id) fun _ => keeps_pure id)
    · exact ht

theorem resolve_keeps {n : Node} (hn : n.handle ∈ hs) : Keeps (Tracks g hs) (resolve n) := by
  unfold resolve
  apply keeps_graph_bind
  intro t ht
  split
  · split
    · exact ht
    · exact ht
  · split
    · exact ht
    · split
      · exact mergeNode_keeps hn t ht
      · exact insertNode_keeps hn t ht

theorem insertRel_keeps (r : Relationship) (s d : Nat) : Keeps (Tracks g hs) (insertRel r s d) :=
  fun _ ht => ht.insertRel _

theorem mergeRel_keeps (r : Relationship) (s d : Nat) : Keeps (Tracks g hs) (mergeRel r s d) := by
  unfold mergeRel
  split
  · exact insertRel_keeps r s d
  · apply keeps_graph_bind
    intro t ht
    dsimp only
    split
    · exact insertRel_keeps r s d t ht
    · rename_i id old hhits
      have hm : (id, old) ∈ t.graph.rels := by
        have hf : (id, old) ∈ [(id, old)] := List.mem_singleton_self _
        rw [← hhits] at hf
        exact (List.mem_filter.mp hf).1
      exact replaceRel_then ht _ hm (keeps_pure id)
    · exact ht

theorem writeRels_keeps {put : Relationship → Nat → Nat → Write Nat} {rels : List Relationship}
    (hput : ∀ r s d, Keeps (Tracks g hs) (put r s d))
    (hr : ∀ r ∈ rels, r.source.handle ∈ hs ∧ r.target.handle ∈ hs) (a : Assigned) :
    Keeps (Tracks g hs) (writeRels put rels a) := by
  unfold writeRels
  apply keeps_foldlM
  rintro ⟨r, i⟩ hx b
  have hends := hr r (List.fst_mem_of_mem_zipIdx hx)
  dsimp only
  split
  · exact keeps_pure _
  · exact keeps_bind (resolve_keeps hends.1) fun _ =>
      keeps_bind (resolve_keeps hends.2) fun _ =>
        keeps_bind (hput _ _ _) fun _ => keeps_pure _

theorem Fragment.handles_of_node {f : Fragment} {n : Node} (h : n ∈ f.nodes) :
    n.handle ∈ f.handles :=
  List.mem_append_left _ (List.mem_map_of_mem h)

theorem Fragment.handles_of_rel {f : Fragment} {r : Relationship} (h : r ∈ f.rels) :
    r.source.handle ∈ f.handles ∧ r.target.handle ∈ f.handles := by
  constructor <;>
    exact List.mem_append_right _ (List.mem_flatMap.mpr ⟨r, h, by simp⟩)

theorem create_keeps (f : Fragment) : Keeps (Tracks g f.handles) (create f) := by
  unfold create
  refine keeps_bind (keeps_foldlM _ fun n hn b => ?_) fun a =>
    writeRels_keeps insertRel_keeps (fun r hr => Fragment.handles_of_rel hr) a
  exact keeps_bind (insertNode_keeps (Fragment.handles_of_node (List.mem_filter.mp hn).1))
    fun _ => keeps_pure _

theorem merge_keeps (f : Fragment) : Keeps (Tracks g f.handles) (merge f) := by
  unfold merge
  refine keeps_bind (keeps_foldlM _ fun n hn b => ?_) fun a =>
    writeRels_keeps mergeRel_keeps (fun r hr => Fragment.handles_of_rel hr) a
  exact keeps_bind (mergeNode_keeps (Fragment.handles_of_node (List.mem_filter.mp hn).1))
    fun _ => keeps_pure _

end Writes

end Write

/-! ## Rolling back -/

/-- `g'` holds `g`'s nodes, relationships and identity counters, binds the same handles, and binds
every handle outside `hs` as `g` does. -/
structure Graph.RestoredBut (g' g : Graph) (hs : List Handle) : Prop where
  nodes : g'.nodes = g.nodes
  rels : g'.rels = g.rels
  lastNode : g'.lastNode = g.lastNode
  lastRel : g'.lastRel = g.lastRel
  handleKeys : g'.handles.map Prod.fst = g.handles.map Prod.fst
  frame : ∀ h, h ∉ hs → g'.handles.lookup h = g.handles.lookup h

theorem Graph.RestoredBut.sane {g' g : Graph} {hs : List Handle} (hr : g'.RestoredBut g hs)
    (hg : g.Sane) : g'.Sane where
  nodeKeys := hr.nodes ▸ hg.nodeKeys
  nodesBelow := hr.nodes ▸ hr.lastNode ▸ hg.nodesBelow
  relKeys := hr.rels ▸ hg.relKeys
  relsBelow := hr.rels ▸ hr.lastRel ▸ hg.relsBelow
  handleKeys := hr.handleKeys ▸ hg.handleKeys

/-- **Rolling back a write under way restores its store**, but for handles among `hs` that were
bound before it and that it bound again. -/
theorem Write.Tracks.rollback {g : Graph} {hs : List Handle} {t : Txn} (ht : Write.Tracks g hs t) :
    (t.journal.rollback t.graph).RestoredBut g hs := by
  have hnodup : (g.handles.map Prod.fst ++ t.journal.handles).Nodup :=
    ht.handleKeys ▸ ht.sane.handleKeys
  refine ⟨ht.nodes, ht.rels, ht.lastNode, ht.lastRel, ?_, ?_⟩
  · change (dropKeys t.journal.handles t.graph.handles).map Prod.fst = _
    rw [dropKeys_keys, ht.handleKeys, filter_not_mem_append hnodup]
  · intro h hn
    change (dropKeys t.journal.handles t.graph.handles).lookup h = _
    by_cases hj : h ∈ t.journal.handles
    · rw [lookup_dropKeys_of_mem hj]
      have hout : h ∉ g.handles.map Prod.fst := fun hm =>
        (List.nodup_append.mp hnodup).2.2 h hm h hj rfl
      exact (Option.isNone_iff_eq_none.mp (lookup_isNone_iff.mpr hout)).symm
    · rw [lookup_dropKeys_of_not_mem hj]
      exact ht.frame h hn

namespace Graph

variable {g : Graph} {w : Fragment → Write Write.Assigned} {f : Fragment} {hs : List Handle}

theorem write_restores (hg : g.Sane) (hw : Write.Keeps (Write.Tracks g hs) (w f))
    {g' : Graph} {e : StorageError} (h : g.write w f = (g', .error e)) : g'.RestoredBut g hs := by
  have ht := hw _ (Write.tracks_begin hs hg)
  unfold write at h
  cases hrun : (w f).run { graph := g, journal := Journal.begin g } with
  | ok a t => simp [hrun] at h
  | error e' t =>
    rw [hrun] at h ht
    obtain ⟨rfl, -⟩ := Prod.mk.inj h
    exact ht.rollback

theorem write_sane (hg : g.Sane) (hw : Write.Keeps (Write.Tracks g hs) (w f)) : (g.write w f).1.Sane := by
  have ht := hw _ (Write.tracks_begin hs hg)
  unfold write
  cases hrun : (w f).run { graph := g, journal := Journal.begin g } with
  | ok a t => rw [hrun] at ht; exact ht.sane
  | error e t => rw [hrun] at ht; exact ht.rollback.sane hg

theorem create_restores (hg : g.Sane) {g' : Graph} {e : StorageError}
    (h : g.create f = (g', .error e)) : g'.RestoredBut g f.handles :=
  write_restores hg (Write.create_keeps f) h

theorem merge_restores (hg : g.Sane) {g' : Graph} {e : StorageError}
    (h : g.merge f = (g', .error e)) : g'.RestoredBut g f.handles :=
  write_restores hg (Write.merge_keeps f) h

theorem create_sane (hg : g.Sane) (f : Fragment) : (g.create f).1.Sane :=
  write_sane hg (Write.create_keeps f)

theorem merge_sane (hg : g.Sane) (f : Fragment) : (g.merge f).1.Sane :=
  write_sane hg (Write.merge_keeps f)

end Graph

end GraphIngest
