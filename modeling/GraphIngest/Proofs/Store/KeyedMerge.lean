import GraphIngest.Proofs.Rules.NodeEndpoint
import GraphIngest.Proofs.Store.Integrity

/-! # Keyed nodes

A schema names, for every label, the property its nodes are keyed on. A node fits it when its one
label is its merge label, keyed on that label's property, with a key value equal to itself
(`Node.Fits`); its entry is its merge label with its key value (`Node.entry`). A write of
relationships between committed nodes leaves the stored nodes as they were
(`Write.writeRels_keepsNodes`).
-/

namespace GraphIngest

/-! ## Key entries and their classes

An entry is a label with a key value; two entries are equal when the labels are the same and the
values equal. -/

section Entries

variable {a b c : String × Value}

theorem entry_beq_iff : (a == b) = true ↔ a.1 = b.1 ∧ a.2.beq b.2 = true := by
  change (a.1 == b.1 && a.2.beq b.2) = true ↔ _
  simp only [Bool.and_eq_true, beq_iff_eq]

end Entries

/-! ## Keyed nodes and stores -/

/-- The value a property map holds under a key, a missing property read as null. -/
def Props.keyValue (ps : Props) (k : String) : Value := (ps.get? k).getD .null

/-- A node's merge label and key value, `key` naming each label's key property. -/
def Node.entry (key : String → String) (n : Node) : String × Value :=
  (n.mergeLabel.getD "", n.properties.keyValue (key (n.mergeLabel.getD "")))

/-- A node as a keyed schema has it: its one label is its merge label, it is keyed on that
label's property, its key value equals itself, and its properties name each key once. -/
structure Node.Fits (key : String → String) (n : Node) : Prop where
  labels : n.labels = [n.mergeLabel.getD ""]
  primaryKey : n.primaryKey = some (key (n.mergeLabel.getD ""))
  keySelf : (n.entry key == n.entry key) = true
  keysNodup : (n.properties.entries.map Prod.fst).Nodup

/-- The nodes of a fragment that a write stores: those no store has committed. -/
def Fragment.fresh (f : Fragment) : List Node := f.nodes.filter (!·.isCommitted)

/-- A relationship whose write stores no node: it is committed, or it joins committed nodes. -/
def Relationship.OnCommitted (r : Relationship) : Prop :=
  r.identity.isSome = true ∨ (r.source.isCommitted = true ∧ r.target.isCommitted = true)

theorem propertyMatches_eq_keyValue (ps : Props) (k : String) (v : Value) :
    propertyMatches ps k v = (ps.keyValue k).beq v := by
  unfold propertyMatches Props.keyValue
  cases ps.get? k with
  | some a => rfl
  | none => cases v <;> rfl

theorem Node.Fits.mergeKey {key : String → String} {n : Node} (hn : n.Fits key) :
    n.mergeKey = some (key (n.mergeLabel.getD ""), (n.entry key).2) := by
  simp [Node.mergeKey, hn.primaryKey, Node.get?, Node.entry, Props.keyValue]

theorem setAssoc_eq_map {α β : Type} [BEq α] [LawfulBEq α] {k : α} {v old : β} :
    ∀ {l : List (α × β)}, (l.map Prod.fst).Nodup → (k, old) ∈ l →
      setAssoc k v l = l.map fun p => if p.1 == k then (k, v) else p
  | [], _, h => absurd h List.not_mem_nil
  | (k', v') :: rest, hn, h => by
    obtain ⟨hk', hrest⟩ := List.nodup_cons.mp hn
    unfold setAssoc
    by_cases hkk : k' = k
    · -- the replaced entry is the head, and no entry behind it has its key
      subst hkk
      have hmap : (rest.map fun p => if p.1 == k' then (k', v) else p) = rest := by
        refine (List.map_congr_left fun p hp => ?_).trans (List.map_id _)
        have hne : p.1 ≠ k' := fun he => hk' (List.mem_map.mpr ⟨p, hp, he⟩)
        simp [hne]
      rw [if_pos (beq_self_eq_true k'), List.map_cons, if_pos (beq_self_eq_true k'), hmap]
    · have hm : (k, old) ∈ rest := by
        rcases List.mem_cons.mp h with he | hm
        · exact absurd (Prod.mk.inj he).1.symm hkk
        · exact hm
      have hb : (k' == k) = false := by simpa using hkk
      simp only [hb, Bool.false_eq_true, if_false, List.map_cons, setAssoc_eq_map hrest hm]

/-! ## A merge of fitting nodes -/

theorem labelSet_pair (L : String) : labelSet [L, L] = [L] := by
  unfold labelSet
  simp only [List.foldl_cons, List.foldl_nil, sortedInsert]
  rw [if_neg (String.lt_irrefl L), if_pos trivial]

namespace Write

variable {key : String → String}

/-! ## Relationships between committed nodes -/

/-- A write that goes through leaves the stored nodes as they were. -/
def KeepsNodes (x : Write α) : Prop := ∀ t a t', x.run t = .ok a t' → t'.graph.nodes = t.graph.nodes

theorem keepsNodes_pure (a : α) : KeepsNodes (pure a : Write α) := by
  intro t b t' h
  obtain ⟨-, rfl⟩ := EStateM.Result.ok.inj h
  rfl

theorem keepsNodes_bind {x : Write α} {f : α → Write β} (hx : KeepsNodes x) (hf : ∀ a, KeepsNodes (f a)) :
    KeepsNodes (x >>= f) := by
  intro t b t'' h
  obtain ⟨a, t', h₁, h₂⟩ := run_ok_bind h
  exact (hf a t' b t'' h₂).trans (hx t a t' h₁)

theorem keepsNodes_foldlM {γ : Type} {f : γ → α → Write γ} :
    ∀ {l : List α} (a : γ), (∀ x ∈ l, ∀ b, KeepsNodes (f b x)) → KeepsNodes (l.foldlM f a)
  | [], a, _ => keepsNodes_pure a
  | x :: rest, a, h => by
    rw [List.foldlM_cons]
    exact keepsNodes_bind (h x List.mem_cons_self a) fun b =>
      keepsNodes_foldlM b fun y hy c => h y (List.mem_cons_of_mem _ hy) c

theorem insertRel_keepsNodes (r : Relationship) (s d : Nat) : KeepsNodes (insertRel r s d) := by
  intro t a t' h
  cases h
  rfl

theorem mergeRel_keepsNodes (r : Relationship) (s d : Nat) : KeepsNodes (mergeRel r s d) := by
  intro t a t' h
  unfold mergeRel at h
  split at h
  · exact insertRel_keepsNodes r s d t a t' h
  · rw [run_bind_ok (rfl : graph.run t = .ok t.graph t)] at h
    dsimp only at h
    split at h
    · exact insertRel_keepsNodes r s d t a t' h
    · obtain ⟨u, t₁, hrep, hret⟩ := run_ok_bind h
      obtain ⟨rfl, rfl⟩ := EStateM.Result.ok.inj hret
      cases hrep
      rfl
    · cases h

theorem resolve_keepsNodes {n : Node} (hn : n.isCommitted = true) : KeepsNodes (resolve n) := by
  intro t a t' h
  obtain ⟨id, hid⟩ := Option.isSome_iff_exists.mp hn
  unfold resolve at h
  rw [run_bind_ok (rfl : graph.run t = .ok t.graph t)] at h
  simp only [hid] at h
  split at h
  · cases h
    rfl
  · cases h

theorem writeRels_keepsNodes {put : Relationship → Nat → Nat → Write Nat}
    (hput : ∀ r s d, KeepsNodes (put r s d)) {rels : List Relationship} (hr : ∀ r ∈ rels, r.OnCommitted)
    (a : Assigned) : KeepsNodes (writeRels put rels a) := by
  unfold writeRels
  apply keepsNodes_foldlM
  rintro ⟨r, i⟩ hx b
  dsimp only
  split
  · exact keepsNodes_pure _
  · rename_i hid
    have hends := (hr r (List.fst_mem_of_mem_zipIdx hx)).resolve_left hid
    exact keepsNodes_bind (resolve_keepsNodes hends.1) fun _ =>
      keepsNodes_bind (resolve_keepsNodes hends.2) fun _ =>
        keepsNodes_bind (hput _ _ _) fun _ => keepsNodes_pure _

end Write

end GraphIngest
