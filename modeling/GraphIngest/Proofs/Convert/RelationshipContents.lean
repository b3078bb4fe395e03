import GraphIngest.Proofs.Convert.Multiplicity

/-! # What a relationship phase leaves of each relationship

Read through their stored forms (`Edge`), a relationship phase whose types each have one kind
leaves every relationship it created and the first of each class it merged (`canonEdges`), as
long as the relationships of one class carry the same properties. `RelStore` is that predicate on
stores and `EdgeShapes.writeLaws` the laws its writes obey, for `Books` to carry through any
schedule.
-/

namespace GraphIngest

/-! ## Edges and their classes -/

/-- A relationship between committed nodes as a store reads it: its type, the identities of its
endpoints, its properties and what it is merged on. -/
structure Edge where
  relType : String
  source : Nat
  target : Nat
  props : Props
  key : Option RelKey

/-- A relationship's edge. -/
def Relationship.edge (r : Relationship) : Edge :=
  ⟨r.relType, r.source.identity.getD 0, r.target.identity.getD 0, r.properties, r.key⟩

/-- The edges of the relationships among written elements. -/
def Element.edges (C : List Element) : List Edge := (C.filterMap Element.rel?).map Relationship.edge

namespace Edge

/-- What a store keeps of an edge. -/
def stored (e : Edge) : StoredRel := ⟨e.relType, e.source, e.target, e.props⟩

/-- Whether an edge is merged rather than created. -/
def keyed (e : Edge) : Bool := e.key.isSome

/-- The value an edge is merged on besides type and endpoints: its key property's value, or null
when type and endpoints are all it is merged on. -/
def keyPart (e : Edge) : Value :=
  match e.key with
  | some (.property k) => e.props.keyValue k
  | _ => .null

/-- The class of an edge: its type and endpoints, and the value it is merged on. -/
def cls (e : Edge) : (String × Nat × Nat) × Value := ((e.relType, e.source, e.target), e.keyPart)

theorem cls_beq {x y : Edge} :
    (x.cls == y.cls) = true ↔
      x.relType = y.relType ∧ x.source = y.source ∧ x.target = y.target ∧ x.keyPart.beq y.keyPart = true := by
  change ((x.cls.1 == y.cls.1) && x.keyPart.beq y.keyPart) = true ↔ _
  simp [cls, and_assoc]

end Edge

/-- What a relationship phase leaves of the edges `E` written: every one created, and the first of
each class merged. -/
def canonEdges (E : List Edge) : List StoredRel := canon Edge.keyed Edge.cls Edge.stored E

@[simp] theorem Element.edges_append_rel (C : List Element) (r : Relationship) :
    Element.edges (C ++ [.rel r]) = Element.edges C ++ [r.edge] := by
  simp [Element.edges, List.filterMap_append, Element.rel?]

theorem Element.mem_edges {C : List Element} {x : Edge} : x ∈ Element.edges C ↔ ∃ r, .rel r ∈ C ∧ r.edge = x := by
  simp only [Element.edges, List.mem_map, List.mem_filterMap]
  constructor
  · rintro ⟨r, ⟨e, he, hr⟩, rfl⟩
    cases e with
    | node n => cases hr
    | rel r' =>
      simp only [Element.rel?, Option.some.injEq] at hr
      subst hr
      exact ⟨_, he, rfl⟩
  · rintro ⟨r, hr, rfl⟩
    exact ⟨r, ⟨.rel r, hr, rfl⟩, rfl⟩

theorem Relationship.edge_stored {r : Relationship} {s d : Nat} (hs : r.source.identity = some s)
    (hd : r.target.identity = some d) : r.edge.stored = ⟨r.relType, s, d, r.properties⟩ := by
  simp [Relationship.edge, Edge.stored, hs, hd]

/-! ## Relationships merged alike -/

/-- Relationships a relationship phase merges alike in any order, `kind` giving the kind of each
type: they fit, list their properties in key order, and those of one class carry the same
properties. -/
structure EdgeShapes (kind : String → Option RelKey) (U : List Element) : Prop where
  fits : RelShapes kind U
  sorted : ∀ r, .rel r ∈ U → r.properties.entries.Pairwise (·.1 < ·.1)
  same : ∀ r r' : Relationship, .rel r ∈ U → .rel r' ∈ U → r.edge.keyed = true →
    (r.edge.cls == r'.edge.cls) = true → r.properties = r'.properties

section Shapes

variable {kind : String → Option RelKey} {U : List Element}

theorem EdgeShapes.fit (hU : EdgeShapes kind U) {r : Relationship} (hr : .rel r ∈ U) : r.Fits kind := by
  obtain ⟨r', he, hf⟩ := hU.fits _ hr
  cases he
  exact hf

theorem EdgeShapes.key_eq (hU : EdgeShapes kind U) {r r' : Relationship} (hr : .rel r ∈ U) (hr' : .rel r' ∈ U)
    (hT : r.relType = r'.relType) : r.key = r'.key := by
  rw [(hU.fit hr).key, (hU.fit hr').key, hT]

theorem EdgeShapes.keyPart_self (hU : EdgeShapes kind U) {r : Relationship} (hr : .rel r ∈ U) :
    r.edge.keyPart.beq r.edge.keyPart = true := by
  unfold Edge.keyPart
  cases hk : r.edge.key with
  | none => simp [Value.beq]
  | some key =>
    cases key with
    | ghost => simp [Value.beq]
    | property k => exact (entry_beq_iff.mp ((hU.fit hr).keySelf k hk)).2

/-- A merged relationship of the shapes is in the class of another exactly when the two are
stored alike: a class fixes the properties, and the stored form fixes the type, hence the kind,
and the value merged on. -/
theorem EdgeShapes.cls_beq_iff (hU : EdgeShapes kind U) {r r' : Relationship} (hr : .rel r ∈ U)
    (hr' : .rel r' ∈ U) (hk : r.edge.keyed = true) :
    (r.edge.cls == r'.edge.cls) = true ↔ r.edge.stored = r'.edge.stored := by
  constructor
  · intro h
    obtain ⟨hT, hs, hd, -⟩ := Edge.cls_beq.mp h
    have hp := hU.same r r' hr hr' hk h
    simp only [Edge.stored, StoredRel.mk.injEq]
    exact ⟨hT, hs, hd, hp⟩
  · intro h
    simp only [Edge.stored, StoredRel.mk.injEq] at h
    obtain ⟨hT, hs, hd, hp⟩ := h
    have hpart : r.edge.keyPart = r'.edge.keyPart := by
      have hkey := hU.key_eq hr hr' hT
      simp only [Relationship.edge] at hp ⊢
      simp [Edge.keyPart, hkey, hp]
    exact Edge.cls_beq.mpr ⟨hT, hs, hd, hpart ▸ hU.keyPart_self hr⟩

theorem EdgeShapes.canonEdges_perm (hU : EdgeShapes kind U) {E E' : List Edge}
    (hE : ∀ x ∈ E, ∃ r, .rel r ∈ U ∧ r.edge = x) (hp : E.Perm E') : (canonEdges E).Perm (canonEdges E') :=
  canon_perm hp fun x hx y hy hkx _ => by
    obtain ⟨r, hr, rfl⟩ := hE x hx
    obtain ⟨r', hr', rfl⟩ := hE y hy
    exact hU.cls_beq_iff hr hr' hkx

end Shapes

/-! ## One relationship written -/

/-- A store keeps, in some order, the stored forms `canonEdges` gives the relationships among the
written elements `C`. -/
def Graph.KeepsEdges (g : Graph) (C : List Element) : Prop :=
  (g.rels.map Prod.snd).Perm (canonEdges (Element.edges C))

section Write

variable {kind : String → Option RelKey} {U : List Element} {C : List Element}

/-- A stored relationship with the type and endpoints of a merged `r`, holding the value `r` is
merged on, is the stored form of the first edge of `r`'s class: no created relationship has a
type that is merged. -/
theorem Graph.KeepsEdges.found (hU : EdgeShapes kind U) {g : Graph} (hg : g.KeepsEdges C)
    (hC : ∀ e ∈ C, e ∈ U) {r : Relationship} (hr : .rel r ∈ U) (hk : r.key.isSome = true) {s d : Nat}
    (hs : r.source.identity = some s) (hd : r.target.identity = some d) {x : StoredRel}
    (hx : x ∈ g.rels.map Prod.snd) (hT : x.relType = r.relType) (hsx : x.source = s) (hdx : x.target = d)
    (hv : ∀ k, r.key = some (.property k) → (x.props.keyValue k).beq (r.properties.keyValue k) = true) :
    ∃ z ∈ firstsBy Edge.cls ((Element.edges C).filter Edge.keyed), z.stored = x ∧ (z.cls == r.edge.cls) = true := by
  rcases List.mem_append.mp (hg.subset hx) with hx' | hx'
  · -- a created relationship of `r`'s type would be of `r`'s kind
    obtain ⟨z, hz, rfl⟩ := List.mem_map.mp hx'
    obtain ⟨hz, hkz⟩ := List.mem_filter.mp hz
    obtain ⟨r', hr', rfl⟩ := Element.mem_edges.mp hz
    have hkey := hU.key_eq (hC _ hr') hr hT
    simp [Edge.keyed, Relationship.edge, hkey, hk] at hkz
  · obtain ⟨z, hz, rfl⟩ := List.mem_map.mp hx'
    refine ⟨z, hz, rfl, ?_⟩
    obtain ⟨r', hr', rfl⟩ := Element.mem_edges.mp (List.mem_filter.mp (mem_of_mem_firstsBy hz)).1
    have hkey := hU.key_eq (hC _ hr') hr hT
    refine Edge.cls_beq.mpr ⟨hT, ?_, ?_, ?_⟩
    · simpa [Relationship.edge, Edge.stored, hs] using hsx
    · simpa [Relationship.edge, Edge.stored, hd] using hdx
    · simp only [Edge.keyPart, Relationship.edge]
      rw [hkey]
      cases hrk : r.key with
      | none => simp [Value.beq]
      | some key =>
        cases key with
        | ghost => simp [Value.beq]
        | property k => simpa [Edge.stored, Relationship.edge] using hv k hrk

/-- **One relationship merged**, or created when unkeyed, between the committed nodes `s` and
`d`: the store keeps what the phase leaves, `r` added to what is written. -/
theorem Graph.KeepsEdges.mergeRel (hU : EdgeShapes kind U) {t t' : Txn} (hg : t.graph.KeepsEdges C)
    (hsane : t.graph.Sane) (hC : ∀ e ∈ C, e ∈ U) {r : Relationship} (hr : .rel r ∈ U) {s d : Nat}
    (hs : r.source.identity = some s) (hd : r.target.identity = some d) {id : Nat}
    (h : (Write.mergeRel r s d).run t = .ok id t') : t'.graph.KeepsEdges (C ++ [.rel r]) := by
  unfold Graph.KeepsEdges canonEdges
  rw [Element.edges_append_rel]
  unfold Write.mergeRel at h
  split at h
  next hkey =>
    -- unkeyed: created
    rw [(Write.insertRel_nodes h).2, List.map_append, List.map_singleton, ← Relationship.edge_stored hs hd]
    exact (hg.append_right _).trans (canon_append_unkeyed (by simp [Edge.keyed, Relationship.edge, hkey])).symm
  next key hkey =>
    have hk : r.edge.keyed = true := by simp [Edge.keyed, Relationship.edge, hkey]
    rw [Write.run_bind_ok (rfl : Write.graph.run t = .ok t.graph t)] at h
    dsimp only at h
    split at h
    next hnil =>
      -- nothing of its class is stored: no first edge of the class was written, and `r` is created
      rw [(Write.insertRel_nodes h).2, List.map_append, List.map_singleton, ← Relationship.edge_stored hs hd,
        canon_append_new hk ?_]
      · exact hg.append_right _
      rw [Bool.eq_false_iff]
      intro hany
      obtain ⟨y, hy, hyc⟩ := List.any_eq_true.mp hany
      obtain ⟨p, hp, hpy⟩ : ∃ p ∈ t.graph.rels, p.2 = y.stored := by
        obtain ⟨p, hp, hpy⟩ := List.mem_map.mp (hg.symm.subset (List.mem_append_right _ (List.mem_map_of_mem hy)))
        exact ⟨p, hp, hpy⟩
      obtain ⟨hyE, hky⟩ := List.mem_filter.mp (mem_of_mem_firstsBy hy)
      obtain ⟨r', hr', rfl⟩ := Element.mem_edges.mp hyE
      obtain ⟨hT, hsy, hdy, hpart⟩ := Edge.cls_beq.mp hyc
      simp only [Relationship.edge] at hT
      have hkey' := hU.key_eq (hC _ hr') hr hT
      have hmem : p ∈ ([] : List (Nat × StoredRel)) := by
        rw [← hnil]
        refine List.mem_filter.mpr ⟨hp, ?_⟩
        rw [hpy]
        simp only [Relationship.edge, hs, hd, Option.getD_some] at hsy hdy
        cases key with
        | ghost => simp [Edge.stored, Relationship.edge, hT, hsy, hdy]
        | property k =>
          simp only [Edge.keyPart, Relationship.edge, hkey', hkey] at hpart
          simp [Edge.stored, Relationship.edge, hT, hsy, hdy, propertyMatches_eq_keyValue, Props.keyValue] at hpart ⊢
          exact hpart
      exact List.not_mem_nil hmem
    next id' old hone =>
      -- one of its class is stored: the first edge of the class, with `r`'s properties
      have hmem : (id', old) ∈ [(id', old)] := List.mem_singleton_self _
      rw [← hone] at hmem
      obtain ⟨hmem, hpred⟩ := List.mem_filter.mp hmem
      obtain ⟨u, t₁, hrep, hret⟩ := Write.run_ok_bind h
      obtain ⟨-, rfl⟩ := EStateM.Result.ok.inj hret
      cases hrep
      have hmatch : (old.relType = r.relType ∧ old.source = s ∧ old.target = d) ∧
          ∀ k, r.key = some (.property k) → (old.props.keyValue k).beq (r.properties.keyValue k) = true := by
        cases key with
        | ghost =>
          simp only [Bool.and_true, Bool.and_eq_true, beq_iff_eq] at hpred
          exact ⟨⟨hpred.1.1, hpred.1.2, hpred.2⟩, fun k hk => by simp [hkey] at hk⟩
        | property k =>
          simp only [Bool.and_eq_true, beq_iff_eq, propertyMatches_eq_keyValue] at hpred
          refine ⟨⟨hpred.1.1.1, hpred.1.1.2, hpred.1.2⟩, fun k' hk' => ?_⟩
          obtain rfl : k = k' := by simpa [hkey] using hk'
          simpa [Props.keyValue] using hpred.2
      obtain ⟨⟨hT, hsx, hdx⟩, hv⟩ := hmatch
      obtain ⟨z, hz, hzx, hzc⟩ :=
        hg.found hU hC hr (by simp [hkey]) hs hd (List.mem_map_of_mem hmem) hT hsx hdx hv
      obtain ⟨hzE, hkz⟩ := List.mem_filter.mp (mem_of_mem_firstsBy hz)
      obtain ⟨r', hr', rfl⟩ := Element.mem_edges.mp hzE
      -- the merge extends `old`'s properties by the same ones
      have hprops : r'.properties = r.properties := hU.same r' r (hC _ hr') hr hkz hzc
      have hzx' : r'.edge.stored = old := hzx
      have hnew : { old with props := old.props.extend r.properties } = old := by
        rw [← hzx', ← hprops]
        simp [Edge.stored, Relationship.edge, Props.extend_self (hU.sorted r' (hC _ hr'))]
      show (setAssoc id' { old with props := old.props.extend r.properties } t.graph.rels).map Prod.snd |>.Perm _
      rw [hnew, setAssoc_of_lookup (lookup_of_mem_nodup hsane.relKeys hmem),
        canon_append_old hk (List.any_eq_true.mpr ⟨_, hz, hzc⟩)]
      exact hg
    next => cases h

/-- **The relationships of a fragment written one by one**, each merged, or created when unkeyed:
the store keeps what the phase leaves, those without an identity added to what is written. -/
theorem Graph.KeepsEdges.writeRels (hU : EdgeShapes kind U) {g₀ : Graph} {hs : List Handle}
    {put : Relationship → Nat → Nat → Write Nat} {rels : List Relationship}
    (hput : ∀ r ∈ rels, ∀ s d, put r s d = Write.mergeRel r s d)
    (hrU : ∀ r ∈ rels, r.identity = none → .rel r ∈ U) (a : Write.Assigned) {t t' : Txn} {a' : Write.Assigned}
    (ht : Write.Tracks g₀ hs t) (hC : ∀ e ∈ C, e ∈ U) (hg : t.graph.KeepsEdges C)
    (h : (Write.writeRels put rels a).run t = .ok a' t') :
    Write.Tracks g₀ hs t' ∧ t'.graph.KeepsEdges (C ++ (rels.filter (·.identity.isNone)).map .rel) := by
  unfold Write.writeRels at h
  -- the loop runs over the relationships with their positions; those written so far are among the
  -- shapes, and kept
  set W : List (Relationship × Nat) → List Element :=
    fun done => ((done.map Prod.fst).filter (·.identity.isNone)).map .rel with hW
  set P : Txn → List (Relationship × Nat) → Prop := fun t done =>
    Write.Tracks g₀ hs t ∧ (∀ e ∈ C ++ W done, e ∈ U) ∧ t.graph.KeepsEdges (C ++ W done) with hP
  suffices hP : P t' ([] ++ rels.zipIdx) by
    simpa [P, W, List.zipIdx_map_fst] using And.intro hP.1 hP.2.2
  refine Write.foldlM_inv P ?_ ⟨ht, by simpa [W] using hC, by simpa [W] using hg⟩ h
  rintro ⟨r, i⟩ hx done b t b' t' ⟨ht, hCd, hg⟩ hstep
  have hr := List.fst_mem_of_mem_zipIdx hx
  rw [hP]
  dsimp only at hstep ⊢
  by_cases hid : r.identity.isSome = true
  · -- a relationship with an identity is passed over
    rw [if_pos hid] at hstep
    obtain ⟨-, rfl⟩ := EStateM.Result.ok.inj hstep
    have hsame : W (done ++ [(r, i)]) = W done := by simp [W, Option.isSome_iff_ne_none.mp hid]
    rw [hsame]
    exact ⟨ht, hCd, hg⟩
  rw [if_neg hid] at hstep
  have hnone : r.identity = none := by simpa using hid
  have happ : W (done ++ [(r, i)]) = W done ++ [.rel r] := by simp [W, hnone]
  have hrU' := hrU r hr hnone
  have hf := hU.fit hrU'
  obtain ⟨s, hsrc⟩ := Option.isSome_iff_exists.mp hf.source
  obtain ⟨d, hdst⟩ := Option.isSome_iff_exists.mp hf.target
  -- both endpoints resolve to themselves, and the merge keeps what the phase leaves
  obtain ⟨s', t₁, h₁, hrest₁⟩ := Write.run_ok_bind hstep
  obtain ⟨rfl, rfl⟩ := Write.resolve_of_identity hsrc h₁
  obtain ⟨d', t₂, h₂, hrest₂⟩ := Write.run_ok_bind hrest₁
  obtain ⟨rfl, rfl⟩ := Write.resolve_of_identity hdst h₂
  obtain ⟨id, t₃, h₃, hret⟩ := Write.run_ok_bind hrest₂
  obtain ⟨-, rfl⟩ := EStateM.Result.ok.inj hret
  rw [hput r hr] at h₃
  rw [happ, ← List.append_assoc]
  refine ⟨by simpa [Write.endState, h₃] using Write.mergeRel_keeps r s' d' t₂ ht, fun e he => ?_,
    hg.mergeRel hU ht.sane hCd hrU' hsrc hdst h₃⟩
  rcases List.mem_append.mp he with he | he
  · exact hCd e he
  · rw [List.mem_singleton.mp he]
    exact hrU'

end Write

/-! ## The writes of a relationship phase -/

/-- What a relationship phase leaves in a store for the relationships `C` written: a sane store
with the nodes `N` it started with, keeping what the phase leaves of `C`. -/
structure RelStore (N : List (Nat × StoredNode)) (g : Graph) (C : List Element) : Prop where
  sane : g.Sane
  nodes : g.nodes = N
  contents : g.KeepsEdges C

section Phase

variable {N : List (Nat × StoredNode)} {kind : String → Option RelKey} {U : List Element}

theorem Fragment.rel_mem_of_unwritten {C : List Element} {f : Fragment}
    (hf : ∀ e ∈ C ++ f.elements.map Element.shape, e ∈ U) {r : Relationship} (hr : r ∈ f.rels)
    (hid : r.identity = none) : .rel r ∈ U := by
  refine hf _ (List.mem_append_right _ (List.mem_map.mpr ⟨.rel r, List.mem_append_right _ ?_, rfl⟩))
  exact List.mem_map_of_mem (List.mem_filter.mpr ⟨hr, by simp [hid]⟩)

/-- **A create in a relationship phase** that goes through keeps what the phase leaves, its
unkeyed relationships added to what is written. -/
theorem EdgeShapes.create_store (hU : EdgeShapes kind U) {g g' : Graph} {C : List Element} {f f' : Fragment}
    (hg : RelStore N g C) (hf : ∀ e ∈ C ++ f.elements.map Element.shape, e ∈ U)
    (hkeys : ∀ r ∈ f.rels, r.key = none) (h : g.create f = (g', .ok f')) :
    RelStore N g' (C ++ f.elements.map Element.shape) := by
  obtain ⟨hfresh, helems, hfit⟩ := hU.fits.fragment hf
  have hsane : g'.Sane := by simpa [h] using Graph.create_sane hg.sane f
  obtain ⟨a, t, hrels, rfl⟩ := Graph.write_ok h
  rw [Write.create_run_of_fresh_nil hfresh] at hrels
  obtain ⟨-, hkeep⟩ := Graph.KeepsEdges.writeRels hU (Write.insertRel_eq_mergeRel hkeys)
    (fun r hr hid => Fragment.rel_mem_of_unwritten hf hr hid)
    _ (Write.tracks_begin [] hg.sane) (fun e he => hf e (List.mem_append_left _ he)) hg.contents hrels
  refine ⟨hsane, ?_, helems ▸ hkeep⟩
  rw [Write.writeRels_keepsNodes Write.insertRel_keepsNodes (RelShapes.onCommitted hfit) _ _ _ _ hrels]
  exact hg.nodes

/-- **A merge in a relationship phase** that goes through keeps what the phase leaves, its keyed
relationships added to what is written. -/
theorem EdgeShapes.merge_store (hU : EdgeShapes kind U) {g g' : Graph} {C : List Element} {f f' : Fragment}
    (hg : RelStore N g C) (hf : ∀ e ∈ C ++ f.elements.map Element.shape, e ∈ U)
    (h : g.merge f = (g', .ok f')) : RelStore N g' (C ++ f.elements.map Element.shape) := by
  obtain ⟨hfresh, helems, hfit⟩ := hU.fits.fragment hf
  have hsane : g'.Sane := by simpa [h] using Graph.merge_sane hg.sane f
  obtain ⟨a, t, hrels, rfl⟩ := Graph.write_ok h
  rw [Write.merge_run_of_fresh_nil hfresh] at hrels
  obtain ⟨-, hkeep⟩ := Graph.KeepsEdges.writeRels hU (fun _ _ _ _ => rfl)
    (fun r hr hid => Fragment.rel_mem_of_unwritten hf hr hid) _ (Write.tracks_begin [] hg.sane)
    (fun e he => hf e (List.mem_append_left _ he)) hg.contents hrels
  refine ⟨hsane, ?_, helems ▸ hkeep⟩
  rw [Write.writeRels_keepsNodes Write.mergeRel_keepsNodes (RelShapes.onCommitted hfit) _ _ _ _ hrels]
  exact hg.nodes

theorem RelStore.restored {g g' : Graph} {C : List Element} {hs : List Handle} (hg : RelStore N g C)
    (hr : g'.RestoredBut g hs) : RelStore N g' C := by
  refine ⟨hr.sane hg.sane, hr.nodes.trans hg.nodes, ?_⟩
  rw [Graph.KeepsEdges, hr.rels]
  exact hg.contents

theorem EdgeShapes.writeLaws (hU : EdgeShapes kind U) : Pool.WriteLaws (RelStore N) U where
  create hg hf _ hr h := hU.create_store hg hf hr h
  merge hg fh _ _ h := hU.merge_store hg fh h
  createFails hg h := hg.restored (Graph.create_restores hg.sane h)
  mergeFails hg h := hg.restored (Graph.merge_restores hg.sane h)

theorem relStore_start {g : Graph} (hs : g.Sane) (hr : g.rels = []) : RelStore g.nodes g [] :=
  ⟨hs, rfl, by simp [Graph.KeepsEdges, hr, canonEdges, canon, Element.edges, firstsBy]⟩

end Phase

end GraphIngest
