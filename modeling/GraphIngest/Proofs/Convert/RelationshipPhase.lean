import GraphIngest.Proofs.Convert.Multiplicity
import GraphIngest.Rules.Hook

/-! # Rules that leave the state alone

Rules frame the state when they leave it as they found it however they end (`RuleM.Frames`). The
edge rules of the people fixtures frame it, and join every two people the store holds by a
ghost-keyed relationship (`RuleM.hook_ghostEdge_elements`).
-/

namespace GraphIngest

namespace RuleM

variable {α β : Type} (env : RuleEnv) (s : RuleState)

theorem run_ok_bind {x : RuleM α} {f : α → RuleM β} {b : β} {s'' : RuleState}
    (h : (x >>= f).run env s = (.ok b, s'')) :
    ∃ a s', x.run env s = (.ok a, s') ∧ (f a).run env s' = (.ok b, s'') := by
  rw [run_bind] at h
  rcases hx : x.run env s with ⟨_ | a, s'⟩
  · rw [hx] at h
    cases h
  · rw [hx] at h
    exact ⟨a, s', rfl, h⟩

/-- Rules that leave the state as they found it, however they end. -/
def Frames (x : RuleM α) : Prop := ∀ env s, (x.run env s).2 = s

theorem frames_bind {x : RuleM α} {f : α → RuleM β} (hx : Frames x) (hf : ∀ a, Frames (f a)) :
    Frames (x >>= f) := by
  intro env s
  rw [run_bind]
  rcases hr : x.run env s with ⟨_ | a, s'⟩
  · simpa [hr] using hx env s
  · have hs : s' = s := by simpa [hr] using hx env s
    subst hs
    exact hf a env s'

theorem frames_pure (a : α) : Frames (pure a : RuleM α) := fun _ _ => rfl

theorem frames_intField (k : String) : Frames (intField k) := by
  unfold intField
  refine frames_bind (fun _ _ => rfl) fun r => ?_
  split
  · exact frames_pure _
  · exact fun _ _ => rfl

theorem frames_person (i : Int) : Frames (person i) := by
  unfold person
  refine frames_bind (fun env s => by rw [run_lookup]) fun ns => ?_
  split
  · exact frames_pure _
  · exact fun _ _ => rfl

theorem frames_hook_edge (T a b : String) (key : Option String) : Frames (hook (.edge T a b key)) :=
  frames_bind (frames_intField a) fun _ => frames_bind (frames_person _) fun _ =>
    frames_bind (frames_intField b) fun _ => frames_bind (frames_person _) fun _ =>
      frames_bind (fun _ _ => rfl) fun _ => frames_pure _

theorem intField_ok {k : String} {i : Int} {s' : RuleState} (h : (intField k).run env s = (.ok i, s')) :
    (s.record.get? k).bind Value.asInt? = some i := by
  unfold intField at h
  rw [run_bind, run_record] at h
  dsimp only at h
  split at h
  next j hj =>
    cases h
    exact hj
  next => cases h

theorem person_ok {i : Int} {n : Node} {s' : RuleState} (h : (person i).run env s = (.ok n, s')) :
    ∃ ns, env.lookup ["Person"] (Props.empty.insert "ID" (.int i)) = .ok (n :: ns) := by
  unfold person at h
  rw [run_bind, run_lookup] at h
  cases hl : env.lookup ["Person"] (Props.empty.insert "ID" (.int i)) with
  | error e =>
    rw [hl] at h
    cases h
  | ok ns =>
    rw [hl] at h
    rcases ns with _ | ⟨m, ms⟩
    · cases h
    · cases h
      exact ⟨ms, rfl⟩

end RuleM

/-- The kinds of the example: `T` is merged on type and endpoints. -/
def ghostKind (T : String) : Option RelKey := if T = "T" then some .ghost else none

/-- The relationship the rule builds between two people for a record. -/
def ghostEdge (x y : Node) (rec : Record) : Relationship :=
  (match rec.get? "weight" with
    | some v => (Relationship.new x "T" y).withProperty "weight" v
    | none => Relationship.new x "T" y).ghostKeyed

theorem RuleM.hook_ghostEdge_ok {env : RuleEnv} {s s' : RuleState} {f : Fragment}
    (h : (RuleM.hook (.edge "T" "from" "to" (some "ghost"))).run env s = (.ok f, s')) :
    ∃ i j x y xs ys, (s.record.get? "from").bind Value.asInt? = some i ∧
      (s.record.get? "to").bind Value.asInt? = some j ∧
      env.lookup ["Person"] (Props.empty.insert "ID" (.int i)) = .ok (x :: xs) ∧
      env.lookup ["Person"] (Props.empty.insert "ID" (.int j)) = .ok (y :: ys) ∧
      f = Fragment.ofRel (ghostEdge x y s.record) := by
  simp only [RuleM.hook] at h
  obtain ⟨i, s₁, h₁, k₁⟩ := RuleM.run_ok_bind env s h
  have hs₁ : s₁ = s := by simpa [h₁] using RuleM.frames_intField "from" env s
  obtain ⟨x, s₂, h₂, k₂⟩ := RuleM.run_ok_bind env s₁ k₁
  have hs₂ : s₂ = s₁ := by simpa [h₂] using RuleM.frames_person i env s₁
  obtain ⟨j, s₃, h₃, k₃⟩ := RuleM.run_ok_bind env s₂ k₂
  have hs₃ : s₃ = s₂ := by simpa [h₃] using RuleM.frames_intField "to" env s₂
  obtain ⟨y, s₄, h₄, k₄⟩ := RuleM.run_ok_bind env s₃ k₃
  have hs₄ : s₄ = s₃ := by simpa [h₄] using RuleM.frames_person j env s₃
  obtain ⟨r, s₅, h₅, k₅⟩ := RuleM.run_ok_bind env s₄ k₄
  rw [RuleM.run_record] at h₅
  obtain ⟨⟨⟩, -⟩ := Prod.mk.inj h₅
  subst hs₄ hs₃ hs₂ hs₁
  obtain ⟨xs, hx⟩ := RuleM.person_ok env _ h₂
  obtain ⟨ys, hy⟩ := RuleM.person_ok env _ h₄
  rw [RuleM.run_pure] at k₅
  obtain ⟨hf, -⟩ := Prod.mk.inj k₅
  exact ⟨i, j, x, y, xs, ys, RuleM.intField_ok env _ h₁, RuleM.intField_ok env _ h₃, hx, hy,
    (Except.ok.inj hf).symm⟩

theorem ghostEdge_identity (x y : Node) (rec : Record) : (ghostEdge x y rec).identity = none := by
  unfold ghostEdge
  split <;> rfl

theorem ghostEdge_fits {x y : Node} (hx : x.isCommitted = true) (hy : y.isCommitted = true) (rec : Record) :
    (ghostEdge x y rec).Fits ghostKind := by
  unfold ghostEdge
  split
  · exact ⟨hx, hy, rfl, by simp [Relationship.ghostKeyed, Relationship.withKey, Relationship.withProperty,
      Relationship.new, Props.insert, Props.insertEntry], fun k hk => by cases hk⟩
  · exact ⟨hx, hy, rfl, by simp [Relationship.ghostKeyed, Relationship.withKey, Relationship.new],
      fun k hk => by cases hk⟩

theorem Graph.isCommitted_of_mem_matchNodes {g : Graph} {labels : List String} {conditions : Props} {x : Node}
    (h : x ∈ g.matchNodes labels conditions) : x.isCommitted = true := by
  obtain ⟨p, -, rfl⟩ := List.mem_map.mp h
  rfl

theorem Graph.matchNodes_of_nodes {g : Graph} {N : List (Nat × StoredNode)} (h : g.nodes = N)
    (labels : List String) (conditions : Props) :
    g.matchNodes labels conditions = ({ nodes := N } : Graph).matchNodes labels conditions := by
  simp only [Graph.matchNodes, Graph.find, h]

/-- What the example's rules build for a record against the nodes `N`: for a record of type `E`
naming two people, the edge between the first of each. -/
def ghostEdges (N : List (Nat × StoredNode)) (rec : Record) : List Element :=
  if rec.recordType = "E" then
    match (rec.get? "from").bind Value.asInt?, (rec.get? "to").bind Value.asInt? with
    | some i, some j =>
      match ({ nodes := N } : Graph).matchNodes ["Person"] (Props.empty.insert "ID" (.int i)),
        ({ nodes := N } : Graph).matchNodes ["Person"] (Props.empty.insert "ID" (.int j)) with
      | x :: _, y :: _ => [.rel (ghostEdge x y rec)]
      | _, _ => []
    | _, _ => []
  else []

theorem ghostEdges_fit (N : List (Nat × StoredNode)) (rec : Record) :
    ∀ e ∈ ghostEdges N rec, ∃ x, e = .rel x ∧ x.Fits ghostKind := by
  intro e he
  unfold ghostEdges at he
  split_ifs at he
  · split at he
    · split at he
      next x xs y ys hx hy =>
        rw [List.mem_singleton.mp he]
        exact ⟨_, rfl, ghostEdge_fits (Graph.isCommitted_of_mem_matchNodes (hx ▸ List.mem_cons_self))
          (Graph.isCommitted_of_mem_matchNodes (hy ▸ List.mem_cons_self)) rec⟩
      · cases he
    · cases he
  · cases he

theorem RuleM.hook_ghostEdge_elements {g : Graph} {N : List (Nat × StoredNode)} (hg : g.nodes = N)
    {ph : Phase} {s s' : RuleState} {f : Fragment} (ht : s.record.recordType = "E")
    (h : (RuleM.hook (.edge "T" "from" "to" (some "ghost"))).run
      { phase := ph, lookup := GraphStore.matchNodes (Store.memory g) } s = (.ok f, s')) :
    f.elements.map Element.shape = ghostEdges N s.record ∧ f.nodes = [] := by
  obtain ⟨i, j, x, y, xs, ys, hi, hj, hx, hy, rfl⟩ := RuleM.hook_ghostEdge_ok h
  -- the people found are those of the nodes `N`
  have hx' : ({ nodes := N } : Graph).matchNodes ["Person"] (Props.empty.insert "ID" (.int i)) = x :: xs := by
    rw [← Graph.matchNodes_of_nodes hg]
    exact Except.ok.inj hx
  have hy' : ({ nodes := N } : Graph).matchNodes ["Person"] (Props.empty.insert "ID" (.int j)) = y :: ys := by
    rw [← Graph.matchNodes_of_nodes hg]
    exact Except.ok.inj hy
  refine ⟨?_, rfl⟩
  simp only [ghostEdges, ht, if_true, hi, hj, hx', hy']
  simp [Fragment.elements, Fragment.ofRel, Fragment.fresh, ghostEdge_identity, Element.shape]

/-- A record asking for an edge from person 1 to person 2. -/
def oneToTwo : Record :=
  { recordType := "E", fields := (Props.empty.insert "from" (.int 1)).insert "to" (.int 2) }

end GraphIngest
