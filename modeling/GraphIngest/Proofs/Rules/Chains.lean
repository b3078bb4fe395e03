import GraphIngest.Proofs.Convert.RelationshipPhase
import GraphIngest.Proofs.Rules.Compilation

/-! # What a chain hands back

A union keeps the left fragment's nodes and adds, in order, the first node of each handle new to
it (`Fragment.FirstNew`); a left fragment without nodes takes the right one's node list as it is.
Every chain hands back a fragment whose handles are apart (`fragment_union_law`). A chain that is
empty for sure builds nothing, so passing over a record of a type outside a phase's mask commits
what applying the rules would (`masked_type_applies_nothing`).
-/

namespace GraphIngest

namespace Fragment

/-- The handles of the nodes are pairwise distinct. -/
def HandlesApart (ns : List Node) : Prop := (ns.map (·.handle)).Nodup

instance : DecidablePred HandlesApart := fun ns => inferInstanceAs (Decidable (ns.map _).Nodup)

/-- `s` is what a union adds of the nodes `l` after the handles `seen`: in `l`'s order, the first
node of each handle that `seen` does not hold. -/
structure FirstNew (seen : List Handle) (l s : List Node) : Prop where
  sublist : s.Sublist l
  fresh : ∀ n ∈ s, n.handle ∉ seen
  first : ∀ n ∈ s, l.find? (·.handle == n.handle) = some n
  apart : HandlesApart s
  covers : ∀ n ∈ l, n.handle ∈ seen ∨ ∃ m ∈ s, m.handle = n.handle

theorem firstNew_newNodes (seen : List Handle) (l : List Node) :
    FirstNew seen l (newNodes seen l) := by
  induction l generalizing seen with
  | nil =>
    simp only [newNodes]
    exact ⟨.slnil, by simp, by simp, .nil, by simp⟩
  | cons x rest ih =>
    by_cases hx : x.handle ∈ seen
    · -- a handle already seen is passed over
      have h := ih seen
      simp only [newNodes, List.contains_iff_mem, hx, if_true]
      refine ⟨h.sublist.cons x, h.fresh, fun n hn => ?_, h.apart, ?_⟩
      · have hne : (x.handle == n.handle) = false := by
          simpa using fun he : x.handle = n.handle => h.fresh n hn (he ▸ hx)
        rw [List.find?_cons_of_neg (by simp [hne]), h.first n hn]
      · exact List.forall_mem_cons.mpr ⟨.inl hx, h.covers⟩
    · -- a new handle is kept, and seen from then on
      have h := ih (x.handle :: seen)
      have hfresh : ∀ m ∈ newNodes (x.handle :: seen) rest, m.handle ≠ x.handle ∧ m.handle ∉ seen :=
        fun m hm => by simpa using h.fresh m hm
      simp only [newNodes, List.contains_iff_mem, hx, if_false]
      refine ⟨h.sublist.cons_cons x, List.forall_mem_cons.mpr ⟨hx, fun n hn => (hfresh n hn).2⟩,
        List.forall_mem_cons.mpr ⟨by simp, fun n hn => ?_⟩, ?_, ?_⟩
      · have hne : (x.handle == n.handle) = false := by simpa using (hfresh n hn).1.symm
        rw [List.find?_cons_of_neg (by simp [hne]), h.first n hn]
      · refine List.nodup_cons.mpr ⟨fun hm => ?_, h.apart⟩
        obtain ⟨m, hm, he⟩ := List.mem_map.mp hm
        exact (hfresh m hm).1 he
      · refine List.forall_mem_cons.mpr ⟨.inr ⟨x, List.mem_cons_self, rfl⟩, fun n hn => ?_⟩
        rcases h.covers n hn with hs | ⟨m, hm, he⟩
        · rcases List.mem_cons.mp hs with he | hs
          · exact .inr ⟨x, List.mem_cons_self, he.symm⟩
          · exact .inl hs
        · exact .inr ⟨m, List.mem_cons_of_mem _ hm, he⟩

@[simp] theorem empty_union (f : Fragment) : Fragment.empty.union f = f := rfl

theorem union_nodes (a b : Fragment) :
    (a.union b).nodes = if a.nodes = [] then b.nodes else a.nodes ++ newNodes (a.nodes.map (·.handle)) b.nodes := by
  by_cases h : a.nodes = [] <;> simp [union, h]

theorem handlesApart_union {a b : Fragment} (ha : HandlesApart a.nodes) (hb : HandlesApart b.nodes) :
    HandlesApart (a.union b).nodes := by
  rw [union_nodes]
  split
  · exact hb
  · have hs := firstNew_newNodes (a.nodes.map (·.handle)) b.nodes
    unfold HandlesApart
    rw [List.map_append, List.nodup_append]
    refine ⟨ha, hs.apart, fun h hh h' hh' he => ?_⟩
    obtain ⟨m, hm, rfl⟩ := List.mem_map.mp hh'
    exact hs.fresh m hm (he ▸ hh)

end Fragment

/-- The rules written as code that a chain runs, in order. -/
def Chain.fns : Chain → List FnRule
  | .fn rule => [rule]
  | .seq steps => fnsAll steps
  | .mergeRels inner => inner.fns
  | _ => []
where
  /-- The rules written as code that steps of a sequence run, in order. -/
  fnsAll : List (Option String × Chain) → List FnRule
    | [] => []
    | (_, c) :: rest => c.fns ++ fnsAll rest

namespace RuleM

/-- Every run of `x` that goes through hands back a value with `P`. -/
def Yields {α : Type} (P : α → Prop) (x : RuleM α) : Prop :=
  ∀ env s a s', x.run env s = (.ok a, s') → P a

section Yields

variable {α β : Type} {P : β → Prop}

theorem yields_pure {b : β} (h : P b) : Yields P (pure b) := by
  intro env s a s' hr
  cases hr
  exact h

theorem yields_bind {Q : α → Prop} {x : RuleM α} {f : α → RuleM β} (hx : Yields Q x)
    (hf : ∀ a, Q a → Yields P (f a)) : Yields P (x >>= f) := by
  intro env s b s'' hr
  obtain ⟨a, s', ha, hb⟩ := run_ok_bind env s hr
  exact hf a (hx env s a s' ha) env s' b s'' hb

theorem yields_any (x : RuleM α) : Yields (fun _ => True) x := fun _ _ _ _ _ => trivial

theorem yields_then {x : RuleM α} {f : α → RuleM β} (hf : ∀ a, Yields P (f a)) :
    Yields P (x >>= f) :=
  yields_bind (yields_any x) fun a _ => hf a

theorem yields_throw (e : ApplyError) : Yields P (throw e) := by
  intro env s a s' hr
  cases hr

theorem yields_foldlM {γ : Type} {f : β → γ → RuleM β} {b : β} (l : List γ)
    (hf : ∀ b c, P b → Yields P (f b c)) (hb : P b) : Yields P (l.foldlM f b) :=
  fun env _ _ _ h => foldlM_ok_inv env P (fun c _ b s b' s' hp hr => hf b c hp env s b' s' hr) hb h

end Yields

/-- The handles of a fragment's nodes are apart. -/
abbrev Apart (f : Fragment) : Prop := Fragment.HandlesApart f.nodes

theorem apart_pushNode {f : Fragment} (n : Node) (h : Apart f) : Apart (f.pushNode n) := by
  unfold Fragment.pushNode
  split
  · exact h
  · next hn =>
    simp only [Apart, Fragment.HandlesApart, List.map_append, List.map_singleton]
    refine List.nodup_append.mpr ⟨h, List.nodup_singleton _, fun a ha b hb he => ?_⟩
    obtain ⟨m, hm, rfl⟩ := List.mem_map.mp ha
    simp only [List.mem_singleton] at hb
    exact hn (List.any_eq_true.mpr ⟨m, hm, by simp [he, hb]⟩)

theorem apart_of_length {f : Fragment} (h : f.nodes.length ≤ 1) : Apart f := by
  unfold Apart Fragment.HandlesApart
  match f.nodes, h with
  | [], _ => exact .nil
  | [_], _ => exact List.nodup_singleton _

theorem foldl_pushRel_nodes (f : Fragment) (rs : List Relationship) :
    (rs.foldl Fragment.pushRel f).nodes = f.nodes := by
  induction rs generalizing f with
  | nil => rfl
  | cons r rs ih => exact ih _

theorem hook_apart (h : Hook) : Yields Apart (hook h) := by
  have one : ∀ {f : Fragment}, f.nodes.length ≤ 1 → Yields Apart (pure f) := fun h =>
    yields_pure (apart_of_length h)
  cases h with
  | person =>
    exact yields_then fun _ => yields_then fun _ => yields_then fun _ => one (by simp [Fragment.ofNode])
  | edge =>
    exact yields_then fun _ => yields_then fun _ => yields_then fun _ => yields_then fun _ =>
      yields_then fun _ => one (by simp [Fragment.ofRel])
  | tag =>
    exact yields_then fun _ => yields_then fun _ => yields_then fun _ =>
      one (by simp [Fragment.ofNode, Fragment.pushAttribute])
  | owns =>
    refine yields_then fun _ => ?_
    split
    · exact yields_throw _
    · exact yields_then fun _ => one (by simp [Fragment.ofNode, Fragment.pushRel])
  | sleep => exact yields_pure .nil
  | set => exact yields_then fun _ => yields_then fun _ => yields_pure .nil
  | count =>
    refine yields_then fun _ => ?_
    split
    · exact yields_then fun _ => yields_pure .nil
    · exact yields_throw _
  | fail | panic =>
    refine yields_then fun _ => ?_
    split
    · exact yields_throw _
    · exact yields_pure .nil
  | cancel =>
    refine yields_then fun _ => ?_
    split
    · refine yields_then fun _ => ?_
      split
      all_goals first | exact yields_pure .nil | exact yields_then fun _ => yields_pure .nil
    · exact yields_pure .nil

theorem nodeRules_apart (rules : List NodeRule) : Yields Apart (nodeRules rules) :=
  yields_foldlM rules (fun _ _ hout => yields_then fun _ => yields_then fun _ =>
    yields_then fun _ => yields_then fun _ => yields_pure (apart_pushNode _ hout)) .nil

theorem relRules_apart (rules : List RelRule) (nodes : List NodeRule) :
    Yields Apart (relRules rules nodes) := by
  refine yields_foldlM rules (fun out rule hout => ?_) .nil
  refine yields_then fun starts => yields_then fun ends => ?_
  by_cases hmiss : (starts.isEmpty || ends.isEmpty) = true
  · rw [if_pos hmiss]
    by_cases hopt : rule.optional = true
    · rw [if_pos hopt]
      exact yields_pure hout
    · rw [if_neg hopt]
      exact yields_then fun _ => yields_throw _
  · rw [if_neg hmiss]
    exact yields_then fun _ => yields_then fun _ =>
      yields_pure (P := Apart) (by simpa [Apart, foldl_pushRel_nodes] using hout)

mutual

/-- A chain hands back nodes with handles apart when each rule written as code it runs does. -/
theorem chain_apart : ∀ c : Chain, (∀ g ∈ c.fns, Yields Apart g.run) → Yields Apart (chain c)
  | .empty, _ => yields_pure .nil
  | .nodeRules rules, _ => nodeRules_apart rules
  | .relRules rules nodes, _ => relRules_apart rules nodes
  | .fn rule, h => h rule (by simp [Chain.fns])
  | .seq steps, h => sequence_apart steps Fragment.empty .nil (by simpa [Chain.fns] using h)
  | .mergeRels inner, h => by
    rw [chain]
    exact yields_bind (chain_apart inner (by simpa [Chain.fns] using h)) fun f hf => yields_pure hf

theorem sequence_apart : ∀ (steps : List (Option String × Chain)) (out : Fragment), Apart out →
    (∀ g ∈ Chain.fns.fnsAll steps, Yields Apart g.run) → Yields Apart (sequence steps out)
  | [], _, hout, _ => yields_pure hout
  | (name, c) :: rest, out, hout, h => by
    simp only [Chain.fns.fnsAll, List.mem_append] at h
    rw [sequence]
    refine yields_bind (chain_apart c fun g hg => h g (.inl hg)) fun f hf => ?_
    have hnext := sequence_apart rest (out.union f) (Fragment.handlesApart_union hout hf)
      fun g hg => h g (.inr hg)
    cases name with
    | none => exact hnext
    | some id => exact yields_then fun _ => hnext

end

/-! ## Chains that build nothing -/

/-- Runs to the empty fragment and changes at most the supplies of the record. -/
def BuildsNothing (x : RuleM Fragment) : Prop :=
  ∀ env s, ∃ r, x.run env s = (.ok Fragment.empty, { s with record := r }) ∧
    r.clearSupplies = s.record.clearSupplies

theorem buildsNothing_pure : BuildsNothing (pure Fragment.empty) := fun _ s => ⟨s.record, rfl, rfl⟩

mutual

theorem chain_buildsNothing : ∀ c : Chain, c.isEmpty = true → BuildsNothing (chain c)
  | .empty, _ => buildsNothing_pure
  | .nodeRules [], _ => buildsNothing_pure
  | .relRules [] _, _ => buildsNothing_pure
  | .seq steps, h => sequence_buildsNothing steps h
  | .mergeRels inner, h => fun env s => by
    obtain ⟨r, hr, hs⟩ := chain_buildsNothing inner h env s
    refine ⟨r, ?_, hs⟩
    rw [chain, run_bind, hr]
    rfl
  | .nodeRules (_ :: _), h | .relRules (_ :: _) _, h | .fn _, h => by simp [Chain.isEmpty] at h

theorem sequence_buildsNothing : ∀ steps : List (Option String × Chain), Chain.allEmpty steps = true →
    BuildsNothing (sequence steps Fragment.empty)
  | [], _ => buildsNothing_pure
  | (name, c) :: rest, h => fun env s => by
    simp only [Chain.allEmpty, Bool.and_eq_true] at h
    obtain ⟨r, hr, hs⟩ := chain_buildsNothing c h.1 env s
    rw [sequence, run_bind, hr]
    cases name with
    | none =>
      obtain ⟨r', hr', hs'⟩ := sequence_buildsNothing rest h.2 env { s with record := r }
      exact ⟨r', hr', hs'.trans hs⟩
    | some id =>
      obtain ⟨r', hr', hs'⟩ := sequence_buildsNothing rest h.2 env { s with record := r.setSupply id .empty }
      exact ⟨r', by simpa [run_bind] using hr', hs'.trans hs⟩

end

theorem ruleSet_buildsNothing (rs : RuleSet) (env : RuleEnv) (s : RuleState)
    (h : s.record.recordType ∉ rs.typeMask env.phase) :
    ∃ r, (ruleSet rs).run env s = (.ok Fragment.empty, { s with record := r }) ∧
      r.clearSupplies = s.record.clearSupplies := by
  rw [run_ruleSet]
  cases hc : rs.chainFor? s.record.recordType env.phase with
  | none => exact ⟨s.record, rfl, rfl⟩
  | some c =>
    obtain ⟨e, he, rfl⟩ := Option.map_eq_some_iff.mp hc
    have hempty : (e.get env.phase).isEmpty = true := by
      by_contra hne
      exact h ((RuleSet.mem_typeMask rs).mpr ⟨e, mem_of_lookup he, by simpa using hne⟩)
    exact chain_buildsNothing _ hempty env s

end RuleM

/-- Union keeps the left nodes and adds the first node of each new handle, except into a fragment
without nodes, which takes the other's node list as it is; relationships and attributes are
appended. Handles apart on both sides stay apart, and a chain hands back nodes with handles
apart whenever every rule written as code that it runs does. -/
theorem fragment_union_law (a b : Fragment) (c : Chain) (env : RuleEnv) (s s' : RuleState)
    (f : Fragment) :
    (∃ new, Fragment.FirstNew (a.nodes.map (·.handle)) b.nodes new ∧
      (a.union b).nodes = (if a.nodes = [] then b.nodes else a.nodes ++ new) ∧
      (a.union b).rels = a.rels ++ b.rels ∧ (a.union b).attributes = a.attributes ++ b.attributes) ∧
    (Fragment.HandlesApart a.nodes → Fragment.HandlesApart b.nodes →
      Fragment.HandlesApart (a.union b).nodes) ∧
    ((∀ g ∈ c.fns, RuleM.Yields (fun f => Fragment.HandlesApart f.nodes) g.run) →
      (RuleM.chain c).run env s = (.ok f, s') → Fragment.HandlesApart f.nodes) := by
  refine ⟨⟨_, Fragment.firstNew_newNodes _ b.nodes, ?_, rfl, rfl⟩, Fragment.handlesApart_union,
    fun hfns => RuleM.chain_apart c hfns env s f s'⟩
  rw [Fragment.union_nodes]

theorem two_people_keep_handles_apart :
    let n := fun k : Nat => Node.new (Handle.minted k) ["Person"]
    let person := fun k : Nat => ((n k).withProperty "ID" (.int 1)).withPrimaryKey "ID"
    let c := Chain.seq [(none, .fn (Hook.rule .person)), (none, .fn (Hook.rule .person))]
    let env : RuleEnv := { phase := .node, lookup := fun _ _ => .ok [] }
    let s : RuleState := { record := { recordType := "Person", fields := Props.empty.insert "id" (.int 1) } }
    let f := (Fragment.ofNode (person 0)).union (Fragment.ofNode (person 1))
    (Fragment.HandlesApart [n 0] ∧ Fragment.HandlesApart [n 1] ∧
      Fragment.HandlesApart ((Fragment.ofNode (n 0)).union (Fragment.ofNode (n 1))).nodes) ∧
    ((∀ g ∈ c.fns, RuleM.Yields (fun f => Fragment.HandlesApart f.nodes) g.run) ∧
      (RuleM.chain c).run env s = (.ok f, { s with minted := 2 }) ∧ Fragment.HandlesApart f.nodes) := by
  intro n person c env s f
  have ha : Fragment.HandlesApart [n 0] := by decide
  have hb : Fragment.HandlesApart [n 1] := by decide
  have hfns : ∀ g ∈ c.fns, RuleM.Yields (fun f => Fragment.HandlesApart f.nodes) g.run := by
    intro g hg
    simp only [c, Chain.fns, Chain.fns.fnsAll, List.mem_append, List.mem_singleton] at hg
    rcases hg with rfl | rfl | hg
    · exact RuleM.hook_apart .person
    · exact RuleM.hook_apart .person
    · cases hg
  have hrun : (RuleM.chain c).run env s = (.ok f, { s with minted := 2 }) := by rfl
  have hlaw := fragment_union_law (.ofNode (n 0)) (.ofNode (n 1)) c env s { s with minted := 2 } f
  exact ⟨⟨ha, hb, hlaw.2.1 ha hb⟩, hfns, hrun, hlaw.2.2 hfns hrun⟩

/-- Passing over a record of a type outside the phase's mask commits what applying the rules
would: they build nothing for it, and the record loses only its supplies. -/
theorem masked_type_applies_nothing {σ : Type} [GraphStore σ] (r : Run σ) (phase : Phase)
    (rec : Record) (b : CommitBuffer) (h : rec.recordType ∉ r.conv.rules.typeMask phase) :
    r.applyRules phase rec = (r, .ok (rec.clearSupplies, Fragment.empty)) ∧ b.add Fragment.empty = b := by
  obtain ⟨rec', hrun, hs⟩ := RuleM.ruleSet_buildsNothing r.conv.rules { phase, lookup := GraphStore.matchNodes r.world.store }
    { record := rec, global := r.world.global, cancelled := r.world.cancelled, minted := r.world.minted } h
  refine ⟨?_, rfl⟩
  simp only [Run.applyRules, World.apply, hrun]
  rw [hs]

theorem friendship_passed_over_in_node_phase :
    let rules : RuleSet := { entries := [("Friendship",
      { nodes := .seq [(some "pair", .empty)], relationships := .fn (Hook.rule (.edge "KNOWS" "a" "b" none)) })] }
    let r : Run Store := { conv := { config := Config.serialized, rules },
                           world := { store := .memory Graph.empty, source := .items [] } }
    let x : Record := { recordType := "Friendship" }
    x.recordType ∉ r.conv.rules.typeMask .node ∧
      r.applyRules .node x = (r, .ok (x.clearSupplies, Fragment.empty)) ∧
      ({} : CommitBuffer).add Fragment.empty = {} := by
  intro rules r x
  have h : x.recordType ∉ r.conv.rules.typeMask .node := by decide
  exact ⟨h, masked_type_applies_nothing r .node x {} h⟩

end GraphIngest
