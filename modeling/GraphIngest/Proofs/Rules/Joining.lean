import Mathlib
import GraphIngest.Proofs.Rules.Compilation

/-! # What relationship rules join

Relationship rules are applied one after another to a record. Each resolves its start endpoint,
then its end endpoint; when a side matched no node, an optional rule adds nothing and any other
fails naming that side. Otherwise every start is joined with every end, start by start
(`RelRule.Adds`, `RelRule.Fails`). Resolving an endpoint reads only the record and the store
(`resolve_run`), so what each rule does is a function of the record and the store alone.
-/

namespace GraphIngest

open RuleM

/-- The nodes an endpoint stands for, for a record against a store. -/
def Endpoint.resolved (nodes : List NodeRule) (env : RuleEnv) (r : Record) (ep : Endpoint) :
    Except ApplyError (List Node) :=
  ((resolve nodes ep).run env { record := r }).1

namespace RuleM

/-- Resolving an endpoint depends on the record and the store only, and changes no more of the
state than the handles minted: the node an endpoint builds again is looked up by its merge label
and key, never by its handle. -/
theorem resolve_run (nodes : List NodeRule) (ep : Endpoint) (env : RuleEnv) (s : RuleState) :
    ∃ m, (resolve nodes ep).run env s = (ep.resolved nodes env s.record, { s with minted := m }) := by
  unfold Endpoint.resolved
  cases ep with
  | node id =>
    simp only [resolve]
    cases nodes.find? (·.id == id) with
    | none => exact ⟨s.minted, by simp⟩
    | some rule =>
      refine ⟨s.minted + 1, ?_⟩
      simp only [run_bind, run_freshHandle, run_record, NodeRule.build]
      cases he : evaluateAll rule.properties s.record with
      | error e => simp [bind, Except.bind]
      | ok ps =>
        -- the node built again differs only in its handle, which the lookup does not read
        simp only [bind, Except.bind, pure, Except.pure, Node.mergeKey, Node.mergeLabel, Node.new,
          Node.get?]
        cases rule.primaryKey <;> simp
  | lookup labels conditions =>
    refine ⟨s.minted, ?_⟩
    simp only [resolve, run_bind, run_record]
    cases evaluateConditions conditions s.record with
    | error e => simp
    | ok cs => simp

end RuleM

namespace RelRule

variable (nodes : List NodeRule) (env : RuleEnv) (r : Record)

/-- What a relationship rule adds for a record against a store: nothing when a side matched no
node and the rule is optional; otherwise every start joined with every end, start by start, with
the rule's type, its evaluated properties, and a key that merges on type and endpoints if the rule
merges, else on the rule's primary key if it has one. -/
inductive Adds (rule : RelRule) : List Relationship → Prop
  | skipped {starts ends : List Node} (hs : rule.source.resolved nodes env r = .ok starts)
      (ht : rule.target.resolved nodes env r = .ok ends) (hempty : starts = [] ∨ ends = [])
      (hopt : rule.optional = true) : Adds rule []
  | joined {starts ends : List Node} {props : Props} (hs : rule.source.resolved nodes env r = .ok starts)
      (ht : rule.target.resolved nodes env r = .ok ends) (hstarts : starts ≠ []) (hends : ends ≠ [])
      (hprops : evaluateAll rule.properties r = .ok props) :
      Adds rule (starts.flatMap fun a => ends.map fun b =>
        { relType := rule.relType, source := a, target := b, properties := props,
          key := if rule.merge then some .ghost else rule.primaryKey.map .property })

/-- How a relationship rule fails for a record against a store: an endpoint fails to resolve,
start first; a side matched no node and the rule is not optional, and the fault names the start
endpoint if the start matched nothing, else the end one; or its properties fail to evaluate. -/
inductive Fails (rule : RelRule) : ApplyError → Prop
  | source {e : ApplyError} (hs : rule.source.resolved nodes env r = .error e) : Fails rule e
  | target {starts : List Node} {e : ApplyError} (hs : rule.source.resolved nodes env r = .ok starts)
      (ht : rule.target.resolved nodes env r = .error e) : Fails rule e
  | noMatch {starts ends : List Node} (hs : rule.source.resolved nodes env r = .ok starts)
      (ht : rule.target.resolved nodes env r = .ok ends) (hempty : starts = [] ∨ ends = [])
      (hopt : rule.optional = false) :
      Fails rule (.rule (.noMatch ((if starts.isEmpty then rule.source else rule.target).describe r)))
  | properties {starts ends : List Node} {e : RuleError}
      (hs : rule.source.resolved nodes env r = .ok starts)
      (ht : rule.target.resolved nodes env r = .ok ends) (hstarts : starts ≠ []) (hends : ends ≠ [])
      (hprops : evaluateAll rule.properties r = .error e) : Fails rule (.rule e)

variable {nodes env r} {rule : RelRule}

theorem Adds.unique {x y : List Relationship} (hx : rule.Adds nodes env r x)
    (hy : rule.Adds nodes env r y) : x = y := by
  cases hx <;> cases hy <;> simp_all

theorem Fails.unique {e e' : ApplyError} (he : rule.Fails nodes env r e)
    (he' : rule.Fails nodes env r e') : e = e' := by
  cases he <;> cases he' <;> simp_all

theorem Fails.not_adds {e : ApplyError} {x : List Relationship} (he : rule.Fails nodes env r e)
    (hx : rule.Adds nodes env r x) : False := by
  cases he <;> cases hx <;> simp_all

/-- A step that ends only as the rule adds or fails ends exactly so: a rule adds at most one list
of relationships, fails at most one way, and not both. -/
theorem step_iff {res : Except ApplyError Fragment} {out : Fragment}
    (hok : ∀ f, res = .ok f → ∃ rels, rule.Adds nodes env r rels ∧ f = { out with rels := out.rels ++ rels })
    (herr : ∀ e, res = .error e → rule.Fails nodes env r e) :
    (∀ f, res = .ok f ↔ ∃ rels, rule.Adds nodes env r rels ∧ f = { out with rels := out.rels ++ rels }) ∧
      (∀ e, res = .error e ↔ rule.Fails nodes env r e) := by
  cases res with
  | ok f₀ =>
    obtain ⟨rels₀, hA₀, rfl⟩ := hok f₀ rfl
    refine ⟨fun f => ⟨fun h => ⟨rels₀, hA₀, (Except.ok.inj h).symm⟩, ?_⟩,
      fun e => ⟨nofun, fun hF => (hF.not_adds hA₀).elim⟩⟩
    rintro ⟨rels, hA, rfl⟩
    rw [hA.unique hA₀]
  | error e₀ =>
    have hF₀ := herr e₀ rfl
    refine ⟨fun f => ⟨nofun, fun ⟨rels, hA, _⟩ => (hF₀.not_adds hA).elim⟩,
      fun e => ⟨fun h => Except.error.inj h ▸ hF₀, fun hF => ?_⟩⟩
    rw [hF₀.unique hF]

end RelRule

/-! ## Rules in turn -/

theorem Fragment.foldl_pushRel : ∀ (rels : List Relationship) (out : Fragment),
    rels.foldl Fragment.pushRel out = { out with rels := out.rels ++ rels }
  | [], out => by simp
  | rel :: rest, out => by
    rw [List.foldl_cons, Fragment.foldl_pushRel rest]
    simp [Fragment.pushRel]

section Fold

variable {α : Type} {A : α → List Relationship → Prop} {F : α → ApplyError → Prop}

theorem exists_first_fails_cons {a : α} {l : List α} {e : ApplyError} :
    (∃ pre b post rss, a :: l = pre ++ b :: post ∧ List.Forall₂ A pre rss ∧ F b e) ↔
      F a e ∨ ∃ rels, A a rels ∧ ∃ pre b post rss, l = pre ++ b :: post ∧ List.Forall₂ A pre rss ∧ F b e := by
  constructor
  · rintro ⟨_ | ⟨x, pre⟩, b, post, rss, hl, hA, hF⟩
    · simp only [List.nil_append, List.cons.injEq] at hl
      exact Or.inl (hl.1 ▸ hF)
    · simp only [List.cons_append, List.cons.injEq] at hl
      obtain ⟨rfl, rfl⟩ := hl
      obtain ⟨rels, rss', hx, hpre, rfl⟩ := List.forall₂_cons_left_iff.mp hA
      exact Or.inr ⟨rels, hx, pre, b, post, rss', rfl, hpre, hF⟩
  · rintro (hF | ⟨rels, hx, pre, b, post, rss, rfl, hpre, hF⟩)
    · exact ⟨[], a, l, [], rfl, .nil, hF⟩
    · exact ⟨a :: pre, b, post, rels :: rss, rfl, .cons hx hpre, hF⟩

/-- Folding steps over items: when each step mints handles only and adds to the fragment the
relationships `A` gives the item for the record, or fails as `F` says, the fold adds the
relationships of every item in order, or fails as the first item that fails. -/
theorem foldlM_joins {A : Record → α → List Relationship → Prop} {F : Record → α → ApplyError → Prop}
    {g : Fragment → α → RuleM Fragment} {env : RuleEnv}
    (hstep : ∀ out a s, ∃ m, ((g out a).run env s).2 = { s with minted := m } ∧
      (∀ f, ((g out a).run env s).1 = .ok f ↔
        ∃ rels, A s.record a rels ∧ f = { out with rels := out.rels ++ rels }) ∧
      (∀ e, ((g out a).run env s).1 = .error e ↔ F s.record a e)) :
    ∀ (l : List α) (out : Fragment) (s : RuleState),
      (∀ f, ((l.foldlM g out).run env s).1 = .ok f ↔
        ∃ rss, List.Forall₂ (A s.record) l rss ∧ f = { out with rels := out.rels ++ rss.flatten }) ∧
      (∀ e, ((l.foldlM g out).run env s).1 = .error e ↔
        ∃ pre a post rss, l = pre ++ a :: post ∧ List.Forall₂ (A s.record) pre rss ∧ F s.record a e)
  | [], out, s => by
    refine ⟨fun f => ?_, fun e => ?_⟩
    · cases out
      simp [run_pure, eq_comm]
    · simp [run_pure]
  | a :: l, out, s => by
    obtain ⟨m, hst, hok, herr⟩ := hstep out a s
    rw [List.foldlM_cons, run_bind]
    rcases hrun : (g out a).run env s with ⟨_ | out', s'⟩
    · -- the head fails: so does the fold, and with nothing before it
      rw [hrun] at herr hok
      dsimp only
      refine ⟨fun f => ?_, fun e' => ?_⟩
      · simp only [reduceCtorEq, false_iff, not_exists, not_and]
        intro rss hA _
        obtain ⟨rels, _, hrest⟩ := List.forall₂_cons_left_iff.mp hA
        simpa using (hok _).mpr ⟨rels, hrest.1, rfl⟩
      · rw [exists_first_fails_cons, ← herr e']
        refine ⟨Or.inl, ?_⟩
        rintro (h | ⟨rels, hA, -⟩)
        · exact h
        · simpa using (hok _).mpr ⟨rels, hA, rfl⟩
    · -- the head adds its relationships, and the rest folds from the state after it, which has
      -- the same record
      rw [hrun] at herr hok hst
      dsimp only at hst
      subst hst
      obtain ⟨rels₀, hA₀, hout⟩ := (hok out').mp rfl
      have hunique : ∀ rels, A s.record a rels → rels = rels₀ := fun rels hA => by
        have := (hok _).mpr ⟨rels, hA, rfl⟩
        rw [hout] at this
        simpa using this.symm
      obtain ⟨ihok, iherr⟩ := foldlM_joins hstep l out' { s with minted := m }
      dsimp only
      refine ⟨fun f => ?_, fun e => ?_⟩
      · rw [ihok]
        constructor
        · rintro ⟨rss, hA, rfl⟩
          exact ⟨rels₀ :: rss, .cons hA₀ hA, by simp [hout]⟩
        · rintro ⟨rss, hA, rfl⟩
          obtain ⟨rels, rss', hA', hrest, rfl⟩ := List.forall₂_cons_left_iff.mp hA
          obtain rfl := hunique rels hA'
          exact ⟨rss', hrest, by simp [hout]⟩
      · rw [iherr, exists_first_fails_cons]
        constructor
        · exact fun h => Or.inr ⟨rels₀, hA₀, h⟩
        · rintro (hF | ⟨rels, -, h⟩)
          · simpa using (herr e).mpr hF
          · exact h

end Fold

namespace RuleM

/-- Relationship rules applied to a record, against a store and in any state, give the
relationships each rule adds, rule by rule in order, and no node or attribute; or they fail with
the fault of the first rule that fails, every rule before it adding its relationships. -/
theorem relRules_joins_rule_by_rule (rules : List RelRule) (nodes : List NodeRule) (env : RuleEnv)
    (s : RuleState) :
    (∀ f, ((relRules rules nodes).run env s).1 = .ok f ↔
      ∃ rss, List.Forall₂ (RelRule.Adds nodes env s.record) rules rss ∧ f = { rels := rss.flatten }) ∧
    (∀ e, ((relRules rules nodes).run env s).1 = .error e ↔
      ∃ pre rule post rss, rules = pre ++ rule :: post ∧
        List.Forall₂ (RelRule.Adds nodes env s.record) pre rss ∧ rule.Fails nodes env s.record e) := by
  unfold relRules
  refine foldlM_joins (A := RelRule.Adds nodes env) (F := RelRule.Fails nodes env) ?_ rules Fragment.empty s
  -- one rule: resolve the start, then the end, then join or skip or fail
  intro out rule st
  obtain ⟨m₁, h₁⟩ := resolve_run nodes rule.source env st
  rw [run_bind, h₁]
  cases hs : rule.source.resolved nodes env st.record with
  | error e =>
    exact ⟨m₁, rfl, RelRule.step_iff nofun fun e' h => Except.error.inj h ▸ .source hs⟩
  | ok starts =>
    dsimp only
    obtain ⟨m₂, h₂⟩ := resolve_run nodes rule.target env { st with minted := m₁ }
    rw [run_bind, h₂]
    cases ht : rule.target.resolved nodes env st.record with
    | error e =>
      exact ⟨m₂, rfl, RelRule.step_iff nofun fun e' h => Except.error.inj h ▸ .target hs ht⟩
    | ok ends =>
      dsimp only
      by_cases hempty : (starts.isEmpty || ends.isEmpty) = true
      · have hside : starts = [] ∨ ends = [] := by simpa using hempty
        rw [if_pos hempty]
        cases hopt : rule.optional
        · -- the rule fails naming the side that matched nothing
          refine ⟨m₂, rfl, RelRule.step_iff (fun f h => ?_) fun e h => ?_⟩
          · simp [run_bind] at h
          · simp only [Bool.false_eq_true, if_false, run_bind, run_record, run_fault,
              Except.error.injEq] at h
            exact h ▸ .noMatch hs ht hside hopt
        · refine ⟨m₂, rfl, RelRule.step_iff (fun f h => ⟨[], .skipped hs ht hside hopt, ?_⟩) fun e h => ?_⟩
          · simp only [if_true, run_pure, Except.ok.injEq] at h
            simp [← h]
          · simp at h
      · have hsides : starts ≠ [] ∧ ends ≠ [] := by simpa using hempty
        rw [if_neg hempty]
        simp only [run_bind, run_record]
        cases hp : evaluateAll rule.properties st.record with
        | error e =>
          refine ⟨m₂, rfl, RelRule.step_iff (fun f h => ?_) fun e' h => ?_⟩
          · simp at h
          · simp only [run_ofExcept_error, Except.error.injEq] at h
            exact h ▸ .properties hs ht hsides.1 hsides.2 hp
        | ok props =>
          -- every start joined with every end, appended to the fragment
          refine ⟨m₂, rfl, RelRule.step_iff (fun f h => ⟨_, .joined hs ht hsides.1 hsides.2 hp, ?_⟩)
            fun e h => ?_⟩
          · simp only [run_ofExcept_ok, run_pure, Except.ok.injEq] at h
            rw [← h, Fragment.foldl_pushRel]
            rfl
          · simp at h

end RuleM

end GraphIngest
