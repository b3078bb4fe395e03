import Mathlib
import GraphIngest.Proofs.Convert.KeyedPhase

/-! # Compiling a rule document

A rule document compiles exactly when the rules of every record type keep to what the check asks
(`EntityRules.WellFormed`). The rule set it compiles to passes a record type in a phase exactly
when the type has rules for it, and the faults of compilation that resolving an endpoint can raise
never arise when its rules run (`compile_sound_and_complete`).
-/

namespace GraphIngest

/-! ## What a document must keep to -/

/-- An endpoint a relationship rule of a type may use: a node rule of the type that has a primary
key, or a lookup by at least one label. -/
def Endpoint.Fits (nodes : List NodeRule) : Endpoint → Prop
  | .node id => ∃ rule ∈ nodes, rule.id = id ∧ rule.primaryKey.isSome
  | .lookup labels _ => labels ≠ []

/-- A relationship rule that does not merge both on its endpoints only and on a key, with
endpoints the node rules of its type allow. -/
structure RelRule.Fits (nodes : List NodeRule) (rel : RelRule) : Prop where
  merge_or_key : rel.merge = true → rel.primaryKey = none
  source : rel.source.Fits nodes
  target : rel.target.Fits nodes

/-- The rules of a record type as a document must have them to compile. -/
structure EntityRules.WellFormed (spec : EntityRules) : Prop where
  ids_nodup : (spec.nodes.map (·.id)).Nodup
  labelled : ∀ rule ∈ spec.nodes, rule.Labelled
  rels : ∀ rel ∈ spec.relationships, rel.Fits spec.nodes

/-! ## The checks -/

theorem NodeRule.find?_id_of_nodup {nodes : List NodeRule} (hn : (nodes.map (·.id)).Nodup) {rule : NodeRule}
    (hrule : rule ∈ nodes) : nodes.find? (·.id == rule.id) = some rule := by
  cases hf : nodes.find? (·.id == rule.id) with
  | none => exact absurd (List.find?_eq_none.mp hf rule hrule) (by simp)
  | some found =>
    have hid : found.id = rule.id := by simpa using List.find?_some hf
    rw [List.inj_on_of_nodup_map hn (List.mem_of_find?_eq_some hf) hrule hid]

namespace RuleDocument

variable {entity : String}

theorem checkNodes_eq_ok : ∀ {seen : List String} {rules : List NodeRule},
    checkNodes entity seen rules = .ok () ↔
      (∀ rule ∈ rules, rule.id ∉ seen ∧ rule.Labelled) ∧ (rules.map (·.id)).Nodup
  | _, [] => by simp [checkNodes]
  | seen, rule :: rest => by
    constructor
    · intro h
      obtain ⟨hid, hlab, hrest⟩ := NodeRule.checkNodes_cons h
      obtain ⟨hall, hnd⟩ := checkNodes_eq_ok.mp hrest
      refine ⟨fun x hx => ?_, ?_⟩
      · rcases List.mem_cons.mp hx with rfl | hx
        · exact ⟨hid, hlab⟩
        · exact ⟨fun hs => (hall x hx).1 (List.mem_cons_of_mem _ hs), (hall x hx).2⟩
      · -- no later rule has the id of the first, which they were all checked against
        refine List.nodup_cons.mpr ⟨fun hm => ?_, hnd⟩
        obtain ⟨x, hx, hxid⟩ := List.mem_map.mp hm
        exact (hall x hx).1 (hxid ▸ List.mem_cons_self)
    · rintro ⟨hall, hnd⟩
      obtain ⟨hid, hlab⟩ := hall rule List.mem_cons_self
      have hrest : checkNodes entity (rule.id :: seen) rest = .ok () := by
        refine checkNodes_eq_ok.mpr ⟨fun x hx => ⟨fun hs => ?_, (hall x (List.mem_cons_of_mem _ hx)).2⟩,
          (List.nodup_cons.mp hnd).2⟩
        rcases List.mem_cons.mp hs with hs | hs
        · exact (List.nodup_cons.mp hnd).1 (List.mem_map.mpr ⟨x, hx, hs⟩)
        · exact (hall x (List.mem_cons_of_mem _ hx)).1 hs
      have hne : rule.labels.isEmpty = false := by simpa using hlab.labels_ne_nil
      unfold checkNodes
      rw [if_neg (by simpa using hid), if_neg (by simp [hne])]
      cases hp : rule.primaryLabel with
      | none => exact hrest
      | some l =>
        have hl : rule.labels.contains l = true := by simpa using hlab.primaryLabel_mem l hp
        simp only [hl, if_true]
        exact hrest

theorem checkEndpoint_eq_ok {nodes : List NodeRule} {rel : RelRule} (hn : (nodes.map (·.id)).Nodup) :
    ∀ ep : Endpoint, checkEndpoint entity nodes rel ep = .ok () ↔ ep.Fits nodes
  | .node id => by
    rw [checkEndpoint, Endpoint.Fits]
    split
    next hf =>
      simp only [reduceCtorEq, false_iff, not_exists, not_and]
      intro rule hrule hid _
      exact absurd (List.find?_eq_none.mp hf rule hrule) (by simp [hid])
    next target hf =>
      simp only [Option.isNone_iff_eq_none]
      constructor
      · intro h
        refine ⟨target, List.mem_of_find?_eq_some hf, by simpa using List.find?_some hf, ?_⟩
        cases hk : target.primaryKey with
        | none => simp [hk] at h
        | some _ => rfl
      · -- the rule with the id is the one found: ids are told apart
        rintro ⟨rule, hrule, rfl, hkey⟩
        rw [NodeRule.find?_id_of_nodup hn hrule, Option.some.injEq] at hf
        subst hf
        simp [Option.isSome_iff_ne_none.mp hkey]
  | .lookup labels _ => by
    simp [checkEndpoint, Endpoint.Fits]

theorem checkRels_eq_ok {nodes : List NodeRule} (hn : (nodes.map (·.id)).Nodup) :
    ∀ rels : List RelRule, checkRels entity nodes rels = .ok () ↔ ∀ rel ∈ rels, rel.Fits nodes
  | [] => by simp [checkRels]
  | rel :: rest => by
    have hrest := checkRels_eq_ok hn rest
    have hsrc : checkEndpoint entity nodes rel rel.source = .ok () ↔ rel.source.Fits nodes :=
      checkEndpoint_eq_ok hn rel.source
    have htgt : checkEndpoint entity nodes rel rel.target = .ok () ↔ rel.target.Fits nodes :=
      checkEndpoint_eq_ok hn rel.target
    unfold checkRels
    by_cases hm : (rel.merge && rel.primaryKey.isSome) = true
    · -- merging on endpoints only and on a key is refused
      simp only [hm, if_true]
      constructor
      · intro h; cases h
      · intro h
        have hf := (h rel List.mem_cons_self).merge_or_key
        simp only [Bool.and_eq_true] at hm
        simp [hf hm.1] at hm
    · simp only [hm, Bool.false_eq_true, if_false]
      cases hs : checkEndpoint entity nodes rel rel.source with
      | error e =>
        simp only [bind, Except.bind, reduceCtorEq, false_iff]
        intro h
        exact absurd (hsrc.mpr (h rel List.mem_cons_self).source) (by simp [hs])
      | ok _ =>
        cases ht : checkEndpoint entity nodes rel rel.target with
        | error e =>
          simp only [bind, Except.bind, reduceCtorEq, false_iff]
          intro h
          exact absurd (htgt.mpr (h rel List.mem_cons_self).target) (by simp [ht])
        | ok _ =>
          simp only [bind, Except.bind, List.forall_mem_cons]
          rw [hrest]
          refine ⟨fun h => ⟨⟨fun hmerge => ?_, hsrc.mp hs, htgt.mp ht⟩, h⟩, fun h => h.2⟩
          simpa [hmerge] using hm

theorem checkEntity_eq_ok (spec : EntityRules) : checkEntity entity spec = .ok () ↔ spec.WellFormed := by
  unfold checkEntity
  cases hn : checkNodes entity [] spec.nodes with
  | error e =>
    simp only [bind, Except.bind, reduceCtorEq, false_iff]
    intro h
    have hok : checkNodes entity [] spec.nodes = .ok () :=
      checkNodes_eq_ok.mpr ⟨fun x hx => ⟨List.not_mem_nil, h.labelled x hx⟩, h.ids_nodup⟩
    rw [hn] at hok
    cases hok
  | ok _ =>
    obtain ⟨hall, hnd⟩ := checkNodes_eq_ok.mp hn
    simp only [bind, Except.bind]
    rw [checkRels_eq_ok hnd]
    exact ⟨fun h => ⟨hnd, fun x hx => (hall x hx).2, h⟩, fun h => h.rels⟩

end RuleDocument

/-! ## Rule sets -/

theorem exists_mem_cons_pair {γ : Type} {P : γ → Prop} {t : String} (x : String × γ)
    (l : List (String × γ)) :
    (∃ e, (t, e) ∈ x :: l ∧ P e) ↔ (t = x.1 ∧ P x.2) ∨ ∃ e, (t, e) ∈ l ∧ P e := by
  constructor
  · rintro ⟨e, he, hp⟩
    rcases List.mem_cons.mp he with rfl | he
    · exact Or.inl ⟨rfl, hp⟩
    · exact Or.inr ⟨e, he, hp⟩
  · rintro (⟨rfl, hp⟩ | ⟨e, he, hp⟩)
    · exact ⟨x.2, List.mem_cons_self, hp⟩
    · exact ⟨e, List.mem_cons_of_mem _ he, hp⟩

/-- The chain a type's rules give a phase when the document compiles. -/
def EntityRules.chain (spec : EntityRules) : Phase → Chain
  | .node => .nodeRules spec.nodes
  | .relationship => .relRules spec.relationships spec.nodes

/-- The chains a document compiles to: none, node rules, or relationship rules whose endpoints fit
node rules told apart by id. -/
def Chain.Declared : Chain → Prop
  | .empty => True
  | .nodeRules _ => True
  | .relRules rels nodes =>
    (nodes.map (·.id)).Nodup ∧ ∀ rel ∈ rels, rel.source.Fits nodes ∧ rel.target.Fits nodes
  | _ => False

/-- Every chain of the rule set is one a document compiles to. -/
def RuleSet.Declared (rs : RuleSet) : Prop :=
  ∀ x ∈ rs.entries, ∀ p, (x.2.get p).Declared

namespace RuleEntry

theorem get_put (e : RuleEntry) (p q : Phase) (c : Chain) :
    (e.put p c).get q = if q = p then c else e.get q := by
  cases p <;> cases q <;> rfl

@[simp] theorem get_default (p : Phase) : ({} : RuleEntry).get p = .empty := by
  cases p <;> rfl

end RuleEntry

namespace RuleSet

variable {t t' : String} {p q : Phase} {c : Chain}

theorem mem_typeMask (rs : RuleSet) :
    t' ∈ rs.typeMask q ↔ ∃ e, (t', e) ∈ rs.entries ∧ (e.get q).isEmpty = false := by
  simp [typeMask]

theorem exists_chain_go (hc : c.isEmpty = false) : ∀ l : List (String × RuleEntry),
    (∃ e, (t', e) ∈ insert.go t p c l ∧ (e.get q).isEmpty = false) ↔
      (t' = t ∧ q = p) ∨ ∃ e, (t', e) ∈ l ∧ (e.get q).isEmpty = false
  | [] => by
    rw [insert.go, exists_mem_cons_pair]
    by_cases hq : q = p <;> simp [RuleEntry.get_put, hq, hc, Chain.isEmpty]
  | (t₁, e) :: rest => by
    unfold insert.go
    split_ifs with hlt heq
    · -- a new entry goes in before the first type after it
      rw [exists_mem_cons_pair]
      by_cases hq : q = p <;> simp [RuleEntry.get_put, hq, hc, Chain.isEmpty]
    · -- the type's own entry takes the chain
      subst heq
      rw [exists_mem_cons_pair, exists_mem_cons_pair]
      by_cases hq : q = p
      · simp only [RuleEntry.get_put, hq, if_true, hc, and_true]
        tauto
      · simp [RuleEntry.get_put, hq]
    · rw [exists_mem_cons_pair, exists_chain_go hc rest, exists_mem_cons_pair]
      exact or_left_comm

theorem mem_go {x : String × RuleEntry} : ∀ {l : List (String × RuleEntry)},
    x ∈ insert.go t p c l → x ∈ l ∨ ∃ e, x = (t, e.put p c) ∧ (e = {} ∨ (t, e) ∈ l)
  | [], h => by
    simp only [insert.go, List.mem_singleton] at h
    exact Or.inr ⟨{}, h, Or.inl rfl⟩
  | (t₁, e) :: rest, h => by
    unfold insert.go at h
    split_ifs at h with hlt heq
    · rcases List.mem_cons.mp h with rfl | h
      · exact Or.inr ⟨{}, rfl, Or.inl rfl⟩
      · exact Or.inl h
    · subst heq
      rcases List.mem_cons.mp h with rfl | h
      · exact Or.inr ⟨e, rfl, Or.inr List.mem_cons_self⟩
      · exact Or.inl (List.mem_cons_of_mem _ h)
    · rcases List.mem_cons.mp h with rfl | h
      · exact Or.inl List.mem_cons_self
      · rcases mem_go h with h | ⟨e', rfl, he'⟩
        · exact Or.inl (List.mem_cons_of_mem _ h)
        · exact Or.inr ⟨e', rfl, he'.imp_right (List.mem_cons_of_mem _)⟩

theorem mem_typeMask_insert (rs : RuleSet) (hc : c.isEmpty = false) :
    t' ∈ (rs.insert t p c).typeMask q ↔ (t' = t ∧ q = p) ∨ t' ∈ rs.typeMask q := by
  rw [mem_typeMask, mem_typeMask]
  exact exists_chain_go hc rs.entries

theorem mem_typeMask_insertIf (rs : RuleSet) {b : Bool} (hc : b = c.isEmpty) :
    t' ∈ (if b = true then rs else rs.insert t p c).typeMask q ↔
      (t' = t ∧ q = p ∧ b = false) ∨ t' ∈ rs.typeMask q := by
  subst hc
  split
  · simp [*]
  · rw [mem_typeMask_insert rs (Bool.eq_false_iff.mpr ‹¬c.isEmpty = true›)]
    simp [*]

theorem Declared.insert {rs : RuleSet} (hrs : rs.Declared) (hc : c.Declared) :
    (rs.insert t p c).Declared := by
  intro x hx q
  rcases mem_go hx with hx | ⟨e, rfl, he⟩
  · exact hrs x hx q
  · rw [RuleEntry.get_put]
    split
    · exact hc
    · rcases he with rfl | he
      · simp [Chain.Declared]
      · exact hrs _ he q

theorem Declared.insertIf {rs : RuleSet} {b : Bool} (hrs : rs.Declared) (hc : c.Declared) :
    (if b = true then rs else rs.insert t p c).Declared := by
  split
  · exact hrs
  · exact hrs.insert hc

theorem Declared.chainFor {rs : RuleSet} (h : rs.Declared) (hc : rs.chainFor? t p = some c) :
    c.Declared := by
  obtain ⟨e, he, rfl⟩ := Option.map_eq_some_iff.mp hc
  exact h _ (mem_of_lookup he) p

end RuleSet

/-! ## Evaluation faults -/

theorem error_of_bind_pure {ε α β : Type} {x : Except ε α} {g : α → β} {e : ε}
    (h : (x >>= fun a => pure (g a)) = .error e) : x = .error e := by
  cases x with
  | error e' =>
    simp only [bind, Except.bind, Except.error.injEq] at h
    rw [h]
  | ok a => cases h

theorem foldlM_except_error {α β ε : Type} {f : β → α → Except ε β} (Q : ε → Prop)
    (hf : ∀ b a e, f b a = .error e → Q e) : ∀ {l : List α} {b : β} {e : ε}, l.foldlM f b = .error e → Q e
  | [], _, _, h => by cases h
  | a :: l, b, e, h => by
    rw [List.foldlM_cons] at h
    cases hb : f b a with
    | error e' =>
      simp only [hb, bind, Except.bind, Except.error.injEq] at h
      exact h ▸ hf b a e' hb
    | ok b' =>
      simp only [hb, bind, Except.bind] at h
      exact foldlM_except_error Q hf h

theorem ValueSpec.evaluate_error {spec : ValueSpec} {r : Record} {e : RuleError}
    (h : spec.evaluate r = .error e) : ∃ f v t, e = .conversion f v t := by
  rcases spec with ⟨f, _ | c⟩ | v
  · cases h
  · simp only [ValueSpec.evaluate, Conversion.apply] at h
    split_ifs at h
    split at h
    · cases h
    · exact ⟨_, _, _, (Except.error.inj h).symm⟩
  · cases h

theorem evaluateAll_error {specs : List (String × ValueSpec)} {r : Record} {e : RuleError}
    (h : evaluateAll specs r = .error e) : ∃ f v t, e = .conversion f v t :=
  foldlM_except_error _ (fun _ _ _ he => ValueSpec.evaluate_error (error_of_bind_pure he)) h

theorem evaluateConditions_error {specs : List (String × ValueSpec)} {r : Record} {e : RuleError}
    (h : evaluateConditions specs r = .error e) : ∃ f v t, e = .conversion f v t :=
  foldlM_except_error _ (fun _ _ _ he => ValueSpec.evaluate_error (error_of_bind_pure he)) h

theorem NodeRule.build_error {rule : NodeRule} {h : Handle} {r : Record} {e : RuleError}
    (hb : rule.build h r = .error e) : ∃ f v t, e = .conversion f v t :=
  evaluateAll_error (error_of_bind_pure hb)

theorem RuleError.ne_compile_of_conversion {e : RuleError} (h : ∃ f v t, e = .conversion f v t)
    (text : String) : e ≠ .compile text := by
  obtain ⟨f, v, t, rfl⟩ := h
  exact nofun

namespace RuleM

variable {α β : Type}

@[simp] theorem run_fault (e : RuleError) (env : RuleEnv) (s : RuleState) :
    (fault e : RuleM α).run env s = (.error (.rule e), s) := rfl

/-- Running the action never ends in a fault of compilation. -/
def NoCompileFault (act : RuleM α) : Prop :=
  ∀ env s text, (act.run env s).1 ≠ .error (.rule (.compile text))

namespace NoCompileFault

theorem pure (a : α) : NoCompileFault (Pure.pure a : RuleM α) := fun _ _ _ => by simp

theorem bind {x : RuleM α} {f : α → RuleM β} (hx : NoCompileFault x)
    (hf : ∀ a, NoCompileFault (f a)) : NoCompileFault (x >>= f) := by
  intro env s text
  rw [run_bind]
  rcases hr : x.run env s with ⟨r, s'⟩
  cases r with
  | ok a => exact hf a env s' text
  | error e =>
    have := hx env s text
    rw [hr] at this
    simpa using this

theorem foldlM {f : β → α → RuleM β} : ∀ {l : List α}, (∀ b, ∀ a ∈ l, NoCompileFault (f b a)) →
    ∀ b, NoCompileFault (l.foldlM f b)
  | [], _, b => pure b
  | _ :: _, hf, b => bind (hf b _ List.mem_cons_self) fun _ =>
    foldlM (fun b' a' ha' => hf b' a' (List.mem_cons_of_mem _ ha')) _

theorem bind_ofExcept {r : Except RuleError α} {f : α → RuleM β}
    (hr : ∀ e, r = .error e → ∀ text, e ≠ .compile text) (hf : ∀ a, r = .ok a → NoCompileFault (f a)) :
    NoCompileFault (ofExcept r >>= f) := by
  cases r with
  | ok a => exact hf a rfl
  | error e =>
    intro env s text
    rw [run_bind, run_ofExcept_error]
    simpa using hr e rfl text

end NoCompileFault

open NoCompileFault

theorem noCompileFault_fault {e : RuleError} (he : ∀ text, e ≠ .compile text) :
    NoCompileFault (fault e : RuleM α) := by
  intro env s text
  rw [run_fault]
  simpa using he text

theorem noCompileFault_record : NoCompileFault record := fun _ _ _ => by simp

theorem noCompileFault_read : NoCompileFault (MonadReader.read : RuleM RuleEnv) := fun _ _ _ => by simp

theorem noCompileFault_freshHandle : NoCompileFault freshHandle := fun _ _ _ => by simp

theorem noCompileFault_supply (id : String) (f : Fragment) : NoCompileFault (supply id f) :=
  fun _ _ _ => by simp

theorem noCompileFault_lookup (labels : List String) (conditions : Props) :
    NoCompileFault (lookup labels conditions) :=
  bind noCompileFault_read fun env => by
    cases env.lookup labels conditions with
    | ok ns => exact pure ns
    | error e => exact noCompileFault_fault nofun

theorem noCompileFault_nodeRules (rules : List NodeRule) : NoCompileFault (nodeRules rules) :=
  foldlM (fun _ _ _ => bind noCompileFault_freshHandle fun _ => bind noCompileFault_record fun _ =>
    bind_ofExcept (fun _ he => RuleError.ne_compile_of_conversion (NodeRule.build_error he))
      fun _ _ => bind (noCompileFault_supply _ _) fun _ => pure _) _

/-- An endpoint that fits the node rules of its type resolves without a fault of compilation: the
node rule it names is found, and the node it builds has that rule's primary key. -/
theorem noCompileFault_resolve {nodes : List NodeRule} (hn : (nodes.map (·.id)).Nodup) :
    ∀ {ep : Endpoint}, ep.Fits nodes → NoCompileFault (resolve nodes ep)
  | .node _, ⟨rule, hrule, rfl, hkey⟩ => by
    simp only [resolve, NodeRule.find?_id_of_nodup hn hrule]
    refine bind noCompileFault_freshHandle fun _ => bind noCompileFault_record fun _ =>
      bind_ofExcept (fun _ he => RuleError.ne_compile_of_conversion (NodeRule.build_error he))
        fun built hb => ?_
    obtain ⟨ps, -, rfl⟩ := NodeRule.build_ok hb
    obtain ⟨k, hk⟩ := Option.isSome_iff_exists.mp hkey
    simp only [Node.mergeKey, hk, Option.map_some]
    exact noCompileFault_lookup _ _
  | .lookup _ _, _ =>
    bind noCompileFault_record fun _ =>
      bind_ofExcept (fun _ he => RuleError.ne_compile_of_conversion (evaluateConditions_error he))
        fun _ _ => noCompileFault_lookup _ _

theorem noCompileFault_relRules {rules : List RelRule} {nodes : List NodeRule}
    (h : (Chain.relRules rules nodes).Declared) : NoCompileFault (relRules rules nodes) :=
  foldlM (fun _ rule hrule => bind (noCompileFault_resolve h.1 (h.2 rule hrule).1) fun _ =>
    bind (noCompileFault_resolve h.1 (h.2 rule hrule).2) fun _ => by
      split
      · split
        · exact pure _
        · exact bind noCompileFault_record fun _ => noCompileFault_fault nofun
      · exact bind noCompileFault_record fun _ =>
          bind_ofExcept (fun _ he => RuleError.ne_compile_of_conversion (evaluateAll_error he))
            fun _ _ => pure _) _

theorem noCompileFault_chain : ∀ {c : Chain}, c.Declared → NoCompileFault (chain c)
  | .empty, _ => pure _
  | .nodeRules rules, _ => noCompileFault_nodeRules rules
  | .relRules _ _, h => noCompileFault_relRules h
  | .fn _, h => nomatch h
  | .seq _, h => nomatch h
  | .mergeRels _, h => nomatch h

theorem noCompileFault_ruleSet {rs : RuleSet} (h : rs.Declared) : NoCompileFault (ruleSet rs) :=
  bind noCompileFault_record fun r => bind noCompileFault_read fun env => by
    cases hc : rs.chainFor? r.recordType env.phase with
    | some c => exact noCompileFault_chain (h.chainFor hc)
    | none => exact pure _

end RuleM

section Fold

variable {α β ε : Type} {f : β → α → Except ε β}

theorem foldlM_except_ok_iff {Q : α → Prop} (hf : ∀ b a, (∃ b', f b a = .ok b') ↔ Q a) :
    ∀ (l : List α) (b : β), (∃ res, l.foldlM f b = .ok res) ↔ ∀ a ∈ l, Q a
  | [], b => by simp [List.foldlM_nil, pure, Except.pure]
  | a :: l, b => by
    rw [List.foldlM_cons, List.forall_mem_cons]
    cases hb : f b a with
    | error e =>
      have hq : ¬Q a := fun hq => by
        obtain ⟨b', hb'⟩ := (hf b a).mpr hq
        rw [hb] at hb'
        cases hb'
      simp [bind, Except.bind, hq]
    | ok b' =>
      have hq : Q a := (hf b a).mp ⟨b', hb⟩
      simp only [bind, Except.bind]
      rw [foldlM_except_ok_iff hf l b']
      simp [hq]

theorem foldlM_except_prefix (I : List α → β → Prop)
    (hf : ∀ pre a b b', f b a = .ok b' → I pre b → I (pre ++ [a]) b') :
    ∀ (pre : List α) {l : List α} {b res : β}, l.foldlM f b = .ok res → I pre b → I (pre ++ l) res
  | _, [], _, _, h, hb => by
    cases h
    simpa using hb
  | pre, a :: l, b, res, h, hb => by
    rw [List.foldlM_cons] at h
    cases ha : f b a with
    | error e => simp [ha, bind, Except.bind] at h
    | ok b' =>
      simp only [ha, bind, Except.bind] at h
      simpa using foldlM_except_prefix I hf (pre ++ [a]) h (hf pre a b b' ha hb)

end Fold

namespace RuleDocument

theorem compile_ok_iff (d : RuleDocument) :
    (∃ rs, d.compile = .ok rs) ↔ ∀ entry ∈ d.entities, entry.2.WellFormed := by
  unfold compile
  refine foldlM_except_ok_iff (fun rs ⟨entity, spec⟩ => ?_) d.entities ({} : RuleSet)
  rw [← (checkEntity_eq_ok spec : checkEntity entity spec = .ok () ↔ _)]
  cases hc : checkEntity entity spec with
  | error e => simp [hc, bind, Except.bind]
  | ok u => simp [hc, bind, Except.bind, pure, Except.pure]

/-- What the rule set a document compiles to has: every type of the document has a chain in a
phase exactly when it has rules for that phase, and every chain is one a document compiles to. -/
theorem compile_ok_declared {d : RuleDocument} {rs : RuleSet} (h : d.compile = .ok rs) :
    (∀ t q, t ∈ rs.typeMask q ↔ ∃ spec, (t, spec) ∈ d.entities ∧ (spec.chain q).isEmpty = false) ∧
      rs.Declared := by
  unfold compile at h
  -- the invariant holds of the types compiled so far
  refine foldlM_except_prefix
    (fun pre rs => (∀ t q, t ∈ rs.typeMask q ↔
      ∃ spec, (t, spec) ∈ pre ∧ (spec.chain q).isEmpty = false) ∧ rs.Declared)
    (fun pre ⟨entity, spec⟩ rs rs' hstep ⟨hmask, hdecl⟩ => ?_) [] h
    ⟨fun t q => by simp [RuleSet.typeMask], fun _ h => nomatch h⟩
  cases hc : checkEntity entity spec with
  | error e => simp [hc, bind, Except.bind] at hstep
  | ok u =>
    simp only [hc, bind, Except.bind, pure, Except.pure, Except.ok.injEq] at hstep
    subst hstep
    have hwf := (checkEntity_eq_ok spec).mp hc
    refine ⟨fun t q => ?_, ?_⟩
    · rw [RuleSet.mem_typeMask_insertIf (b := spec.relationships.isEmpty)
          (c := .relRules spec.relationships spec.nodes) _ rfl,
        RuleSet.mem_typeMask_insertIf (b := spec.nodes.isEmpty) (c := .nodeRules spec.nodes) _ rfl, hmask]
      simp only [(List.perm_append_singleton _ _).mem_iff]
      rw [exists_mem_cons_pair]
      cases q <;> simp [EntityRules.chain, Chain.isEmpty]
    · exact (hdecl.insertIf (c := .nodeRules spec.nodes) trivial).insertIf
        ⟨hwf.ids_nodup, fun rel hrel => ⟨(hwf.rels rel hrel).source, (hwf.rels rel hrel).target⟩⟩

/-- A rule document compiles exactly when the rules of every type are well formed. The rule set
it compiles to has a type in a phase's mask exactly when the type has rules for that phase, and
applied to any record, against any store and in any state, it never faults as the rules of a
document that does not compile would. -/
theorem compile_sound_and_complete (d : RuleDocument) :
    ((∃ rs, d.compile = .ok rs) ↔ ∀ entry ∈ d.entities, entry.2.WellFormed) ∧
    ∀ rs, d.compile = .ok rs →
      (∀ t, t ∈ rs.typeMask .node ↔ ∃ spec, (t, spec) ∈ d.entities ∧ spec.nodes ≠ []) ∧
      (∀ t, t ∈ rs.typeMask .relationship ↔
        ∃ spec, (t, spec) ∈ d.entities ∧ spec.relationships ≠ []) ∧
      ∀ env st text, ((RuleM.ruleSet rs).run env st).1 ≠ .error (.rule (.compile text)) := by
  refine ⟨compile_ok_iff d, fun rs h => ?_⟩
  obtain ⟨hmask, hdecl⟩ := compile_ok_declared h
  refine ⟨fun t => ?_, fun t => ?_, RuleM.noCompileFault_ruleSet hdecl⟩
  · simpa [EntityRules.chain, Chain.isEmpty] using hmask t .node
  · simpa [EntityRules.chain, Chain.isEmpty] using hmask t .relationship

/-- An endpoint naming a node rule without a primary key is refused. -/
example : (RuleDocument.compile ⟨[("Person",
    { nodes := [{ id := "person", labels := ["Person"] }],
      relationships := [{ relType := "KNOWS", source := .node "person", target := .node "person" }] })]⟩).isOk =
      false := by
  decide

end RuleDocument

end GraphIngest
