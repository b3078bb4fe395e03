import GraphIngest.Proofs.Convert.Isolation

/-! # Whole conversions leave the same graph

A whole conversion (`Run.runBy`) runs the node phase over the records its source holds, keeps the
batches the workers handed back when there are relationship rules, and runs the relationship
phase over those batches replayed, sealed again in isolated mode, or else over the source read
again. Played by pools of any size under any schedule (`Run.Pooled`), the relationship phase so
sees exactly what the node rules left of the records (`NodeRulesLeave`), whatever the settings:
two whole conversions of the same records that succeed leave the same graph but for identities
(`Run.whole_conversions_leave_isomorphic_graphs`).
-/

namespace GraphIngest

open Pool
open GraphIngest.Sequential (envelope)

/-! ## What each phase is handed -/

/-- Against every world, the node rules leave each record of `rs` as the record of `rs'` in its
place. -/
def NodeRulesLeave (rules : RuleSet) (rs rs' : List Record) : Prop :=
  List.Forall₂ (fun rec out => ∀ out', Leaves Store rules .node rec out' → out' = out) rs rs'

theorem NodeRulesLeave.eq {rules : RuleSet} {rs rs' outs : List Record} (h : NodeRulesLeave rules rs rs')
    (hl : List.Forall₂ (Leaves Store rules .node) rs outs) : outs = rs' := by
  induction hl generalizing rs' with
  | nil => cases h; rfl
  | cons hx _ ih =>
    cases h with
    | cons hy h' => rw [hy _ hx, ih h']

/-- Node rules free of code leave records without supplies as they are. -/
theorem nodeRulesLeave_of_codeFree {rules : RuleSet} (h : rules.CodeFree .node) {rs : List Record}
    (hs : ∀ x ∈ rs, x.supplies = []) : NodeRulesLeave rules rs rs := by
  refine List.forall₂_same.mpr fun rec hrec out hl => ?_
  unfold Leaves at hl
  split at hl
  · obtain ⟨w, w', f, rec', happ, rfl⟩ := hl
    have hclear := World.apply_clearSupplies w h rec
    rw [happ] at hclear
    exact hclear.trans (Record.clearSupplies_eq_self (hs rec hrec))
  · exact hl

/-- Records open to themselves in shared mode, and in isolated mode when they cross a parcel. -/
theorem envelope_of_mode {mode : WorkerMode} {c : List Record} (h : mode = .isolated → ∀ x ∈ c, x.Crosses) :
    envelope mode c = .ok c := by
  cases mode with
  | shared => rfl
  | isolated => exact envelope_of_crosses _ (h rfl)

theorem Batcher.delivers_ofItems {rs : List Record} {mode : WorkerMode} (retain : Bool)
    (h : mode = .isolated → ∀ x ∈ rs, x.Crosses) : (Batcher.ofItems (rs.map .ok) mode retain).Delivers rs :=
  ⟨(fun he => nomatch he), rfl, fun _ _ _ heq _ => envelope_of_mode fun hm x hx =>
    h hm x (heq ▸ List.mem_append_left _ (List.mem_append_right _ hx))⟩

/-- Kept batches that open as the chunks `outs` replay, when these open to themselves, their
records in order. -/
theorem Batcher.delivers_ofRetained {bs : List Batch} {mode : WorkerMode} {outs : List (List Record)}
    (hq : (Batcher.ofRetained bs mode).Queue outs) (henv : ∀ c ∈ outs, envelope mode c = .ok c) :
    (Batcher.ofRetained bs mode).Delivers outs.flatten :=
  ⟨(fun he => nomatch he), outs, hq.2.2.trans (List.map_congr_left henv), rfl⟩

/-- Chunks that open to themselves, processed by the node rules, leave record by record what the
rules leave of each. -/
theorem leaves_of_processed {rules : RuleSet} {mode : WorkerMode} {chunks outs : List (List Record)}
    (hp : List.Forall₂ (Processed Store rules .node mode) chunks outs)
    (henv : ∀ c ∈ chunks, envelope mode c = .ok c) :
    List.Forall₂ (Leaves Store rules .node) chunks.flatten outs.flatten := by
  induction hp with
  | nil => exact .nil
  | @cons c out _ _ hc _ ih =>
    obtain ⟨seen, hseen, hl⟩ := hc
    rw [henv c List.mem_cons_self] at hseen
    cases hseen
    exact List.rel_append hl (ih fun c' hc' => henv c' (List.mem_cons_of_mem _ hc'))

theorem flatMap_produce_nil (F : Record → List Element) (l : List Record) : l.flatMap (produce F []) = [] := by
  simp [produce]

/-- Relationship rules asked of one list of records are asked of any as long, when no record type
has relationship rules. -/
theorem Pool.RelPhaseRules.of_typeMask_nil {rules : RuleSet} {kind : String → Option RelKey}
    {tables : List (Nat × StoredNode) → Prop} {F : List (Nat × StoredNode) → Record → List Element}
    {rs rs' : List Record} {K : Nat} (hr : RelPhaseRules rules kind tables F rs' K)
    (hm : rules.typeMask .relationship = []) (hlen : rs.length = rs'.length) : RelPhaseRules rules kind tables F rs K where
  yields := hr.yields
  mints := hr.mints
  bound := hlen ▸ hr.bound
  shapes N hN := by
    have hs := hr.shapes N hN
    rw [hm, flatMap_produce_nil] at hs ⊢
    exact hs
  joins N _ e he := by
    rw [hm, flatMap_produce_nil] at he
    simp [Element.edges] at he
  renamed := hr.renamed

/-! ## A phase played to its end -/

section Phases

variable {σ : Type} [GraphStore σ]

/-- A phase a pool played to its end normally hands on the run's rules, settings, kept batches and
source, in the world the pool left. -/
theorem outcome_keeps {n : Nat} {r : Run σ} {ph : Phase} {b : Batcher} {hint : Option Nat} {ms : List Move}
    {r' : Run σ} {b' : Batcher} (h : ((start n r ph b hint).play ms).outcome = (r', .ok b')) :
    r'.conv.rules = r.conv.rules ∧ r'.conv.config = r.conv.config ∧ r'.conv.retained = r.conv.retained ∧
      r'.world = ((start n r ph b hint).play ms).run.world ∧ r'.world.source = r.world.source := by
  have hconv := (outcome_conv ((start n r ph b hint).play ms)).1
  have hcounts := play_onlyCounts (start n r ph b hint) ms
  have hw := outcome_world ((start n r ph b hint).play ms)
  unfold Run.OnlyCounts at hcounts
  rw [h] at hconv hw
  refine ⟨by rw [hconv, hcounts]; rfl, by rw [hconv, hcounts]; rfl, by rw [hconv, hcounts]; rfl, hw, ?_⟩
  rw [hw, play_source]
  rfl

end Phases

theorem openSource_items {r : Run Store} {rs : List Record} (h : r.world.source = .items (rs.map .ok)) :
    Run.openSource r = (r, .ok (rs.map .ok)) := by
  have hread : (if r.world.sharesStore then GraphStore.readBy r.world.store r.world.source else r.world.source) =
      .items (rs.map .ok) := by
    rw [h]
    split
    · exact Source.readThrough_items (some r.world.store) _
    · rfl
  have hitems : (rs.map Except.ok).map (fun x : Except String Record => x.mapError SourceError.other) =
      rs.map .ok := by
    simp [Function.comp_def, Except.mapError]
  unfold Run.openSource
  dsimp only
  rw [hread]
  simp only [Source.openPass, hitems]
  rw [← h]

/-! ## The two stages of a whole conversion -/

namespace Run

variable {rules : RuleSet} {key : String → String} {kind : String → Option RelKey}
  {Fn : Record → List Element} {F : List (Nat × StoredNode) → Record → List Element}
  {U : List Element} {rs rs' : List Record} {K K' : Nat} {φ : PhaseRunner Store}

/-- A whole conversion of the records `rs` into an empty memory store by the rules `rules`, whose
node rules leave them as `rs'`: its source holds them as items and, in isolated mode, they and what
the rules leave of them cross a parcel unchanged. -/
structure Converts (rules : RuleSet) (rs rs' : List Record) (r : Run Store) : Prop where
  rules : r.conv.rules = rules
  store : r.world.store = .memory Graph.empty
  source : r.world.source = .items (rs.map .ok)
  crosses : r.conv.config.workerMode = .isolated → (∀ x ∈ rs, x.Crosses) ∧ ∀ x ∈ rs', x.Crosses

/-- A conversion after its node stage: the rules and the source as they were, a memory store
holding a node table of the nodes `U` and no relationship, and either kept batches replaying the
records `rs'` or none kept and no relationship rules. -/
structure NodesDone (rules : RuleSet) (key : String → String) (U : List Element) (rs rs' : List Record)
    (r : Run Store) (g : Graph) : Prop where
  rules_eq : r.conv.rules = rules
  source : r.world.source = .items (rs.map .ok)
  crosses : r.conv.config.workerMode = .isolated → ∀ x ∈ rs, x.Crosses
  store : r.world.store = .memory g
  sane : g.Sane
  rels : g.rels = []
  table : NodeTable key U g.nodes
  kept : (∃ bs, r.conv.retained = some bs ∧ (Batcher.ofRetained bs r.conv.config.workerMode).Delivers rs') ∨
    (r.conv.retained = none ∧ rules.typeMask .relationship = [])

theorem NodesDone.complete {r : Run Store} {g : Graph} (h : r.NodesDone rules key U rs rs' g) (ph : Phase) :
    (Run.complete r ph).NodesDone rules key U rs rs' g := by
  rw [complete_eq]
  exact ⟨h.rules_eq, h.source, h.crosses, h.store, h.sane, h.rels, h.table, h.kept⟩

/-- **The node stage.** The node phase of a whole conversion that succeeds leaves a node table of
the nodes the rules built and, with relationship rules, keeps batches replaying what the node
rules left of the records. -/
theorem nodeStageBy_done (hφ : Pooled φ) (hn : NodePhaseRules rules key Fn rs K) (hleft : NodeRulesLeave rules rs rs')
    {r : Run Store} (hc : r.Converts rules rs rs') {hint : Option Nat} {r' : Run Store} {ran : List Phase}
    (h : nodeStageBy φ r false hint = (r', .ok ran)) :
    ∃ g, r'.NodesDone rules key (rs.flatMap (produce Fn (rules.typeMask .node))) rs rs' g := by
  unfold nodeStageBy at h
  simp only [Bool.false_eq_true, if_false] at h
  rw [openSource_items (r := { r with conv := { r.conv with state := .nodePhase, retained := none } }) hc.source] at h
  dsimp only at h
  generalize hk : (!(r.conv.rules.typeMask .relationship).isEmpty) = k at h
  split at h
  next => cases h
  next r₂ b hp =>
  cases h
  set mode := r.conv.config.workerMode
  have hcross : mode = .isolated → ∀ x ∈ rs, x.Crosses := fun hm => (hc.crosses hm).1
  obtain ⟨n, ms, hpos, hfin, hout⟩ := hφ _ _ _ _ _ _ hp
  obtain ⟨g, hst, hs, hrels, htab⟩ := node_phase_table hn hpos
    { r with conv := { r.conv with state := .nodePhase, retained := none } } (Batcher.ofItems (rs.map .ok) mode k)
    hint ms hc.rules hc.store
    (Batcher.delivers_ofItems k hcross) hfin (congrArg Prod.snd hout)
  obtain ⟨hrules₂, hconfig₂, hret₂, hworld₂, hsrc₂⟩ := outcome_keeps hout
  refine ⟨g, NodesDone.complete ?_ .node⟩
  cases k with
  | false =>
    -- no relationship rules: nothing kept, and the relationship phase reads the source again
    have hmask : rules.typeMask .relationship = [] := by
      rw [← hc.rules]
      simpa using hk
    rw [if_neg Bool.false_ne_true]
    exact ⟨hrules₂.trans hc.rules, hsrc₂.trans hc.source, by rw [hconfig₂]; exact hcross,
      by rw [hworld₂]; exact hst, hs, hrels, htab, .inr ⟨hret₂, hmask⟩⟩
  | true =>
    -- the kept batches replay what the node rules left of each chunk the phase read
    rw [if_pos rfl]
    obtain ⟨chunks, outs, hitems, -, hproc, hq⟩ :=
      node_phase_keeps_batches hpos _ (rs.map .ok) mode hint ms hfin (congrArg Prod.snd hout)
    have hflat : chunks.flatten = rs :=
      (List.map_injective_iff.mpr fun _ _ h => Except.ok.inj h) hitems.symm
    have hchunks : ∀ c ∈ chunks, envelope mode c = .ok c := fun c hc' => envelope_of_mode fun hm x hx =>
      hcross hm x (hflat ▸ List.mem_flatten.mpr ⟨c, hc', hx⟩)
    have hrules₁ : ({ r with conv := { r.conv with state := .nodePhase, retained := none } } : Run Store).conv.rules =
        rules := hc.rules
    have houts : outs.flatten = rs' :=
      hleft.eq (hflat ▸ hrules₁ ▸ leaves_of_processed hproc hchunks)
    have houts' : ∀ c ∈ outs, envelope mode c = .ok c := fun c hc' => envelope_of_mode fun hm x hx =>
      (hc.crosses hm).2 x (houts ▸ List.mem_flatten.mpr ⟨c, hc', hx⟩)
    refine ⟨hrules₂.trans hc.rules, hsrc₂.trans hc.source, by rw [hconfig₂]; exact hcross,
      by rw [hworld₂]; exact hst, hs, hrels, htab, .inl ⟨b.takeRetained.1, rfl, ?_⟩⟩
    show (Batcher.ofRetained b.takeRetained.1 r₂.conv.config.workerMode).Delivers rs'
    rw [hconfig₂, ← houts]
    exact Batcher.delivers_ofRetained hq houts'

/-- **The relationship stage.** The relationship phase of a whole conversion that succeeds keeps
the nodes and leaves what a relationship phase leaves of the relationships the rules built
against them, from the records the node rules left. -/
theorem relStageBy_edges (hφ : Pooled φ) (hr : RelPhaseRules rules kind (NodeTable key U) F rs' K')
    (hlen : rs.length = rs'.length) {r : Run Store} {g₁ : Graph} (hd : r.NodesDone rules key U rs rs' g₁)
    {ran ran' : List Phase} {hint : Option Nat} {r' : Run Store} (h : relStageBy φ r false ran hint = (r', .ok ran')) :
    ∃ g, r'.world.store = .memory g ∧ g.nodes = g₁.nodes ∧
      (g.rels.map Prod.snd).Perm
        (canonEdges (Element.edges (rs'.flatMap (produce (F g₁.nodes) (rules.typeMask .relationship))))) := by
  unfold relStageBy at h
  simp only [Bool.false_eq_true, if_false] at h
  split at h
  rotate_left
  · cases h
  rename_i u hrp
  cases h
  -- the phase ran over `b` from `r₀`; the run it handed on is finished with what it left
  have hfinish : ∀ {r₀ : Run Store} {b : Batcher} {rs₀ : List Record},
      finishRelationships (φ r₀ .relationship b hint) = (r', .ok u) →
      RelPhaseRules rules kind (NodeTable key U) F rs₀ K' → r₀.conv.rules = rules → r₀.world.store = .memory g₁ →
      b.Delivers rs₀ →
      ∃ g, r'.world.store = .memory g ∧ g.nodes = g₁.nodes ∧
        (g.rels.map Prod.snd).Perm
          (canonEdges (Element.edges (rs₀.flatMap (produce (F g₁.nodes) (rules.typeMask .relationship))))) := by
    intro r₀ b rs₀ hfin hr₀ hrules hst hdel
    rcases hph : φ r₀ .relationship b hint with ⟨r₂, e | b₂⟩ <;> rw [hph] at hfin
    · cases hfin
    obtain ⟨rfl, -⟩ := Prod.mk.inj hfin
    obtain ⟨n, ms, hpos, hplay, hout⟩ := hφ _ _ _ _ _ _ hph
    obtain ⟨g, hst', hnodes, hperm⟩ := rel_phase_edges hr₀ hpos r₀ b hint ms hrules hst hd.sane hd.rels hd.table hdel
      hplay (congrArg Prod.snd hout)
    obtain ⟨-, -, -, hworld, -⟩ := outcome_keeps hout
    refine ⟨g, ?_, hnodes, hperm⟩
    rw [complete_eq]
    show r₂.world.store = _
    rw [hworld]
    exact hst'
  rcases hd.kept with ⟨bs, hbs, hdel⟩ | ⟨hnone, hmask⟩
  · rw [relationshipPhaseBy_retained φ r hint bs hbs] at hrp
    exact hfinish hrp hr hd.rules_eq hd.store hdel
  · -- no batches kept: the phase reads the source again, and no rule builds anything from it
    rw [relationshipPhaseBy_none φ r hint hnone,
      openSource_items (r := { r with conv := { r.conv with state := .relationshipPhase } }) hd.source] at hrp
    dsimp only at hrp
    obtain ⟨g, hst, hnodes, hperm⟩ := hfinish hrp (hr.of_typeMask_nil hmask hlen) hd.rules_eq hd.store
      (Batcher.delivers_ofItems false hd.crosses)
    refine ⟨g, hst, hnodes, ?_⟩
    rw [hmask, flatMap_produce_nil] at hperm ⊢
    exact hperm

/-- **What a whole conversion that succeeds leaves**: a store whose node table is one a node phase
leaves of the nodes the rules built, and whose relationships are what a relationship phase leaves
of those the rules built against it, from what the node rules left of the records. -/
theorem runBy_leaves (hφ : Pooled φ) (hn : NodePhaseRules rules key Fn rs K)
    (hr : RelPhaseRules rules kind (NodeTable key (rs.flatMap (produce Fn (rules.typeMask .node)))) F rs' K')
    (hleft : NodeRulesLeave rules rs rs') {r : Run Store} (hc : r.Converts rules rs rs') {r' : Run Store}
    {s : RunSummary} (h : runBy φ r {} = (r', .ok s)) :
    ∃ g, r'.world.store = .memory g ∧ NodeTable key (rs.flatMap (produce Fn (rules.typeMask .node))) g.nodes ∧
      (g.rels.map Prod.snd).Perm
        (canonEdges (Element.edges (rs'.flatMap (produce (F g.nodes) (rules.typeMask .relationship))))) := by
  unfold runBy at h
  dsimp only at h
  split at h
  · cases h
  split at h
  · cases h
  rename_i r₁ ran hn₁
  split at h
  · cases h
  rename_i r₂ ran' hr₂
  cases h
  obtain ⟨g₁, hd⟩ := nodeStageBy_done (r := { r with conv := { r.conv with counters := {} } }) hφ hn hleft
    ⟨hc.rules, hc.store, hc.source, hc.crosses⟩ hn₁
  obtain ⟨g, hst, hnodes, hperm⟩ := relStageBy_edges hφ hr hleft.length_eq hd hr₂
  exact ⟨g, hst, hnodes ▸ hd.table, hnodes ▸ hperm⟩

/-- **Any two whole conversions that succeed leave the same graph, but for identities.** Take node
rules and relationship rules as `NodePhaseRules` and `RelPhaseRules` ask, the node rules leaving
each record the same against every store. Two whole conversions of the same records into an empty
memory store, each played by pools of any size under any schedule, under any settings, which both
succeed, leave stores holding the same graph but for a renaming of node identities. -/
theorem whole_conversions_leave_isomorphic_graphs (φA φB : PhaseRunner Store) (hA : Pooled φA) (hB : Pooled φB)
    (hn : NodePhaseRules rules key Fn rs K)
    (hr : RelPhaseRules rules kind (NodeTable key (rs.flatMap (produce Fn (rules.typeMask .node)))) F rs' K')
    (hleft : NodeRulesLeave rules rs rs') {rA rB : Run Store} (hcA : rA.Converts rules rs rs')
    (hcB : rB.Converts rules rs rs') {sA sB : RunSummary} (hokA : (runBy φA rA {}).2 = .ok sA)
    (hokB : (runBy φB rB {}).2 = .ok sB) :
    ∃ gA gB, (runBy φA rA {}).1.world.store = .memory gA ∧ (runBy φB rB {}).1.world.store = .memory gB ∧
      gA.Iso gB := by
  obtain ⟨gA, hstA, htA, hrelA⟩ := runBy_leaves hA hn hr hleft hcA (by rw [← hokA])
  obtain ⟨gB, hstB, htB, hrelB⟩ := runBy_leaves hB hn hr hleft hcB (by rw [← hokB])
  exact ⟨gA, gB, hstA, hstB, iso_of_tables hr htA hrelA htB hrelB⟩

end Run

/-! ## People and their edges, converted whole -/

/-- Each phase played under the schedule `sched`; a phase it leaves unfinished ends as cancelled. -/
def Pool.finishing (sched : Phase → Nat × List Move) : Run.PhaseRunner Store := fun r ph b hint =>
  let q := (start (sched ph).1 r ph b hint).play (sched ph).2
  if q.finished then q.outcome else (q.run, .error .cancelled)

theorem Pool.finishing_pooled {sched : Phase → Nat × List Move} (hpos : ∀ ph, 0 < (sched ph).1) :
    Run.Pooled (finishing sched) := by
  intro r ph b hint r' b' h
  refine ⟨(sched ph).1, (sched ph).2, hpos ph, ?_⟩
  simp only [finishing] at h
  split at h
  next hfin => exact ⟨hfin, h⟩
  next => exact absurd (congrArg Prod.snd h) (by simp)

/-- Two workers stepping in turn through each phase. -/
def pairedPeople : Run.PhaseRunner Store := Pool.finishing fun _ => (2, alternating)

theorem peopleRules_codeFree : peopleRules.CodeFree .node := by
  intro e he
  simp only [peopleRules, List.mem_cons, List.not_mem_nil, or_false] at he
  rcases he with rfl | rfl <;> constructor

theorem peopleRun_converts (c : Config) (hc : c.workerMode = .shared) :
    (peopleRun c).Converts peopleRules peopleRecords peopleRecords :=
  ⟨rfl, rfl, rfl, fun h => absurd (hc.symm.trans h) (by decide)⟩

/-- Two workers taking one record at a time, and one worker in serialize mode, each converting the
people and their edges in one whole call, leave the same graph but for identities. -/
theorem people_runs_isomorphic :
    Run.Pooled pairedPeople ∧ Run.Pooled Run.soloRunner ∧
      NodePhaseRules peopleRules (fun _ => "ID") personNodes peopleRecords 1 ∧
      RelPhaseRules peopleRules ghostKind
        (NodeTable (fun _ => "ID") (peopleRecords.flatMap (produce personNodes (peopleRules.typeMask .node))))
        ghostEdges peopleRecords 0 ∧
      NodeRulesLeave peopleRules peopleRecords peopleRecords ∧
      (peopleRun { workers := some 2, batchSize := 1 }).Converts peopleRules peopleRecords peopleRecords ∧
      (peopleRun Config.serialized).Converts peopleRules peopleRecords peopleRecords ∧
      (Run.runBy pairedPeople (peopleRun { workers := some 2, batchSize := 1 }) {}).2.isOk = true ∧
      (Run.runBy Run.soloRunner (peopleRun Config.serialized) {}).2.isOk = true ∧
      ∃ gA gB, (Run.runBy pairedPeople (peopleRun { workers := some 2, batchSize := 1 }) {}).1.world.store = .memory gA ∧
        (Run.runBy Run.soloRunner (peopleRun Config.serialized) {}).1.world.store = .memory gB ∧ gA.Iso gB := by
  have hpaired : Run.Pooled pairedPeople := Pool.finishing_pooled fun _ => by decide
  have hleave : NodeRulesLeave peopleRules peopleRecords peopleRecords :=
    nodeRulesLeave_of_codeFree peopleRules_codeFree fun x hx => by
      simp only [peopleRecords, List.mem_cons, List.not_mem_nil, or_false] at hx
      rcases hx with rfl | rfl | rfl | rfl | rfl <;> rfl
  have hcA := peopleRun_converts { workers := some 2, batchSize := 1 } rfl
  have hcB := peopleRun_converts Config.serialized rfl
  have hokA : (Run.runBy pairedPeople (peopleRun { workers := some 2, batchSize := 1 }) {}).2.isOk = true := by
    decide +kernel
  have hokB : (Run.runBy Run.soloRunner (peopleRun Config.serialized) {}).2.isOk = true := by
    decide +kernel
  obtain ⟨sA, hsA⟩ := exists_ok_of_isOk hokA
  obtain ⟨sB, hsB⟩ := exists_ok_of_isOk hokB
  exact ⟨hpaired, Run.soloRunner_pooled, peopleNodePhase, peopleRelPhase, hleave, hcA, hcB, hokA, hokB,
    Run.whole_conversions_leave_isomorphic_graphs pairedPeople Run.soloRunner hpaired Run.soloRunner_pooled
      peopleNodePhase peopleRelPhase hleave hcA hcB hsA hsB⟩

end GraphIngest
