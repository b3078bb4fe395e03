import GraphIngest.Proofs.Convert.Abort
import GraphIngest.Proofs.Store.KeyedMerge

/-! # What a worker's rules and writes touch

Applying rules leaves the store as it was and, when it goes through, is the world's application
of the run's rules (`Run.applyRules_ok`); a write either fails and leaves the store, or is the
store's own create or merge (`World.write_cases`). A relationship pushed onto a fragment keeps
what every relationship of it satisfies (`KeyedParts.forall_pushRel`).
-/

namespace GraphIngest

open Run (WorkerEnd)

namespace Pool

section Worlds

variable {σ : Type} [GraphStore σ]

@[simp] theorem World.apply_store (w : World σ) (rules : RuleSet) (phase : Phase) (rec : Record) :
    (w.apply rules phase rec).1.store = w.store := by
  dsimp only [World.apply]

theorem Run.applyRules_store {r r' : Run σ} {phase : Phase} {rec : Record}
    {res : Except WorkerEnd (Record × Fragment)} (h : r.applyRules phase rec = (r', res)) :
    r'.world.store = r.world.store := by
  have := Run.applyRules_world r phase rec
  rw [h] at this
  rw [this, World.apply_store]

theorem Run.applyRules_ok {r r' : Run σ} {phase : Phase} {rec rec' : Record} {f : Fragment}
    (h : r.applyRules phase rec = (r', .ok (rec', f))) :
    ∃ w' rec'', r.world.apply r.conv.rules phase rec = (w', .ok f, rec'') ∧ rec' = rec''.clearSupplies := by
  unfold Run.applyRules at h
  split at h
  next w res rec₀ heq =>
    split at h
    next f₀ =>
      obtain ⟨-, h⟩ := Prod.mk.inj h
      obtain ⟨rfl, rfl⟩ := Prod.mk.inj (Except.ok.inj h)
      exact ⟨w, rec₀, heq, rfl⟩
    all_goals cases h

theorem World.write_cases {w w' : World σ} {k : WriteKind} {f : Fragment}
    {res : Except StorageError Fragment} (h : w.write k f = (w', res)) :
    (w'.store = w.store ∧ ∃ e, res = .error e) ∨
      (match k with
        | .create => GraphStore.create w.store f
        | .merge => GraphStore.merge w.store f) = (w'.store, res) := by
  by_cases hf : w.plan.failWrites.contains (w.writes + 1) = true
  · simp only [World.write, hf, if_true, Prod.mk.injEq] at h
    obtain ⟨rfl, rfl⟩ := h
    exact .inl ⟨rfl, _, rfl⟩
  · right
    simp only [World.write, hf, Bool.false_eq_true, if_false] at h
    cases k <;> dsimp only at h ⊢ <;> (cases h; rfl)

end Worlds

end Pool

namespace KeyedParts

variable {key : String → String} {built : Node → Prop}

theorem forall_pushRel {f : Fragment} {r : Relationship} {P : Relationship → Prop}
    (h : ∀ x ∈ f.rels, P x) (hr : P r) : ∀ x ∈ (f.pushRel r).rels, P x := by
  intro x hx
  rcases List.mem_append.mp hx with hx | hx
  · exact h x hx
  · exact List.mem_singleton.mp hx ▸ hr

end KeyedParts

namespace Pool

variable {key : String → String} {built : Node → Prop}

variable {p : Pool Store} {i : Nat} {w : Worker}

theorem Advances.rules {r b w'} (ha : p.Advances i w r b w') : r.conv.rules = p.run.conv.rules := by
  cases ha with
  | apply _ _ _ happ | ruleFault _ _ _ happ => simp [Run.tick, Run.applyRules_conv happ]
  | _ => rfl

variable {rules : RuleSet} {ph : Phase} {g₀ : Graph}

end Pool

namespace RuleM

variable {α β : Type} (env : RuleEnv) (s : RuleState)

@[simp] theorem run_read : (MonadReader.read : RuleM RuleEnv).run env s = (.ok env, s) := rfl

@[simp] theorem run_pure (a : α) : (pure a : RuleM α).run env s = (.ok a, s) := rfl

@[simp] theorem run_supply (id : String) (f : Fragment) :
    (supply id f).run env s = (.ok (), { s with record := s.record.setSupply id f }) := rfl

@[simp] theorem run_ofExcept_error (e : RuleError) :
    (ofExcept (.error e) : RuleM α).run env s = (.error (.rule e), s) := rfl

theorem run_ruleSet (rs : RuleSet) : (ruleSet rs).run env s =
    match rs.chainFor? s.record.recordType env.phase with
    | some c => (chain c).run env s
    | none => (.ok Fragment.empty, s) := by
  simp only [ruleSet, run_bind, run_record, run_read]
  cases rs.chainFor? s.record.recordType env.phase <;> rfl

theorem foldlM_ok_inv {f : β → α → RuleM β} (P : β → Prop) :
    ∀ {l : List α} {b : β} {s : RuleState} {b' : β} {s' : RuleState},
      (∀ a ∈ l, ∀ b s b' s', P b → (f b a).run env s = (.ok b', s') → P b') →
      P b → (l.foldlM f b).run env s = (.ok b', s') → P b'
  | [], b, s, b', s', _, hb, h => by
    simp only [List.foldlM_nil, run_pure, Prod.mk.injEq, Except.ok.injEq] at h
    exact h.1 ▸ hb
  | a :: l, b, s, b', s', hf, hb, h => by
    rw [List.foldlM_cons, run_bind] at h
    rcases ha : (f b a).run env s with ⟨r, s₁⟩
    rw [ha] at h
    cases r with
    | error e => cases h
    | ok b₁ =>
      exact foldlM_ok_inv P (fun a' ha' => hf a' (List.mem_cons_of_mem _ ha'))
        (hf a List.mem_cons_self b s b₁ s₁ hb ha) h

end RuleM

end GraphIngest
