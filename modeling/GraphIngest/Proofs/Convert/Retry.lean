import Mathlib
import GraphIngest.Convert.Run

/-! # Retrying a commit

A commit part is written as the retry policy allows: up to `max attempts 1` tries, the loop ending
at the first try that succeeds, at the last try, or in the pause after a failed try when the
cancellation token has tripped by then. Tries are writes of the same fragment through the world,
so the outcomes of successive tries are those of successive writes, whatever the store and its
fault plan make them. `World.afterWrites` is the world after a number of tries and
`World.tryOutcome` the outcome of the next one.
-/

namespace GraphIngest

namespace World

variable {σ : Type} [GraphStore σ]

/-- The world after `n` tries of one write, one after another. -/
def afterWrites (w : World σ) (k : WriteKind) (f : Fragment) : Nat → World σ
  | 0 => w
  | n + 1 => (w.write k f).1.afterWrites k f n

/-- The outcome of the try of a write made after `n` tries of it. -/
def tryOutcome (w : World σ) (k : WriteKind) (f : Fragment) (n : Nat) : Except StorageError Fragment :=
  ((w.afterWrites k f n).write k f).2

@[simp] theorem afterWrites_zero (w : World σ) (k : WriteKind) (f : Fragment) :
    w.afterWrites k f 0 = w := rfl

theorem afterWrites_succ (w : World σ) (k : WriteKind) (f : Fragment) (n : Nat) :
    w.afterWrites k f (n + 1) = (w.write k f).1.afterWrites k f n := rfl

theorem afterWrites_succ_write (k : WriteKind) (f : Fragment) :
    ∀ (w : World σ) (n : Nat), w.afterWrites k f (n + 1) = ((w.afterWrites k f n).write k f).1
  | _, 0 => rfl
  | w, n + 1 => afterWrites_succ_write k f (w.write k f).1 n

theorem tryOutcome_zero (w : World σ) (k : WriteKind) (f : Fragment) :
    w.tryOutcome k f 0 = (w.write k f).2 := rfl

theorem tryOutcome_succ (w : World σ) (k : WriteKind) (f : Fragment) (n : Nat) :
    w.tryOutcome k f (n + 1) = (w.write k f).1.tryOutcome k f n := rfl

end World

namespace Run

variable {σ : Type} [GraphStore σ] (policy : RetryPolicy) (phase : Phase) (k : WriteKind) (f : Fragment)

section Step

variable {policy phase k f} {w w' : World σ} {fuel attempt : Nat}

theorem retry_write_ok {g : Fragment} (hw : w.write k f = (w', .ok g)) :
    retry policy phase k f (fuel + 1) attempt w = (w', .ok ()) := by
  simp only [retry, hw]

theorem retry_write_last {e : StorageError} (hw : w.write k f = (w', .error e))
    (ha : max policy.attempts 1 ≤ attempt) :
    retry policy phase k f (fuel + 1) attempt w = (w', .error (.store phase attempt e)) := by
  simp only [retry, hw, ge_iff_le, ha, if_true]

theorem retry_write_stopped {e : StorageError} (hw : w.write k f = (w', .error e))
    (ha : attempt < max policy.attempts 1) (hc : w'.cancelled = true) :
    retry policy phase k f (fuel + 1) attempt w = (w', .error .cancelled) := by
  have ha' : ¬ max policy.attempts 1 ≤ attempt := Nat.not_le.mpr ha
  simp only [retry, hw, ge_iff_le, ha', if_false, hc, if_true]

theorem retry_write_again {e : StorageError} (hw : w.write k f = (w', .error e))
    (ha : attempt < max policy.attempts 1) (hc : w'.cancelled = false) :
    retry policy phase k f (fuel + 1) attempt w = retry policy phase k f fuel (attempt + 1) w' := by
  have ha' : ¬ max policy.attempts 1 ≤ attempt := Nat.not_le.mpr ha
  simp only [retry, hw, ge_iff_le, ha', if_false, hc, Bool.false_eq_true]

end Step

/-! ## Runs of tries -/

theorem retry_world (fuel : Nat) : ∀ (attempt : Nat) (w : World σ),
    ∃ m, 1 ≤ m ∧ m ≤ fuel + 1 ∧ (retry policy phase k f (fuel + 1) attempt w).1 = w.afterWrites k f m := by
  induction fuel with
  | zero =>
    intro attempt w
    refine ⟨1, le_refl 1, le_refl 1, ?_⟩
    rcases hw : w.write k f with ⟨w', _ | g⟩
    · -- a failed try ends the loop, or leads to a loop out of fuel
      rw [World.afterWrites_succ, hw]
      simp only [retry, hw]
      split
      · rfl
      · split <;> rfl
    · simp [retry_write_ok hw, World.afterWrites_succ, hw]
  | succ fuel ih =>
    intro attempt w
    rcases hw : w.write k f with ⟨w', _ | g⟩
    · by_cases ha : max policy.attempts 1 ≤ attempt
      · exact ⟨1, le_refl 1, by omega, by simp [retry_write_last hw ha, World.afterWrites_succ, hw]⟩
      cases hc : w'.cancelled
      · -- the next try starts from the world this one left
        obtain ⟨m, hm1, hm2, hm⟩ := ih (attempt + 1) w'
        refine ⟨m + 1, by omega, by omega, ?_⟩
        rw [retry_write_again hw (Nat.not_le.mp ha) hc, hm, World.afterWrites_succ, hw]
      · exact ⟨1, le_refl 1, by omega,
          by simp [retry_write_stopped hw (Nat.not_le.mp ha) hc, World.afterWrites_succ, hw]⟩
    · exact ⟨1, le_refl 1, by omega, by simp [retry_write_ok hw, World.afterWrites_succ, hw]⟩

/-- Tries that fail before the last, each with the token untripped after it, pass the loop on:
after `j` of them it is the loop started `j` tries later. -/
theorem retry_passes : ∀ (j fuel attempt : Nat) (w : World σ), j ≤ fuel →
    (∀ i < j, (w.tryOutcome k f i).isOk = false ∧ attempt + i < max policy.attempts 1 ∧
      (w.afterWrites k f (i + 1)).cancelled = false) →
    retry policy phase k f fuel attempt w =
      retry policy phase k f (fuel - j) (attempt + j) (w.afterWrites k f j)
  | 0, _, _, _, _, _ => rfl
  | j + 1, fuel + 1, attempt, w, hj, hpass => by
    obtain ⟨hfail, ha, hc⟩ := hpass 0 (Nat.succ_pos j)
    rcases hw : w.write k f with ⟨w', _ | g⟩
    · have hc' : w'.cancelled = false := by simpa [World.afterWrites_succ, hw] using hc
      rw [retry_write_again hw (by simpa using ha) hc']
      -- the remaining tries are those of the world the first one left
      have hrest := retry_passes j fuel (attempt + 1) w' (by omega) fun i hi => by
        obtain ⟨h1, h2, h3⟩ := hpass (i + 1) (by omega)
        rw [World.tryOutcome_succ, hw] at h1
        rw [World.afterWrites_succ, hw] at h3
        exact ⟨h1, by omega, h3⟩
      rw [hrest, World.afterWrites_succ, hw, Nat.add_sub_add_right, Nat.add_right_comm, Nat.add_assoc]
    · simp [World.tryOutcome_zero, hw, Except.isOk, Except.toBool] at hfail

/-! ## Where the loop ends -/

/-- Fails at every try before `j` with the token untripped after it. -/
def PassesTo (w : World σ) (j : Nat) : Prop :=
  ∀ i < j, (w.tryOutcome k f i).isOk = false ∧ (w.afterWrites k f (i + 1)).cancelled = false

variable {policy phase k f}

theorem retry_after_passes {w : World σ} {j : Nat} (hj : j < max policy.attempts 1)
    (hpass : PassesTo k f w j) :
    retry policy phase k f (max policy.attempts 1) 1 w =
      retry policy phase k f (max policy.attempts 1 - j - 1 + 1) (j + 1) (w.afterWrites k f j) := by
  rw [retry_passes policy phase k f j _ 1 w (by omega) fun i hi =>
    ⟨(hpass i hi).1, by omega, (hpass i hi).2⟩]
  congr 1 <;> omega

theorem retry_first_success {w : World σ} {j : Nat} (hj : j < max policy.attempts 1)
    (hpass : PassesTo k f w j) (hok : (w.tryOutcome k f j).isOk = true) :
    retry policy phase k f (max policy.attempts 1) 1 w = (w.afterWrites k f (j + 1), .ok ()) := by
  rw [retry_after_passes hj hpass]
  rcases hw : (w.afterWrites k f j).write k f with ⟨w', _ | g⟩
  · simp [World.tryOutcome, hw, Except.isOk, Except.toBool] at hok
  · rw [retry_write_ok hw, World.afterWrites_succ_write, hw]

theorem retry_last_failure {w : World σ} {e : StorageError}
    (hpass : PassesTo k f w (max policy.attempts 1 - 1))
    (hfail : w.tryOutcome k f (max policy.attempts 1 - 1) = .error e) :
    retry policy phase k f (max policy.attempts 1) 1 w =
      (w.afterWrites k f (max policy.attempts 1),
        .error (.store phase (max policy.attempts 1) e)) := by
  have hn : max policy.attempts 1 - 1 + 1 = max policy.attempts 1 := by omega
  rw [retry_after_passes (by omega) hpass]
  rcases hw : (w.afterWrites k f (max policy.attempts 1 - 1)).write k f with ⟨w', res⟩
  have hres : res = .error e := by rw [← hfail, World.tryOutcome, hw]
  subst hres
  have hw' : w.afterWrites k f (max policy.attempts 1) = w' := by
    rw [← hn, World.afterWrites_succ_write, hw]
  rw [retry_write_last hw (by omega), hn, hw']

theorem retry_stopped {w : World σ} {j : Nat} (hj : j + 1 < max policy.attempts 1)
    (hpass : PassesTo k f w j) (hfail : (w.tryOutcome k f j).isOk = false)
    (hc : (w.afterWrites k f (j + 1)).cancelled = true) :
    retry policy phase k f (max policy.attempts 1) 1 w = (w.afterWrites k f (j + 1), .error .cancelled) := by
  rw [retry_after_passes (by omega) hpass]
  rcases hw : (w.afterWrites k f j).write k f with ⟨w', _ | g⟩
  · rw [World.afterWrites_succ_write, hw] at hc ⊢
    exact retry_write_stopped hw hj hc
  · simp [World.tryOutcome, hw, Except.isOk, Except.toBool] at hfail

/-! ## The retry law -/

/-- A commit part tried under a retry policy: at most `max attempts 1` tries are made, and the
world changes by them only. While the token stays untripped the loop succeeds exactly when one of
those tries does, stopping right after the first that does, and otherwise fails with the last
try's fault and the number of tries. A token found tripped in the pause after failed try `i`,
before the last, ends the loop there, as cancelled. -/
theorem retry_ends_at_success_exhaustion_or_stop (policy : RetryPolicy) (phase : Phase)
    (k : WriteKind) (f : Fragment) (w : World σ) :
    let n := max policy.attempts 1
    let out := retry policy phase k f n 1 w
    (∃ m, 1 ≤ m ∧ m ≤ n ∧ out.1 = w.afterWrites k f m) ∧
    ((∀ j ≤ n, (w.afterWrites k f j).cancelled = false) →
      (out.2 = .ok () ↔ ∃ j < n, (w.tryOutcome k f j).isOk = true) ∧
      (∀ j < n, (w.tryOutcome k f j).isOk = true → (∀ i < j, (w.tryOutcome k f i).isOk = false) →
        out = (w.afterWrites k f (j + 1), .ok ())) ∧
      ((∀ j < n, (w.tryOutcome k f j).isOk = false) →
        ∃ e, w.tryOutcome k f (n - 1) = .error e ∧
          out = (w.afterWrites k f n, .error (.store phase n e)))) ∧
    (∀ i, 1 ≤ i → i < n → (∀ j < i, (w.tryOutcome k f j).isOk = false) →
      (∀ j < i, 0 < j → (w.afterWrites k f j).cancelled = false) →
      (w.afterWrites k f i).cancelled = true → out = (w.afterWrites k f i, .error .cancelled)) := by
  intro n out
  have hn : 1 ≤ n := Nat.le_max_right _ _
  refine ⟨?calls, fun hquiet => ?quiet, ?stopped⟩
  case calls =>
    obtain ⟨m, h1, h2, h⟩ := retry_world policy phase k f (n - 1) 1 w
    rw [Nat.sub_add_cancel hn] at h2 h
    exact ⟨m, h1, h2, h⟩
  case quiet =>
    -- with the token untripped, every failed try before the last passes the loop on
    have first : ∀ j < n, (w.tryOutcome k f j).isOk = true →
        (∀ i < j, (w.tryOutcome k f i).isOk = false) → out = (w.afterWrites k f (j + 1), .ok ()) :=
      fun j hj hok hbefore =>
        retry_first_success hj (fun i hi => ⟨hbefore i hi, hquiet (i + 1) (by omega)⟩) hok
    have exhausted : (∀ j < n, (w.tryOutcome k f j).isOk = false) → ∃ e,
        w.tryOutcome k f (n - 1) = .error e ∧ out = (w.afterWrites k f n, .error (.store phase n e)) := by
      intro hall
      cases hlast : w.tryOutcome k f (n - 1) with
      | ok g =>
        have := hall (n - 1) (by omega)
        simp [hlast, Except.isOk, Except.toBool] at this
      | error e =>
        exact ⟨e, rfl, retry_last_failure
          (fun i hi => ⟨hall i (by omega), hquiet (i + 1) (by omega)⟩) hlast⟩
    refine ⟨⟨fun hok => ?_, fun hsome => ?_⟩, first, exhausted⟩
    · -- a loop that succeeds cannot have seen every try fail
      by_contra hnone
      have hall : ∀ j < n, (w.tryOutcome k f j).isOk = false := fun j hj => by
        simpa using fun h => hnone ⟨j, hj, h⟩
      obtain ⟨e, -, hout⟩ := exhausted hall
      rw [hout] at hok
      cases hok
    · -- the loop stops at the first try that succeeds
      classical
      have hfirst := Nat.find_spec hsome
      have hmin : ∀ i < Nat.find hsome, (w.tryOutcome k f i).isOk = false := fun i hi => by
        have := Nat.find_min hsome hi
        simp only [not_and, Bool.not_eq_true] at this
        exact this (by omega)
      rw [first _ hfirst.1 hfirst.2 hmin]
  case stopped =>
    intro i hi1 hin hfail hbefore hc
    obtain ⟨j, rfl⟩ : ∃ j, i = j + 1 := ⟨i - 1, by omega⟩
    exact retry_stopped hin (fun i' hi' => ⟨hfail i' (by omega), hbefore (i' + 1) (by omega) (by omega)⟩)
      (hfail j (by omega)) hc

/-- Under a policy of three attempts, a write failing at its first two tries, with the token
tripped just before the second, ends cancelled after those two tries. -/
theorem retry_stopped_after_second_failure :
    let w : World Store :=
      { store := .memory Graph.empty, plan := { failWrites := [1, 2], cancelAt := [2] }, source := .items [] }
    let policy : RetryPolicy := { attempts := 3 }
    (1 ≤ 2 ∧ 2 < max policy.attempts 1 ∧ (∀ j < 2, (w.tryOutcome .merge Fragment.empty j).isOk = false) ∧
      (∀ j < 2, 0 < j → (w.afterWrites .merge Fragment.empty j).cancelled = false) ∧
      (w.afterWrites .merge Fragment.empty 2).cancelled = true) ∧
    retry policy .node .merge Fragment.empty (max policy.attempts 1) 1 w =
      (w.afterWrites .merge Fragment.empty 2, .error .cancelled) := by
  intro w policy
  -- the hypotheses are decided on the world, and the law applies with them
  exact (fun hyps => ⟨hyps, (retry_ends_at_success_exhaustion_or_stop policy .node .merge Fragment.empty w).2.2 2
    hyps.1 hyps.2.1 hyps.2.2.1 hyps.2.2.2.1 hyps.2.2.2.2⟩) (by decide)

end Run

end GraphIngest
