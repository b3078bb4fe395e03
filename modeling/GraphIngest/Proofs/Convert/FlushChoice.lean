import Mathlib
import GraphIngest.Convert.Controller

/-! # The flush size the controller picks

Of the sizes sampled in a round, `choose` keeps the first whose time is finite and no slower than
any other finite time, and normalizes it (`choose_eq_first_fastest`). Doubles are compared by the
values they stand for (`Binary64.le_iff_ratio_le`), so the two zeros tie and the comparison is a
total preorder. Normalizing adds five to the size in the arithmetic of a machine word, so the
largest sizes are refused instead of being rounded (`choose_refuses_largest_size`).
-/

namespace GraphIngest

namespace Binary64

/-- The value `toRatio` reads off a double: for a finite one, the number it stands for. -/
def ratio (x : Float) : ℚ :=
  (if (toRatio x).1 then -((toRatio x).2.1 : ℚ) else (toRatio x).2.1) / (toRatio x).2.2

theorem toRatio_den_pos (x : Float) : 0 < (toRatio x).2.2 := by
  unfold toRatio
  dsimp only
  split <;> simp [Nat.pow_eq]

theorem le_iff_ratio_le (x y : Float) : le x y = true ↔ ratio x ≤ ratio y := by
  have hx := toRatio_den_pos x
  have hy := toRatio_den_pos y
  rcases hrx : toRatio x with ⟨sx, nx, dx⟩
  rcases hry : toRatio y with ⟨sy, ny, dy⟩
  rw [hrx] at hx
  rw [hry] at hy
  simp only [le, ratio, hrx, hry, decide_eq_true_eq]
  -- both sides compare the cross products, the denominators being positive
  rw [div_le_div_iff₀ (by exact_mod_cast hx) (by exact_mod_cast hy)]
  cases sx <;> cases sy <;> simp <;> norm_cast

theorem le_trans {x y z : Float} (hxy : le x y = true) (hyz : le y z = true) : le x z = true := by
  rw [le_iff_ratio_le] at *
  exact hxy.trans hyz

end Binary64

namespace Controller

open Binary64

theorem keepFaster_cases (best : Option (Nat × Float)) (x : Nat × Float) :
    keepFaster best x = best ∨ keepFaster best x = some x := by
  unfold keepFaster
  split
  · split <;> simp
  · simp

theorem foldl_keepFaster_mem (l : List (Nat × Float)) (best : Option (Nat × Float)) :
    l.foldl keepFaster best = best ∨ ∃ q ∈ l, l.foldl keepFaster best = some q := by
  induction l generalizing best with
  | nil => exact .inl rfl
  | cons x l ih =>
    rw [List.foldl_cons]
    rcases ih (keepFaster best x) with h | ⟨q, hq, h⟩
    · rcases keepFaster_cases best x with hx | hx
      · exact .inl (h.trans hx)
      · exact .inr ⟨x, List.mem_cons_self, h.trans hx⟩
    · exact .inr ⟨q, List.mem_cons_of_mem _ hq, h⟩

theorem foldl_keepFaster_of_le {b : Nat × Float} (l : List (Nat × Float))
    (h : ∀ q ∈ l, le b.2 q.2 = true) : l.foldl keepFaster (some b) = some b := by
  induction l with
  | nil => rfl
  | cons x l ih =>
    have hx : keepFaster (some b) x = some b := by simp [keepFaster, h x List.mem_cons_self]
    rw [List.foldl_cons, hx]
    exact ih fun q hq => h q (List.mem_cons_of_mem _ hq)

theorem keepFaster_of_faster {best : Option (Nat × Float)} {x : Nat × Float}
    (h : ∀ b, best = some b → le b.2 x.2 = false) : keepFaster best x = some x := by
  cases best with
  | none => rfl
  | some b => simp [keepFaster, h b rfl]

theorem choose_eq_none_iff (samples : List (Nat × Float)) :
    choose samples = .ok none ↔ ∀ q ∈ samples, isFinite q.2 = false := by
  have hnone : ∀ l : List (Nat × Float), l.foldl keepFaster none = none ↔ l = [] := by
    intro l
    cases l with
    | nil => simp
    | cons x l =>
      simp only [List.foldl_cons, keepFaster, reduceCtorEq, iff_false]
      rcases foldl_keepFaster_mem l (some x) with h | ⟨q, -, h⟩ <;> simp [h]
  -- a chosen sample normalizes to a size or to the overflow, never to no answer
  have hsome : ∀ b : Nat × Float, some <$> normalize b.1 ≠ .ok none := by
    intro b
    unfold normalize
    split <;> simp [Functor.map, Except.map]
  rw [choose]
  cases hfold : (samples.filter (isFinite ·.2)).foldl keepFaster none with
  | none =>
    have hnil := (hnone _).mp hfold
    simp only [List.filter_eq_nil_iff, Bool.not_eq_true] at hnil
    exact ⟨fun _ q hq => hnil q hq, fun _ => rfl⟩
  | some b =>
    rw [Option.mapM_some]
    refine ⟨fun h => absurd h (hsome b), fun h => ?_⟩
    have hnil : samples.filter (isFinite ·.2) = [] := List.filter_eq_nil_iff.mpr fun q hq => by simp [h q hq]
    simp [hnil] at hfold

theorem normalize_eq (s : Nat) : normalize s =
    if s + 5 < 2 ^ 64 then .ok (min 1000 (max 1 (10 * ((s + 5) / 10)))) else .error .overflow := by
  unfold normalize clampSize minSize maxSize
  split
  · rw [if_pos (by omega)]
    congr 1
    omega
  · rw [if_neg (by omega)]

theorem choose_of_first_fastest {samples before after : List (Nat × Float)} {s : Nat} {t : Float}
    (hsplit : samples = before ++ (s, t) :: after) (ht : isFinite t = true)
    (hmin : ∀ q ∈ samples, isFinite q.2 = true → le t q.2 = true)
    (hfirst : ∀ q ∈ before, isFinite q.2 = true →
      ∃ r ∈ samples, isFinite r.2 = true ∧ le q.2 r.2 = false) :
    choose samples = (normalize s).map some := by
  -- an earlier finite sample is strictly slower than `t`, or it would beat what `t` beats
  have hslower : ∀ q ∈ before, isFinite q.2 = true → le q.2 t = false := by
    intro q hq hfin
    obtain ⟨r, hr, hrfin, hqr⟩ := hfirst q hq hfin
    cases hqt : le q.2 t
    · rfl
    · rw [Binary64.le_trans hqt (hmin r hr hrfin)] at hqr
      cases hqr
  have hbefore : ∀ b, (before.filter (isFinite ·.2)).foldl keepFaster none = some b →
      le b.2 t = false := by
    intro b hb
    rcases foldl_keepFaster_mem (before.filter (isFinite ·.2)) none with h | ⟨q, hq, h⟩
    · rw [h] at hb
      cases hb
    · rw [h, Option.some.injEq] at hb
      subst hb
      obtain ⟨hq, hfin⟩ := List.mem_filter.mp hq
      exact hslower q hq (by simpa using hfin)
  have hafter : ∀ q ∈ after.filter (isFinite ·.2), le t q.2 = true := fun q hq => by
    obtain ⟨hq, hfin⟩ := List.mem_filter.mp hq
    exact hmin q (by simp [hsplit, hq]) (by simpa using hfin)
  have hfilter : samples.filter (isFinite ·.2) =
      before.filter (isFinite ·.2) ++ (s, t) :: after.filter (isFinite ·.2) := by
    simp [hsplit, ht]
  rw [choose, hfilter, List.foldl_append, List.foldl_cons,
    keepFaster_of_faster (x := (s, t)) hbefore, foldl_keepFaster_of_le (b := (s, t)) _ hafter]
  rfl

/-- **The controller picks the first fastest sample.** `choose` has no answer exactly when no
time is finite; otherwise it takes the size of the first sample whose finite time is no slower
than any other finite time. A size whose `size + 5` fits in a machine word is rounded to the
nearest multiple of ten in exact arithmetic and held within the bounds; a larger one is refused
as an overflow. -/
theorem choose_eq_first_fastest (samples : List (Nat × Float)) :
    (choose samples = .ok none ↔ ∀ q ∈ samples, isFinite q.2 = false) ∧
    ∀ before s t after, samples = before ++ (s, t) :: after → isFinite t = true →
      (∀ q ∈ samples, isFinite q.2 = true → le t q.2 = true) →
      (∀ q ∈ before, isFinite q.2 = true →
        ∃ r ∈ samples, isFinite r.2 = true ∧ le q.2 r.2 = false) →
      choose samples = if s + 5 < 2 ^ 64 then .ok (some (min 1000 (max 1 (10 * ((s + 5) / 10)))))
        else .error .overflow := by
  refine ⟨choose_eq_none_iff samples, fun _ s _ _ hsplit ht hmin hfirst => ?_⟩
  rw [choose_of_first_fastest hsplit ht hmin hfirst, normalize_eq s]
  split <;> rfl

/-- After a sample with no finite time, the largest size ties with a later one and wins; its sum
`size + 5` leaves the machine word, so the choice is refused, where rounding in exact arithmetic
would give the greatest bound. -/
theorem choose_refuses_largest_size :
    let samples : List (Nat × Float) := [(100, nan), (18446744073709551615, 0.5), (200, 0.5)]
    isFinite (0.5 : Float) = true ∧
      (∀ q ∈ samples, isFinite q.2 = true → le 0.5 q.2 = true) ∧
      (∀ q ∈ [((100 : Nat), nan)], isFinite q.2 = true →
        ∃ r ∈ samples, isFinite r.2 = true ∧ le q.2 r.2 = false) ∧
      choose samples = .error .overflow ∧
      min 1000 (max 1 (10 * ((18446744073709551615 + 5) / 10))) = 1000 := by
  intro samples
  have ht : isFinite (0.5 : Float) = true := by decide
  have hmin : ∀ q ∈ samples, isFinite q.2 = true → le 0.5 q.2 = true := by decide
  have hfirst : ∀ q ∈ [((100 : Nat), nan)], isFinite q.2 = true →
      ∃ r ∈ samples, isFinite r.2 = true ∧ le q.2 r.2 = false := by decide
  have h := (choose_eq_first_fastest samples).2 [(100, nan)] 18446744073709551615 0.5 [(200, 0.5)]
    rfl ht hmin hfirst
  exact ⟨ht, hmin, hfirst, h.trans (if_neg (by norm_num)), by norm_num⟩

end Controller

end GraphIngest
