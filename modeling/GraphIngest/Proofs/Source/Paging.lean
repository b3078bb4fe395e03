import Mathlib
import GraphIngest.Source.Stream

/-! # One pass over the tables of a database

A database source pages through each table with the keyset query `rowid > last ORDER BY rowid
LIMIT p`, from the smallest row id on, and takes a table as read to its end once a page comes back
short. Given a page reader that answers the query as the database does (`Source.AnswersPages`),
one pass yields every row whose row id is above the smallest one, once, each table in row id
order: table after table, or with tables mixed, a page from each table in turn
(`Source.roundRobin`). A row with the smallest possible row id is never read.
-/

namespace GraphIngest.Source

section RoundRobin

/-- Pages of at most `p` items taken from the lists in turn: the first list gives a page and goes
to the back, and a list that has run out leaves. -/
def roundRobin {α : Type} (p : Nat) (hp : 0 < p) : List (List α) → List α
  | [] => []
  | [] :: ts => roundRobin p hp ts
  | (x :: t) :: ts => (x :: t).take p ++ roundRobin p hp (ts ++ [(x :: t).drop p])
termination_by ts => (ts.map List.length).sum + ts.length
decreasing_by all_goals (simp <;> omega)

variable {α : Type} (p : Nat) (hp : 0 < p)

theorem roundRobin_skip : ∀ X Y : List (List α),
    roundRobin p hp (X ++ [] :: Y) = roundRobin p hp (X ++ Y)
  | [], Y => by simp [roundRobin]
  | [] :: X, Y => by simpa [roundRobin] using roundRobin_skip X Y
  | (x :: t) :: X, Y => by
    -- the list ahead of the empty one goes to the back, behind it
    have h := roundRobin_skip X (Y ++ [(x :: t).drop p])
    simp only [List.cons_append, roundRobin, List.append_assoc, h]
termination_by X Y => ((X ++ Y).map List.length).sum + (X ++ Y).length
decreasing_by all_goals (simp <;> omega)

theorem roundRobin_empties {E : List (List α)} (hE : ∀ e ∈ E, e = []) (X Y : List (List α)) :
    roundRobin p hp (X ++ E ++ Y) = roundRobin p hp (X ++ Y) := by
  induction E generalizing X with
  | nil => simp
  | cons e E ih =>
    rw [hE e List.mem_cons_self, List.append_assoc, List.cons_append, roundRobin_skip,
      ← List.append_assoc, ih (fun e he => hE e (List.mem_cons_of_mem _ he))]

theorem roundRobin_cons (t : List α) (ts : List (List α)) :
    roundRobin p hp (t :: ts) = t.take p ++ roundRobin p hp (ts ++ [t.drop p]) := by
  cases t with
  | nil => simpa [roundRobin] using (roundRobin_skip p hp ts []).symm
  | cons x t => rw [roundRobin]

theorem roundRobin_of_empty {ts : List (List α)} (h : ∀ t ∈ ts, t = []) : roundRobin p hp ts = [] := by
  simpa [roundRobin] using roundRobin_empties p hp h [] []

theorem roundRobin_perm : ∀ ts : List (List α), (roundRobin p hp ts).Perm ts.flatten
  | [] => by simp [roundRobin]
  | [] :: ts => by simpa [roundRobin] using roundRobin_perm ts
  | (x :: t) :: ts => by
    have ih : (roundRobin p hp (ts ++ [(x :: t).drop p])).Perm (ts.flatten ++ (x :: t).drop p) := by
      simpa using roundRobin_perm (ts ++ [(x :: t).drop p])
    rw [roundRobin]
    calc List.Perm _ ((x :: t).take p ++ (ts.flatten ++ (x :: t).drop p)) := ih.append_left _
      List.Perm _ ((x :: t).take p ++ ((x :: t).drop p ++ ts.flatten)) :=
        List.perm_append_comm.append_left _
      _ = ((x :: t) :: ts).flatten := by rw [← List.append_assoc, List.take_append_drop, List.flatten_cons]
termination_by ts => (ts.map List.length).sum + ts.length
decreasing_by all_goals (simp <;> omega)

section Steps

variable {qs : List (List α)} {c i : Nat}

theorem take_drop_set (hi : i < qs.length) (y : List α) :
    (qs.set i y).take (i + 1) = qs.take i ++ [y] ∧ (qs.set i y).drop (i + 1) = qs.drop (i + 1) := by
  rw [List.set_eq_take_append_cons_drop, if_pos hi]
  have hl : (qs.take i).length = i := by simp; omega
  constructor
  · rw [List.take_append, hl, show i + 1 - i = 1 by omega, List.take_take, Nat.min_eq_right (by omega)]
    simp
  · rw [List.drop_append, hl, show i + 1 - i = 1 by omega,
      List.drop_eq_nil_of_le (by rw [hl]; omega : (qs.take i).length ≤ i + 1)]
    simp only [List.nil_append, List.drop_succ_cons, List.drop_zero]

theorem mixed_step (hci : c ≤ i) (hi : i < qs.length)
    (hskip : ∀ j (hj : j < qs.length), c ≤ j → j < i → qs[j] = []) :
    roundRobin p hp (qs.drop c ++ qs.take c) =
      qs[i].take p ++ roundRobin p hp ((qs.set i (qs[i].drop p)).drop (i + 1) ++
        (qs.set i (qs[i].drop p)).take (i + 1)) := by
  -- the tables passed over between `c` and `i`
  have hE : ∀ e ∈ (qs.take i).drop c, e = [] := by
    intro e he
    obtain ⟨k, hk, rfl⟩ := List.getElem_of_mem he
    simp only [List.length_drop, List.length_take] at hk
    simpa using hskip (c + k) (by omega) (by omega) (by omega)
  have hdrop : qs.drop c = (qs.take i).drop c ++ qs[i] :: qs.drop (i + 1) := by
    rw [← List.drop_eq_getElem_cons hi, ← List.drop_append_of_le_length (by simp; omega),
      List.take_append_drop]
  have htake : qs.take i = qs.take c ++ (qs.take i).drop c := by
    conv => lhs; rw [← List.take_append_drop c (qs.take i)]
    rw [List.take_take, Nat.min_eq_left hci]
  obtain ⟨ht, hd⟩ := take_drop_set hi (qs[i].drop p)
  rw [ht, hd, hdrop, List.append_assoc, List.cons_append, ← List.nil_append ((qs.take i).drop c),
    roundRobin_empties p hp hE, List.nil_append, roundRobin_cons, htake, ← List.append_assoc,
    ← List.append_assoc, roundRobin_empties p hp hE, List.append_assoc]

theorem mixed_wrap (hc : c ≤ qs.length) (hrest : ∀ j (hj : j < qs.length), c ≤ j → qs[j] = []) :
    roundRobin p hp (qs.drop c ++ qs.take c) = roundRobin p hp (qs.drop 0 ++ qs.take 0) := by
  have hE : ∀ e ∈ qs.drop c, e = [] := by
    intro e he
    obtain ⟨k, hk, rfl⟩ := List.getElem_of_mem he
    simp only [List.length_drop] at hk
    simpa using hrest (c + k) (by omega) (by omega)
  have h1 := roundRobin_empties p hp hE [] (qs.take c)
  have h2 := roundRobin_empties p hp hE (qs.take c) []
  simp only [List.nil_append, List.append_nil, List.take_append_drop] at h1 h2
  simp [h1, h2]

theorem mixed_mod (hc : c ≤ qs.length) :
    roundRobin p hp (qs.drop (c % qs.length) ++ qs.take (c % qs.length)) =
      roundRobin p hp (qs.drop c ++ qs.take c) := by
  rcases Nat.lt_or_eq_of_le hc with hc | rfl
  · rw [Nat.mod_eq_of_lt hc]
  · simp

theorem ordered_step (hi : i < qs.length) (hskip : ∀ j (hj : j < qs.length), j < i → qs[j] = []) :
    qs.flatten = qs[i].take p ++ (qs.set i (qs[i].drop p)).flatten := by
  have hE : (qs.take i).flatten = [] := by
    refine List.flatten_eq_nil_iff.mpr fun e he => ?_
    obtain ⟨k, hk, rfl⟩ := List.getElem_of_mem he
    simp only [List.length_take] at hk
    simpa using hskip k (by omega) (by omega)
  rw [List.set_eq_take_append_cons_drop, if_pos hi]
  calc qs.flatten = (qs.take i ++ qs[i] :: qs.drop (i + 1)).flatten := by
        rw [← List.drop_eq_getElem_cons hi, List.take_append_drop]
    _ = _ := by
        simp only [List.flatten_append, List.flatten_cons, hE, List.nil_append]
        rw [← List.append_assoc, List.take_append_drop]

end Steps

end RoundRobin

section Pass

variable (rows : TableLayout → List (Int × List Sql.SqlValue))

/-- `read` answers the page query as the database does for tables whose rows, in row id order,
are `rows`: the at most `p` rows with the smallest row ids above the one given. -/
def AnswersPages (read : TableLayout → Int → Nat → List (Int × List Sql.SqlValue) × Option String)
    (p : Nat) (layouts : List TableLayout) : Prop :=
  ∀ l ∈ layouts, (rows l).Pairwise (·.1 < ·.1) ∧
    ∀ last, read l last p = (((rows l).filter (last < ·.1)).take p, none)

/-- The rows a cursor has still to read. -/
def Cursor.left (c : Cursor) : List (Int × List Sql.SqlValue) := (rows c.layout).filter (c.last < ·.1)

/-- The records a cursor has still to yield. -/
def Cursor.items (c : Cursor) : List Item := (c.left rows).map fun r => .ok (rowRecord c.layout r.2)

theorem left_after_page {l : TableLayout} {last : Int} (p : Nat) (hs : (rows l).Pairwise (·.1 < ·.1)) :
    (rows l).filter (((((rows l).filter (last < ·.1)).take p).getLast?.map (·.1)).getD last < ·.1) =
      ((rows l).filter (last < ·.1)).drop p := by
  have hR : ((rows l).filter (last < ·.1)).Pairwise (·.1 < ·.1) := hs.filter _
  generalize hR' : (rows l).filter (last < ·.1) = R at hR
  cases hm : (R.take p).getLast? with
  | none =>
    simp only [Option.map_none, Option.getD_none, hR']
    rcases List.take_eq_nil_iff.mp (List.getLast?_eq_none_iff.mp hm) with rfl | rfl <;> simp
  | some m =>
    simp only [Option.map_some, Option.getD_some]
    obtain ⟨ys, hys⟩ := List.getLast?_eq_some_iff.mp hm
    have hsplit := hR
    rw [← List.take_append_drop p R, hys, List.pairwise_append, List.pairwise_append] at hsplit
    -- the last row read is above `last`, so the rows after it are those of `R` after it
    have hlast : last < m.1 := by
      have hmR : m ∈ R := List.mem_of_mem_take (by rw [hys]; simp)
      rw [← hR', List.mem_filter] at hmR
      simpa using hmR.2
    have hfilter : (rows l).filter (m.1 < ·.1) = R.filter (m.1 < ·.1) := by
      rw [← hR', List.filter_filter]
      congr 1
      funext r
      by_cases h : m.1 < r.1
      · simp [h, show last < r.1 by omega]
      · simp [h]
    have hys' : ys.filter (m.1 < ·.1) = [] := List.filter_eq_nil_iff.mpr fun a ha h => by
      have := hsplit.1.2.2 a ha m (by simp)
      simp only [decide_eq_true_eq] at h
      omega
    have hrest : (R.drop p).filter (m.1 < ·.1) = R.drop p :=
      List.filter_eq_self.mpr fun b hb => by simpa using hsplit.2.2 m (by simp) b hb
    rw [hfilter]
    conv => lhs; rw [← List.take_append_drop p R]
    rw [hys, List.filter_append, List.filter_append, hys', hrest]
    simp

/-! ### Which table comes next -/

theorem turn_order {n c : Nat} (hc : c ≤ n) :
    (List.range n).map (fun off => (c + off) % n) = List.range' c (n - c) ++ List.range c := by
  rw [show List.range n = List.range ((n - c) + c) by rw [Nat.sub_add_cancel hc], List.range_add,
    List.map_append, List.map_map, List.range'_eq_map_range]
  congr 1
  · refine List.map_congr_left fun off hoff => ?_
    simp only [List.mem_range] at hoff
    exact Nat.mod_eq_of_lt (by omega)
  · refine (List.map_congr_left fun off hoff => ?_).trans (List.map_id _)
    simp only [List.mem_range] at hoff
    simp only [Function.comp, id]
    rw [show c + (n - c + off) = off + n by omega, Nat.add_mod_right, Nat.mod_eq_of_lt (by omega)]

theorem open_iff {cs : List Cursor} {j : Nat} (hj : j < cs.length) :
    (!((cs[j]?.map (·.done)).getD true)) = true ↔ cs[j].done = false := by
  simp [List.getElem?_eq_getElem hj]

theorem nextTable_in_order {cs : List Cursor} {c i : Nat} (h : nextTable cs false c = some i) :
    ∃ hi : i < cs.length, cs[i].done = false ∧ ∀ j (hj : j < cs.length), j < i → cs[j].done = true := by
  simp only [nextTable, Bool.false_eq_true, if_false] at h
  obtain ⟨hi, hx, hbefore⟩ := List.findIdx?_eq_some_iff_getElem.mp h
  exact ⟨hi, by simpa using hx, fun j hj hji => by simpa using hbefore j hji⟩

theorem nextTable_mixed {cs : List Cursor} {c i : Nat} (hc : c ≤ cs.length)
    (h : nextTable cs true c = some i) :
    ∃ hi : i < cs.length, cs[i].done = false ∧
      ((c ≤ i ∧ ∀ j (hj : j < cs.length), c ≤ j → j < i → cs[j].done = true) ∨
       (i < c ∧ ∀ j (hj : j < cs.length), (c ≤ j ∨ j < i) → cs[j].done = true)) := by
  simp only [nextTable, if_true, turn_order hc, List.find?_append] at h
  cases ha : (List.range' c (cs.length - c)).find? (fun i => !((cs[i]?.map (·.done)).getD true)) with
  | some k =>
    rw [ha] at h
    obtain ⟨hk, hmem, hbefore⟩ := List.find?_range'_eq_some.mp ha
    obtain rfl : i = k := by simpa using h.symm
    simp only [List.mem_range'_1] at hmem
    have hi : i < cs.length := by omega
    refine ⟨hi, (open_iff hi).mp hk, .inl ⟨hmem.1, fun j hj hcj hji => ?_⟩⟩
    simpa [List.getElem?_eq_getElem hj] using hbefore j hcj hji
  | none =>
    rw [ha, Option.none_or] at h
    have hafter := List.find?_range'_eq_none.mp ha
    obtain ⟨hk, hmem, hbefore⟩ := List.find?_range_eq_some.mp h
    simp only [List.mem_range] at hmem
    have hi : i < cs.length := by omega
    refine ⟨hi, (open_iff hi).mp hk, .inr ⟨hmem, fun j hj hji => ?_⟩⟩
    rcases hji with hcj | hji
    · simpa [List.getElem?_eq_getElem hj] using hafter j hcj (by omega)
    · simpa [List.getElem?_eq_getElem hj] using hbefore j hji

theorem nextTable_none {cs : List Cursor} {mix : Bool} {c : Nat} (hc : c ≤ cs.length)
    (h : nextTable cs mix c = none) : ∀ x ∈ cs, x.done = true := by
  intro x hx
  obtain ⟨j, hj, rfl⟩ := List.getElem_of_mem hx
  cases mix with
  | false =>
    simp only [nextTable, Bool.false_eq_true, if_false, List.findIdx?_eq_none_iff] at h
    simpa using h _ (List.getElem_mem hj)
  | true =>
    simp only [nextTable, if_true, turn_order hc, List.find?_append, Option.or_eq_none_iff,
      List.find?_range'_eq_none, List.find?_range_eq_none] at h
    by_cases hcj : c ≤ j
    · simpa [List.getElem?_eq_getElem hj] using h.1 j hcj (by omega)
    · simpa [List.getElem?_eq_getElem hj] using h.2 j (by omega)

/-! ### The pass -/

variable {read : TableLayout → Int → Nat → List (Int × List Sql.SqlValue) × Option String}
  {p : Nat} {layouts : List TableLayout}

/-- A cursor over one of the tables, with no row left once it is read to its end. -/
def Fits (layouts : List TableLayout) (c : Cursor) : Prop :=
  c.layout ∈ layouts ∧ (c.done = true → c.left rows = [])

/-- The pages a cursor may still fetch: one per row left, and one more while it is not at its end. -/
def Cursor.work (c : Cursor) : Nat := (c.left rows).length + if c.done then 0 else 1

theorem items_of_done {c : Cursor} (hf : Fits rows layouts c) (h : c.done = true) :
    c.items rows = [] := by
  simp [Cursor.items, hf.2 h]

theorem read_left (hread : AnswersPages rows read p layouts) {x : Cursor} (hf : Fits rows layouts x) :
    read x.layout x.last p = ((x.left rows).take p, none) :=
  (hread x.layout hf.1).2 x.last

/-- The cursor once it has read the page `(x.left rows).take p`. -/
def Cursor.afterPage (p : Nat) (x : Cursor) : Cursor :=
  { x with last := (((x.left rows).take p).getLast?.map (·.1)).getD x.last,
           done := ((x.left rows).take p).length < p }

@[simp] theorem afterPage_layout (x : Cursor) : (x.afterPage rows p).layout = x.layout := rfl

@[simp] theorem afterPage_done (x : Cursor) :
    (x.afterPage rows p).done = decide (((x.left rows).take p).length < p) := rfl

theorem afterPage_step (hread : AnswersPages rows read p layouts) (hp : 0 < p) {x : Cursor}
    (hf : Fits rows layouts x) (hopen : x.done = false) :
    (x.afterPage rows p).items rows = (x.items rows).drop p ∧ Fits rows layouts (x.afterPage rows p) ∧
      (x.afterPage rows p).work rows < x.work rows := by
  have hleft : (x.afterPage rows p).left rows = (x.left rows).drop p :=
    left_after_page rows p (hread x.layout hf.1).1
  refine ⟨by simp [Cursor.items, hleft, List.map_drop], ⟨hf.1, fun hd => ?_⟩, ?_⟩
  · simp only [Cursor.afterPage, decide_eq_true_eq, List.length_take] at hd
    simp [hleft, List.drop_eq_nil_of_le (by omega : (x.left rows).length ≤ p)]
  · rw [Cursor.work, Cursor.work, hleft, afterPage_done, hopen]
    simp only [List.length_drop, List.length_take, Bool.false_eq_true, if_false]
    -- a short page ends the table; a full one leaves `p` rows fewer
    split
    next h => simp only [decide_eq_true_eq] at h; omega
    next h => simp only [decide_eq_true_eq] at h; omega

theorem items_of_done_getElem {cs : List Cursor} (hfit : ∀ x ∈ cs, Fits rows layouts x) {j : Nat}
    (hj : j < (cs.map (Cursor.items rows)).length) (h : (cs.get ⟨j, by simpa using hj⟩).done = true) :
    (cs.map (Cursor.items rows))[j] = [] := by
  simpa using items_of_done rows (hfit _ (List.getElem_mem _)) h

theorem sum_set_lt {ws : List Nat} {i w : Nat} (hi : i < ws.length) (hw : w < ws[i]) :
    (ws.set i w).sum < ws.sum := by
  -- both sums split at `i` the same way but for the entry there
  have hws := List.sum_set ws i ws[i]
  rw [List.set_getElem_self, if_pos hi] at hws
  rw [List.sum_set, if_pos hi]
  omega

/-- The pass from cursors `cs`, turn at `c`, with `acc` yielded so far: what is left of the
tables, table after table or mixed, given a page more than the cursors' work. -/
theorem tablePass_items (hread : AnswersPages rows read p layouts) (hp : 0 < p) (mix : Bool) :
    ∀ fuel (cs : List Cursor) c acc, (∀ x ∈ cs, Fits rows layouts x) → c ≤ cs.length →
      (cs.map (Cursor.work rows)).sum < fuel →
      tablePass read mix p fuel cs c acc = acc.reverse ++
        if mix then roundRobin p hp ((cs.map (Cursor.items rows)).drop c ++ (cs.map (Cursor.items rows)).take c)
        else (cs.map (Cursor.items rows)).flatten
  | 0, _, _, _, _, _, hw => absurd hw (Nat.not_lt_zero _)
  | fuel + 1, cs, c, acc, hfit, hc, hw => by
    cases hnext : nextTable cs mix c with
    | none =>
      have hnil : ∀ q ∈ cs.map (Cursor.items rows), q = [] := by
        simp only [List.mem_map]
        rintro q ⟨x, hx, rfl⟩
        exact items_of_done rows (hfit x hx) (nextTable_none hc hnext x hx)
      cases mix with
      | false => simp only [tablePass, hnext, Bool.false_eq_true, if_false, List.flatten_eq_nil_iff.mpr hnil,
          List.append_nil]
      | true =>
        have hE : ∀ t ∈ (cs.map (Cursor.items rows)).drop c ++ (cs.map (Cursor.items rows)).take c, t = [] :=
          fun t ht => hnil t ((List.mem_append.mp ht).elim List.mem_of_mem_drop List.mem_of_mem_take)
        simp only [tablePass, hnext, if_true, roundRobin_of_empty p hp hE, List.append_nil]
    | some i =>
      obtain ⟨hi, hopen⟩ : ∃ hi : i < cs.length, cs[i].done = false := by
        cases mix with
        | false => obtain ⟨hi, ho, _⟩ := nextTable_in_order hnext; exact ⟨hi, ho⟩
        | true => obtain ⟨hi, ho, _⟩ := nextTable_mixed hc hnext; exact ⟨hi, ho⟩
      have hfi := hfit _ (List.getElem_mem hi)
      obtain ⟨hitems, hfit', hwork⟩ := afterPage_step rows hread hp hfi hopen
      rw [tablePass, hnext]
      simp only [List.getElem?_eq_getElem hi, read_left rows hread hfi]
      change tablePass read mix p fuel (cs.set i (cs[i].afterPage rows p))
        (if mix then (i + 1) % cs.length else c) _ = _
      have hfitSet : ∀ x ∈ cs.set i (cs[i].afterPage rows p), Fits rows layouts x := fun x hx =>
        (List.mem_or_eq_of_mem_set hx).elim (hfit x) fun h => h ▸ hfit'
      have hnextLe : (if mix then (i + 1) % cs.length else c) ≤ (cs.set i (cs[i].afterPage rows p)).length := by
        split
        · exact Nat.le_of_lt (by simpa using Nat.mod_lt _ (by omega : 0 < cs.length))
        · simpa using hc
      have hworkSet : ((cs.set i (cs[i].afterPage rows p)).map (Cursor.work rows)).sum < fuel := by
        have := @sum_set_lt (cs.map (Cursor.work rows)) i _ (by simpa using hi) (by simpa using hwork)
        rw [List.map_set]
        omega
      rw [tablePass_items hread hp mix fuel _ _ _ hfitSet hnextLe hworkSet]
      have hrec : ((cs[i].left rows).take p).map (fun x => (Except.ok (rowRecord cs[i].layout x.2) : Item)) =
          (cs[i].items rows).take p := by
        simp [Cursor.items, List.map_take]
      have hqi : i < (cs.map (Cursor.items rows)).length := by simpa using hi
      have hset : (cs.set i (cs[i].afterPage rows p)).map (Cursor.items rows) =
          (cs.map (Cursor.items rows)).set i ((cs.map (Cursor.items rows))[i].drop p) := by
        simp [List.map_set, hitems]
      rw [hrec, List.reverse_append, List.reverse_reverse, List.append_assoc, hset]
      congr 1
      rw [show cs[i].items rows = (cs.map (Cursor.items rows))[i] by simp]
      cases mix with
      | false =>
        obtain ⟨_, _, hbefore⟩ := nextTable_in_order hnext
        simp only [Bool.false_eq_true, if_false]
        exact (ordered_step p hqi fun j hj hji =>
          items_of_done_getElem rows hfit hj (hbefore j (by simpa using hj) hji)).symm
      | true =>
        simp only [if_true]
        rw [show (i + 1) % cs.length = (i + 1) % ((cs.map (Cursor.items rows)).set i
          ((cs.map (Cursor.items rows))[i].drop p)).length by simp, mixed_mod p hp (by simp; omega)]
        obtain ⟨_, _, hturn⟩ := nextTable_mixed hc hnext
        rcases hturn with ⟨hci, hbefore⟩ | ⟨_, hbefore⟩
        · exact (mixed_step p hp hci hqi fun j hj hcj hji =>
            items_of_done_getElem rows hfit hj (hbefore j (by simpa using hj) hcj hji)).symm
        · -- every table from the turn on is read to its end: the turn starts again from the first
          rw [mixed_wrap p hp (by simpa using hc) fun j hj hcj =>
            items_of_done_getElem rows hfit hj (hbefore j (by simpa using hj) (.inl hcj))]
          exact (mixed_step p hp (Nat.zero_le i) hqi fun j hj _ hji =>
            items_of_done_getElem rows hfit hj (hbefore j (by simpa using hj) (.inr hji))).symm

theorem work_start_le (l : TableLayout) :
    Cursor.work rows { layout := l } ≤ (rows l).length + 1 := by
  simp only [Cursor.work, Cursor.left, Bool.false_eq_true, if_false]
  have := List.length_filter_le (minRowid < ·.1) (rows l)
  omega

end Pass

theorem foldl_fuel (f : TableLayout → Nat) (xs : List TableLayout) (a : Nat) :
    xs.foldl (fun n l => n + f l + 1) a = a + (xs.map fun l => f l + 1).sum := by
  induction xs generalizing a with
  | nil => simp
  | cons l xs ih =>
    simp only [List.foldl_cons, ih, List.map_cons, List.sum_cons]
    omega

theorem foldl_keeps_header {β : Type} (step : Record → β → Record)
    (hstep : ∀ r x, (step r x).recordType = r.recordType ∧ (step r x).identifying = r.identifying) :
    ∀ (xs : List β) (r : Record),
      (xs.foldl step r).recordType = r.recordType ∧ (xs.foldl step r).identifying = r.identifying
  | [], _ => ⟨rfl, rfl⟩
  | x :: xs, r => by
    obtain ⟨htype, hkeys⟩ := hstep r x
    obtain ⟨htype', hkeys'⟩ := foldl_keeps_header step hstep xs (step r x)
    exact ⟨htype'.trans htype, hkeys'.trans hkeys⟩

theorem rowRecord_header (l : TableLayout) (vs : List Sql.SqlValue) :
    (rowRecord l vs).recordType = l.name ∧ (rowRecord l vs).identifying = l.primaryKeys := by
  unfold rowRecord
  -- setting a field leaves the type and the identifying fields as they are
  exact foldl_keeps_header _ (fun r x => by cases x; exact ⟨rfl, rfl⟩) _ _

/-- One pass over the tables of a database yields, for each table, its rows with a row id above the
smallest one, in row id order, each as a record typed by the table and identified by its primary
key: table after table, or mixed, a page of at most `p` rows from each table in turn from the
first; mixed, the same records in another order. This holds of any page reader that answers the
keyset query as the database does and is given a page more than the rows and tables, and so of
the database source's own pass, which the database answers. -/
theorem pass_yields_rows_above_min_rowid (rows : TableLayout → List (Int × List Sql.SqlValue))
    (layouts : List TableLayout) (mix : Bool) (p : Nat) (hp : 0 < p) :
    let tables : List (List Item) :=
      layouts.map fun l => ((rows l).filter (minRowid < ·.1)).map fun r => .ok (rowRecord l r.2)
    let pass := if mix then roundRobin p hp tables else tables.flatten
    (∀ read fuel, AnswersPages rows read p layouts → (layouts.map fun l => (rows l).length + 1).sum < fuel →
      tablePass read mix p fuel (layouts.map fun l => { layout := l }) 0 [] = pass) ∧
    (∀ db total, AnswersPages rows (readPage db) p layouts →
      (∀ l ∈ layouts, (rows l).length ≤ ((db.contents.table? l.name).map (·.rows.length)).getD 0) →
      (Source.tables db layouts mix p total).openPass.1 = .ok pass) ∧
    pass.Perm tables.flatten ∧
    ∀ l vs, (rowRecord l vs).recordType = l.name ∧ (rowRecord l vs).identifying = l.primaryKeys := by
  intro tables pass
  have hitems : (layouts.map fun l => ({ layout := l } : Cursor)).map (Cursor.items rows) = tables := by
    simp only [List.map_map]
    rfl
  have hpass : ∀ read fuel, AnswersPages rows read p layouts →
      (layouts.map fun l => (rows l).length + 1).sum < fuel →
      tablePass read mix p fuel (layouts.map fun l => { layout := l }) 0 [] = pass := by
    intro read fuel hread hfuel
    have hfit : ∀ x ∈ layouts.map fun l => ({ layout := l } : Cursor), Fits rows layouts x := by
      simp only [List.mem_map]
      rintro x ⟨l, hl, rfl⟩
      exact ⟨hl, by simp⟩
    have hwork : ((layouts.map fun l => ({ layout := l } : Cursor)).map (Cursor.work rows)).sum < fuel := by
      rw [List.map_map]
      exact Nat.lt_of_le_of_lt (List.sum_le_sum fun l _ => work_start_le rows l) hfuel
    rw [tablePass_items rows hread hp mix fuel _ 0 [] hfit (Nat.zero_le _) hwork, hitems]
    simp [pass]
  refine ⟨hpass, fun db total hread hcount => ?_, ?_, rowRecord_header⟩
  · -- the source's fuel counts every stored row of its tables, and one more per table
    simp only [openPass]
    congr 1
    refine hpass _ _ hread ?_
    rw [foldl_fuel]
    have : (layouts.map fun l => (rows l).length + 1).sum ≤
        (layouts.map fun l => ((db.contents.table? l.name).map (·.rows.length)).getD 0 + 1).sum :=
      List.sum_le_sum fun l hl => Nat.add_le_add_right (hcount l hl) 1
    omega
  · cases mix with
    | false => exact List.Perm.refl _
    | true => exact roundRobin_perm p hp tables

/-- Two tables mixed, two rows a page: the first table's first page, the second table, then the
rest of the first. -/
theorem two_tables_take_turns :
    let a : TableLayout := ⟨"a", ["v"], ["v"]⟩
    let b : TableLayout := ⟨"b", ["v"], ["v"]⟩
    let rows : TableLayout → List (Int × List Sql.SqlValue) := fun l =>
      if l.name = "a" then [(1, [.int 1]), (2, [.int 2]), (3, [.int 3])] else [(7, [.int 7])]
    let read := fun (l : TableLayout) (last : Int) (p : Nat) => (((rows l).filter (last < ·.1)).take p, none)
    (AnswersPages rows read 2 [a, b] ∧ ([a, b].map fun l => (rows l).length + 1).sum < 7) ∧
      tablePass read true 2 7 [{ layout := a }, { layout := b }] 0 [] =
        [.ok (rowRecord a [.int 1]), .ok (rowRecord a [.int 2]), .ok (rowRecord b [.int 7]),
          .ok (rowRecord a [.int 3])] := by
  intro a b rows read
  have hread : AnswersPages rows read 2 [a, b] := by
    intro l hl
    simp only [List.mem_cons, List.not_mem_nil, or_false] at hl
    rcases hl with rfl | rfl
    · exact ⟨by decide, fun _ => rfl⟩
    · exact ⟨by decide, fun _ => rfl⟩
  have hfuel : ([a, b].map fun l => (rows l).length + 1).sum < 7 := by decide
  refine ⟨⟨hread, hfuel⟩, ((pass_yields_rows_above_min_rowid rows [a, b] true 2 (by decide)).1
    read 7 hread hfuel).trans ?_⟩
  have ha : (rows a).filter (minRowid < ·.1) = [(1, [.int 1]), (2, [.int 2]), (3, [.int 3])] := rfl
  have hb : (rows b).filter (minRowid < ·.1) = [(7, [.int 7])] := rfl
  simp [ha, hb, roundRobin]

end GraphIngest.Source
