import GraphIngest.Proofs.Json.Reading

/-! # Typed reading of written documents

`Typed.Reads act j a need` says that the typed reader `act` reads the compact text of `j` as `a`
wherever a value may end, given a nesting budget of at least `need`, and hands the budget back as
it found it. The readers of this library are built from a handful of combinators, and this module
gives each of them its rule (`Typed.reads_seq`, `Typed.reads_strMap`, `Typed.reads_record`). A
whole text read by a reader is then its value (`Typed.whole_reads`). -/

namespace GraphIngest

namespace Json

/-- The text of the items after the first: a comma before each. -/
def commaText (items : List Json) : List Char :=
  items.flatMap fun j => ',' :: j.compact.toList

@[simp] theorem commaText_nil : commaText [] = [] := rfl

@[simp] theorem commaText_cons (j : Json) (items : List Json) :
    commaText (j :: items) = ',' :: j.compact.toList ++ commaText items := rfl

theorem compactList_cons_toList (x : Json) (xs : List Json) :
    (compact.compactList (x :: xs)).toList = x.compact.toList ++ commaText xs := by
  induction xs generalizing x with
  | nil => simp [compact.compactList]
  | cons y ys ih => rw [compactList_cons_cons]; simp [ih]

/-- The text of the members after the first: a comma before each. -/
def commaMembers (ms : List (String × Json)) : List Char :=
  ms.flatMap fun m => ',' :: (quote m.1).toList ++ ':' :: m.2.compact.toList

@[simp] theorem commaMembers_nil : commaMembers [] = [] := rfl

@[simp] theorem commaMembers_cons (k : String) (j : Json) (ms : List (String × Json)) :
    commaMembers ((k, j) :: ms) =
      ',' :: (quote k).toList ++ ':' :: j.compact.toList ++ commaMembers ms := by
  simp [commaMembers]

theorem compactMembers_cons_toList (k : String) (x : Json) (ms : List (String × Json)) :
    (compact.compactMembers ((k, x) :: ms)).toList =
      (quote k).toList ++ ':' :: x.compact.toList ++ commaMembers ms := by
  induction ms generalizing k x with
  | nil => simp [compact.compactMembers]
  | cons m ms ih =>
    obtain ⟨k', x'⟩ := m
    rw [compactMembers_cons_cons]; simp [ih]

end Json

namespace Typed

/-- `act` reads the compact text of `j` as `a`: from a cursor before that text, with a rest where
a value may end and a nesting budget of at least `need`, it stops before the rest with the
budget it found. -/
def Reads (act : Typed α) (j : Json) (a : α) (need : Nat) : Prop :=
  ∀ (c : Cursor) (r : List Char), Delimited r → c.rest = j.compact.toList ++ r → need ≤ c.depth →
    Moves act c r c.depth a

variable {c : Cursor} {r t : List Char} {n : Nat}

theorem Reads.mono {act : Typed α} {j : Json} {a : α} {m : Nat} (h : Reads act j a n)
    (hnm : n ≤ m) : Reads act j a m :=
  fun c r hr hc hd => h c r hr hc (Nat.le_trans hnm hd)

/-! ## Scalars -/

theorem reads_str (s e : String) (n : Nat) : Reads (str e) (.str s) s n := by
  intro c r _ h _
  replace h : c.rest = '"' :: (Json.escaped s.toList ++ '"' :: r) := by
    simpa [Json.compact, Json.quote_toList] using h
  unfold str
  exact (moves_peekChar h (by decide)).bind fun c₁ h₁ hd₁ =>
    hd₁ ▸ (moves_eat (h₁.trans h)).bind fun c₂ h₂ hd₂ =>
      hd₂ ▸ moves_lift (JsonRead.string_escaped s h₂)

theorem Moves.map {x : Typed α} {d : Nat} {a : α} (f : α → β) (h : Moves x c r d a) :
    Moves (f <$> x) c r d (f a) := by
  obtain ⟨c', h1, h2, hrun⟩ := h
  exact ⟨c', h1, h2, by show EStateM.map f x c = _; simp only [EStateM.map, hrun]⟩

theorem reads_natUpTo {k max : Nat} (name : String) (hk : k ≤ max) (hmax : max ≤ JsonRead.u64Max)
    (n : Nat) : Reads (natUpTo max name) (.num (.nat k)) k n := by
  intro c r hr h _
  replace h : c.rest = Nat.toDigits 10 k ++ r := by
    simpa [Json.compact, JsonNumber.text_nat] using h
  obtain ⟨ch, ds, hds⟩ := List.exists_cons_of_ne_nil (Nat.toDigits_ne_nil (n := k) (b := 10))
  have hd : ch.isDigit = true := JsonRead.isDigit_of_mem_toDigits (by rw [hds]; simp)
  have hminus : (ch == '-') = false := by simpa using (JsonRead.digit_ne hd).2.2.2.1
  unfold natUpTo
  refine (moves_peekChar (h.trans (by rw [hds]; rfl)) (Json.digit_solid hd).1).bind
    fun c₁ h₁ hd₁ => ?_
  simp only [hminus, hd, Bool.false_or, if_true, Bool.false_eq_true, if_false, bne, Bool.not_false]
  refine (moves_lift (JsonRead.number_nat (Nat.le_trans hk hmax) (h₁.trans h) hr)).bind
    fun c₂ h₂ hd₂ => ?_
  simp only [hk, if_true]
  exact moves_fix (hd₂.trans hd₁ ▸ moves_pure h₂ k)

theorem reads_option_none (inner : Typed α) (n : Nat) : Reads (option inner) .null none n := by
  intro c r _ h _
  replace h : c.rest = 'n' :: ['u', 'l', 'l'] ++ r := h
  unfold option
  exact (moves_peekChar h (by decide)).bind fun c₁ h₁ hd₁ =>
    hd₁ ▸ (moves_eat (h₁.trans h)).bind fun c₂ h₂ hd₂ =>
      hd₂ ▸ (moves_lift (JsonRead.moves_expectWord _ h₂)).bind fun c₃ h₃ hd₃ =>
        hd₃ ▸ moves_pure h₃ none

theorem reads_option_some {inner : Typed α} {j : Json} {a : α} (h : Reads inner j a n)
    (hj : j.compact.toList.head? ≠ some 'n') : Reads (option inner) j (some a) n := by
  intro c r hr hc hn
  obtain ⟨ch, u, hu, hs, -⟩ := Json.compact_head j
  have hch : ch ≠ 'n' := fun hch => hj (by simp [hu, hch])
  unfold option
  refine (moves_peekChar (hc.trans (by rw [hu]; rfl)) hs).bind fun c₁ h₁ hd₁ => ?_
  split
  · exact absurd (Option.some.inj ‹_›) hch
  · exact Moves.map some (hd₁ ▸ h c₁ r hr (h₁.trans hc) (hd₁ ▸ hn))

theorem reads_content {j : Json} (hj : j.EveryNumber JsonNumber.ReadsBack) :
    Reads content j j (j.nesting + 1) := by
  intro c r hr h hn
  unfold content
  exact (moves_get c).bind fun c₁ h₁ hd₁ =>
    hd₁ ▸ moves_lift (JsonRead.value_compact j hj (by omega) (h₁.trans h) hr)

theorem reads_ignore {j : Json} (hj : j.EveryNumber JsonNumber.Skips) (n : Nat) :
    Reads ignore j () n := by
  intro c r hr h _
  exact moves_lift (JsonRead.skipValue_compact j hj h hr)

/-! ## Arrays -/

open JsonRead (sepText) in
theorem nextElement_item {item : Typed α} {a : α} {ch : Char} (first : Bool) (hs : Solid ch)
    (hch : ch ≠ ']') (hc : ch ≠ ',') (h : c.rest = sepText first ++ ch :: t)
    (k : ∀ c₁ : Cursor, c₁.rest = ch :: t → c₁.depth = c.depth → Moves item c₁ r c.depth a) :
    Moves (nextElement first item) c r c.depth (some a) := by
  unfold nextElement
  cases first
  · -- a later item: its comma is taken, then the item is looked at
    replace h : c.rest = ',' :: ch :: t := by simpa [sepText] using h
    refine (moves_peekChar h (by decide)).bind fun c₁ h₁ hd₁ =>
      (moves_eat (h₁.trans h)).bind fun c₂ h₂ hd₂ => (moves_peekChar h₂ hs).bind
        fun c₃ h₃ hd₃ => (moves_pure (h₃.trans h₂) _).bind fun c₄ h₄ hd₄ => ?_
    have hd : c₄.depth = c.depth := hd₄.trans (hd₃.trans (hd₂.trans hd₁))
    dsimp only
    split
    · contradiction
    · exact absurd (Option.some.inj (Option.some.inj ‹_›)) hch
    · obtain rfl := Option.some.inj (Option.some.inj ‹_›)
      exact Moves.map some (k c₄ h₄ hd)
    · exact absurd (Option.some.inj ‹_›) (by simp)
  · -- the first item is looked at where it starts
    replace h : c.rest = ch :: t := by simpa [sepText] using h
    refine (moves_peekChar h hs).bind fun c₁ h₁ hd₁ => ?_
    split
    · exact absurd (Option.some.inj ‹_›) hch
    · exact absurd (Option.some.inj ‹_›) hc
    · obtain rfl := Option.some.inj ‹some ch = some _›
      refine (moves_pure (h₁.trans h) _).bind fun c₂ h₂ hd₂ => ?_
      dsimp only
      split
      · contradiction
      · exact absurd (Option.some.inj (Option.some.inj ‹_›)) hch
      · obtain rfl := Option.some.inj (Option.some.inj ‹_›)
        exact Moves.map some (k c₂ h₂ (hd₂.trans hd₁))
      · exact absurd (Option.some.inj ‹_›) (by simp)
    · contradiction

theorem nextElement_close (item : Typed α) (first : Bool) (h : c.rest = ']' :: r) :
    Moves (nextElement first item) c (']' :: r) c.depth none := by
  unfold nextElement
  exact (moves_peekChar h (by decide)).bind fun c₁ h₁ hd₁ =>
    (moves_pure (h₁.trans h) none).bind fun c₂ h₂ hd₂ => hd₂.trans hd₁ ▸ moves_pure h₂ none

theorem Delimited.commaText (js : List Json) (r : List Char) :
    Delimited (Json.commaText js ++ ']' :: r) := by
  cases js with
  | nil => exact Delimited.bracket r
  | cons j js => exact Delimited.comma _

section Items

variable {item : Typed α} {toJ : α → Json}

theorem items_comma (acc : List α) (xs : List α) (hx : ∀ x ∈ xs, Reads item (toJ x) x n)
    (hf : xs.length < fuel) (hn : n ≤ c.depth)
    (h : c.rest = Json.commaText (xs.map toJ) ++ ']' :: r) :
    Moves (items item fuel false acc) c (']' :: r) c.depth (acc.reverse ++ xs) := by
  induction xs generalizing c fuel acc with
  | nil =>
    obtain ⟨fuel, rfl⟩ : ∃ f, fuel = f + 1 := ⟨fuel - 1, by simp at hf; omega⟩
    rw [items]
    simpa using (nextElement_close item false (by simpa using h)).bind
      fun c₁ h₁ hd₁ => (moves_pure h₁ acc.reverse).of_depth hd₁
  | cons x xs ih =>
    obtain ⟨fuel, rfl⟩ : ∃ f, fuel = f + 1 := ⟨fuel - 1, by simp at hf; omega⟩
    obtain ⟨ch, u, hu, hs, hc, hch, -⟩ := Json.compact_head (toJ x)
    have htail := Delimited.commaText (xs.map toJ) r
    rw [items]
    refine (nextElement_item false hs hch hc (t := u ++ (Json.commaText (xs.map toJ) ++ ']' :: r))
      (by simp [h, hu, JsonRead.sepText]) fun c₁ h₁ hd₁ =>
        (hx x (by simp) c₁ _ htail (by simp [h₁, hu]) (hd₁ ▸ hn)).of_depth
          hd₁).bind fun c₂ h₂ hd₂ => ?_
    simpa using (ih (x :: acc) (fun y hy => hx y (by simp [hy])) (by simp at hf; omega)
      (hd₂ ▸ hn) h₂).of_depth hd₂

theorem items_first (xs : List α) (hx : ∀ x ∈ xs, Reads item (toJ x) x n)
    (hf : xs.length < fuel) (hn : n ≤ c.depth)
    (h : c.rest = (Json.compact.compactList (xs.map toJ)).toList ++ ']' :: r) :
    Moves (items item fuel true []) c (']' :: r) c.depth xs := by
  obtain ⟨fuel, rfl⟩ : ∃ f, fuel = f + 1 := ⟨fuel - 1, by omega⟩
  rw [items]
  cases xs with
  | nil =>
    exact (nextElement_close item true (by simpa [Json.compact.compactList] using h)).bind
      fun c₁ h₁ hd₁ => (moves_pure h₁ _).of_depth hd₁
  | cons x xs =>
    obtain ⟨ch, u, hu, hs, hc, hch, -⟩ := Json.compact_head (toJ x)
    have htail := Delimited.commaText (xs.map toJ) r
    rw [List.map_cons, Json.compactList_cons_toList] at h
    refine (nextElement_item true hs hch hc (t := u ++ (Json.commaText (xs.map toJ) ++ ']' :: r))
      (by simp [h, hu, JsonRead.sepText]) fun c₁ h₁ hd₁ =>
        (hx x (by simp) c₁ _ htail (by simp [h₁, hu]) (hd₁ ▸ hn)).of_depth hd₁).bind
      fun c₂ h₂ hd₂ => ?_
    simpa using (items_comma [x] xs (fun y hy => hx y (by simp [hy]))
      (by simp at hf; omega) (hd₂ ▸ hn) h₂).of_depth hd₂

theorem moves_endSeq (h : c.rest = ']' :: r) : Moves endSeq c r c.depth () := by
  unfold endSeq
  exact (moves_peekChar h (by decide)).bind fun c₁ h₁ hd₁ =>
    (moves_eat (h₁.trans h)).of_depth hd₁

theorem reads_seq (xs : List α) (hx : ∀ x ∈ xs, Reads item (toJ x) x n) (hn : 1 ≤ n)
    (e : String) : Reads (seq item e) (.arr (xs.map toJ)) xs (n + 1) := by
  intro c r hr h hd
  replace h : c.rest = '[' :: ((Json.compact.compactList (xs.map toJ)).toList ++ ']' :: r) := by
    simpa [Json.compact] using h
  unfold seq
  refine (moves_peekChar h (by decide)).bind fun c₁ h₁ hd₁ => ?_
  -- the items are read one level down, then the closer, and the level is given back
  refine (moves_enter (.inl (h₁.trans h)) (by omega)).bind fun c₂ h₂ hd₂ => ?_
  refine (moves_get c₂).bind fun c₃ h₃ hd₃ => ?_
  have hitems : Moves (items item (c₂.rest.length + 1) true []) c₃ (']' :: r) c₃.depth xs :=
    items_first xs hx (by simpa using JsonRead.length_lt_fuel_items _ h₂) (by omega) (h₃.trans h₂)
  refine (moves_closing hitems fun c₄ h₄ hd₄ => (moves_endSeq h₄).of_depth hd₄).bind
    fun c₅ h₅ hd₅ => ?_
  refine (moves_leave c₅).bind fun c₆ h₆ hd₆ => ?_
  exact (moves_pure (h₆.trans h₅) xs).of_depth (by omega)

end Items

/-! ## Objects -/

open JsonRead (sepText) in
theorem nextKey_quote (first : Bool) (key : String)
    (h : c.rest = sepText first ++ (Json.quote key).toList ++ t) :
    Moves (nextKey first) c t c.depth (some key) := by
  rw [Json.quote_toList] at h
  unfold nextKey
  cases first
  · replace h : c.rest = ',' :: '"' :: (Json.escaped key.toList ++ '"' :: t) := by
      simpa [sepText] using h
    exact (moves_peekChar h (by decide)).bind fun c₁ h₁ hd₁ =>
      (moves_eat (h₁.trans h)).bind fun c₂ h₂ hd₂ => (moves_peekChar h₂ (by decide)).bind
        fun c₃ h₃ hd₃ => (moves_pure (h₃.trans h₂) _).bind fun c₄ h₄ hd₄ =>
          (moves_eat h₄).bind fun c₅ h₅ hd₅ =>
            (Moves.map some (moves_lift (JsonRead.string_escaped key h₅))).of_depth
              (hd₅.trans (hd₄.trans (hd₃.trans (hd₂.trans hd₁))))
  · replace h : c.rest = '"' :: (Json.escaped key.toList ++ '"' :: t) := by
      simpa [sepText] using h
    exact (moves_peekChar h (by decide)).bind fun c₁ h₁ hd₁ =>
      (moves_pure (h₁.trans h) _).bind fun c₂ h₂ hd₂ =>
        (moves_eat h₂).bind fun c₃ h₃ hd₃ =>
          (Moves.map some (moves_lift (JsonRead.string_escaped key h₃))).of_depth
            (hd₃.trans (hd₂.trans hd₁))

theorem nextKey_close (first : Bool) (h : c.rest = '}' :: r) :
    Moves (nextKey first) c ('}' :: r) c.depth none := by
  unfold nextKey
  exact (moves_peekChar h (by decide)).bind fun c₁ h₁ hd₁ =>
    (moves_pure (h₁.trans h) none).bind fun c₂ h₂ hd₂ =>
      (moves_pure h₂ none).of_depth (hd₂.trans hd₁)

theorem moves_endMap (h : c.rest = '}' :: r) : Moves endMap c r c.depth () := by
  unfold endMap
  exact (moves_peekChar h (by decide)).bind fun c₁ h₁ hd₁ =>
    (moves_eat (h₁.trans h)).of_depth hd₁

theorem Delimited.commaMembers (ms : List (String × Json)) (r : List Char) :
    Delimited (Json.commaMembers ms ++ '}' :: r) := by
  cases ms with
  | nil => exact Delimited.brace r
  | cons m ms => obtain ⟨k, j⟩ := m; exact Delimited.comma _

theorem insertSorted_of_lt {β : Type} (m : String × β) (acc : List (String × β))
    (h : ∀ e ∈ acc, e.1 < m.1) : JsonDecode.insertSorted m acc = acc ++ [m] := by
  induction acc with
  | nil => rfl
  | cons e acc ih =>
    have he := h e (by simp)
    rw [JsonDecode.insertSorted, if_neg (String.lt_asymm he),
      if_neg fun (heq : m.1 = e.1) => String.lt_irrefl e.1 (heq ▸ he),
      ih fun e' he' => h e' (by simp [he'])]
    rfl

section Members

variable {value : Typed α} {toJ : α → Json}

/-- The written members of a map of values. -/
def memberTexts (toJ : α → Json) (es : List (String × α)) : List (String × Json) :=
  es.map fun e => (e.1, toJ e.2)

@[simp] theorem memberTexts_nil : memberTexts toJ [] = [] := rfl

@[simp] theorem memberTexts_cons (k : String) (v : α) (es : List (String × α)) :
    memberTexts toJ ((k, v) :: es) = (k, toJ v) :: memberTexts toJ es := rfl

@[simp] theorem length_memberTexts (es : List (String × α)) :
    (memberTexts toJ es).length = es.length := by
  simp [memberTexts]

theorem members_comma (acc : List (String × α)) (es : List (String × α)) (hx : ∀ e ∈ es, Reads value (toJ e.2) e.2 n)
    (hs : (acc ++ es).Pairwise (fun a b => a.1 < b.1)) (hf : es.length < fuel)
    (hn : n ≤ c.depth) (h : c.rest = Json.commaMembers (memberTexts toJ es) ++ '}' :: r) :
    Moves (members value fuel false acc) c ('}' :: r) c.depth (acc ++ es) := by
  induction es generalizing c fuel acc with
  | nil =>
    obtain ⟨fuel, rfl⟩ : ∃ f, fuel = f + 1 := ⟨fuel - 1, by simp at hf; omega⟩
    rw [members]
    simpa using (nextKey_close false (by simpa [memberTexts] using h)).bind
      fun c₁ h₁ hd₁ => (moves_pure h₁ acc).of_depth hd₁
  | cons e es ih =>
    obtain ⟨k, v⟩ := e
    obtain ⟨fuel, rfl⟩ : ∃ f, fuel = f + 1 := ⟨fuel - 1, by simp at hf; omega⟩
    have htail := Delimited.commaMembers (memberTexts toJ es) r
    have hlt : ∀ e ∈ acc, e.1 < k := fun e he =>
      (List.pairwise_append.1 hs).2.2 e he (k, v) (by simp)
    rw [members]
    refine (nextKey_quote false k
      (t := ':' :: ((toJ v).compact.toList ++ (Json.commaMembers (memberTexts toJ es) ++ '}' :: r)))
      (by simp [h, JsonRead.sepText, memberTexts])).bind fun c₁ h₁ hd₁ => ?_
    refine (moves_colon h₁).bind fun c₂ h₂ hd₂ => ?_
    refine ((hx (k, v) (by simp) c₂ _ htail h₂ (by omega)).of_depth (hd₂.trans hd₁)).bind
      fun c₃ h₃ hd₃ => ?_
    -- the key is larger than those read so far, so the member goes last
    rw [insertSorted_of_lt (k, v) acc hlt]
    simpa using (ih (acc ++ [(k, v)]) (fun e he => hx e (by simp [he]))
      (by simpa using hs) (by simp at hf; omega) (by omega) h₃).of_depth hd₃

theorem members_first (es : List (String × α)) (hx : ∀ e ∈ es, Reads value (toJ e.2) e.2 n)
    (hs : es.Pairwise (fun a b => a.1 < b.1)) (hf : es.length < fuel) (hn : n ≤ c.depth)
    (h : c.rest = (Json.compact.compactMembers (memberTexts toJ es)).toList ++ '}' :: r) :
    Moves (members value fuel true []) c ('}' :: r) c.depth es := by
  obtain ⟨fuel, rfl⟩ : ∃ f, fuel = f + 1 := ⟨fuel - 1, by omega⟩
  rw [members]
  cases es with
  | nil =>
    exact (nextKey_close true (by simpa [Json.compact.compactMembers] using h)).bind
      fun c₁ h₁ hd₁ => (moves_pure h₁ _).of_depth hd₁
  | cons e es =>
    obtain ⟨k, v⟩ := e
    have htail := Delimited.commaMembers (memberTexts toJ es) r
    rw [memberTexts_cons, Json.compactMembers_cons_toList] at h
    refine (nextKey_quote true k
      (t := ':' :: ((toJ v).compact.toList ++ (Json.commaMembers (memberTexts toJ es) ++ '}' :: r)))
      (by simp [h, JsonRead.sepText])).bind fun c₁ h₁ hd₁ => ?_
    refine (moves_colon h₁).bind fun c₂ h₂ hd₂ => ?_
    refine ((hx (k, v) (by simp) c₂ _ htail h₂ (by omega)).of_depth (hd₂.trans hd₁)).bind
      fun c₃ h₃ hd₃ => ?_
    simpa [JsonDecode.insertSorted] using (members_comma [(k, v)] es
      (fun e he => hx e (by simp [he])) (by simpa using hs) (by simp at hf; omega) (by omega)
      h₃).of_depth hd₃

theorem reads_strMap (es : List (String × α)) (hx : ∀ e ∈ es, Reads value (toJ e.2) e.2 n)
    (hs : es.Pairwise (fun a b => a.1 < b.1)) (hn : 1 ≤ n) :
    Reads (strMap value) (.obj (memberTexts toJ es)) es (n + 1) := by
  intro c r hr h hd
  replace h : c.rest = '{' :: ((Json.compact.compactMembers (memberTexts toJ es)).toList ++
      '}' :: r) := by
    simpa [Json.compact] using h
  unfold strMap
  refine (moves_peekChar h (by decide)).bind fun c₁ h₁ hd₁ => ?_
  refine (moves_enter (.inr (h₁.trans h)) (by omega)).bind fun c₂ h₂ hd₂ => ?_
  refine (moves_get c₂).bind fun c₃ h₃ hd₃ => ?_
  have hmembers : Moves (members value (c₂.rest.length + 1) true []) c₃ ('}' :: r) c₃.depth es :=
    members_first es hx hs (by simpa using JsonRead.length_lt_fuel_members _ h₂) (by omega)
      (h₃.trans h₂)
  refine (moves_closing hmembers fun c₄ h₄ hd₄ => (moves_endMap h₄).of_depth hd₄).bind
    fun c₅ h₅ hd₅ => ?_
  refine (moves_leave c₅).bind fun c₆ h₆ hd₆ => ?_
  exact (moves_pure (h₆.trans h₅) es).of_depth (by omega)

end Members

section Records

variable {σ : Type} {names : List String} {field : σ → String → Typed σ}

/-- The members `ms` of a record, read from state `st` with the keys `seen` already given, end
in state `st'`: a declared key comes at most once and its field reader reads its value to the
next state, a member that is not declared is skipped. -/
def FieldsRead (names : List String) (field : σ → String → Typed σ) (n : Nat) :
    List String → σ → List (String × Json) → σ → Prop
  | _, st, [], st' => st' = st
  | seen, st, (k, j) :: ms, st' =>
    if names.contains k then
      seen.contains k = false ∧
        ∃ st₁, Reads (field st k) j st₁ n ∧ FieldsRead names field n (k :: seen) st₁ ms st'
    else j.EveryNumber JsonNumber.Skips ∧ FieldsRead names field n seen st ms st'

theorem fieldsRead_nil {seen : List String} {st st' : σ} :
    FieldsRead names field n seen st [] st' ↔ st' = st := by
  simp [FieldsRead]

theorem fieldsRead_declared {k : String} {j : Json} {ms : List (String × Json)} {seen : List String}
    {st st' : σ} (hk : names.contains k = true) :
    FieldsRead names field n seen st ((k, j) :: ms) st' ↔ seen.contains k = false ∧
      ∃ st₁, Reads (field st k) j st₁ n ∧ FieldsRead names field n (k :: seen) st₁ ms st' := by
  simp only [FieldsRead, hk, if_true]

theorem fieldsRead_unknown {k : String} {j : Json} {ms : List (String × Json)} {seen : List String}
    {st st' : σ} (hk : names.contains k = false) :
    FieldsRead names field n seen st ((k, j) :: ms) st' ↔
      j.EveryNumber JsonNumber.Skips ∧ FieldsRead names field n seen st ms st' := by
  simp only [FieldsRead, hk, Bool.false_eq_true, if_false]

theorem FieldsRead.declared {k : String} {j : Json} {ms : List (String × Json)} {seen : List String}
    {st st₁ st' : σ} (hk : names.contains k = true) (hseen : seen.contains k = false)
    (hread : Reads (field st k) j st₁ n) (hrest : FieldsRead names field n (k :: seen) st₁ ms st') :
    FieldsRead names field n seen st ((k, j) :: ms) st' :=
  (fieldsRead_declared hk).2 ⟨hseen, st₁, hread, hrest⟩

theorem FieldsRead.unknown {k : String} {j : Json} {ms : List (String × Json)} {seen : List String}
    {st st' : σ} (hk : names.contains k = false) (hskip : j.EveryNumber JsonNumber.Skips)
    (hrest : FieldsRead names field n seen st ms st') :
    FieldsRead names field n seen st ((k, j) :: ms) st' :=
  (fieldsRead_unknown hk).2 ⟨hskip, hrest⟩

/-- The members of an object, after the first one's comma unless `first`. -/
def membersText (first : Bool) (ms : List (String × Json)) : List Char :=
  if first then (Json.compact.compactMembers ms).toList else Json.commaMembers ms

@[simp] theorem membersText_nil (first : Bool) : membersText first [] = [] := by
  cases first <;> simp [membersText, Json.compact.compactMembers]

theorem membersText_cons (first : Bool) (k : String) (j : Json) (ms : List (String × Json)) :
    membersText first ((k, j) :: ms) =
      JsonRead.sepText first ++ (Json.quote k).toList ++ ':' :: j.compact.toList ++
        Json.commaMembers ms := by
  cases first <;> simp [membersText, JsonRead.sepText, Json.compactMembers_cons_toList]

theorem fields_members (ms : List (String × Json)) (first : Bool) {seen : List String}
    {st st' : σ} (hm : FieldsRead names field n seen st ms st') (hf : ms.length < fuel)
    (hn : n ≤ c.depth) (h : c.rest = membersText first ms ++ '}' :: r) :
    Moves (fields names field fuel first seen st) c ('}' :: r) c.depth st' := by
  induction ms generalizing first seen st c fuel with
  | nil =>
    obtain ⟨fuel, rfl⟩ : ∃ f, fuel = f + 1 := ⟨fuel - 1, by simp at hf; omega⟩
    rw [fields, fieldsRead_nil.1 hm]
    exact (nextKey_close first (by simpa using h)).bind fun c₁ h₁ hd₁ =>
      (moves_pure h₁ st).of_depth hd₁
  | cons m ms ih =>
    obtain ⟨k, j⟩ := m
    obtain ⟨fuel, rfl⟩ : ∃ f, fuel = f + 1 := ⟨fuel - 1, by simp at hf; omega⟩
    have htail := Delimited.commaMembers ms r
    rw [fields]
    refine (nextKey_quote first k (t := ':' :: (j.compact.toList ++ (Json.commaMembers ms ++ '}' :: r)))
      (by simp [h, membersText_cons])).bind fun c₁ h₁ hd₁ => ?_
    by_cases hk : names.contains k = true
    · -- a declared field, given for the first time: its reader takes the state on
      obtain ⟨hnew, st₁, hread, hrest⟩ := (fieldsRead_declared hk).1 hm
      simp only [hk, hnew, if_true, Bool.false_eq_true, if_false]
      refine (moves_colon h₁).bind fun c₂ h₂ hd₂ => ?_
      refine ((hread c₂ _ htail h₂ (by omega)).of_depth (hd₂.trans hd₁)).bind fun c₃ h₃ hd₃ => ?_
      exact (ih false hrest (by simp at hf; omega) (by omega) (by simpa [membersText] using h₃)).of_depth hd₃
    · -- a member no field is declared for: its value is skipped
      have hk' : names.contains k = false := by simpa using hk
      obtain ⟨hskip, hrest⟩ := (fieldsRead_unknown hk').1 hm
      simp only [hk', Bool.false_eq_true, if_false]
      refine (moves_colon h₁).bind fun c₂ h₂ hd₂ => ?_
      refine ((reads_ignore hskip n c₂ _ htail h₂ (by omega)).of_depth (hd₂.trans hd₁)).bind
        fun c₃ h₃ hd₃ => ?_
      exact (ih false hrest (by simp at hf; omega) (by omega) (by simpa [membersText] using h₃)).of_depth hd₃

/-- A record given as an object: its members are read field by field from `init`, and `finish`
makes the record from the last state without moving; one level deeper than the fields need. -/
theorem reads_record {β : Type} {name : String} {optional : List String} {init st' : σ}
    {finish : σ → Typed β} {b : β} (ms : List (String × Json))
    (hm : FieldsRead names field n [] init ms st')
    (hfin : ∀ c : Cursor, Moves (finish st') c c.rest c.depth b) (hn : 1 ≤ n) :
    Reads (record name names optional init field finish) (.obj ms) b (n + 1) := by
  intro c r hr h hd
  replace h : c.rest = '{' :: ((Json.compact.compactMembers ms).toList ++ '}' :: r) := by
    simpa [Json.compact] using h
  unfold record
  refine (moves_peekChar h (by decide)).bind fun c₁ h₁ hd₁ => ?_
  refine (moves_enter (.inr (h₁.trans h)) (by omega)).bind fun c₂ h₂ hd₂ => ?_
  refine (moves_get c₂).bind fun c₃ h₃ hd₃ => ?_
  -- the fields one level down, the record made, the closer, and the level given back
  have hfields : Moves (fields names field (c₂.rest.length + 1) true [] init) c₃ ('}' :: r)
      c₃.depth st' :=
    fields_members ms true hm (JsonRead.length_lt_fuel_members _ h₂) (by omega)
      (by simpa [membersText] using h₃.trans h₂)
  refine (moves_closing (hfields.bind fun c₄ h₄ hd₄ => by
      have hmade := (hfin c₄).of_depth hd₄
      rwa [h₄] at hmade) fun c₅ h₅ hd₅ => (moves_endMap h₅).of_depth hd₅).bind
    fun c₆ h₆ hd₆ => ?_
  refine (moves_leave c₆).bind fun c₇ h₇ hd₇ => ?_
  exact (moves_pure (h₇.trans h₆) b).of_depth (by omega)

end Records

/-! ## Whole texts -/

theorem whole_reads {act : Typed α} {j : Json} {a : α} (h : Reads act j a n) (hn : n ≤ 128) :
    whole act j.compact = .ok a := by
  have hstart : (JsonRead.start j.compact).rest = j.compact.toList ++ [] := by
    simp [JsonRead.start]
  have hread : Moves (do let a ← act; lift JsonRead.finishText; pure a) (JsonRead.start j.compact)
      [] (JsonRead.start j.compact).depth a :=
    (h _ [] trivial hstart hn).bind fun c₁ h₁ hd₁ =>
      (moves_lift (JsonRead.moves_finishText h₁)).bind fun c₂ h₂ hd₂ =>
        (moves_pure h₂ a).of_depth (hd₂.trans hd₁)
  obtain ⟨c', -, -, hrun⟩ := hread
  unfold whole
  rw [EStateM.run, hrun]

end Typed

end GraphIngest
