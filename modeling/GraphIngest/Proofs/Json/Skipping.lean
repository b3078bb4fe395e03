import GraphIngest.Proofs.Json.Literals

/-! # Skipping a written document

A typed reader hands a member it has no use for to the skipper, which checks the grammar without
building anything: it reads value starts one after another with a stack of the brackets still
open. It passes over the compact text of every document (`JsonRead.skipValue_compact`), given that
it passes over the text of each double the document holds (`FloatSkips`). The skipper is a loop,
so the statement is made for any stack and fuel: on the text of `j` followed by `r`, it behaves as
it does on `r` right after a complete value (`skipAfter k st`). -/

namespace GraphIngest

/-! ## Texts of numbers -/

theorem JsonNumber.text_nat (n : Nat) : (JsonNumber.text (.nat n)).toList = Nat.toDigits 10 n := by
  simp [JsonNumber.text, Nat.toString_eq_repr, Nat.repr_eq_ofList_toDigits]

theorem JsonNumber.text_neg (i : Int) :
    (JsonNumber.text (.neg i)).toList =
      if i < 0 then '-' :: Nat.toDigits 10 i.natAbs else Nat.toDigits 10 i.toNat := by
  cases i with
  | ofNat n =>
    have hrepr : Int.repr (n : Int) = Nat.repr n := rfl
    simp [JsonNumber.text, hrepr, Nat.repr_eq_ofList_toDigits]
  | negSucc n =>
    have htext : toString (Int.negSucc n) = "-" ++ toString (n + 1) := rfl
    simp [JsonNumber.text, htext, Nat.toString_eq_repr, Nat.repr_eq_ofList_toDigits]

namespace FloatText

theorem digitString_toList (c : Nat) : (digitString c).toList = Nat.toDigits 10 c := by
  simp [digitString]

theorem scientific_head (c : Nat) (p : Int) :
    ∃ ch t, (scientific c p).toList = ch :: t ∧ ch.isDigit = true := by
  obtain ⟨d, ds, hds⟩ := List.exists_cons_of_ne_nil (Nat.toDigits_ne_nil (n := c) (b := 10))
  have hd : d.isDigit = true := JsonRead.isDigit_of_mem_toDigits (by rw [hds]; simp)
  unfold scientific
  simp only [digitString_toList, hds]
  split_ifs with h1 h2 h3
  · exact ⟨d, _, by simp [digitString_toList, hds]; rfl, hd⟩
  · obtain ⟨m, hm⟩ : ∃ m, ((digitString c).length + p : Int).toNat = m + 1 :=
      ⟨((digitString c).length + p : Int).toNat - 1, by omega⟩
    exact ⟨d, _, by simp [hm]; rfl, hd⟩
  · exact ⟨'0', _, by simp; rfl, by decide⟩
  · cases ds <;> exact ⟨d, _, by simp; rfl, hd⟩
  · cases ds <;> exact ⟨d, _, by simp; rfl, hd⟩

theorem json_head (x : Float) :
    ∃ ch t, (json x).toList = ch :: t ∧ (ch = 'n' ∨ ch = '-' ∨ ch.isDigit = true) := by
  unfold json
  split_ifs
  · exact ⟨'n', _, by simp; rfl, .inl rfl⟩
  · exact ⟨'-', _, by simp; rfl, .inr (.inl rfl)⟩
  · exact ⟨'-', _, by simp; rfl, .inr (.inl rfl)⟩
  · exact ⟨'0', _, by simp; rfl, .inr (.inr (by decide))⟩
  · obtain ⟨c, p⟩ := shortestOf x
    obtain ⟨ch, t, ht, hd⟩ := scientific_head c p
    exact ⟨ch, t, by simpa using ht, .inr (.inr hd)⟩

end FloatText

/-- The skipper passes over the JSON text of `x` wherever a value may end. -/
def FloatSkips (x : Float) : Prop :=
  ∀ (c : Cursor) (r : List Char), Delimited r → c.rest = (FloatText.json x).toList ++ r →
    JsonRead.Moves JsonRead.skipValueStart c r none

/-- The numbers the skipper passes over: every integer, and the doubles it passes over. -/
def JsonNumber.Skips : JsonNumber → Prop
  | .float x => FloatSkips x
  | _ => True

namespace Json

/-- The number of values in a document, itself included: one value start each for the skipper. -/
def count : Json → Nat
  | .arr items => countList items + 1
  | .obj members => countMembers members + 1
  | _ => 1
where
  /-- The values in a list of documents. -/
  countList : List Json → Nat
    | [] => 0
    | j :: rest => count j + countList rest
  /-- The values in the members of an object. -/
  countMembers : List (String × Json) → Nat
    | [] => 0
    | (_, j) :: rest => count j + countMembers rest

/-- Every number in the document satisfies `P`. -/
def EveryNumber (P : JsonNumber → Prop) : Json → Prop
  | .num n => P n
  | .arr items => everyList items
  | .obj members => everyMember members
  | _ => True
where
  /-- Every number in a list of documents satisfies `P`. -/
  everyList : List Json → Prop
    | [] => True
    | j :: rest => EveryNumber P j ∧ everyList rest
  /-- Every number in the members of an object satisfies `P`. -/
  everyMember : List (String × Json) → Prop
    | [] => True
    | (_, j) :: rest => EveryNumber P j ∧ everyMember rest

theorem EveryNumber.everyList_iff {P : JsonNumber → Prop} {js : List Json} :
    EveryNumber.everyList P js ↔ ∀ j ∈ js, j.EveryNumber P := by
  induction js with
  | nil => simp [EveryNumber.everyList]
  | cons j js ih => simp [EveryNumber.everyList, ih]

theorem EveryNumber.everyMember_iff {P : JsonNumber → Prop} {ms : List (String × Json)} :
    EveryNumber.everyMember P ms ↔ ∀ m ∈ ms, m.2.EveryNumber P := by
  induction ms with
  | nil => simp [EveryNumber.everyMember]
  | cons m ms ih => obtain ⟨k, j⟩ := m; simp [EveryNumber.everyMember, ih]

theorem compactList_cons_cons (x y : Json) (ys : List Json) :
    compact.compactList (x :: y :: ys) = x.compact ++ "," ++ compact.compactList (y :: ys) := by
  rw [compact.compactList]
  simp

theorem compactMembers_cons_cons (k : String) (v : Json) (m : String × Json)
    (ms : List (String × Json)) :
    compact.compactMembers ((k, v) :: m :: ms) =
      quote k ++ ":" ++ v.compact ++ "," ++ compact.compactMembers (m :: ms) := by
  rw [compact.compactMembers]
  simp

theorem compactList_head (x : Json) (xs : List Json) :
    ∃ u, (compact.compactList (x :: xs)).toList = x.compact.toList ++ u := by
  cases xs with
  | nil => exact ⟨[], by simp [compact.compactList]⟩
  | cons y ys => exact ⟨',' :: (compact.compactList (y :: ys)).toList, by rw [compactList_cons_cons]; simp⟩

theorem compactMembers_head (key : String) (v : Json) (ms : List (String × Json)) :
    ∃ u, (compact.compactMembers ((key, v) :: ms)).toList = '"' :: u := by
  cases ms with
  | nil => exact ⟨_, by simp [compact.compactMembers, quote_toList]; rfl⟩
  | cons m ms => exact ⟨_, by rw [compactMembers_cons_cons]; simp [quote_toList]; rfl⟩

theorem digit_solid {ch : Char} (hd : ch.isDigit = true) :
    Solid ch ∧ ch ≠ ',' ∧ ch ≠ ']' ∧ ch ≠ '}' := by
  refine ⟨⟨?_, ?_, ?_, ?_⟩, ?_, ?_, ?_⟩ <;> (rintro rfl; revert hd; decide)

theorem compact_head (j : Json) :
    ∃ ch t, j.compact.toList = ch :: t ∧ Solid ch ∧ ch ≠ ',' ∧ ch ≠ ']' ∧ ch ≠ '}' := by
  cases j with
  | null => exact ⟨'n', _, by simp [compact]; rfl, by decide⟩
  | bool b =>
    cases b
    · exact ⟨'f', _, by simp [compact]; rfl, by decide⟩
    · exact ⟨'t', _, by simp [compact]; rfl, by decide⟩
  | num n =>
    cases n with
    | nat n =>
      obtain ⟨d, ds, hds⟩ := List.exists_cons_of_ne_nil (Nat.toDigits_ne_nil (n := n) (b := 10))
      exact ⟨d, ds, by simp [compact, JsonNumber.text_nat, hds],
        digit_solid (JsonRead.isDigit_of_mem_toDigits (by rw [hds]; simp))⟩
    | neg i =>
      by_cases hi : i < 0
      · exact ⟨'-', _, by simp [compact, JsonNumber.text_neg, hi]; rfl, by decide⟩
      · obtain ⟨d, ds, hds⟩ :=
          List.exists_cons_of_ne_nil (Nat.toDigits_ne_nil (n := i.toNat) (b := 10))
        exact ⟨d, ds, by simp [compact, JsonNumber.text_neg, hi, hds],
          digit_solid (JsonRead.isDigit_of_mem_toDigits (by rw [hds]; simp))⟩
    | float x =>
      obtain ⟨ch, t, ht, hch⟩ := FloatText.json_head x
      refine ⟨ch, t, by simpa [compact, JsonNumber.text] using ht, ?_⟩
      rcases hch with rfl | rfl | hd
      · decide
      · decide
      · exact digit_solid hd
  | str s => exact ⟨'"', _, by simp [compact, quote_toList]; rfl, by decide⟩
  | arr items => exact ⟨'[', _, by simp [compact]; rfl, by decide⟩
  | obj members => exact ⟨'{', _, by simp [compact]; rfl, by decide⟩

theorem two_mul_count_le_of_count (j : Json) (h : j.count = 1) :
    2 * j.count ≤ j.compact.toList.length + 1 := by
  obtain ⟨ch, t, ht, -⟩ := compact_head j
  simp [ht, h]

mutual

/-- Every value takes a character and, unless it is the last, a separator or closer after it;
so twice the count of values is at most the length of the text, plus one. -/
theorem two_mul_count_le (j : Json) : 2 * j.count ≤ j.compact.toList.length + 1 :=
  match j with
  | .arr items => by
    have := two_mul_countList_le items
    simp only [count, compact, String.toList_append, List.length_append]
    simp
    omega
  | .obj ms => by
    have := two_mul_countMembers_le ms
    simp only [count, compact, String.toList_append, List.length_append]
    simp
    omega
  | .null => two_mul_count_le_of_count _ rfl
  | .bool _ => two_mul_count_le_of_count _ rfl
  | .num _ => two_mul_count_le_of_count _ rfl
  | .str _ => two_mul_count_le_of_count _ rfl

theorem two_mul_countList_le (items : List Json) :
    2 * count.countList items ≤ (compact.compactList items).toList.length + 1 :=
  match items with
  | [] => by simp [count.countList]
  | [x] => by
    have := two_mul_count_le x
    simp [count.countList, compact.compactList]
    omega
  | x :: y :: ys => by
    have hx := two_mul_count_le x
    have hys := two_mul_countList_le (y :: ys)
    rw [compactList_cons_cons]
    simp only [count.countList] at hys ⊢
    simp
    omega

theorem two_mul_countMembers_le (ms : List (String × Json)) :
    2 * count.countMembers ms ≤ (compact.compactMembers ms).toList.length + 1 :=
  match ms with
  | [] => by simp [count.countMembers]
  | [(key, v)] => by
    have := two_mul_count_le v
    simp [count.countMembers, compact.compactMembers]
    omega
  | (key, v) :: m :: ms => by
    have hv := two_mul_count_le v
    have hms := two_mul_countMembers_le (m :: ms)
    rw [compactMembers_cons_cons]
    simp only [count.countMembers] at hms ⊢
    simp
    omega

end

end Json

namespace JsonRead

variable {c : Cursor} {r r' t : List Char}

/-! ## The loop of the skipper -/

/-- What the skipper does with the brackets still open after a value and its closers. -/
def skipNext (fuel : Nat) : Option (List Char) → JsonRead Unit
  | none => pure ()
  | some stack' => do
    if stack'.head? = some '{' then skipMemberKey
    skipValues fuel stack'

/-- What the skipper does right after a complete value inside the brackets `st`. -/
def skipAfter (fuel : Nat) (st : List Char) : JsonRead Unit :=
  skipClosers st.length st false >>= skipNext fuel

theorem skipValues_succ (fuel : Nat) (st : List Char) :
    skipValues (fuel + 1) st = skipValueStart >>= fun o => match o with
      | some frame => skipClosers (fuel + 1) (frame :: st) true >>= skipNext fuel
      | none => skipClosers (fuel + 1) st false >>= skipNext fuel := by
  rw [skipValues]
  rfl

theorem skipClosers_fuel (st : List Char) (o : Bool) (ha : st.length ≤ a) (hb : st.length ≤ b) :
    skipClosers a st o = skipClosers b st o := by
  induction st generalizing a b o with
  | nil => cases a <;> cases b <;> simp [skipClosers]
  | cons f outer ih =>
    obtain ⟨a, rfl⟩ : ∃ a', a = a' + 1 := ⟨a - 1, by simp at ha; omega⟩
    obtain ⟨b, rfl⟩ : ∃ b', b = b' + 1 := ⟨b - 1, by simp at hb; omega⟩
    simp only [skipClosers, ih (a := a) (b := b) false (by simp at ha; omega) (by simp at hb; omega)]

theorem closer_ne_comma (f : Char) : closer f ≠ ',' := by
  unfold closer
  split <;> decide

theorem moves_closers_close {K : Option (List Char) → JsonRead Unit} {f : Char} {outer : List Char}
    (h : c.rest = closer f :: r)
    (k : ∀ c₁ : Cursor, c₁.rest = r → c₁.depth = c.depth →
      Moves (skipClosers n outer false >>= K) c₁ r' ()) :
    Moves (skipClosers (n + 1) (f :: outer) o >>= K) c r' () := by
  have hs : Solid (closer f) := by unfold closer; split <;> decide
  rw [skipClosers, bind_assoc]
  refine (moves_skipBlanks h hs).bind fun c₁ h₁ hd₁ => ?_
  simp only [closer_ne_comma, false_and, if_false, if_true, bind_assoc]
  exact (moves_eat (h₁.trans h)).bind fun c₂ h₂ hd₂ => k c₂ h₂ (hd₂.trans hd₁)

theorem moves_closers_comma {K : Option (List Char) → JsonRead Unit} {f : Char} {outer : List Char}
    (h : c.rest = ',' :: r)
    (k : ∀ c₁ : Cursor, c₁.rest = r → c₁.depth = c.depth → Moves (K (some (f :: outer))) c₁ r' ()) :
    Moves (skipClosers (n + 1) (f :: outer) false >>= K) c r' () := by
  rw [skipClosers, bind_assoc]
  refine (moves_skipBlanks h (by decide)).bind fun c₁ h₁ hd₁ => ?_
  simp only [Bool.not_false, and_self, if_true, bind_assoc]
  exact (moves_eat (h₁.trans h)).bind fun c₂ h₂ hd₂ => by
    simpa using k c₂ h₂ (hd₂.trans hd₁)

theorem moves_closers_open {K : Option (List Char) → JsonRead Unit} {f ch : Char} {outer : List Char}
    (h : c.rest = ch :: t) (hs : Solid ch) (hc : ch ≠ closer f)
    (k : ∀ c₁ : Cursor, c₁.rest = c.rest → c₁.depth = c.depth →
      Moves (K (some (f :: outer))) c₁ r' ()) :
    Moves (skipClosers (n + 1) (f :: outer) true >>= K) c r' () := by
  rw [skipClosers, bind_assoc]
  refine (moves_skipBlanks h hs).bind fun c₁ h₁ hd₁ => ?_
  simp only [Bool.not_true, Bool.false_eq_true, and_false, if_false, hc, if_true, pure_bind]
  exact k c₁ h₁ hd₁

/-! ## Value starts -/

theorem digit_ne {d : Char} (hd : d.isDigit = true) :
    d ≠ 'n' ∧ d ≠ 't' ∧ d ≠ 'f' ∧ d ≠ '-' ∧ d ≠ '"' ∧ d ≠ '[' ∧ d ≠ '{' := by
  refine ⟨?_, ?_, ?_, ?_, ?_, ?_, ?_⟩ <;> (rintro rfl; revert hd; decide)

theorem skipValueStart_digit {d : Char} (hd : d.isDigit = true) (h : c.rest = d :: t)
    (k : ∀ c₁ : Cursor, c₁.rest = c.rest → c₁.depth = c.depth → Moves skipNumber c₁ r ()) :
    Moves skipValueStart c r none := by
  obtain ⟨hn, ht, hf, hm, hq, ha, ho⟩ := digit_ne hd
  unfold skipValueStart
  refine (moves_skipBlanks h (Json.digit_solid hd).1).bind fun c₁ h₁ hd₁ => ?_
  split
  · contradiction
  · exact absurd (Option.some.inj ‹_›) hn
  · exact absurd (Option.some.inj ‹_›) ht
  · exact absurd (Option.some.inj ‹_›) hf
  · exact absurd (Option.some.inj ‹_›) hm
  · exact absurd (Option.some.inj ‹_›) hq
  · exact absurd (Option.some.inj ‹_›) ha
  · exact absurd (Option.some.inj ‹_›) ho
  · obtain rfl := Option.some.inj ‹_›
    simp only [hd, if_true]
    exact (k c₁ h₁ hd₁).bind fun c₂ h₂ _ => moves_pure h₂ none

theorem skipValueStart_open {f : Char} (hf : f = '[' ∨ f = '{') (h : c.rest = f :: t) :
    Moves skipValueStart c t (some f) := by
  unfold skipValueStart
  rcases hf with rfl | rfl
  all_goals
    exact (moves_skipBlanks h (by decide)).bind fun c₁ h₁ _ =>
      (moves_eat (h₁.trans h)).bind fun c₂ h₂ _ => moves_pure h₂ _

theorem skipValueStart_null (h : c.rest = Json.null.compact.toList ++ r) :
    Moves skipValueStart c r none := by
  replace h : c.rest = 'n' :: ['u', 'l', 'l'] ++ r := h
  unfold skipValueStart
  exact (moves_skipBlanks h (by decide)).bind fun c₁ h₁ _ =>
    (moves_eat (h₁.trans h)).bind fun c₂ h₂ _ =>
      (moves_expectWord _ h₂).bind fun c₃ h₃ _ => moves_pure h₃ none

theorem skipValueStart_bool (b : Bool) (h : c.rest = (Json.bool b).compact.toList ++ r) :
    Moves skipValueStart c r none := by
  unfold skipValueStart
  cases b
  · replace h : c.rest = 'f' :: ['a', 'l', 's', 'e'] ++ r := h
    exact (moves_skipBlanks h (by decide)).bind fun c₁ h₁ _ =>
      (moves_eat (h₁.trans h)).bind fun c₂ h₂ _ =>
        (moves_expectWord _ h₂).bind fun c₃ h₃ _ => moves_pure h₃ none
  · replace h : c.rest = 't' :: ['r', 'u', 'e'] ++ r := h
    exact (moves_skipBlanks h (by decide)).bind fun c₁ h₁ _ =>
      (moves_eat (h₁.trans h)).bind fun c₂ h₂ _ =>
        (moves_expectWord _ h₂).bind fun c₃ h₃ _ => moves_pure h₃ none

theorem skipValueStart_naturals (h : c.rest = Nat.toDigits 10 n ++ r) (hr : Delimited r) :
    Moves skipValueStart c r none := by
  obtain ⟨d, ds, hds⟩ := List.exists_cons_of_ne_nil (Nat.toDigits_ne_nil (n := n) (b := 10))
  have hd : d.isDigit = true := isDigit_of_mem_toDigits (by rw [hds]; simp)
  exact skipValueStart_digit hd (by rw [h, hds]; rfl) fun c₁ h₁ _ =>
    skipNumber_digits (h₁.trans h) hr

theorem skipValueStart_num (x : JsonNumber) (hx : x.Skips)
    (h : c.rest = (Json.num x).compact.toList ++ r) (hr : Delimited r) :
    Moves skipValueStart c r none := by
  cases x with
  | nat n => exact skipValueStart_naturals (by simpa [Json.compact, JsonNumber.text_nat] using h) hr
  | neg i =>
    simp only [Json.compact, JsonNumber.text_neg] at h
    split_ifs at h
    · unfold skipValueStart
      replace h : c.rest = '-' :: (Nat.toDigits 10 i.natAbs ++ r) := by simpa using h
      exact (moves_skipBlanks h (by decide)).bind fun c₁ h₁ _ =>
        (moves_eat (h₁.trans h)).bind fun c₂ h₂ _ =>
          (skipNumber_digits h₂ hr).bind fun c₃ h₃ _ => moves_pure h₃ none
    · exact skipValueStart_naturals h hr
  | float x => exact hx c r hr (by simpa [Json.compact, JsonNumber.text] using h)

theorem skipValueStart_str (s : String) (h : c.rest = (Json.str s).compact.toList ++ r) :
    Moves skipValueStart c r none := by
  replace h : c.rest = '"' :: (Json.escaped s.toList ++ '"' :: r) := by
    simpa [Json.compact, Json.quote_toList] using h
  unfold skipValueStart
  exact (moves_skipBlanks h (by decide)).bind fun c₁ h₁ _ =>
    (moves_eat (h₁.trans h)).bind fun c₂ h₂ _ =>
      (skipString_escaped s h₂).bind fun c₃ h₃ _ => moves_pure h₃ none

/-! ## Documents -/

theorem moves_skipMemberKey (key : String) (h : c.rest = (Json.quote key).toList ++ ':' :: r) :
    Moves skipMemberKey c r () := by
  replace h : c.rest = '"' :: (Json.escaped key.toList ++ '"' :: ':' :: r) := by
    simpa [Json.quote_toList] using h
  unfold skipMemberKey
  refine (moves_skipBlanks h (by decide)).bind fun c₁ h₁ _ => ?_
  refine (moves_eat (h₁.trans h)).bind fun c₂ h₂ _ => ?_
  refine (skipString_escaped key h₂).bind fun c₃ h₃ _ => ?_
  exact (moves_skipBlanks h₃ (by decide)).bind fun c₄ h₄ _ => moves_eat (h₄.trans h₃)

variable {st : List Char} {k : Nat}

theorem skipValues_scalar (hs : Moves skipValueStart c t none) (hk : st.length ≤ k)
    (K : ∀ c₁ : Cursor, c₁.rest = t → c₁.depth = c.depth → Moves (skipAfter k st) c₁ r' ()) :
    Moves (skipValues (k + 1) st) c r' () := by
  rw [skipValues_succ]
  refine hs.bind fun c₁ h₁ hd₁ => ?_
  show Moves (skipClosers (k + 1) st false >>= skipNext k) c₁ r' ()
  rw [skipClosers_fuel st false (a := k + 1) (b := st.length) (by omega) (Nat.le_refl _)]
  exact K c₁ h₁ hd₁

theorem skipValues_empty {f : Char} (hf : f = '[' ∨ f = '{') (h : c.rest = f :: closer f :: r)
    (hk : st.length ≤ k)
    (K : ∀ c₁ : Cursor, c₁.rest = r → c₁.depth = c.depth → Moves (skipAfter k st) c₁ r' ()) :
    Moves (skipValues (k + 1) st) c r' () := by
  rw [skipValues_succ]
  refine (skipValueStart_open hf h).bind fun c₁ h₁ hd₁ => ?_
  refine moves_closers_close h₁ fun c₂ h₂ hd₂ => ?_
  rw [skipClosers_fuel st false (a := k) (b := st.length) hk (Nat.le_refl _)]
  exact K c₂ h₂ (hd₂.trans hd₁)

theorem skipAfter_close {f : Char} (h : c.rest = closer f :: r)
    (K : ∀ c₁ : Cursor, c₁.rest = r → c₁.depth = c.depth → Moves (skipAfter k st) c₁ r' ()) :
    Moves (skipAfter k (f :: st)) c r' () :=
  moves_closers_close h K

theorem skipAfter_comma {f : Char} (h : c.rest = ',' :: r)
    (K : ∀ c₁ : Cursor, c₁.rest = r → c₁.depth = c.depth →
      Moves (skipNext k (some (f :: st))) c₁ r' ()) :
    Moves (skipAfter k (f :: st)) c r' () :=
  moves_closers_comma h K

theorem skipAfter_nil (k : Nat) : skipAfter k [] = pure () := rfl

mutual

/-- Run on the compact text of a document, the skipper spends one value start of fuel per value
in it and goes on as after any value, provided the fuel left covers the open brackets and those
the document opens. -/
theorem skipValues_compact {c : Cursor} {r r' st : List Char} {k : Nat} (j : Json)
    (hj : j.EveryNumber JsonNumber.Skips) (hk : st.length + j.count ≤ k)
    (h : c.rest = j.compact.toList ++ r) (hr : Delimited r)
    (K : ∀ c₁ : Cursor, c₁.rest = r → c₁.depth = c.depth → Moves (skipAfter k st) c₁ r' ()) :
    Moves (skipValues (k + j.count) st) c r' () := by
  have hst : st.length ≤ k := Nat.le_of_add_right_le hk
  cases j with
  | null => exact skipValues_scalar (skipValueStart_null h) hst K
  | bool b => exact skipValues_scalar (skipValueStart_bool b h) hst K
  | num x => exact skipValues_scalar (skipValueStart_num x hj h hr) hst K
  | str s => exact skipValues_scalar (skipValueStart_str s h) hst K
  | arr items =>
    cases items with
    | nil =>
      exact skipValues_empty (.inl rfl)
        (by simpa [Json.compact, Json.compact.compactList, closer] using h) hst K
    | cons x xs =>
      -- the bracket is opened, and the items are skipped with it on the stack
      obtain ⟨ch, u, hx, hs, -, hc, -⟩ := Json.compact_head x
      obtain ⟨v, hv⟩ := Json.compactList_head x xs
      replace h : c.rest = '[' :: ((Json.compact.compactList (x :: xs)).toList ++ ']' :: r) := by
        simpa [Json.compact] using h
      rw [Json.count, ← Nat.add_assoc, skipValues_succ]
      refine (skipValueStart_open (.inl rfl) h).bind fun c₁ h₁ hd₁ => ?_
      refine moves_closers_open (h₁.trans (by rw [hv, hx]; rfl)) hs hc fun c₂ h₂ hd₂ => ?_
      exact skipValues_items (x :: xs) (List.cons_ne_nil x xs) hj
        (by simp only [Json.count] at hk; omega) (h₂.trans h₁) hr
        fun c₃ h₃ hd₃ => K c₃ h₃ (hd₃.trans (hd₂.trans hd₁))
  | obj ms =>
    cases ms with
    | nil =>
      exact skipValues_empty (.inr rfl)
        (by simpa [Json.compact, Json.compact.compactMembers, closer] using h) hst K
    | cons m ms =>
      obtain ⟨key, v⟩ := m
      obtain ⟨u, hu⟩ := Json.compactMembers_head key v ms
      replace h :
          c.rest = '{' :: ((Json.compact.compactMembers ((key, v) :: ms)).toList ++ '}' :: r) := by
        simpa [Json.compact] using h
      rw [Json.count, ← Nat.add_assoc, skipValues_succ]
      refine (skipValueStart_open (.inr rfl) h).bind fun c₁ h₁ hd₁ => ?_
      refine moves_closers_open (h₁.trans (by rw [hu]; rfl)) (by decide) (by decide)
        fun c₂ h₂ hd₂ => ?_
      exact skipValues_members ((key, v) :: ms) (List.cons_ne_nil _ ms) hj
        (by simp only [Json.count] at hk; omega) (h₂.trans h₁) hr
        fun c₃ h₃ hd₃ => K c₃ h₃ (hd₃.trans (hd₂.trans hd₁))

theorem skipValues_items {c : Cursor} {r r' st : List Char} {k : Nat} (items : List Json)
    (hne : items ≠ []) (hj : Json.EveryNumber.everyList JsonNumber.Skips items)
    (hk : st.length + 1 + Json.count.countList items ≤ k)
    (h : c.rest = (Json.compact.compactList items).toList ++ ']' :: r) (hr : Delimited r)
    (K : ∀ c₁ : Cursor, c₁.rest = r → c₁.depth = c.depth → Moves (skipAfter k st) c₁ r' ()) :
    Moves (skipValues (k + Json.count.countList items) ('[' :: st)) c r' () := by
  cases items with
  | nil => exact absurd rfl hne
  | cons x xs =>
    cases xs with
    | nil =>
      -- the last item, then the closing bracket
      simp only [Json.count.countList, Nat.add_zero] at hk ⊢
      refine skipValues_compact x hj.1 (by simp; omega)
        (by simpa [Json.compact.compactList] using h) (Delimited.bracket r) fun c₁ h₁ hd₁ => ?_
      exact skipAfter_close (f := '[') h₁ fun c₂ h₂ hd₂ => K c₂ h₂ (hd₂.trans hd₁)
    | cons y ys =>
      -- an item, a comma, and the items after it
      have hfuel : k + Json.count.countList (x :: y :: ys) =
          (k + Json.count.countList (y :: ys)) + x.count := by
        simp only [Json.count.countList]; omega
      simp only [Json.count.countList] at hk
      rw [hfuel]
      replace h : c.rest = x.compact.toList ++
          ',' :: ((Json.compact.compactList (y :: ys)).toList ++ ']' :: r) := by
        rw [h, Json.compactList_cons_cons]; simp
      refine skipValues_compact x hj.1 (by simp [Json.count.countList]; omega) h
        (Delimited.comma _) fun c₁ h₁ hd₁ => ?_
      refine skipAfter_comma h₁ fun c₂ h₂ hd₂ => ?_
      exact skipValues_items (y :: ys) (List.cons_ne_nil y ys) hj.2
        (by simp only [Json.count.countList]; omega) h₂ hr
        fun c₃ h₃ hd₃ => K c₃ h₃ (hd₃.trans (hd₂.trans hd₁))

theorem skipValues_members {c : Cursor} {r r' st : List Char} {k : Nat}
    (ms : List (String × Json)) (hne : ms ≠ []) (hj : Json.EveryNumber.everyMember JsonNumber.Skips ms)
    (hk : st.length + 1 + Json.count.countMembers ms ≤ k)
    (h : c.rest = (Json.compact.compactMembers ms).toList ++ '}' :: r) (hr : Delimited r)
    (K : ∀ c₁ : Cursor, c₁.rest = r → c₁.depth = c.depth → Moves (skipAfter k st) c₁ r' ()) :
    Moves (skipMemberKey >>= fun _ => skipValues (k + Json.count.countMembers ms) ('{' :: st))
      c r' () := by
  cases ms with
  | nil => exact absurd rfl hne
  | cons m ms =>
    obtain ⟨key, v⟩ := m
    cases ms with
    | nil =>
      -- the last member, then the closing brace
      simp only [Json.count.countMembers, Nat.add_zero] at hk ⊢
      replace h : c.rest = (Json.quote key).toList ++ ':' :: (v.compact.toList ++ '}' :: r) := by
        simpa [Json.compact.compactMembers] using h
      refine (moves_skipMemberKey key h).bind fun c₁ h₁ hd₁ => ?_
      refine skipValues_compact v hj.1 (by simp; omega) h₁ (Delimited.brace r)
        fun c₂ h₂ hd₂ => ?_
      exact skipAfter_close (f := '{') h₂ fun c₃ h₃ hd₃ => K c₃ h₃ (hd₃.trans (hd₂.trans hd₁))
    | cons m ms =>
      -- a member, a comma, and the members after it
      have hfuel : k + Json.count.countMembers ((key, v) :: m :: ms) =
          (k + Json.count.countMembers (m :: ms)) + v.count := by
        simp only [Json.count.countMembers]; omega
      simp only [Json.count.countMembers] at hk
      rw [hfuel]
      replace h : c.rest = (Json.quote key).toList ++ ':' :: (v.compact.toList ++
          ',' :: ((Json.compact.compactMembers (m :: ms)).toList ++ '}' :: r)) := by
        rw [h, Json.compactMembers_cons_cons]; simp
      refine (moves_skipMemberKey key h).bind fun c₁ h₁ hd₁ => ?_
      refine skipValues_compact v hj.1 (by simp; omega) h₁ (Delimited.comma _)
        fun c₂ h₂ hd₂ => ?_
      refine skipAfter_comma h₂ fun c₃ h₃ hd₃ => ?_
      exact skipValues_members (m :: ms) (List.cons_ne_nil m ms) hj.2
        (by simp only [Json.count.countMembers]; omega) h₃ hr
        fun c₄ h₄ hd₄ => K c₄ h₄ (hd₄.trans (hd₃.trans (hd₂.trans hd₁)))

end

theorem skipValue_compact (j : Json) (hj : j.EveryNumber JsonNumber.Skips)
    (h : c.rest = j.compact.toList ++ r) (hr : Delimited r) : Moves skipValue c r () := by
  have hb := Json.two_mul_count_le j
  unfold skipValue
  refine (moves_get c).bind fun c₁ h₁ _ => ?_
  -- the fuel, one more than the length of the text, covers a value start per value twice over
  have hfuel : c.rest.length + 1 = (c.rest.length + 1 - j.count) + j.count := by
    rw [h, List.length_append]; omega
  rw [hfuel]
  exact skipValues_compact j hj (by rw [h, List.length_append]; simp; omega)
    (h₁.trans h) hr fun c₂ h₂ _ => by
      rw [skipAfter_nil]
      exact moves_pure h₂ ()

end JsonRead

end GraphIngest
