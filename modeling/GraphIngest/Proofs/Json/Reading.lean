import GraphIngest.Proofs.Json.Skipping

/-! # Reading a written document back

The reader of documents reads the compact text of a document back to the document
(`JsonRead.value_compact`, `Json.parse_compact`), provided every number is one the reader gives
back as written (`JsonNumber.ReadsBack`) and arrays and objects nest within the reader's budget.
The reader is three functions that call each other, so the statement is three theorems proved
together, one case per constructor of the document. -/

namespace GraphIngest

/-- The reader reads the JSON text of `x` back to `x` wherever a value may end. -/
def FloatReads (x : Float) : Prop :=
  ∀ (d : Nat) (c : Cursor) (r : List Char), Delimited r → c.rest = (FloatText.json x).toList ++ r →
    JsonRead.Moves (JsonRead.value d) c r (.num (.float x))

/-- The numbers the reader gives back as written: natural numbers within 64 bits, negative
integers within 64 signed bits, and the doubles whose text it reads back. -/
def JsonNumber.ReadsBack : JsonNumber → Prop
  | .nat n => n ≤ JsonRead.u64Max
  | .neg i => i < 0 ∧ i.natAbs ≤ Nat.pow 2 63
  | .float x => FloatReads x

namespace Json

/-- How deep arrays and objects nest in a document; a scalar nests none. -/
def nesting : Json → Nat
  | .arr items => nestingList items + 1
  | .obj members => nestingMembers members + 1
  | _ => 0
where
  /-- The deepest nesting among a list of documents. -/
  nestingList : List Json → Nat
    | [] => 0
    | j :: rest => max (nesting j) (nestingList rest)
  /-- The deepest nesting among the members of an object. -/
  nestingMembers : List (String × Json) → Nat
    | [] => 0
    | (_, j) :: rest => max (nesting j) (nestingMembers rest)

theorem EveryNumber.mono {P Q : JsonNumber → Prop} (hPQ : ∀ n, P n → Q n) :
    ∀ j : Json, j.EveryNumber P → j.EveryNumber Q
  | .null, _ => trivial
  | .bool _, _ => trivial
  | .num n, h => hPQ n h
  | .str _, _ => trivial
  | .arr items, h => everyList_mono hPQ items h
  | .obj ms, h => everyMember_mono hPQ ms h
where
  everyList_mono {P Q : JsonNumber → Prop} (hPQ : ∀ n, P n → Q n) :
      ∀ items : List Json, EveryNumber.everyList P items → EveryNumber.everyList Q items
    | [], _ => trivial
    | j :: rest, ⟨hj, hrest⟩ => ⟨EveryNumber.mono hPQ j hj, everyList_mono hPQ rest hrest⟩
  everyMember_mono {P Q : JsonNumber → Prop} (hPQ : ∀ n, P n → Q n) :
      ∀ ms : List (String × Json), EveryNumber.everyMember P ms → EveryNumber.everyMember Q ms
    | [], _ => trivial
    | (_, j) :: rest, ⟨hj, hrest⟩ => ⟨EveryNumber.mono hPQ j hj, everyMember_mono hPQ rest hrest⟩

theorem one_le_count (j : Json) : 1 ≤ j.count := by
  cases j <;> simp [count]

theorem length_le_countList (items : List Json) : items.length ≤ count.countList items := by
  induction items with
  | nil => simp [count.countList]
  | cons j rest ih =>
    have := one_le_count j
    simp only [count.countList, List.length_cons]
    omega

theorem length_le_countMembers (ms : List (String × Json)) :
    ms.length ≤ count.countMembers ms := by
  induction ms with
  | nil => simp [count.countMembers]
  | cons m rest ih =>
    obtain ⟨k, j⟩ := m
    have := one_le_count j
    simp only [count.countMembers, List.length_cons]
    omega

end Json

namespace JsonRead

variable {c : Cursor} {r t : List Char}

/-! ## Scalars -/

theorem value_null (h : c.rest = Json.null.compact.toList ++ r) : Moves (value d) c r .null := by
  replace h : c.rest = 'n' :: ['u', 'l', 'l'] ++ r := h
  rw [value.eq_def]
  exact (moves_skipBlanks h (by decide)).bind fun c₁ h₁ _ =>
    (moves_eat (h₁.trans h)).bind fun c₂ h₂ _ =>
      (moves_expectWord _ h₂).bind fun c₃ h₃ _ => moves_pure h₃ _

theorem value_bool (b : Bool) (h : c.rest = (Json.bool b).compact.toList ++ r) :
    Moves (value d) c r (.bool b) := by
  rw [value.eq_def]
  cases b
  · replace h : c.rest = 'f' :: ['a', 'l', 's', 'e'] ++ r := h
    exact (moves_skipBlanks h (by decide)).bind fun c₁ h₁ _ =>
      (moves_eat (h₁.trans h)).bind fun c₂ h₂ _ =>
        (moves_expectWord _ h₂).bind fun c₃ h₃ _ => moves_pure h₃ _
  · replace h : c.rest = 't' :: ['r', 'u', 'e'] ++ r := h
    exact (moves_skipBlanks h (by decide)).bind fun c₁ h₁ _ =>
      (moves_eat (h₁.trans h)).bind fun c₂ h₂ _ =>
        (moves_expectWord _ h₂).bind fun c₃ h₃ _ => moves_pure h₃ _

theorem value_str (s : String) (h : c.rest = (Json.str s).compact.toList ++ r) :
    Moves (value d) c r (.str s) := by
  replace h : c.rest = '"' :: (Json.escaped s.toList ++ '"' :: r) := by
    simpa [Json.compact, Json.quote_toList] using h
  rw [value.eq_def]
  exact (moves_skipBlanks h (by decide)).bind fun c₁ h₁ _ =>
    (moves_eat (h₁.trans h)).bind fun c₂ h₂ _ =>
      (string_escaped s h₂).bind fun c₃ h₃ _ => moves_pure h₃ _

theorem value_digit {ch : Char} (hd : ch.isDigit = true) (h : c.rest = ch :: t)
    (k : ∀ c₁ : Cursor, c₁.rest = c.rest → c₁.depth = c.depth → Moves (number true) c₁ r n) :
    Moves (value d) c r (.num n) := by
  obtain ⟨hn, ht, hf, hm, hq, ha, ho⟩ := digit_ne hd
  rw [value.eq_def]
  refine (moves_skipBlanks h (Json.digit_solid hd).1).bind fun c₁ h₁ hd₁ => ?_
  split
  · contradiction
  · exact absurd (Option.some.inj ‹_›) hn
  · exact absurd (Option.some.inj ‹_›) ht
  · exact absurd (Option.some.inj ‹_›) hf
  · exact absurd (Option.some.inj ‹_›) hm
  · exact absurd (Option.some.inj ‹_›) hq
  · exact absurd (Option.some.inj ‹_›) ha
  · exact absurd (Option.some.inj ‹_›) ho
  · obtain rfl := Option.some.inj ‹_›
    simp only [hd, if_true]
    exact (k c₁ h₁ hd₁).bind fun c₂ h₂ _ => moves_pure h₂ _

theorem value_naturals (hn : n ≤ u64Max) (h : c.rest = Nat.toDigits 10 n ++ r) (hr : Delimited r) :
    Moves (value d) c r (.num (.nat n)) := by
  obtain ⟨ch, ds, hds⟩ := List.exists_cons_of_ne_nil (Nat.toDigits_ne_nil (n := n) (b := 10))
  have hd : ch.isDigit = true := isDigit_of_mem_toDigits (by rw [hds]; simp)
  exact value_digit hd (by rw [h, hds]; rfl) fun c₁ h₁ _ => number_nat hn (h₁.trans h) hr

theorem value_num (x : JsonNumber) (hx : x.ReadsBack)
    (h : c.rest = (Json.num x).compact.toList ++ r) (hr : Delimited r) :
    Moves (value d) c r (.num x) := by
  cases x with
  | nat n =>
    exact value_naturals hx (by simpa [Json.compact, JsonNumber.text_nat] using h) hr
  | neg i =>
    obtain ⟨hneg, hmag⟩ := hx
    replace h : c.rest = '-' :: (Nat.toDigits 10 i.natAbs ++ r) := by
      simpa [Json.compact, JsonNumber.text_neg, hneg] using h
    have hi : -(i.natAbs : Int) = i := by omega
    rw [value.eq_def]
    refine (moves_skipBlanks h (by decide)).bind fun c₁ h₁ _ =>
      (moves_eat (h₁.trans h)).bind fun c₂ h₂ _ =>
        (number_neg (by omega) hmag h₂ hr).bind fun c₃ h₃ _ => ?_
    rw [hi]
    exact moves_pure h₃ _
  | float x => exact hx d c r hr (by simpa [Json.compact, JsonNumber.text] using h)

/-! ## Arrays and objects -/

theorem closeArray_moves (h : c.rest = ']' :: r) : Moves closeArray c r () := by
  unfold closeArray
  exact (moves_skipBlanks h (by decide)).bind fun c₁ h₁ _ => moves_eat (h₁.trans h)

theorem closeObject_moves (h : c.rest = '}' :: r) : Moves closeObject c r () := by
  unfold closeObject
  exact (moves_skipBlanks h (by decide)).bind fun c₁ h₁ _ => moves_eat (h₁.trans h)

/-- What the reader sees before an item or member: its first character if it is the first,
else the comma before it. -/
def sepHead (first : Bool) (ch : Char) : Char := if first then ch else ','

/-- The text before an item or member: nothing if it is the first, else a comma. -/
def sepText (first : Bool) : List Char := if first then [] else [',']

theorem moves_skipBlanks_sep (first : Bool) (hs : Solid ch) (h : c.rest = sepText first ++ ch :: t) :
    Moves skipBlanks c c.rest (some (sepHead first ch)) := by
  cases first
  · replace h : c.rest = ',' :: ch :: t := by simpa [sepText] using h
    show Moves skipBlanks c c.rest (some ',')
    exact moves_skipBlanks h (by decide)
  · replace h : c.rest = ch :: t := by simpa [sepText] using h
    exact moves_skipBlanks h hs

theorem moves_separator (first : Bool) (hs : Solid ch) (h : c.rest = sepText first ++ ch :: t) :
    Moves (separator first (sepHead first ch) close) c (ch :: t) (some ch) := by
  unfold separator
  cases first
  · replace h : c.rest = ',' :: ch :: t := by simpa [sepText] using h
    simp only [sepHead, Bool.not_false]
    refine (moves_eat h).bind fun c₁ h₁ _ => ?_
    have hb := moves_skipBlanks h₁ hs
    rwa [h₁] at hb
  · replace h : c.rest = ch :: t := by simpa [sepText] using h
    simp only [sepHead, Bool.not_true, Bool.and_false, Bool.false_eq_true, if_false, if_true]
    exact moves_pure h _

theorem elements_close (first : Bool) (acc : List Json) (h : c.rest = ']' :: r) :
    Moves (elements d fuel first acc) c (']' :: r) acc.reverse := by
  cases fuel with
  | zero => rw [elements.eq_1]; exact moves_pure h _
  | succ fuel =>
    rw [elements.eq_2]
    exact (moves_skipBlanks h (by decide)).bind fun c₁ h₁ _ => moves_pure (h₁.trans h) _

theorem members_close (first : Bool) (acc : List (String × Json)) (h : c.rest = '}' :: r) :
    Moves (members d fuel first acc) c ('}' :: r) acc.reverse := by
  cases fuel with
  | zero => rw [members.eq_1]; exact moves_pure h _
  | succ fuel =>
    rw [members.eq_2]
    exact (moves_skipBlanks h (by decide)).bind fun c₁ h₁ _ => moves_pure (h₁.trans h) _

theorem memberKey_quote (key : String) (h : c.rest = (Json.quote key).toList ++ t) :
    Moves (memberKey (some '"')) c t key := by
  replace h : c.rest = '"' :: (Json.escaped key.toList ++ '"' :: t) := by
    simpa [Json.quote_toList] using h
  rw [memberKey]
  exact (moves_eat h).bind fun c₁ h₁ _ => string_escaped key h₁

theorem colon_moves (h : c.rest = ':' :: t) : Moves colon c t () := by
  unfold colon
  exact (moves_skipBlanks h (by decide)).bind fun c₁ h₁ _ => moves_eat (h₁.trans h)

theorem length_lt_fuel_items (items : List Json) (h : c.rest = (Json.compact.compactList items).toList ++ t) :
    items.length < c.rest.length + 1 := by
  have h1 := Json.length_le_countList items
  have h2 := Json.two_mul_countList_le items
  rw [h, List.length_append]
  omega

theorem length_lt_fuel_members (ms : List (String × Json))
    (h : c.rest = (Json.compact.compactMembers ms).toList ++ t) : ms.length < c.rest.length + 1 := by
  have h1 := Json.length_le_countMembers ms
  have h2 := Json.two_mul_countMembers_le ms
  rw [h, List.length_append]
  omega

mutual

theorem value_compact {c : Cursor} {r : List Char} {d : Nat} (j : Json)
    (hj : j.EveryNumber JsonNumber.ReadsBack) (hd : j.nesting < d)
    (h : c.rest = j.compact.toList ++ r) (hr : Delimited r) : Moves (value d) c r j := by
  cases j with
  | null => exact value_null h
  | bool b => exact value_bool b h
  | num x => exact value_num x hj h hr
  | str s => exact value_str s h
  | arr items =>
    -- the bracket spends a level, and one must be left for the items
    obtain ⟨d, rfl⟩ : ∃ d', d = d' + 1 := ⟨d - 1, by simp only [Json.nesting] at hd; omega⟩
    have hd₀ : d ≠ 0 := by simp only [Json.nesting] at hd; omega
    have hitems : Json.nesting.nestingList items < d := by simp only [Json.nesting] at hd; omega
    replace h : c.rest = '[' :: ((Json.compact.compactList items).toList ++ ']' :: r) := by
      simpa [Json.compact] using h
    rw [value.eq_def]
    refine (moves_skipBlanks h (by decide)).bind fun c₁ h₁ _ => ?_
    simp only [hd₀, if_false]
    refine (moves_eat (h₁.trans h)).bind fun c₂ h₂ _ => ?_
    refine (moves_get c₂).bind fun c₃ h₃ _ => ?_
    have hread : Moves (elements d (c₂.rest.length + 1) true []) c₃ (']' :: r) items := by
      cases items with
      | nil => exact elements_close true [] (h₃.trans (by simpa [Json.compact.compactList] using h₂))
      | cons x xs =>
        exact elements_compact [] (x :: xs) (List.cons_ne_nil x xs) true hj hitems
          (length_lt_fuel_items _ h₂) (by simpa [sepText] using h₃.trans h₂)
    exact hread.bind fun c₄ h₄ _ => (closeArray_moves h₄).bind fun c₅ h₅ _ => moves_pure h₅ _
  | obj ms =>
    obtain ⟨d, rfl⟩ : ∃ d', d = d' + 1 := ⟨d - 1, by simp only [Json.nesting] at hd; omega⟩
    have hd₀ : d ≠ 0 := by simp only [Json.nesting] at hd; omega
    have hms : Json.nesting.nestingMembers ms < d := by simp only [Json.nesting] at hd; omega
    replace h : c.rest = '{' :: ((Json.compact.compactMembers ms).toList ++ '}' :: r) := by
      simpa [Json.compact] using h
    rw [value.eq_def]
    refine (moves_skipBlanks h (by decide)).bind fun c₁ h₁ _ => ?_
    simp only [hd₀, if_false]
    refine (moves_eat (h₁.trans h)).bind fun c₂ h₂ _ => ?_
    refine (moves_get c₂).bind fun c₃ h₃ _ => ?_
    have hread : Moves (members d (c₂.rest.length + 1) true []) c₃ ('}' :: r) ms := by
      cases ms with
      | nil => exact members_close true [] (h₃.trans (by simpa [Json.compact.compactMembers] using h₂))
      | cons m ms =>
        exact members_compact [] (m :: ms) (List.cons_ne_nil m ms) true hj hms
          (length_lt_fuel_members _ h₂) (by simpa [sepText] using h₃.trans h₂)
    exact hread.bind fun c₄ h₄ _ => (closeObject_moves h₄).bind fun c₅ h₅ _ => moves_pure h₅ _

theorem elements_compact {c : Cursor} {r : List Char} {d fuel : Nat} (acc : List Json)
    (items : List Json) (hne : items ≠ []) (first : Bool)
    (hj : Json.EveryNumber.everyList JsonNumber.ReadsBack items)
    (hd : Json.nesting.nestingList items < d) (hf : items.length < fuel)
    (h : c.rest = sepText first ++ (Json.compact.compactList items).toList ++ ']' :: r) :
    Moves (elements d fuel first acc) c (']' :: r) (acc.reverse ++ items) := by
  cases items with
  | nil => exact absurd rfl hne
  | cons x xs =>
    obtain ⟨fuel, rfl⟩ : ∃ f, fuel = f + 1 := ⟨fuel - 1, by simp at hf; omega⟩
    obtain ⟨ch, u, hx, hs, -, hch, -⟩ := Json.compact_head x
    have hxd : x.nesting < d := by simp only [Json.nesting.nestingList] at hd; omega
    -- after the item comes the closer, or a comma and the items after it
    obtain ⟨tail, htext, htail, hnext⟩ : ∃ tail,
        c.rest = sepText first ++ x.compact.toList ++ tail ∧ Delimited tail ∧
        ∀ c₃ : Cursor, c₃.rest = tail →
          Moves (elements d fuel false (x :: acc)) c₃ (']' :: r) (acc.reverse ++ x :: xs) := by
      cases xs with
      | nil =>
        exact ⟨_, by simpa [Json.compact.compactList] using h, Delimited.bracket r,
          fun c₃ h₃ => by simpa using elements_close false (x :: acc) h₃⟩
      | cons y ys =>
        have hys : Json.nesting.nestingList (y :: ys) < d := by
          simp only [Json.nesting.nestingList] at hd ⊢; omega
        refine ⟨',' :: ((Json.compact.compactList (y :: ys)).toList ++ ']' :: r),
          by rw [h, Json.compactList_cons_cons]; simp, Delimited.comma _, fun c₃ h₃ => ?_⟩
        simpa using elements_compact (x :: acc) (y :: ys) (List.cons_ne_nil y ys) false
          hj.2 hys (by simp at hf ⊢; omega) (by simpa [sepText] using h₃)
    have h' : c.rest = sepText first ++ ch :: (u ++ tail) := by simp [htext, hx]
    rw [elements.eq_2]
    refine (moves_skipBlanks_sep first hs h').bind fun c₁ h₁ _ => ?_
    split
    · cases first <;> simp_all [sepHead]
    · contradiction
    rename_i b _ hb
    obtain rfl : b = sepHead first ch := (Option.some.inj hb).symm
    refine (moves_separator first hs (h₁.trans h')).bind fun c₂ h₂ _ => ?_
    split
    · exact absurd (Option.some.inj ‹_›) hch
    · contradiction
    exact (value_compact x hj.1 hxd (by simp [h₂, hx]) htail).bind fun c₃ h₃ _ => hnext c₃ h₃

theorem members_compact {c : Cursor} {r : List Char} {d fuel : Nat}
    (acc : List (String × Json)) (ms : List (String × Json)) (hne : ms ≠ []) (first : Bool)
    (hj : Json.EveryNumber.everyMember JsonNumber.ReadsBack ms)
    (hd : Json.nesting.nestingMembers ms < d) (hf : ms.length < fuel)
    (h : c.rest = sepText first ++ (Json.compact.compactMembers ms).toList ++ '}' :: r) :
    Moves (members d fuel first acc) c ('}' :: r) (acc.reverse ++ ms) := by
  cases ms with
  | nil => exact absurd rfl hne
  | cons m ms =>
    obtain ⟨key, x⟩ := m
    obtain ⟨fuel, rfl⟩ : ∃ f, fuel = f + 1 := ⟨fuel - 1, by simp at hf; omega⟩
    have hxd : x.nesting < d := by simp only [Json.nesting.nestingMembers] at hd; omega
    -- after the member comes the closer, or a comma and the members after it
    obtain ⟨tail, htext, htail, hnext⟩ : ∃ tail,
        c.rest = sepText first ++ (Json.quote key).toList ++ ':' :: (x.compact.toList ++ tail) ∧
        Delimited tail ∧ ∀ c₃ : Cursor, c₃.rest = tail →
          Moves (members d fuel false ((key, x) :: acc)) c₃ ('}' :: r)
            (acc.reverse ++ (key, x) :: ms) := by
      cases ms with
      | nil =>
        exact ⟨'}' :: r, by simpa [Json.compact.compactMembers] using h, Delimited.brace r,
          fun c₃ h₃ => by simpa using members_close false ((key, x) :: acc) h₃⟩
      | cons m ms =>
        have hms : Json.nesting.nestingMembers (m :: ms) < d := by
          obtain ⟨k', x'⟩ := m
          simp only [Json.nesting.nestingMembers] at hd ⊢; omega
        refine ⟨',' :: ((Json.compact.compactMembers (m :: ms)).toList ++ '}' :: r),
          by rw [h, Json.compactMembers_cons_cons]; simp, Delimited.comma _, fun c₃ h₃ => ?_⟩
        simpa using members_compact ((key, x) :: acc) (m :: ms) (List.cons_ne_nil m ms)
          false hj.2 hms (by simp at hf ⊢; omega) (by simpa [sepText] using h₃)
    have h' : c.rest = sepText first ++
        '"' :: (Json.escaped key.toList ++ '"' :: ':' :: (x.compact.toList ++ tail)) := by
      simp [htext, Json.quote_toList]
    rw [members.eq_2]
    refine (moves_skipBlanks_sep first (by decide) h').bind fun c₁ h₁ _ => ?_
    split
    · cases first <;> simp_all [sepHead]
    · contradiction
    rename_i b _ hb
    obtain rfl : b = sepHead first '"' := (Option.some.inj hb).symm
    refine (moves_separator first (by decide) (h₁.trans h')).bind fun c₂ h₂ _ => ?_
    refine (memberKey_quote key (t := ':' :: (x.compact.toList ++ tail))
      (by simp [h₂, Json.quote_toList])).bind fun c₃ h₃ _ => ?_
    refine (colon_moves h₃).bind fun c₄ h₄ _ => ?_
    exact (value_compact x hj.1 hxd h₄ htail).bind fun c₅ h₅ _ => hnext c₅ h₅

end

theorem finishText_nil (h : c.rest = []) : finishText.run c = .ok ((), c) := by
  unfold finishText
  simp only [StateT.run_bind, skipBlanks_run_nil h]
  rfl

theorem moves_finishText (h : c.rest = []) : Moves finishText c [] () :=
  ⟨c, h, rfl, finishText_nil h⟩

end JsonRead

theorem Json.parse_compact (j : Json) (hj : j.EveryNumber JsonNumber.ReadsBack)
    (hd : j.nesting < 128) : Json.parse j.compact = .ok j := by
  obtain ⟨c', h1, -, hrun⟩ := JsonRead.value_compact (c := JsonRead.start j.compact) (r := []) j hj
    hd (by simp [JsonRead.start]) trivial
  have hfin := JsonRead.finishText_nil h1
  unfold Json.parse
  simp only [StateT.run'_eq, StateT.run_bind, hrun]
  simp [bind, Except.bind, hfin]
  rfl

end GraphIngest
