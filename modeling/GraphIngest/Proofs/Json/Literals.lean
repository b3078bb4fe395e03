import GraphIngest.Proofs.Json.Cursor

/-! # String literals and integers read back

The scanner reads back what the compact writer writes: the string reader gives an escaped text
itself (`JsonRead.string_escaped`), the number reader gives an integer as long as it fits the
range the reader keeps integers in (`JsonRead.number_nat`, `JsonRead.number_neg`), and the skipper
passes over both. The escapes of a single character are the step
(`JsonRead.stringBody_escapeChar`), and an induction over the characters makes a whole string. -/

namespace GraphIngest

namespace Json

/-- The characters a text is written as between the quotes of a string literal. -/
def escaped (cs : List Char) : List Char := cs.flatMap fun ch => (escapeChar ch).toList

@[simp] theorem escaped_nil : escaped [] = [] := rfl

@[simp] theorem escaped_cons (ch : Char) (cs : List Char) :
    escaped (ch :: cs) = (escapeChar ch).toList ++ escaped cs := rfl

theorem quote_toList (s : String) : (quote s).toList = '"' :: escaped s.toList ++ ['"'] := by
  simp [quote, escaped, List.flatMap, Function.comp_def]

theorem escapeChar_ne_nil (ch : Char) : (escapeChar ch).toList ≠ [] := by
  unfold escapeChar
  split_ifs <;> simp

theorem length_le_escaped (cs : List Char) : cs.length ≤ (escaped cs).length := by
  induction cs with
  | nil => simp
  | cons ch cs ih =>
    have := List.length_pos_iff.mpr (escapeChar_ne_nil ch)
    simp only [escaped_cons, List.length_append, List.length_cons]
    omega

end Json

namespace JsonRead

variable {c : Cursor} {r t : List Char}

theorem Moves.map {x : JsonRead α} (f : α → β) (h : Moves x c r a) : Moves (f <$> x) c r (f a) := by
  obtain ⟨c', h1, h2, hrun⟩ := h
  refine ⟨c', h1, h2, ?_⟩
  rw [StateT.run_map, hrun]
  rfl

theorem Moves.discard {x : JsonRead α} (h : Moves x c r a) : Moves (Functor.discard x) c r () := by
  obtain ⟨c', h1, h2, hrun⟩ := h
  refine ⟨c', h1, h2, ?_⟩
  have hmap : (Functor.discard x).run c = (fun p => ((), p.2)) <$> x.run c := rfl
  rw [hmap, hrun]
  rfl

/-! ## Escapes -/

theorem hexValue?_hexDigit : ∀ d < 16, hexValue? (Json.hexDigit d) = some d := by decide

theorem utf8Size_hexDigit : ∀ d < 16, (Json.hexDigit d).utf8Size = 1 := by decide

theorem hexEscape_control (h : c.rest = '0' :: '0' :: Json.hexDigit d₁ :: Json.hexDigit d₂ :: t)
    (h₁ : d₁ < 16) (h₂ : d₂ < 16) : Moves hexEscape c t (16 * d₁ + d₂) := by
  have h0 : '0'.utf8Size = 1 := by decide
  have hsize : ¬ ((c.rest.take 4).map Char.utf8Size).foldr (· + ·) 0 < 4 := by
    simp [h, utf8Size_hexDigit d₁ h₁, utf8Size_hexDigit d₂ h₂, h0]
  have hv0 : hexValue? '0' = some 0 := by decide
  have hval : (c.rest.take 4).foldlM (fun acc ch => (hexValue? ch).map (acc * 16 + ·)) 0 =
      some (16 * d₁ + d₂) := by
    simp only [h, List.take_succ_cons, List.take_zero, List.foldlM_cons, List.foldlM_nil, hv0,
      hexValue?_hexDigit d₁ h₁, hexValue?_hexDigit d₂ h₂, Option.map_some, Option.bind_eq_bind,
      Option.bind_some]
    exact congrArg some (by omega)
  unfold hexEscape
  refine (moves_get c).bind fun c₁ h₁ _ => ?_
  simp only [hsize, if_false, hval]
  exact (moves_eats (t := c.rest.take 4) (by rw [h₁, h]; rfl) rfl).bind fun _ h₂ _ =>
    moves_pure h₂ _

theorem unicodeEscape_control
    (h : c.rest = '0' :: '0' :: Json.hexDigit (ch.toNat / 16) :: Json.hexDigit (ch.toNat % 16) :: t)
    (hc : ch.toNat < 32) : Moves unicodeEscape c t ch := by
  unfold unicodeEscape
  refine (hexEscape_control h (by omega) (by omega)).bind fun c₁ h₁ _ => ?_
  have hn : 16 * (ch.toNat / 16) + ch.toNat % 16 = ch.toNat := by omega
  have hlow : ¬ (0xDC00 ≤ ch.toNat ∧ ch.toNat ≤ 0xDFFF) := by omega
  have hbmp : ch.toNat < 0xD800 ∨ ch.toNat > 0xDBFF := by omega
  simp only [hn, hlow, hbmp, if_false, if_true, Char.ofNat_toNat]
  exact moves_pure h₁ ch

theorem stringBody_escapeChar (h : c.rest = (Json.escapeChar ch).toList ++ t)
    (k : ∀ c₁ : Cursor, c₁.rest = t → c₁.depth = c.depth →
      Moves (stringBody fuel (ch :: acc)) c₁ r s) :
    Moves (stringBody (fuel + 1) acc) c r s := by
  rw [stringBody]
  unfold Json.escapeChar at h
  -- seven characters have a short escape: a backslash and one letter
  split_ifs at h with h1 h2 h3 h4 h5 h6 h7 h8
  · subst h1
    simp at h
    exact (moves_next h).bind fun _ h₁ hd => (moves_next h₁).bind fun c₂ h₂ hd₂ =>
      k c₂ h₂ (hd₂.trans hd)
  · subst h2
    simp at h
    exact (moves_next h).bind fun _ h₁ hd => (moves_next h₁).bind fun c₂ h₂ hd₂ =>
      k c₂ h₂ (hd₂.trans hd)
  · subst h3
    simp at h
    exact (moves_next h).bind fun _ h₁ hd => (moves_next h₁).bind fun c₂ h₂ hd₂ =>
      k c₂ h₂ (hd₂.trans hd)
  · subst h4
    simp at h
    exact (moves_next h).bind fun _ h₁ hd => (moves_next h₁).bind fun c₂ h₂ hd₂ =>
      k c₂ h₂ (hd₂.trans hd)
  · subst h5
    simp at h
    exact (moves_next h).bind fun _ h₁ hd => (moves_next h₁).bind fun c₂ h₂ hd₂ =>
      k c₂ h₂ (hd₂.trans hd)
  · obtain rfl : ch = Char.ofNat 8 := by rw [← Char.ofNat_toNat ch, h6]
    simp at h
    exact (moves_next h).bind fun _ h₁ hd => (moves_next h₁).bind fun c₂ h₂ hd₂ =>
      k c₂ h₂ (hd₂.trans hd)
  · obtain rfl : ch = Char.ofNat 12 := by rw [← Char.ofNat_toNat ch, h7]
    simp at h
    exact (moves_next h).bind fun _ h₁ hd => (moves_next h₁).bind fun c₂ h₂ hd₂ =>
      k c₂ h₂ (hd₂.trans hd)
  -- the other control characters: `\u00` and two hex digits
  · simp at h
    exact (moves_next h).bind fun _ h₁ hd => (moves_next h₁).bind fun _ h₂ hd₂ =>
      (unicodeEscape_control h₂ h8).bind fun c₃ h₃ hd₃ => k c₃ h₃ (hd₃.trans (hd₂.trans hd))
  -- everything else stands for itself
  · simp at h
    refine (moves_next h).bind fun c₁ h₁ hd => ?_
    split
    · contradiction
    · exact absurd (Option.some.inj ‹_›) h1
    · exact absurd (Option.some.inj ‹_›) h2
    · obtain rfl := Option.some.inj ‹_›
      simp only [h8, if_false]
      exact k c₁ h₁ hd

theorem stringBody_escaped (cs : List Char) (hf : cs.length < fuel)
    (h : c.rest = Json.escaped cs ++ '"' :: r) :
    Moves (stringBody fuel acc) c r (String.ofList (acc.reverse ++ cs)) := by
  induction cs generalizing fuel acc c with
  | nil =>
    obtain ⟨fuel, rfl⟩ : ∃ f, fuel = f + 1 := ⟨fuel - 1, by omega⟩
    rw [stringBody]
    exact (moves_next h).bind fun _ h₁ _ => by simpa using moves_pure h₁ _
  | cons ch cs ih =>
    obtain ⟨fuel, rfl⟩ : ∃ f, fuel = f + 1 := ⟨fuel - 1, by omega⟩
    refine stringBody_escapeChar (by simpa using h) fun c₁ h₁ _ => ?_
    have hrest : Moves (stringBody fuel (ch :: acc)) c₁ r
        (String.ofList ((ch :: acc).reverse ++ cs)) := ih (by simp at hf; omega) h₁
    simpa using hrest

theorem string_escaped (s : String) (h : c.rest = Json.escaped s.toList ++ '"' :: r) :
    Moves string c r s := by
  refine (moves_get c).bind fun c₁ h₁ _ => ?_
  have hlen := Json.length_le_escaped s.toList
  have hbody : Moves (stringBody (c.rest.length + 1) []) c₁ r
      (String.ofList (([] : List Char).reverse ++ s.toList)) :=
    stringBody_escaped s.toList (by simp [h]; omega) (h₁.trans h)
  simpa using hbody

/-! ## Skipping escapes -/

theorem skipStringBody_escapeChar (h : c.rest = (Json.escapeChar ch).toList ++ t)
    (k : ∀ c₁ : Cursor, c₁.rest = t → c₁.depth = c.depth → Moves (skipStringBody fuel) c₁ r ()) :
    Moves (skipStringBody (fuel + 1)) c r () := by
  rw [skipStringBody]
  have hpeek {x : Char} {u : List Char} (hx : c.rest = x :: u) : Moves peek c c.rest (some x) := by
    have := moves_peek c
    rwa [hx] at this ⊢
  unfold Json.escapeChar at h
  split_ifs at h with h1 h2 h3 h4 h5 h6 h7 h8
  · subst h1
    simp at h
    exact (hpeek h).bind fun _ h₁ hd => (moves_eat (h₁.trans h)).bind fun _ h₂ hd₂ =>
      (moves_next h₂).bind fun c₃ h₃ hd₃ => k c₃ h₃ (hd₃.trans (hd₂.trans hd))
  · subst h2
    simp at h
    exact (hpeek h).bind fun _ h₁ hd => (moves_eat (h₁.trans h)).bind fun _ h₂ hd₂ =>
      (moves_next h₂).bind fun c₃ h₃ hd₃ => k c₃ h₃ (hd₃.trans (hd₂.trans hd))
  · subst h3
    simp at h
    exact (hpeek h).bind fun _ h₁ hd => (moves_eat (h₁.trans h)).bind fun _ h₂ hd₂ =>
      (moves_next h₂).bind fun c₃ h₃ hd₃ => k c₃ h₃ (hd₃.trans (hd₂.trans hd))
  · subst h4
    simp at h
    exact (hpeek h).bind fun _ h₁ hd => (moves_eat (h₁.trans h)).bind fun _ h₂ hd₂ =>
      (moves_next h₂).bind fun c₃ h₃ hd₃ => k c₃ h₃ (hd₃.trans (hd₂.trans hd))
  · subst h5
    simp at h
    exact (hpeek h).bind fun _ h₁ hd => (moves_eat (h₁.trans h)).bind fun _ h₂ hd₂ =>
      (moves_next h₂).bind fun c₃ h₃ hd₃ => k c₃ h₃ (hd₃.trans (hd₂.trans hd))
  · obtain rfl : ch = Char.ofNat 8 := by rw [← Char.ofNat_toNat ch, h6]
    simp at h
    exact (hpeek h).bind fun _ h₁ hd => (moves_eat (h₁.trans h)).bind fun _ h₂ hd₂ =>
      (moves_next h₂).bind fun c₃ h₃ hd₃ => k c₃ h₃ (hd₃.trans (hd₂.trans hd))
  · obtain rfl : ch = Char.ofNat 12 := by rw [← Char.ofNat_toNat ch, h7]
    simp at h
    exact (hpeek h).bind fun _ h₁ hd => (moves_eat (h₁.trans h)).bind fun _ h₂ hd₂ =>
      (moves_next h₂).bind fun c₃ h₃ hd₃ => k c₃ h₃ (hd₃.trans (hd₂.trans hd))
  · simp at h
    exact (hpeek h).bind fun _ h₁ hd => (moves_eat (h₁.trans h)).bind fun _ h₂ hd₂ =>
      (moves_next h₂).bind fun _ h₃ hd₃ =>
        (hexEscape_control h₃ (by omega) (by omega)).discard.bind fun c₄ h₄ hd₄ =>
          k c₄ h₄ (hd₄.trans (hd₃.trans (hd₂.trans hd)))
  · simp at h
    refine (hpeek h).bind fun c₁ h₁ hd => ?_
    split
    · contradiction
    · exact absurd (Option.some.inj ‹_›) h1
    · exact absurd (Option.some.inj ‹_›) h2
    · obtain rfl := Option.some.inj ‹_›
      simp only [h8, if_false]
      exact (moves_eat (h₁.trans h)).bind fun c₂ h₂ hd₂ => k c₂ h₂ (hd₂.trans hd)

theorem skipStringBody_escaped (cs : List Char) (hf : cs.length < fuel)
    (h : c.rest = Json.escaped cs ++ '"' :: r) : Moves (skipStringBody fuel) c r () := by
  induction cs generalizing fuel c with
  | nil =>
    obtain ⟨fuel, rfl⟩ : ∃ f, fuel = f + 1 := ⟨fuel - 1, by omega⟩
    rw [skipStringBody]
    have hp : Moves peek c c.rest (some '"') := by
      have := moves_peek c
      rwa [h] at this ⊢
    exact hp.bind fun _ h₁ _ => moves_eat (h₁.trans (by simpa using h))
  | cons ch cs ih =>
    obtain ⟨fuel, rfl⟩ : ∃ f, fuel = f + 1 := ⟨fuel - 1, by omega⟩
    exact skipStringBody_escapeChar (by simpa using h) fun c₁ h₁ _ =>
      ih (by simp at hf; omega) h₁

theorem skipString_escaped (s : String) (h : c.rest = Json.escaped s.toList ++ '"' :: r) :
    Moves skipString c r () := by
  refine (moves_get c).bind fun c₁ h₁ _ => ?_
  have hlen := Json.length_le_escaped s.toList
  exact skipStringBody_escaped s.toList (by simp [h]; omega) (h₁.trans h)

/-! ## Decimal digits -/

/-- The value of a run of decimal digits after `s`. -/
def digitsValue (s : Nat) (ds : List Char) : Nat :=
  ds.foldl (fun acc ch => acc * 10 + (ch.toNat - '0'.toNat)) s

@[simp] theorem digitsValue_nil (s : Nat) : digitsValue s [] = s := rfl

@[simp] theorem digitsValue_cons (s : Nat) (ch : Char) (ds : List Char) :
    digitsValue s (ch :: ds) = digitsValue (s * 10 + (ch.toNat - '0'.toNat)) ds := by
  simp only [digitsValue, List.foldl_cons]

theorem digitsValue_append (s : Nat) (a b : List Char) :
    digitsValue s (a ++ b) = digitsValue (digitsValue s a) b := List.foldl_append

theorem le_digitsValue (s : Nat) (ds : List Char) : s ≤ digitsValue s ds := by
  induction ds generalizing s with
  | nil => simp
  | cons ch ds ih =>
    have := ih (s * 10 + (ch.toNat - '0'.toNat))
    simp only [digitsValue_cons]
    omega

theorem digitChar_value : ∀ n < 10, (Nat.digitChar n).toNat - '0'.toNat = n := by decide

theorem digitChar_ne_zero : ∀ n < 10, 0 < n → Nat.digitChar n ≠ '0' := by decide

theorem toDigits_value (n : Nat) :
    digitsValue 0 (Nat.toDigits 10 n) = n ∧ (0 < n → (Nat.toDigits 10 n).head? ≠ some '0') := by
  induction n using Nat.strongRecOn with
  | ind n ih =>
    by_cases hn : n < 10
    · rw [Nat.toDigits_of_lt_base hn]
      refine ⟨by rw [digitsValue_cons, digitsValue_nil, digitChar_value n hn]; omega, fun hp => ?_⟩
      simpa using digitChar_ne_zero n hn hp
    · have hq : 0 < n / 10 := by omega
      have hsplit : Nat.toDigits 10 n = Nat.toDigits 10 (n / 10) ++ Nat.toDigits 10 (n % 10) := by
        rw [Nat.toDigits_append_toDigits (by omega) hq (Nat.mod_lt _ (by omega))]
        congr 1
        omega
      obtain ⟨hv, hh⟩ := ih (n / 10) (by omega)
      rw [hsplit, Nat.toDigits_of_lt_base (Nat.mod_lt _ (by omega))]
      refine ⟨?_, fun _ => ?_⟩
      · rw [digitsValue_append, hv, digitsValue_cons, digitsValue_nil,
          digitChar_value (n % 10) (Nat.mod_lt _ (by omega))]
        omega
      · obtain ⟨d, ds, hds⟩ := List.exists_cons_of_ne_nil (Nat.toDigits_ne_nil (n := n / 10) (b := 10))
        have := hh hq
        rw [hds] at this ⊢
        simpa using this

theorem isDigit_of_mem_toDigits {ch : Char} (h : ch ∈ Nat.toDigits 10 n) : ch.isDigit = true :=
  Nat.isDigit_of_mem_toDigits (by decide) (by decide) h

theorem takeWhile_digits {ds : List Char} (hd : ∀ ch ∈ ds, ch.isDigit = true) (hr : Delimited r) :
    (ds ++ r).takeWhile Char.isDigit = ds := by
  induction ds with
  | nil =>
    cases r with
    | nil => rfl
    | cons ch t => simp [hr.not_digit]
  | cons ch ds ih =>
    simp [hd ch (by simp), ih (fun x hx => hd x (by simp [hx]))]

theorem digit_lt_ten {ch : Char} (h : ch.isDigit = true) : ch.toNat - '0'.toNat < 10 := by
  simp only [Char.isDigit, Bool.and_eq_true, decide_eq_true_eq] at h
  obtain ⟨h1, h2⟩ := h
  have h1' : '0'.toNat ≤ ch.toNat := h1
  have h2' : ch.toNat ≤ '9'.toNat := h2
  simp only [Char.reduceToNat] at h1' h2' ⊢
  omega

theorem u64Max_eq : u64Max = 18446744073709551615 := by decide

theorem overflows_eq_false (hv : v < 10) (h : s * 10 + v ≤ u64Max) : overflows s v = false := by
  rw [u64Max_eq] at h
  simp only [overflows, u64Max_eq, Bool.and_eq_false_iff, Bool.or_eq_false_iff,
    decide_eq_false_iff_not]
  omega

theorem number_take (ds : List Char) (hd : ∀ ch ∈ ds, ch.isDigit = true)
    (hv : digitsValue s ds ≤ u64Max) : number.take ds s n = (digitsValue s ds, n + ds.length, false) := by
  induction ds generalizing s n with
  | nil => simp [number.take]
  | cons ch ds ih =>
    have hch := digit_lt_ten (hd ch (by simp))
    have hle := le_digitsValue (s * 10 + (ch.toNat - '0'.toNat)) ds
    rw [digitsValue_cons] at hv
    rw [number.take, overflows_eq_false hch (by omega)]
    simp only [Bool.false_eq_true, if_false]
    rw [ih (fun x hx => hd x (by simp [hx])) hv, digitsValue_cons]
    simp only [List.length_cons, Prod.mk.injEq, and_true, true_and]
    omega

theorem afterInteger_nat (hr : Delimited r) (h : c.rest = r) :
    Moves (afterInteger true s) c r (.nat s) := by
  unfold afterInteger
  refine (moves_peek c).bind fun c₁ h₁ _ => ?_
  rw [h] at *
  cases r with
  | nil => exact moves_pure h₁ _
  | cons ch t => rcases hr with rfl | rfl | rfl <;> exact moves_pure h₁ _

theorem afterInteger_neg (hr : Delimited r) (h : c.rest = r) (h0 : 0 < s) (hs : s ≤ Nat.pow 2 63) :
    Moves (afterInteger false s) c r (.neg (-(s : Int))) := by
  have hrange : ¬ (s = 0 ∨ s > Nat.pow 2 63) := by omega
  unfold afterInteger
  simp only [hrange, if_false, Bool.false_eq_true]
  refine (moves_peek c).bind fun c₁ h₁ _ => ?_
  rw [h] at *
  cases r with
  | nil => exact moves_pure h₁ _
  | cons ch t => rcases hr with rfl | rfl | rfl <;> exact moves_pure h₁ _

theorem number_digits (hn : n ≤ u64Max) (h : c.rest = Nat.toDigits 10 n ++ r) (hr : Delimited r)
    (k : ∀ c₁ : Cursor, c₁.rest = r → c₁.depth = c.depth → Moves (afterInteger pos n) c₁ r' x) :
    Moves (number pos) c r' x := by
  obtain ⟨hval, hhead⟩ := toDigits_value n
  obtain ⟨d, ds, hds⟩ := List.exists_cons_of_ne_nil (Nat.toDigits_ne_nil (n := n) (b := 10))
  have hdig : ∀ ch ∈ d :: ds, ch.isDigit = true := fun ch hch =>
    isDigit_of_mem_toDigits (by rw [hds]; exact hch)
  rw [hds] at h hval hhead
  unfold number
  refine (moves_next h).bind fun c₁ h₁ hd₁ => ?_
  by_cases hz : n = 0
  · -- zero is the one digit `0`
    subst hz
    obtain ⟨rfl, rfl⟩ : d = '0' ∧ ds = [] := by
      have : Nat.toDigits 10 0 = ['0'] := by decide
      rw [hds] at this
      simpa using this
    refine (moves_peek c₁).bind fun c₂ h₂ hd₂ => ?_
    rw [h₁] at *
    cases r with
    | nil => exact k c₂ (by simpa using h₂) (hd₂.trans hd₁)
    | cons ch t => simp [hr.not_digit]; exact k c₂ (by simpa using h₂) (hd₂.trans hd₁)
  · have hd0 : d ≠ '0' := fun he => hhead (Nat.pos_of_ne_zero hz) (by simp [he])
    split
    · contradiction
    · exact absurd (Option.some.inj ‹_›) hd0
    · obtain rfl := Option.some.inj ‹_›
      simp only [hdig d (by simp), Bool.not_true, Bool.false_eq_true, if_false]
      refine (moves_get c₁).bind fun c₂ h₂ hd₂ => ?_
      have hds' : ∀ ch ∈ ds, ch.isDigit = true := fun ch hch => hdig ch (by simp [hch])
      have hv : digitsValue (d.toNat - '0'.toNat) ds = n := by
        rwa [digitsValue_cons, Nat.zero_mul, Nat.zero_add] at hval
      have hrest : c₁.rest = ds ++ r := h₁
      rw [hrest, takeWhile_digits hds' hr, number_take ds hds' (hv ▸ hn), hv]
      refine (moves_eats_range (h₂.trans h₁) (by simp)).bind fun c₃ h₃ hd₃ => ?_
      simp only [Bool.false_eq_true, if_false]
      exact k c₃ h₃ (hd₃.trans (hd₂.trans hd₁))

theorem number_nat (hn : n ≤ u64Max) (h : c.rest = Nat.toDigits 10 n ++ r) (hr : Delimited r) :
    Moves (number true) c r (.nat n) :=
  number_digits hn h hr fun _ h₁ _ => afterInteger_nat hr h₁

theorem number_neg (h0 : 0 < n) (hn : n ≤ Nat.pow 2 63) (h : c.rest = Nat.toDigits 10 n ++ r)
    (hr : Delimited r) : Moves (number false) c r (.neg (-(n : Int))) := by
  have hmax : n ≤ u64Max := by rw [u64Max_eq]; simp at hn; omega
  exact number_digits hmax h hr fun _ h₁ _ => afterInteger_neg hr h₁ h0 hn

/-! ## Skipping digits -/

theorem moves_skipDigitRun {ds : List Char} (hd : ∀ ch ∈ ds, ch.isDigit = true) (hr : Delimited r)
    (h : c.rest = ds ++ r) : Moves skipDigitRun c r () := by
  unfold skipDigitRun
  refine (moves_get c).bind fun c₁ h₁ _ => ?_
  rw [h, takeWhile_digits hd hr]
  exact (moves_eats (h₁.trans h) rfl).bind fun _ h₂ _ => moves_pure h₂ _

theorem skipNumberTail_delimited (hr : Delimited r) (h : c.rest = r) :
    Moves skipNumberTail c r () := by
  unfold skipNumberTail
  refine (moves_peek c).bind fun c₁ h₁ _ => ?_
  rw [h] at *
  cases r with
  | nil => exact moves_pure h₁ ()
  | cons ch t => rcases hr with rfl | rfl | rfl <;> exact moves_pure h₁ ()

theorem skipNumber_digits (h : c.rest = Nat.toDigits 10 n ++ r) (hr : Delimited r) :
    Moves skipNumber c r () := by
  obtain ⟨-, hhead⟩ := toDigits_value n
  obtain ⟨d, ds, hds⟩ := List.exists_cons_of_ne_nil (Nat.toDigits_ne_nil (n := n) (b := 10))
  have hdig : ∀ ch ∈ d :: ds, ch.isDigit = true := fun ch hch =>
    isDigit_of_mem_toDigits (by rw [hds]; exact hch)
  rw [hds] at h hhead
  unfold skipNumber
  have hp : Moves peek c c.rest (some d) := by
    have := moves_peek c
    rwa [h] at this ⊢
  refine hp.bind fun c₁ h₁ hd₁ => ?_
  by_cases hz : n = 0
  · subst hz
    obtain ⟨rfl, rfl⟩ : d = '0' ∧ ds = [] := by
      have : Nat.toDigits 10 0 = ['0'] := by decide
      rw [hds] at this
      simpa using this
    refine (moves_eat (h₁.trans h)).bind fun c₂ h₂ _ => (moves_peek c₂).bind fun c₃ h₃ _ => ?_
    rw [h₂] at *
    cases r with
    | nil => exact moves_pure h₃ ()
    | cons ch t =>
      simp [hr.not_digit]
      exact skipNumberTail_delimited hr h₃
  · have hd0 : d ≠ '0' := fun he => hhead (Nat.pos_of_ne_zero hz) (by simp [he])
    split
    · contradiction
    · exact absurd (Option.some.inj ‹_›) hd0
    · obtain rfl := Option.some.inj ‹_›
      simp only [hdig d (by simp), if_true]
      refine (moves_eat (h₁.trans h)).bind fun c₂ h₂ _ => ?_
      exact (moves_skipDigitRun (fun ch hch => hdig ch (by simp [hch])) hr h₂).bind
        fun c₃ h₃ _ => skipNumberTail_delimited hr h₃

end JsonRead

end GraphIngest
