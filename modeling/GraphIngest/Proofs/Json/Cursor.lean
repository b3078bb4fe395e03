import Mathlib
import GraphIngest.Json.Typed

/-! # Reading forward over known text

The readers of JSON text are programs over a `Cursor`; the round-trip proofs run them over text
whose shape is known. `JsonRead.Moves act c r a` says that `act`, run from `c`, succeeds with `a`
and leaves the cursor just before `r`, with the nesting budget untouched; `Typed.Moves` says the
same of a typed reader. Both relations compose along `>>=` (`Moves.bind`), so the proof of a
reader over a piece of text follows the reader's own `do` block, one step per line.

A complete value is followed in every text the writers produce by nothing, a comma or a closing
bracket (`Delimited`). -/

namespace GraphIngest

/-- The text after a complete value: nothing, or a comma or closing bracket. -/
def Delimited : List Char → Prop
  | [] => True
  | ch :: _ => ch = ',' ∨ ch = ']' ∨ ch = '}'

/-- A character that is not a blank of the JSON grammar. -/
def Solid (ch : Char) : Prop := ch ≠ ' ' ∧ ch ≠ '\n' ∧ ch ≠ '\t' ∧ ch ≠ '\r'

instance (ch : Char) : Decidable (Solid ch) := inferInstanceAs (Decidable (_ ∧ _))

theorem Delimited.comma (r : List Char) : Delimited (',' :: r) := Or.inl rfl

theorem Delimited.bracket (r : List Char) : Delimited (']' :: r) := Or.inr (Or.inl rfl)

theorem Delimited.brace (r : List Char) : Delimited ('}' :: r) := Or.inr (Or.inr rfl)

theorem Delimited.not_digit {ch : Char} {r : List Char} (h : Delimited (ch :: r)) :
    ch.isDigit = false := by
  rcases h with rfl | rfl | rfl <;> decide

namespace JsonRead

/-- `act` run from `c` succeeds with `a` and stops before `r`; the nesting budget is kept. -/
def Moves (act : JsonRead α) (c : Cursor) (r : List Char) (a : α) : Prop :=
  ∃ c', c'.rest = r ∧ c'.depth = c.depth ∧ act.run c = .ok (a, c')

variable {c : Cursor} {r t : List Char}

theorem Moves.bind {x : JsonRead α} {f : α → JsonRead β} {r₁ : List Char} {a : α} {b : β}
    (hx : Moves x c r₁ a)
    (hf : ∀ c₁ : Cursor, c₁.rest = r₁ → c₁.depth = c.depth → Moves (f a) c₁ r b) :
    Moves (x >>= f) c r b := by
  obtain ⟨c₁, h1, h2, hrun⟩ := hx
  obtain ⟨c₂, h3, h4, hrun'⟩ := hf c₁ h1 h2
  refine ⟨c₂, h3, h4.trans h2, ?_⟩
  simp only [StateT.run_bind, hrun]
  exact hrun'

theorem moves_pure (h : c.rest = r) (a : α) : Moves (pure a : JsonRead α) c r a := ⟨c, h, rfl, rfl⟩

theorem moves_get (c : Cursor) : Moves (get : JsonRead Cursor) c c.rest c := ⟨c, rfl, rfl, rfl⟩

theorem moves_peek (c : Cursor) : Moves peek c c.rest c.rest.head? := ⟨c, rfl, rfl, rfl⟩

theorem moves_eat (h : c.rest = ch :: r) : Moves eat c r () := by
  refine ⟨_, ?_, ?_, rfl⟩
  all_goals simp only [h]; split <;> rfl

theorem moves_next (h : c.rest = ch :: r) : Moves next c r (some ch) := by
  have hp : Moves peek c c.rest (some ch) := ⟨c, rfl, rfl, by simp [peek, h]; rfl⟩
  exact hp.bind fun _ h₁ _ => (moves_eat (h₁.trans h)).bind fun _ h₂ _ => moves_pure h₂ _

theorem moves_eats {l : List α} (h : c.rest = t ++ r) (hl : l.length = t.length) :
    Moves (forIn l PUnit.unit fun _ _ => do eat; pure (ForInStep.yield PUnit.unit)) c r
      PUnit.unit := by
  induction l generalizing c t with
  | nil =>
    obtain rfl : t = [] := List.eq_nil_of_length_eq_zero hl.symm
    exact ⟨c, by simpa using h, rfl, rfl⟩
  | cons x l ih =>
    obtain ⟨ch, t, rfl⟩ : ∃ ch t', t = ch :: t' := by cases t <;> simp_all
    rw [List.forIn_cons]
    refine Moves.bind ((moves_eat h).bind fun _ h₁ _ => moves_pure h₁ (ForInStep.yield PUnit.unit))
      fun _ h₁ _ => ?_
    exact ih h₁ (by simpa using hl)

theorem moves_eats_range (h : c.rest = t ++ r) (hn : n = t.length) :
    Moves (forIn [0:n] PUnit.unit fun _ _ => do eat; pure (ForInStep.yield PUnit.unit)) c r
      PUnit.unit := by
  rw [Std.Legacy.Range.forIn_eq_forIn_range']
  exact moves_eats h (by simp [Std.Legacy.Range.size, hn])

theorem skipBlanks_run (h : c.rest = ch :: t) (hb : Solid ch) :
    skipBlanks.run c = .ok (some ch, c) := by
  obtain ⟨h1, h2, h3, h4⟩ := hb
  have hp : peek.run c = .ok (c.rest.head?, c) := rfl
  simp [skipBlanks, h, h1, h2, h3, h4, hp]

theorem skipBlanks_run_nil (h : c.rest = []) : skipBlanks.run c = .ok (none, c) := by
  have hp : peek.run c = .ok (c.rest.head?, c) := rfl
  simp [skipBlanks, h, hp]

theorem moves_skipBlanks (h : c.rest = ch :: t) (hb : Solid ch) :
    Moves skipBlanks c c.rest (some ch) :=
  ⟨c, rfl, rfl, skipBlanks_run h hb⟩

theorem moves_expectWord (w : List Char) (h : c.rest = w ++ r) : Moves (expectWord w) c r () := by
  induction w generalizing c with
  | nil => exact moves_pure (by simpa using h) ()
  | cons ch w ih =>
    rw [expectWord]
    exact (moves_next h).bind fun _ h₁ _ => by simpa using ih h₁

end JsonRead

namespace Typed

/-- `act` run from `c` succeeds with `a` and stops before `r` with nesting budget `d`. -/
def Moves (act : Typed α) (c : Cursor) (r : List Char) (d : Nat) (a : α) : Prop :=
  ∃ c', c'.rest = r ∧ c'.depth = d ∧ act c = .ok a c'

variable {c : Cursor} {r t : List Char} {d : Nat}

theorem Moves.bind {x : Typed α} {f : α → Typed β} {r₁ : List Char} {d₁ : Nat} {a : α} {b : β}
    (hx : Moves x c r₁ d₁ a)
    (hf : ∀ c₁ : Cursor, c₁.rest = r₁ → c₁.depth = d₁ → Moves (f a) c₁ r d b) :
    Moves (x >>= f) c r d b := by
  obtain ⟨c₁, h1, h2, hrun⟩ := hx
  obtain ⟨c₂, h3, h4, hrun'⟩ := hf c₁ h1 h2
  exact ⟨c₂, h3, h4, by show EStateM.bind x f c = _; simp only [EStateM.bind, hrun, hrun']⟩

theorem Moves.of_depth {act : Typed α} {a : α} (h : Moves act c r c.depth a) (hd : c.depth = d) :
    Moves act c r d a :=
  hd ▸ h

theorem moves_pure (h : c.rest = r) (a : α) : Moves (pure a : Typed α) c r c.depth a :=
  ⟨c, h, rfl, rfl⟩

theorem moves_get (c : Cursor) : Moves (get : Typed Cursor) c c.rest c.depth c := ⟨c, rfl, rfl, rfl⟩

theorem moves_lift {act : JsonRead α} (h : JsonRead.Moves act c r a) :
    Moves (lift act) c r c.depth a := by
  obtain ⟨c', h1, h2, hrun⟩ := h
  exact ⟨c', h1, h2, by simp only [lift, hrun]⟩

theorem moves_fix {act : Typed α} (h : Moves act c r d a) : Moves (fix act) c r d a := by
  obtain ⟨c', h1, h2, hrun⟩ := h
  exact ⟨c', h1, h2, by show EStateM.tryCatch act _ c = _; simp only [EStateM.tryCatch, hrun]⟩

theorem moves_closing {act : Typed α} {close : Typed Unit} {r₁ : List Char} {d₁ : Nat}
    (h : Moves act c r₁ d₁ a)
    (hc : ∀ c₁ : Cursor, c₁.rest = r₁ → c₁.depth = d₁ → Moves close c₁ r d ()) :
    Moves (closing act close) c r d a := by
  obtain ⟨c₁, h1, h2, hrun⟩ := h
  obtain ⟨c₂, h3, h4, hrun'⟩ := hc c₁ h1 h2
  exact ⟨c₂, h3, h4, by simp only [closing, hrun, hrun']⟩

theorem moves_eat (h : c.rest = ch :: r) : Moves eat c r c.depth () :=
  moves_lift (JsonRead.moves_eat h)

theorem moves_peekChar (h : c.rest = ch :: t) (hb : Solid ch) :
    Moves peekChar c c.rest c.depth (some ch) :=
  moves_lift (JsonRead.moves_skipBlanks h hb)

theorem moves_enter (h : c.rest = '[' :: r ∨ c.rest = '{' :: r) (hd : 2 ≤ c.depth) :
    Moves enter c r (c.depth - 1) () := by
  have hfits : ¬ c.depth ≤ 1 := by omega
  have hrun : enter c = eat { c with depth := c.depth - 1 } := by
    simp only [enter, bind, EStateM.bind, get, getThe, MonadStateOf.get, EStateM.get, hfits,
      if_false]
    rfl
  obtain ⟨c', h1, h2, hrun'⟩ : Moves eat { c with depth := c.depth - 1 } r (c.depth - 1) () := by
    rcases h with h | h <;> exact moves_eat h
  exact ⟨c', h1, h2, hrun.trans hrun'⟩

theorem moves_leave (c : Cursor) : Moves leave c c.rest (c.depth + 1) () :=
  ⟨{ c with depth := c.depth + 1 }, rfl, rfl, rfl⟩

theorem moves_colon (h : c.rest = ':' :: r) : Moves colon c r c.depth () := by
  refine moves_lift ((JsonRead.moves_skipBlanks h (by decide)).bind fun _ h₁ _ => ?_)
  exact JsonRead.moves_eat (h₁.trans h)

end Typed

end GraphIngest
