import GraphIngest.Graph.Handle
import Mathlib.Tactic.Ring

/-! # Handles read back from their text

The hyphenated text of a handle reads back to the handle (`Handle.parse_text`), for every handle
that fits 128 bits. The text is five groups of hex digits, 8, 4, 4, 4 and 12 long, each group
the value of its bits written with exactly that many digits. Reading finds the four hyphens in
their places, takes them out and reads the 32 digits as one number, which puts the groups back
together into the bits of the handle. -/

namespace GraphIngest.Handle

theorem utf8ByteSize_ofList {l : List Char} (hl : ∀ ch ∈ l, ch.utf8Size = 1) :
    (String.ofList l).utf8ByteSize = l.length := by
  induction l with
  | nil => rfl
  | cons ch l ih =>
    have hsplit : String.ofList (ch :: l) = String.singleton ch ++ String.ofList l := by
      rw [String.singleton_eq_ofList, ← String.ofList_append]
      rfl
    rw [hsplit, String.utf8ByteSize_append, String.utf8ByteSize_singleton,
      ih fun c hc => hl c (by simp [hc]), hl ch (by simp), List.length_cons, Nat.add_comm]

theorem hexValue?_hexDigit : ∀ d < 16, hexValue? (hexDigit d) = some d := by decide

theorem hexDigit_ne_hyphen : ∀ d < 16, hexDigit d ≠ '-' := by decide

theorem utf8Size_hexDigit : ∀ d < 16, (hexDigit d).utf8Size = 1 := by decide

/-- The step of reading a run of hex digits. -/
def hexStep (acc : Nat) (ch : Char) : Option Nat := (hexValue? ch).map (acc * 16 + ·)

theorem hexFixed_zero (n : Nat) : (hexFixed 0 n).toList = [] := rfl

theorem hexFixed_succ (w n : Nat) :
    (hexFixed (w + 1) n).toList = hexDigit (n / 16 ^ w % 16) :: (hexFixed w n).toList := by
  simp [hexFixed, List.range_succ, Nat.pow_eq]

theorem length_hexFixed (w n : Nat) : (hexFixed w n).toList.length = w := by
  simp [hexFixed]

theorem mem_hexFixed {w n : Nat} {ch : Char} (h : ch ∈ (hexFixed w n).toList) :
    ∃ d < 16, ch = hexDigit d := by
  simp only [hexFixed, String.toList_ofList, List.mem_map] at h
  obtain ⟨i, -, rfl⟩ := h
  exact ⟨_, Nat.mod_lt _ (by decide), rfl⟩

theorem foldlM_hexFixed (w n acc : Nat) :
    (hexFixed w n).toList.foldlM hexStep acc = some (acc * 16 ^ w + n % 16 ^ w) := by
  induction w generalizing acc with
  | zero => simp [hexFixed_zero, Nat.mod_one]
  | succ w ih =>
    have hd : n / 16 ^ w % 16 < 16 := Nat.mod_lt _ (by decide)
    rw [hexFixed_succ, List.foldlM_cons]
    simp only [hexStep, hexValue?_hexDigit _ hd, Option.map_some, Option.bind_eq_bind,
      Option.bind_some, ih, Nat.mod_pow_succ]
    congr 1
    ring

theorem hexRun?_eq_foldlM (cs : List Char) : hexRun? cs = cs.foldlM hexStep 0 := rfl

theorem hyphenated?_groups {A B C D E : List Char} (hA : A.length = 8) (hB : B.length = 4)
    (hC : C.length = 4) (hD : D.length = 4) (hE : E.length = 12)
    (hdig : ∀ ch ∈ A ++ B ++ C ++ D ++ E, ch ≠ '-') :
    hyphenated? (A ++ '-' :: (B ++ '-' :: (C ++ '-' :: (D ++ '-' :: E)))) =
      hexRun? (A ++ B ++ C ++ D ++ E) := by
  -- the groups hold no hyphen, so taking the hyphens out leaves the groups
  have hkeep (L : List Char) (hL : ∀ ch ∈ L, ch ≠ '-') :
      L.filter (fun x => !decide (x = '-')) = L :=
    List.filter_eq_self.2 fun ch hch => by simpa using hL ch hch
  have hfilter : (A ++ '-' :: (B ++ '-' :: (C ++ '-' :: (D ++ '-' :: E)))).filter (· ≠ '-') =
      A ++ B ++ C ++ D ++ E := by
    simp only [List.mem_append] at hdig
    simp [List.filter_append, hkeep A fun ch h => hdig ch (by simp [h]),
      hkeep B fun ch h => hdig ch (by simp [h]), hkeep C fun ch h => hdig ch (by simp [h]),
      hkeep D fun ch h => hdig ch (by simp [h]), hkeep E fun ch h => hdig ch (by simp [h])]
  unfold hyphenated?
  rw [if_pos, hfilter]
  simp [hA, hB, hC, hD, hE]

theorem utf8ByteSize_hexFixed (w n : Nat) : (hexFixed w n).utf8ByteSize = w := by
  have hsize := utf8ByteSize_ofList (l := (hexFixed w n).toList) fun ch hch => by
    obtain ⟨d, hd, rfl⟩ := mem_hexFixed hch
    exact utf8Size_hexDigit d hd
  simpa [length_hexFixed] using hsize

theorem hexFixed_ne_hyphen {w n : Nat} : ∀ ch ∈ (hexFixed w n).toList, ch ≠ '-' := by
  intro ch hch
  obtain ⟨d, hd, rfl⟩ := mem_hexFixed hch
  exact hexDigit_ne_hyphen d hd

theorem groups_regroup (b : Nat) (hb : b < 2 ^ 128) :
    (((((0 * 16 ^ 8 + b / 2 ^ 96 % 16 ^ 8) * 16 ^ 4 + b / 2 ^ 80 % 2 ^ 16 % 16 ^ 4) * 16 ^ 4 +
      b / 2 ^ 64 % 2 ^ 16 % 16 ^ 4) * 16 ^ 4 + b / 2 ^ 48 % 2 ^ 16 % 16 ^ 4) * 16 ^ 12 +
      b % 2 ^ 48 % 16 ^ 12) = b := by
  norm_num at hb ⊢
  omega

theorem parse_text (h : Handle) (hb : h.bits < 2 ^ 128) : parse h.text = .ok h := by
  obtain ⟨b⟩ := h
  have hyphen : "-".toList = ['-'] := rfl
  have hyphenSize : "-".utf8ByteSize = 1 := rfl
  have hsize : (text ⟨b⟩).utf8ByteSize = 36 := by
    simp [text, String.utf8ByteSize_append, utf8ByteSize_hexFixed, hyphenSize]
  have hdigits : hyphenated? (text ⟨b⟩).toList = some b := by
    simp only [text, String.toList_append, List.append_assoc, hyphen, List.nil_append,
      List.cons_append]
    rw [hyphenated?_groups (length_hexFixed ..) (length_hexFixed ..) (length_hexFixed ..)
      (length_hexFixed ..) (length_hexFixed ..)]
    · simp only [hexRun?_eq_foldlM, List.foldlM_append, foldlM_hexFixed, Option.bind_eq_bind,
        Option.bind_some]
      simp only [Nat.pow_eq] at hb ⊢
      rw [groups_regroup b hb]
    · simp only [List.mem_append]
      rintro ch ((((h | h) | h) | h) | h) <;> exact hexFixed_ne_hyphen ch h
  simp only [parse, hsize, hdigits]

end GraphIngest.Handle
