import GraphIngest.Convert.Parcel
import GraphIngest.Proofs.Json.TypedReading
import GraphIngest.Proofs.Graph.Sendable
import GraphIngest.Proofs.Graph.HandleText

/-! # Reading graph things back from their serial text

Each reader of a parcel's payload reads the compact text of the serial form of what it reads
back to that thing, for everything that crosses (`Sendable`). The rules of `Typed.Reads` compose
as the readers do: a property value is any document that stands for a value, properties are a
map of them, a node is a record of six fields, and so on up to a fragment. What each reader
needs of the nesting budget grows by one with each array or object around the property values. -/

namespace GraphIngest

open Typed

variable {n : Nat}

theorem Typed.Reads.map {act : Typed α} {j : Json} {a : α} (f : α → β) (h : Reads act j a n) :
    Reads (do let x ← act; pure (f x)) j (f a) n := fun c r hr hc hd =>
  (h c r hr hc hd).bind fun _ h₁ hd₁ => (moves_pure h₁ (f a)).of_depth hd₁

namespace Serial

theorem reads_value (v : Value) (hv : v.Sendable) :
    Reads readValue v.toJson v (v.toJson.nesting + 1) := by
  intro c r hr h hd
  unfold readValue
  refine (reads_content (Value.Sendable.readsBack v hv) c r hr h hd).bind fun c₁ h₁ hd₁ => ?_
  rw [Value.ofJson?_toJson v hv]
  exact (moves_pure h₁ v).of_depth hd₁

theorem reads_props (ps : Props) (hps : ps.Sendable) :
    Reads readProps ps.toJson ps (Value.nestingLimit + 2) := by
  have hvalues : ∀ e ∈ ps.entries, Reads readValue e.2.toJson e.2 (Value.nestingLimit + 1) :=
    fun e he => (reads_value e.2 (hps.values e he).1).mono (by have := (hps.values e he).2; omega)
  have hmap := reads_strMap ps.entries hvalues hps.sorted (by omega)
  rw [← Props.toJson_eq] at hmap
  have hread := hmap.map Props.ofList
  rwa [Props.ofList_sorted hps.sorted] at hread

theorem reads_handle (h : Handle) (hb : h.bits < 2 ^ 128) (n : Nat) :
    Reads readHandle (.str h.text) h n := by
  intro c r hr hc hd
  unfold readHandle
  refine (reads_str h.text _ n c r hr hc hd).bind fun c₁ h₁ hd₁ => ?_
  rw [Handle.parse_text h hb]
  exact (moves_pure h₁ h).of_depth hd₁

end Serial

namespace Parcel

theorem reads_texts (ls : List String) : Reads texts (.arr (ls.map .str)) ls 2 :=
  reads_seq ls (fun l _ => reads_str l _ 1) (Nat.le_refl 1) _

theorem reads_optNat (o : Option Nat) (ho : ∀ i ∈ o, i < 2 ^ 64) (n : Nat) :
    Reads (option (natUpTo (Nat.pow 2 64 - 1) "u64")) (optNat o) o n := by
  cases o with
  | none => exact reads_option_none _ n
  | some i =>
    have hi : i ≤ Nat.pow 2 64 - 1 := by have := ho i rfl; simp only [Nat.pow_eq]; omega
    have hmax : Nat.pow 2 64 - 1 ≤ JsonRead.u64Max := Nat.le_refl _
    refine reads_option_some (reads_natUpTo "u64" hi hmax n) ?_
    obtain ⟨d, ds, hds⟩ := List.exists_cons_of_ne_nil (Nat.toDigits_ne_nil (n := i) (b := 10))
    have hd : d.isDigit = true := JsonRead.isDigit_of_mem_toDigits (by rw [hds]; simp)
    have hne : d ≠ 'n' := fun hdn => by rw [hdn] at hd; exact absurd hd (by decide)
    simpa [optNat, Json.compact, JsonNumber.text_nat, hds] using hne

theorem reads_optText (o : Option String) (e : String) (n : Nat) :
    Reads (option (str e)) (optText o) o n := by
  cases o with
  | none => exact reads_option_none _ n
  | some s =>
    refine reads_option_some (reads_str s e n) ?_
    simp [optText, Json.compact, Json.quote_toList]

/-! ## Nodes -/

theorem reads_node (nd : Node) (h : nd.Sendable) :
    Reads node nd.toJson nd (Value.nestingLimit + 3) := by
  unfold node Node.toJson
  apply reads_record (n := Value.nestingLimit + 2)
  · -- the six fields, each given once and in order
    apply FieldsRead.declared (by decide) rfl
    · simp only; exact (Serial.reads_handle _ h.handle _).map _
    apply FieldsRead.declared (by decide) rfl
    · simp only; exact (reads_optNat _ h.identity _).map _
    apply FieldsRead.declared (by decide) rfl
    · simp only; exact ((reads_texts _).mono (by omega)).map _
    apply FieldsRead.declared (by decide) rfl
    · simp only; exact (Serial.reads_props _ h.properties).map _
    apply FieldsRead.declared (by decide) rfl
    · simp only; exact (reads_optText _ _ _).map _
    apply FieldsRead.declared (by decide) rfl
    · simp only; exact (reads_optText _ _ _).map _
    exact fieldsRead_nil.2 rfl
  · intro c
    simp only [labelSet_sorted h.labels]
    exact moves_pure rfl nd
  · omega

section Keys

variable {c : Cursor} {r t : List Char}

theorem variantName_moves (b : Bool)
    (h : c.rest = (Json.quote (if b then "property" else "ghost")).toList ++ r) :
    Moves variantName c r c.depth b := by
  rw [Json.quote_toList] at h
  unfold variantName
  refine (moves_peekChar h (by decide)).bind fun c₁ h₁ hd₁ => ?_
  refine (moves_eat (h₁.trans h)).bind fun c₂ h₂ hd₂ => ?_
  refine (moves_lift (JsonRead.string_escaped _ (by simpa using h₂))).bind fun c₃ h₃ hd₃ => ?_
  cases b <;> exact moves_fix ((moves_pure h₃ _).of_depth (hd₃.trans (hd₂.trans hd₁)))

theorem tag_name (b : Bool) (h : c.rest = (Json.quote (if b then "property" else "ghost")).toList ++ r) :
    Moves tag c r c.depth b := by
  have hq : c.rest = '"' :: (Json.escaped (if b then "property" else "ghost").toList ++ '"' :: r) := by
    simp [h, Json.quote_toList]
  unfold tag
  exact (moves_peekChar hq (by decide)).bind fun c₁ h₁ hd₁ =>
    (variantName_moves b (h₁.trans h)).of_depth hd₁

theorem tagOrContent_found (first : Bool) (fuel : Nat) (b : Bool)
    (h : c.rest = JsonRead.sepText first ++ (Json.quote (if b then "kind" else "key")).toList ++ t) :
    Moves (tagOrContent first (fuel + 1)) c t c.depth (some b) := by
  rw [tagOrContent]
  refine (nextKey_quote first _ h).bind fun c₁ h₁ hd₁ => ?_
  cases b <;> exact (moves_pure h₁ _).of_depth hd₁

theorem tagOrContent_close (first : Bool) (fuel : Nat) (h : c.rest = '}' :: r) :
    Moves (tagOrContent first (fuel + 1)) c ('}' :: r) c.depth none := by
  rw [tagOrContent]
  exact (nextKey_close first h).bind fun c₁ h₁ hd₁ => (moves_pure h₁ none).of_depth hd₁

theorem keyMembers_ghost
    (h : c.rest = (Json.quote "kind").toList ++ ':' :: (Json.quote "ghost").toList ++ '}' :: r) :
    Moves keyMembers c ('}' :: r) c.depth .ghost := by
  unfold keyMembers
  refine (moves_get c).bind fun c₁ h₁ hd₁ => ?_
  refine (tagOrContent_found true _ true (t := ':' :: ((Json.quote "ghost").toList ++ '}' :: r))
    (by simpa [JsonRead.sepText] using h₁.trans h)).bind fun c₂ h₂ hd₂ => ?_
  refine (moves_colon h₂).bind fun c₃ h₃ hd₃ => ?_
  refine (tag_name false h₃).bind fun c₄ h₄ hd₄ => ?_
  refine (tagOrContent_close false _ h₄).bind fun c₅ h₅ hd₅ => ?_
  exact (moves_pure h₅ _).of_depth (by omega)

theorem keyMembers_property (k : String)
    (h : c.rest = (Json.quote "kind").toList ++ ':' :: (Json.quote "property").toList ++
      ',' :: (Json.quote "key").toList ++ ':' :: (Json.quote k).toList ++ '}' :: r) :
    Moves keyMembers c ('}' :: r) c.depth (.property k) := by
  unfold keyMembers
  refine (moves_get c).bind fun c₁ h₁ hd₁ => ?_
  refine (tagOrContent_found true _ true (t := ':' :: ((Json.quote "property").toList ++
      ',' :: (Json.quote "key").toList ++ ':' :: (Json.quote k).toList ++ '}' :: r))
    (by simpa [JsonRead.sepText] using h₁.trans h)).bind fun c₂ h₂ hd₂ => ?_
  refine (moves_colon h₂).bind fun c₃ h₃ hd₃ => ?_
  refine (tag_name true (r := ',' :: (Json.quote "key").toList ++ ':' :: (Json.quote k).toList ++
      '}' :: r) (by simpa using h₃)).bind fun c₄ h₄ hd₄ => ?_
  refine (tagOrContent_found false _ false (t := ':' :: ((Json.quote k).toList ++ '}' :: r))
    (by simpa [JsonRead.sepText] using h₄)).bind fun c₅ h₅ hd₅ => ?_
  refine (moves_colon h₅).bind fun c₆ h₆ hd₆ => ?_
  have hcontent : Moves (keyContent true) c₆ ('}' :: r) c₆.depth (.property k) :=
    (reads_str k _ 0).map RelKey.property c₆ ('}' :: r) (Delimited.brace r)
      (by simpa [Json.compact] using h₆) (Nat.zero_le _)
  refine hcontent.bind fun c₇ h₇ hd₇ => ?_
  unfold noMoreKeys
  refine (tagOrContent_close false _ h₇).bind fun c₈ h₈ hd₈ => ?_
  exact (moves_pure h₈ _).of_depth (by omega)

theorem relKey_object {k : RelKey} {x : List Char}
    (hm : ∀ c₁ : Cursor, c₁.rest = x ++ '}' :: r → Moves keyMembers c₁ ('}' :: r) c₁.depth k)
    (h : c.rest = '{' :: (x ++ '}' :: r)) (hd : 2 ≤ c.depth) : Moves relKey c r c.depth k := by
  unfold relKey
  refine (moves_peekChar h (by decide)).bind fun c₁ h₁ hd₁ => ?_
  refine (moves_enter (.inr (h₁.trans h)) (by omega)).bind fun c₂ h₂ hd₂ => ?_
  refine (moves_closing (hm c₂ h₂) fun c₃ h₃ hd₃ => (moves_endMap h₃).of_depth hd₃).bind
    fun c₄ h₄ hd₄ => ?_
  refine (moves_leave c₄).bind fun c₅ h₅ hd₅ => ?_
  exact (moves_pure (h₅.trans h₄) k).of_depth (by omega)

end Keys

theorem reads_relKey (k : RelKey) : Reads relKey k.toJson k 2 := by
  intro c r _ h hd
  cases k with
  | ghost =>
    exact relKey_object (fun c₁ h₁ => keyMembers_ghost h₁)
      (by simpa [RelKey.toJson, Json.compact, Json.compactMembers_cons_toList] using h) hd
  | property k =>
    exact relKey_object (fun c₁ h₁ => keyMembers_property k h₁)
      (by simpa [RelKey.toJson, Json.compact, Json.compactMembers_cons_toList] using h) hd

theorem reads_optKey (o : Option RelKey) :
    Reads (option relKey) ((o.map RelKey.toJson).getD .null) o 2 := by
  cases o with
  | none => exact reads_option_none _ 2
  | some k =>
    refine reads_option_some (reads_relKey k) ?_
    cases k <;> simp [RelKey.toJson, Json.compact]

/-! ## Relationships, attributes, fragments and records -/

theorem reads_relationship (rel : Relationship) (h : rel.Sendable) :
    Reads relationship rel.toJson rel (Value.nestingLimit + 4) := by
  unfold relationship Relationship.toJson
  apply reads_record (n := Value.nestingLimit + 3)
  · -- the six fields, each given once and in order
    apply FieldsRead.declared (by decide) rfl
    · simp only; exact (reads_optNat _ h.identity _).map _
    apply FieldsRead.declared (by decide) rfl
    · simp only; exact (reads_str _ _ _).map _
    apply FieldsRead.declared (by decide) rfl
    · simp only; exact (reads_node _ h.source).map _
    apply FieldsRead.declared (by decide) rfl
    · simp only; exact (reads_node _ h.target).map _
    apply FieldsRead.declared (by decide) rfl
    · simp only; exact ((Serial.reads_props _ h.properties).mono (by omega)).map _
    apply FieldsRead.declared (by decide) rfl
    · simp only; exact ((reads_optKey _).mono (by omega)).map _
    exact fieldsRead_nil.2 rfl
  · intro c
    exact moves_pure rfl rel
  · omega

theorem reads_attr (a : Attribute) (h : a.Sendable) :
    Reads attr (.obj [("key", .str a.key), ("value", a.value.toJson)]) a
      (Value.nestingLimit + 2) := by
  unfold attr
  apply reads_record (n := Value.nestingLimit + 1)
  · apply FieldsRead.declared (by decide) rfl
    · simp only; exact (reads_str _ _ _).map _
    apply FieldsRead.declared (by decide) rfl
    · simp only; exact ((Serial.reads_value _ h.value).mono (by have := h.nesting; omega)).map _
    exact fieldsRead_nil.2 rfl
  · intro c
    exact moves_pure rfl a
  · omega

theorem reads_fragment (f : Fragment) (h : f.Sendable) :
    Reads fragment f.toJson f (Value.nestingLimit + 6) := by
  unfold fragment Fragment.toJson
  apply reads_record (n := Value.nestingLimit + 5)
  · apply FieldsRead.declared (by decide) rfl
    · simp only
      exact ((reads_seq f.nodes (fun nd hnd => reads_node nd (h.nodes nd hnd)) (by omega) _).mono
        (by omega)).map _
    apply FieldsRead.declared (by decide) rfl
    · simp only
      exact (reads_seq f.rels (fun rel hrel => reads_relationship rel (h.rels rel hrel))
        (by omega) _).map _
    apply FieldsRead.declared (by decide) rfl
    · simp only
      exact ((reads_seq f.attributes (fun a ha => reads_attr a (h.attributes a ha)) (by omega)
        _).mono (by omega)).map _
    exact fieldsRead_nil.2 rfl
  · intro c
    exact moves_pure rfl f
  · omega

theorem reads_record_toJson (rec : Record) (h : rec.Sendable) :
    Reads record rec.toJson { rec with supplies := [] } (Value.nestingLimit + 3) := by
  unfold record Record.toJson
  apply reads_record (n := Value.nestingLimit + 2)
  · apply FieldsRead.declared (by decide) rfl
    · simp only; exact (reads_str _ _ _).map _
    apply FieldsRead.declared (by decide) rfl
    · simp only; exact (Serial.reads_props _ h.fields).map _
    apply FieldsRead.declared (by decide) rfl
    · simp only; exact ((reads_texts _).mono (by omega)).map _
    exact fieldsRead_nil.2 rfl
  · intro c
    exact moves_pure rfl _
  · omega

end Parcel

end GraphIngest
