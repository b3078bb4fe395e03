import GraphIngest.Graph.Serial
import GraphIngest.Proofs.Json.TypedReading

/-! # What crosses a boundary unchanged

The serial form of a value, node, relationship, fragment or record is read back to the same thing
only when the thing keeps to what its type promises (integers within 64 signed bits, identities
within 64 bits, handles within 128 bits, sorted label sets and property maps), every double is
written so that it reads back, and property values nest within the reader's budget
(`Value.nestingLimit`). Each condition is a field of a `Sendable` structure, one per kind of
thing. -/

namespace GraphIngest

namespace Value

/-- A value whose integers fit 64 signed bits and whose doubles are read back from, and passed
over in, their JSON text. -/
def Sendable : Value → Prop
  | .int i => -2 ^ 63 ≤ i ∧ i < 2 ^ 63
  | .float x => FloatReads x ∧ FloatSkips x
  | .array items => sendableList items
  | _ => True
where
  /-- Every value of a list is sendable. -/
  sendableList : List Value → Prop
    | [] => True
    | v :: rest => Sendable v ∧ sendableList rest

/-- The deepest nesting of arrays a property value may have and still be read back from a
parcel: the reader's budget of 128 levels, less the levels around a relationship's endpoint's
property in a sealed fragment. -/
def nestingLimit : Nat := 121

theorem Sendable.readsBack : ∀ v : Value, v.Sendable → v.toJson.EveryNumber JsonNumber.ReadsBack
  | .null, _ | .bool _, _ | .str _, _ => trivial
  | .int i, ⟨hlo, hhi⟩ => by
    unfold toJson Json.int
    split
    · show i < 0 ∧ i.natAbs ≤ Nat.pow 2 63
      exact ⟨‹_›, by simp only [Nat.pow_eq]; omega⟩
    · show i.toNat ≤ JsonRead.u64Max
      rw [JsonRead.u64Max_eq]
      omega
  | .float _, h => h.1
  | .array items, h => readsBackList items h
where
  readsBackList : ∀ vs : List Value, sendableList vs →
      Json.EveryNumber.everyList JsonNumber.ReadsBack (toJson.toJsonList vs)
    | [], _ => trivial
    | v :: vs, ⟨hv, hvs⟩ => ⟨Sendable.readsBack v hv, readsBackList vs hvs⟩

theorem Sendable.skips : ∀ v : Value, v.Sendable → v.toJson.EveryNumber JsonNumber.Skips
  | .null, _ | .bool _, _ | .str _, _ => trivial
  | .int i, _ => by
    unfold toJson Json.int
    split <;> trivial
  | .float _, h => h.2
  | .array items, h => skipsList items h
where
  skipsList : ∀ vs : List Value, sendableList vs →
      Json.EveryNumber.everyList JsonNumber.Skips (toJson.toJsonList vs)
    | [], _ => trivial
    | v :: vs, ⟨hv, hvs⟩ => ⟨Sendable.skips v hv, skipsList vs hvs⟩

theorem ofJson?_toJson : ∀ v : Value, v.Sendable → ofJson? v.toJson = some v
  | .null, _ | .bool _, _ | .float _, _ | .str _, _ => rfl
  | .int i, ⟨hlo, hhi⟩ => by
    unfold toJson Json.int
    split
    · rfl
    · have hfit : i.toNat < Nat.pow 2 63 := by simp only [Nat.pow_eq]; omega
      simp only [ofJson?, hfit, if_true, Option.some.injEq, Value.int.injEq]
      omega
  | .array items, h => by
    show (ofJson?.ofJsonList (toJson.toJsonList items)).map Value.array = some (.array items)
    rw [ofJsonList_toJsonList items h]
    rfl
where
  ofJsonList_toJsonList : ∀ vs : List Value, Sendable.sendableList vs →
      ofJson?.ofJsonList (toJson.toJsonList vs) = some vs
    | [], _ => rfl
    | v :: vs, ⟨hv, hvs⟩ => by
      simp only [toJson.toJsonList, ofJson?.ofJsonList, ofJson?_toJson v hv,
        ofJsonList_toJsonList vs hvs]
      rfl

end Value

namespace Props

theorem toJson_eq (ps : Props) : ps.toJson = .obj (Typed.memberTexts Value.toJson ps.entries) := by
  simp [toJson, Typed.memberTexts]

theorem insertEntry_of_lt {k : String} {v : Value} {es : List (String × Value)}
    (h : ∀ e ∈ es, e.1 < k) : insertEntry k v es = es ++ [(k, v)] := by
  induction es with
  | nil => rfl
  | cons e es ih =>
    have he := h e (by simp)
    rw [insertEntry, if_neg (String.lt_asymm he),
      if_neg fun (heq : k = e.1) => String.lt_irrefl e.1 (heq ▸ he),
      ih fun e' he' => h e' (by simp [he'])]
    rfl

theorem foldl_insert_sorted (acc : Props) (es : List (String × Value))
    (hs : (acc.entries ++ es).Pairwise (fun a b => a.1 < b.1)) :
    es.foldl (fun ps e => ps.insert e.1 e.2) acc = ⟨acc.entries ++ es⟩ := by
  induction es generalizing acc with
  | nil => simp
  | cons e es ih =>
    have hlt : ∀ a ∈ acc.entries, a.1 < e.1 :=
      fun a ha => (List.pairwise_append.1 hs).2.2 a ha e (by simp)
    have hnext : acc.insert e.1 e.2 = ⟨acc.entries ++ [e]⟩ := by
      simp only [insert, insertEntry_of_lt hlt]
    rw [List.foldl_cons, hnext, ih ⟨acc.entries ++ [e]⟩ (by simpa using hs)]
    simp

theorem ofList_sorted {es : List (String × Value)} (hs : es.Pairwise (fun a b => a.1 < b.1)) :
    ofList es = ⟨es⟩ := by
  simpa [ofList] using foldl_insert_sorted {} es (by simpa using hs)

end Props

theorem sortedInsert_of_lt {s : String} {ls : List String} (h : ∀ t ∈ ls, t < s) :
    sortedInsert s ls = ls ++ [s] := by
  induction ls with
  | nil => rfl
  | cons t ls ih =>
    have ht := h t (by simp)
    rw [sortedInsert, if_neg (String.lt_asymm ht),
      if_neg fun (heq : s = t) => String.lt_irrefl t (heq ▸ ht), ih fun t' ht' => h t' (by simp [ht'])]
    rfl

theorem labelSet_sorted {ls : List String} (hs : ls.Pairwise (· < ·)) : labelSet ls = ls := by
  have hfold : ∀ acc : List String, (acc ++ ls).Pairwise (· < ·) →
      ls.foldl (fun acc l => sortedInsert l acc) acc = acc ++ ls := by
    induction ls with
    | nil => simp
    | cons l ls ih =>
      intro acc hacc
      have hlt : ∀ t ∈ acc, t < l := fun t ht => (List.pairwise_append.1 hacc).2.2 t ht l (by simp)
      rw [List.foldl_cons, sortedInsert_of_lt hlt, ih (List.pairwise_cons.1 hs).2 _ (by simpa using hacc)]
      simp
  simpa [labelSet] using hfold [] (by simpa using hs)

/-! ## What each kind of thing must keep to -/

/-- A property map that crosses: keys strictly rising, values sendable and nested within the
limit. -/
structure Props.Sendable (ps : Props) : Prop where
  sorted : ps.entries.Pairwise (fun a b => a.1 < b.1)
  values : ∀ e ∈ ps.entries, e.2.Sendable ∧ e.2.toJson.nesting ≤ Value.nestingLimit

/-- A node that crosses. -/
structure Node.Sendable (nd : Node) : Prop where
  handle : nd.handle.bits < 2 ^ 128
  identity : ∀ i ∈ nd.identity, i < 2 ^ 64
  labels : nd.labels.Pairwise (· < ·)
  properties : nd.properties.Sendable

/-- A relationship that crosses, with both endpoints. -/
structure Relationship.Sendable (rel : Relationship) : Prop where
  identity : ∀ i ∈ rel.identity, i < 2 ^ 64
  source : rel.source.Sendable
  target : rel.target.Sendable
  properties : rel.properties.Sendable

/-- An attribute that crosses. -/
structure Attribute.Sendable (a : Attribute) : Prop where
  value : a.value.Sendable
  nesting : a.value.toJson.nesting ≤ Value.nestingLimit

/-- A fragment that crosses: every node, relationship and attribute does. -/
structure Fragment.Sendable (f : Fragment) : Prop where
  nodes : ∀ nd ∈ f.nodes, nd.Sendable
  rels : ∀ rel ∈ f.rels, rel.Sendable
  attributes : ∀ a ∈ f.attributes, a.Sendable

/-- A record that crosses: its fields do. -/
structure Record.Sendable (r : Record) : Prop where
  fields : r.fields.Sendable

/-! ## The numbers of serial forms, passed over

A parcel's header is read before its payload, which is skipped; these say that the skipper passes
over the numbers of every serial form that crosses. -/

theorem Props.Sendable.skips {ps : Props} (h : ps.Sendable) :
    ps.toJson.EveryNumber JsonNumber.Skips := by
  rw [Props.toJson_eq, Json.EveryNumber, Json.EveryNumber.everyMember_iff]
  simp only [Typed.memberTexts, List.forall_mem_map]
  exact fun e he => Value.Sendable.skips e.2 (h.values e he).1

theorem optNat_skips (o : Option Nat) : (optNat o).EveryNumber JsonNumber.Skips := by
  cases o <;> trivial

theorem optText_skips (o : Option String) : (optText o).EveryNumber JsonNumber.Skips := by
  cases o <;> trivial

theorem texts_skips (ls : List String) :
    Json.EveryNumber.everyList JsonNumber.Skips (ls.map .str) := by
  simp [Json.EveryNumber, Json.EveryNumber.everyList_iff]

theorem Node.Sendable.skips {nd : Node} (h : nd.Sendable) :
    nd.toJson.EveryNumber JsonNumber.Skips := by
  simp [Node.toJson, Json.EveryNumber, Json.EveryNumber.everyMember, optNat_skips, optText_skips,
    texts_skips, h.properties.skips]

theorem Relationship.Sendable.skips {rel : Relationship} (h : rel.Sendable) :
    rel.toJson.EveryNumber JsonNumber.Skips := by
  have hkey : ((rel.key.map RelKey.toJson).getD .null).EveryNumber JsonNumber.Skips := by
    cases rel.key with
    | none => trivial
    | some k => cases k <;> simp [RelKey.toJson, Json.EveryNumber, Json.EveryNumber.everyMember]
  simp [Relationship.toJson, Json.EveryNumber, Json.EveryNumber.everyMember, optNat_skips,
    h.source.skips, h.target.skips, h.properties.skips, hkey]

theorem Fragment.Sendable.skips {f : Fragment} (h : f.Sendable) :
    f.toJson.EveryNumber JsonNumber.Skips := by
  simp only [Fragment.toJson, Json.EveryNumber, Json.EveryNumber.everyMember,
    Json.EveryNumber.everyList_iff, List.forall_mem_map]
  refine ⟨fun nd hnd => (h.nodes nd hnd).skips, fun rel hrel => (h.rels rel hrel).skips,
    fun a ha => ?_, trivial⟩
  exact ⟨trivial, Value.Sendable.skips a.value (h.attributes a ha).value, trivial⟩

theorem Record.Sendable.skips {rec : Record} (h : rec.Sendable) :
    rec.toJson.EveryNumber JsonNumber.Skips := by
  simp [Record.toJson, Json.EveryNumber, Json.EveryNumber.everyMember, texts_skips, h.fields.skips]

end GraphIngest
