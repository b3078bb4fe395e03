import Mathlib
import GraphIngest.Proofs.Graph.SerialReading

/-! # Opening what was sealed

A parcel is the text `{"version":1,"payload":…}`. Opening it reads the whole text twice: first as
a header, taking the version and passing over the payload, then as the envelope, reading the
payload. So a sealed payload whose numbers the skipper passes over opens to what its reader reads
(`unwrap_wrap`), and a text whose version is not 1 is refused as a fault of the codec before its
payload is read (`unwrap_refused`). For what crosses, records come back field for field without
their supplies and fragments come back as they were (`open_sealed`).
-/

namespace GraphIngest

namespace Parcel

open Typed

theorem wrap_eq (j : Json) :
    wrap j = (Json.obj [("version", .num (.nat version)), ("payload", j)]).compact := rfl

theorem reads_header (j : Json) (hj : j.EveryNumber JsonNumber.Skips) :
    Reads header (Json.obj [("version", .num (.nat version)), ("payload", j)]) version 2 := by
  unfold header
  apply reads_record (n := 1)
  · apply FieldsRead.declared (by decide) rfl
    · exact (reads_natUpTo _ (by decide) (by decide) _).map _
    apply FieldsRead.unknown (by decide) hj
    exact fieldsRead_nil.2 rfl
  · intro c
    exact moves_pure rfl _
  · omega

theorem reads_body {payload : Typed α} {j : Json} {a : α} {n : Nat} (h : Reads payload j a n)
    (hn : 1 ≤ n) :
    Reads (body payload) (Json.obj [("version", .num (.nat version)), ("payload", j)]) a (n + 1) := by
  unfold body
  apply reads_record (n := n)
  · apply FieldsRead.declared (by decide) rfl
    · exact (reads_natUpTo _ (by decide) (by decide) _).map _
    apply FieldsRead.declared (by decide) rfl
    · exact h.map _
    exact fieldsRead_nil.2 rfl
  · intro c
    exact moves_pure rfl _
  · exact hn

/-- A sealed payload opens to what its reader reads, when the skipper passes over its numbers and
its reader needs at most 127 levels, one being taken by the envelope. -/
theorem unwrap_wrap {payload : Typed α} {j : Json} {a : α} {n : Nat} (h : Reads payload j a n)
    (hn : 1 ≤ n) (hdepth : n ≤ 127) (hj : j.EveryNumber JsonNumber.Skips) :
    unwrap (wrap j) payload = .ok a := by
  rw [unwrap, wrap_eq, whole_reads (reads_header j hj) (by omega),
    whole_reads (reads_body h hn) (by omega)]
  rfl

theorem unwrap_refused {bytes : String} (payload : Typed α)
    (hv : ∀ v, whole header bytes = .ok v → v ≠ version) :
    ∃ text, unwrap bytes payload = .error (.codec text) := by
  unfold unwrap
  cases hh : whole header bytes with
  | error e => exact ⟨e.message, by simp [Except.mapError, bind, Except.bind]⟩
  | ok v =>
    refine ⟨s!"parcel version {v} is not supported (expected {version})", ?_⟩
    simp [Except.mapError, bind, Except.bind, hv v hh, throw, throwThe, MonadExceptOf.throw]

theorem openRecords_sealRecords (rs : List Record) (h : ∀ r ∈ rs, r.Sendable) :
    openRecords (sealRecords rs) = .ok (rs.map fun r => { r with supplies := [] }) := by
  -- the serial form leaves the supplies out, so it is that of the records without them
  have hjson : rs.map Record.toJson = (rs.map fun r => { r with supplies := [] }).map Record.toJson := by
    simp [Function.comp_def, Record.toJson]
  have hread : Reads (seq record) (.arr (rs.map Record.toJson)) (rs.map fun r => { r with supplies := [] })
      (Value.nestingLimit + 4) := by
    rw [hjson]
    refine reads_seq _ (fun r hr => ?_) (by decide) _
    obtain ⟨r₀, hr₀, rfl⟩ := List.mem_map.mp hr
    exact reads_record_toJson _ ⟨(h r₀ hr₀).fields⟩
  have hskip : (Json.arr (rs.map Record.toJson)).EveryNumber JsonNumber.Skips := by
    simp only [Json.EveryNumber, Json.EveryNumber.everyList_iff, List.forall_mem_map]
    exact fun r hr => (h r hr).skips
  exact unwrap_wrap hread (by decide) (by decide) hskip

theorem openFragment_sealFragment (f : Fragment) (h : f.Sendable) :
    openFragment (sealFragment f) = .ok f :=
  unwrap_wrap (reads_fragment f h) (by decide) (by decide) h.skips

end Parcel

end GraphIngest
