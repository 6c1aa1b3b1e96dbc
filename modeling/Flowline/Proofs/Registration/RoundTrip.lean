import Flowline.Proofs.Json.Floats
import Flowline.Proofs.Registration.Acceptance
import Flowline.Proofs.Text.Utf8

/-!
# Registrations are read back from their text

An acceptable registration is read back as `Registration.reread`, in which every number of the
databases is what its text reads as (`ofGlyphs_compact`, `ofGlyphs_pretty`). Without floats that is
the registration itself, so whatever has been read from some bytes is read from the bytes that are
written for it (`ofGlyphs_written`).
-/

namespace Flowline

open Json Text

/-! ## Numbers of a registration -/

/-- The table with `f` applied to each value. -/
def Table.mapValues {κ α β : Type} (f : α → β) (t : Table κ α) : Table κ β where
  entries := t.entries.map fun e => (e.1, f e.2)
  keys_nodup := by
    rw [List.map_map]
    exact t.keys_nodup

namespace Registration

/-- The registration with the numbers of its databases as they are read from their text. -/
def reread (r : Registration) : Registration :=
  { r with databases := r.databases.mapValues (Json.mapNumbers Number.reread) }

/-- No number in the databases is a float. -/
def FloatFree (r : Registration) : Prop :=
  ∀ e ∈ r.databases.entries, ∀ n ∈ e.2.numbers, n.isInteger = true

instance (r : Registration) : Decidable r.FloatFree := inferInstanceAs (Decidable (∀ _ ∈ _, _))

end Registration

theorem isInteger64_of_isInt64 {n : Int} (h : IsInt64 n) : IsInteger64 n := by
  unfold IsInt64 at h
  unfold IsInteger64
  omega

theorem numbers_ofTable {α : Type} (f : α → Json) (t : Table String α) :
    (Json.ofTable f t).numbers = t.entries.flatMap fun e => (f e.2).numbers := by
  rw [Json.ofTable, numbers_object, List.flatMap_map]

theorem FlowDefinition.numbers_toJson (d : FlowDefinition) : d.toJson.numbers = [] := by
  cases d with
  | text s => exact numbers_text s
  | structured overall subStages => simp [FlowDefinition.toJson, numbers_ofTable]

/-- The numbers in what is written for mappings are integers that 64 bits hold. -/
theorem MappingSources.numbers_toJson {m : MappingSources} (h : m.IsSmall) {n : Number}
    (hn : n ∈ m.toJson.numbers) : ∃ i, n = .integer i ∧ IsInteger64 i := by
  obtain ⟨aws, onPrem⟩ := m
  have haws : (aws.toJson Json.text).numbers = [] := by
    cases aws with
    | text s => exact numbers_text s
    | table t => simp [MappingSource.toJson, numbers_ofTable]
  have hmem : n ∈ (onPrem.toJson OnPremIds.toJson).numbers := by
    simpa [MappingSources.toJson, haws] using hn
  cases onPrem with
  | text s => simp [MappingSource.toJson] at hmem
  | table t =>
    rw [MappingSource.toJson, numbers_ofTable] at hmem
    obtain ⟨e, he, hmem⟩ := List.mem_flatMap.1 hmem
    have hids : n = .integer e.2.bpfId ∨ n = .integer e.2.processId := by
      simpa [OnPremIds.toJson, OnPremIds.toMembers, Json.int] using hmem
    have hsmall := h t rfl e he
    rcases hids with rfl | rfl
    · exact ⟨_, rfl, isInteger64_of_isInt64 hsmall.1⟩
    · exact ⟨_, rfl, isInteger64_of_isInt64 hsmall.2⟩

namespace Registration

variable {r : Registration}

/-- The numbers in what is written for a registration are those of its databases and integers that
64 bits hold. -/
theorem numbers_toJson (h : r.IsAcceptable) {n : Number} (hn : n ∈ r.toJson.numbers) :
    (∃ i, n = .integer i ∧ IsInteger64 i) ∨ ∃ e ∈ r.databases.entries, n ∈ e.2.numbers := by
  rw [toJson, numbers_object] at hn
  simp only [List.flatMap_append, List.flatMap_cons, List.flatMap_nil, List.mem_append,
    numbers_text, FlowDefinition.numbers_toJson, List.append_nil, List.nil_append] at hn
  rcases hn with hn | hn | hn
  · cases hr : r.refreshInterval with
    | none => simp [hr, Json.memberIfSome] at hn
    | some k =>
      have hk := (h.interval k hr).2
      refine .inl ⟨k, by simpa [hr, Json.memberIfSome, Json.nat, Json.int] using hn, ?_⟩
      unfold IsInteger64
      omega
  · rw [numbers_object] at hn
    exact .inr (by simpa using hn)
  · exact .inl (MappingSources.numbers_toJson h.mappings hn)

/-- Replacing the numbers of what is written replaces those of the databases, as long as integers
that 64 bits hold stay. -/
theorem mapNumbers_toJson (h : r.IsAcceptable) :
    r.toJson.mapNumbers Number.reread = r.reread.toJson := by
  have hfix : ∀ n, (∃ i, n = .integer i ∧ IsInteger64 i) → Number.reread n = n := by
    rintro n ⟨i, rfl, hi⟩
    exact reread_integer hi
  have hdefinition : r.definition.toJson.mapNumbers Number.reread = r.definition.toJson :=
    mapNumbers_eq_self fun n hn => by simp [FlowDefinition.numbers_toJson] at hn
  have hmappings : r.mappings.toJson.mapNumbers Number.reread = r.mappings.toJson :=
    mapNumbers_eq_self fun n hn => hfix n (MappingSources.numbers_toJson h.mappings hn)
  have hinterval : (Json.memberIfSome "refreshInterval" Json.nat r.refreshInterval).map
      (mapNumbersBeside Number.reread) =
        Json.memberIfSome "refreshInterval" Json.nat r.refreshInterval := by
    cases hr : r.refreshInterval with
    | none => rfl
    | some k =>
      have hk := (h.interval k hr).2
      have hreread := hfix (.integer k) ⟨k, rfl, by unfold IsInteger64; omega⟩
      simp only [Json.memberIfSome, List.map_singleton, mapNumbersBeside, Json.nat, Json.int,
        mapNumbers, hreread]
  rw [toJson, mapNumbers_object, List.map_append, List.map_append, hinterval]
  simp only [List.map_cons, List.map_nil, mapNumbersBeside, hdefinition, hmappings,
    mapNumbers_object]
  rfl

theorem isReadable_toJson (h : r.IsAcceptable) : ∀ n ∈ r.toJson.numbers, n.IsReadable := by
  intro n hn
  rcases numbers_toJson h hn with ⟨i, rfl, hi⟩ | ⟨e, he, hn⟩
  · exact isReadable_integer hi
  · exact isReadable_of_isScanned ((h.databases e he).numbers n hn)

theorem IsAcceptable.reread (h : r.IsAcceptable) : r.reread.IsAcceptable where
  name := h.name
  interval := h.interval
  databases := by
    refine List.forall_mem_map.2 fun e he => (h.databases e he).mapNumbers fun n hn => ?_
    exact isScanned_reread (isReadable_of_isScanned ((h.databases e he).numbers n hn))
  mappings := h.mappings

/-- Without floats every number is read from its text as itself. -/
theorem reread_of_floatFree (h : r.IsAcceptable) (hfloat : r.FloatFree) : r.reread = r := by
  have hentries : r.databases.entries.map (mapNumbersBeside Number.reread) =
      r.databases.entries.map id := by
    refine List.map_congr_left fun e he => Prod.ext rfl (mapNumbers_eq_self fun n hn => ?_)
    obtain ⟨i, rfl⟩ := n.exists_eq_integer (hfloat e he n hn)
    exact reread_integer (isInteger64_of_isScanned ((h.databases e he).numbers _ hn))
  have hdatabases : r.databases.mapValues (Json.mapNumbers Number.reread) = r.databases :=
    Table.eq_of_entries (hentries.trans (List.map_id _))
  rw [reread, hdatabases]

/-! ## Reading back -/

/-- What is written without blanks is read back. -/
theorem ofGlyphs_compact (h : r.IsAcceptable) :
    ofGlyphs (Glyph.ofString r.toJson.compact) = .ok r.reread := by
  have hscan := scan_compact (isReadable_toJson h)
  rw [Node.reread, mapNumbers_toJson h] at hscan
  exact ofGlyphs_eq_ok h.reread hscan

/-- What is written over lines is read back. -/
theorem ofGlyphs_pretty (h : r.IsAcceptable) :
    ofGlyphs (Glyph.ofString r.toJson.pretty) = .ok r.reread := by
  have hscan := scan_pretty (isReadable_toJson h)
  rw [Node.reread, mapNumbers_toJson h] at hscan
  exact ofGlyphs_eq_ok h.reread hscan

/-- What has been read from bytes and holds no float is read again from the bytes that are written
for it, without blanks or over lines. -/
theorem ofGlyphs_written {bytes : List UInt8} {r : Registration}
    (h : ofGlyphs (Glyph.ofBytes bytes) = .ok r) (hfloat : r.FloatFree) {write : Json → String}
    (hwrite : write = Json.compact ∨ write = Json.pretty) :
    ∃ r', ofGlyphs (Glyph.ofBytes (write r.toJson).toUTF8.toList) = .ok r' ∧ r' = r ∧
      write r'.toJson = write r.toJson ∧ r'.spec = r.spec ∧ r'.mapping = r.mapping ∧
        r'.graph = r.graph := by
  have hacceptable := isAcceptable_of_ofGlyphs h
  have hself := reread_of_floatFree hacceptable hfloat
  refine ⟨r, ?_, rfl, rfl, rfl, rfl, rfl⟩
  rw [Glyph.ofBytes_toUTF8]
  rcases hwrite with rfl | rfl
  · exact (ofGlyphs_compact hacceptable).trans (congrArg Except.ok hself)
  · exact (ofGlyphs_pretty hacceptable).trans (congrArg Except.ok hself)

/-- Members in another order than they are written in, members of an opaque object that are not
sorted, escaped characters, the greatest interval and a structured definition. -/
theorem ofGlyphs_written_unsorted :
    let text := "\x7b\"databases\":\x7b\"b\":\x7b\"z\":[-1,\"\\u0001\"],\"a\":null\x7d,\"a\":1\x7d,"
      ++ "\"flowName\":\"\\u00e9\",\"refreshInterval\":18446744073709551615,"
      ++ "\"flowDefinition\":\x7b\"subStages\":\x7b\"AWS\":\x7b\"B\":\"x\"\x7d\x7d\x7d\x7d"
    let r : Registration := ⟨"é", some 18446744073709551615,
      .ofList
        [("b", .object [("a", .null), ("z", .list [.int (-1), .text "\x01"])]), ("a", .nat 1)],
      .structured "" (.ofList [("AWS", .ofList [("B", "x")])]), default⟩
    ofGlyphs (Glyph.ofBytes text.toUTF8.toList) = .ok r ∧ r.FloatFree ∧
      ∃ r', ofGlyphs (Glyph.ofBytes r.toJson.pretty.toUTF8.toList) = .ok r' ∧ r' = r ∧
        r'.toJson.pretty = r.toJson.pretty ∧ r'.spec = r.spec ∧ r'.mapping = r.mapping ∧
          r'.graph = r.graph := by
  intro text r
  have h : ofGlyphs (Glyph.ofBytes text.toUTF8.toList) = .ok r := by
    rw [Glyph.ofBytes_toUTF8, ← toOption_eq_some_iff]
    decide +kernel
  have hfloat : r.FloatFree := by decide +kernel
  exact ⟨h, hfloat, ofGlyphs_written h hfloat (.inr rfl)⟩

end Registration

end Flowline
