import Flowline.Registration.Format
import Flowline.Proofs.Json.Accepting
import Flowline.Proofs.Json.Reading

/-!
# Which registrations can be read

`Registration.IsAcceptable` says what a registration is like that has been read from a text: its
name and interval pass the checks, its numbers fit, and what is not looked into is sorted and not
too deep (`isAcceptable_of_ofGlyphs`). Such a registration is read back from what is written for it
(`reads_toJson`).
-/

namespace Flowline

open Json Text

/-! ## Reading what is written -/

namespace Json

theorem depth_ofTable_le {α : Type} {t : Table String α} {f : α → Json} {d : Nat}
    (h : ∀ e ∈ t.entries, (f e.2).depth ≤ d) : (ofTable f t).depth ≤ d + 1 := by
  rw [ofTable, depth_object_le, List.forall_mem_map]
  exact h

theorem depth_text_le (s : String) (d : Nat) : (text s).depth ≤ d := Nat.zero_le d

end Json

theorem FlowDefinition.reads_toJson (d : FlowDefinition) :
    FlowDefinition.reader.Reads 3 d.toJson d := by
  cases d with
  | text s =>
    exact (((reads_text s).map FlowDefinition.text).forms_head (depth_text_le s 0) _ _).mono
      (Nat.zero_le 3)
  | structured overall subStages =>
    have hstages : Reader.text.table.table.Reads 2 (.ofTable (Json.ofTable Json.text) subStages)
        subStages :=
      reads_table fun e _ => reads_table fun e' _ => reads_text e'.2
    have hdepth : (FlowDefinition.structured overall subStages).toJson.depth ≤ 3 := by
      rw [FlowDefinition.toJson, depth_object_le, List.forall_mem_cons, List.forall_mem_singleton]
      refine ⟨depth_text_le overall 2, depth_ofTable_le fun e _ => depth_ofTable_le fun e' _ => ?_⟩
      exact depth_text_le e'.2 0
    refine Reader.Reads.forms_tail (Reader.Reads.forms_head (Reader.Reads.map
      (a := (overall, subStages, ())) (reads_objectRecord _ rfl ?_) _) hdepth _ _) hdepth
      ((refuses_text_object _).map text)
    exact .present ((reads_text overall).mono (Nat.zero_le 2)) (.present hstages .nil)

namespace MappingSource

variable {α : Type}

theorem reads_toJson {r : Reader α} {f : α → Json} {d : Nat} {m : MappingSource α}
    (hreads : ∀ t, m = .table t → ∀ e ∈ t.entries, r.Reads d (f e.2) e.2)
    (hdepth : ∀ a, (f a).depth ≤ d) : (MappingSource.reader r).Reads (d + 1) (m.toJson f) m := by
  cases m with
  | text s =>
    exact (((reads_text s).map MappingSource.text).forms_head (depth_text_le s 0) _ _).mono
      (Nat.zero_le _)
  | table t =>
    have htable := (reads_table (hreads t rfl)).map MappingSource.table
    have hdepth := depth_ofTable_le (t := t) fun e _ => hdepth e.2
    exact (htable.forms_head hdepth _ _).forms_tail hdepth
      ((refuses_text_object _).map MappingSource.text)

end MappingSource

/-- Ids that 64 bits hold. -/
def OnPremIds.IsSmall (ids : OnPremIds) : Prop := IsInt64 ids.bpfId ∧ IsInt64 ids.processId

theorem OnPremIds.reads_toJson {ids : OnPremIds} (h : ids.IsSmall) :
    OnPremIds.reader.Reads 1 ids.toJson ids :=
  (reads_record "struct OnPremTarget" rfl
    (.present (reads_integer h.1.1 h.1.2 "i64")
    (.present (reads_integer h.2.1 h.2.2 "i64") .nil))).map _

theorem OnPremIds.depth_toJson_le (ids : OnPremIds) : ids.toJson.depth ≤ 1 := by
  rw [OnPremIds.toJson, depth_object_le, OnPremIds.toMembers]
  simp [Json.int, depth]

/-- All ids of the table, if there is one, are held by 64 bits. -/
def MappingSources.IsSmall (m : MappingSources) : Prop :=
  ∀ t, m.onPrem = .table t → ∀ e ∈ t.entries, e.2.IsSmall

theorem MappingSources.reads_toJson {m : MappingSources} (h : m.IsSmall) :
    MappingSources.reader.Reads 3 m.toJson m := by
  have haws : (MappingSource.reader Reader.text).Reads 2 (m.aws.toJson Json.text) m.aws :=
    (MappingSource.reads_toJson (fun t _ e _ => reads_text e.2)
      fun s => depth_text_le s 0).mono (by decide)
  have honPrem := MappingSource.reads_toJson (m := m.onPrem)
    (fun t ht e he => OnPremIds.reads_toJson (h t ht e he)) OnPremIds.depth_toJson_le
  exact (reads_record "struct StageMappings" rfl
    (.present haws (.present honPrem .nil))).map _

namespace Registration

/-- What a registration is like that has been read from a text. -/
structure IsAcceptable (r : Registration) : Prop where
  name : FlowName.IsValid r.flowName
  interval : ∀ n ∈ r.refreshInterval, n ≠ 0 ∧ n ≤ 0xFFFFFFFFFFFFFFFF
  /-- A registration and the object of its databases are two of the levels that may nest. -/
  databases : ∀ e ∈ r.databases.entries, IsOpaque ⟨false, 125⟩ e.2
  mappings : r.mappings.IsSmall

/-- The reader of registrations undoes the writer. -/
theorem reads_toJson {r : Registration} (h : r.IsAcceptable) :
    Registration.reader.Reads 127 r.toJson r := by
  obtain ⟨flowName, refreshInterval, databases, definition, mappings⟩ := r
  have hname : Reader.text.Reads 126 (.text flowName) flowName :=
    (reads_text flowName).mono (Nat.zero_le _)
  have hdatabases : Reader.any.table.Reads 126 (.object databases.entries) databases := by
    have hvalues : ∀ e ∈ databases.entries, Reader.any.Reads 125 (id e.2) e.2 := by
      intro e he mode hmode
      have hkept := h.databases e he
      have hdepth := hmode.mono (hkept.depth rfl)
      exact (opaqueValue_ofJson hdepth).trans (congrArg Except.ok hkept.sorted)
    have htable := reads_table hvalues
    rwa [show databases.entries.map (fun e => (e.1, id e.2)) = databases.entries from
      List.map_id _] at htable
  have hdefinition := definition.reads_toJson.mono (show 3 ≤ 126 by decide)
  have hmappings := (MappingSources.reads_toJson h.mappings).mono (show 3 ≤ 126 by decide)
  cases refreshInterval with
  | none =>
    exact (reads_record "struct FlowConfig" rfl
      (.present hname (.absent rfl (.present hdatabases
        (.present hdefinition (.present hmappings .nil)))))).map _
  | some n =>
    have hinterval : Reader.u64.optional.Reads 126 (.nat n) (some n) :=
      ((reads_natural (h.interval n rfl).2 "u64").mono (Nat.zero_le _)).optional
        (fun h => nomatch h)
    exact (reads_record "struct FlowConfig" rfl
      (.present hname (.present hinterval (.present hdatabases
        (.present hdefinition (.present hmappings .nil)))))).map _

/-! ## What has been read -/

theorem yields_onPremIds : OnPremIds.reader.Yields fun _ ids => ids.IsSmall := by
  refine came_record.map ?_
  rintro mode ⟨bpfId, processId, -⟩ ⟨inner, -, hbpf, hprocess, -⟩
  have hsmall : ∀ {n : Int}, ((none : Option Int) = some n ∨
      ∃ node : Node, node.IsScanned ∧ Reader.i64 inner node = .ok n) → IsInt64 n := by
    rintro n (h | ⟨node, hnode, h⟩)
    · cases h
    · exact yields_integer _ _ _ inner node n hnode h
  exact ⟨hsmall hbpf, hsmall hprocess⟩

theorem yields_mappings : MappingSources.reader.Yields fun _ m => m.IsSmall := by
  refine came_record.map ?_
  rintro mode ⟨aws, onPrem, _⟩ ⟨inner, -, -, honPrem, -⟩
  intro t ht
  cases ht
  rcases honPrem with h | ⟨node, hnode, h⟩
  · cases h
    exact fun e he => nomatch he
  · have htable : ∀ r ∈ [Reader.text.map MappingSource.text,
        OnPremIds.reader.table.map MappingSource.table],
          r.Yields fun _ (m : MappingSource OnPremIds) =>
            ∀ t, m = .table t → ∀ e ∈ t.entries, e.2.IsSmall := by
      rw [List.forall_mem_cons, List.forall_mem_singleton]
      refine ⟨yields_map_of_forall fun s t ht => (nomatch ht), yields_onPremIds.table.map ?_⟩
      rintro mode t h t' ht e he
      cases ht
      exact (h e he).choose_spec.2
    exact yields_forms htable inner node _ hnode h t rfl

theorem yields_registration {node : Node} {r : Registration} (hnode : node.IsScanned)
    (h : Registration.reader Mode.start node = .ok r) :
    (∀ n ∈ r.refreshInterval, n ≤ 0xFFFFFFFFFFFFFFFF) ∧
      (∀ e ∈ r.databases.entries, IsOpaque ⟨false, 125⟩ e.2) ∧ r.mappings.IsSmall := by
  obtain ⟨values, hvalues, rfl⟩ := map_eq_ok h
  obtain ⟨inner, henter, hcame⟩ := came_record Mode.start node values hnode hvalues
  cases henter
  obtain ⟨flowName, refreshInterval, databases, definition, mappings, _⟩ := values
  obtain ⟨-, hinterval, hdatabases, -, hmappings, -⟩ := hcame
  refine ⟨?_, ?_, ?_⟩
  · rcases hinterval with h | ⟨node, hnode, h⟩
    · cases h
      exact fun _ hn => nomatch hn
    · exact (yields_natural _ _).optional _ node _ hnode h
  · rcases hdatabases with h | ⟨node, hnode, h⟩
    · cases h
      exact fun _ he => nomatch he
    · intro e he
      obtain ⟨inner, henter, hkept⟩ := yields_any.table _ node _ hnode h e he
      cases henter
      exact hkept
  · rcases hmappings with h | ⟨node, hnode, h⟩
    · cases h
      intro t ht
      cases ht
      exact fun e he => nomatch he
    · exact yields_mappings _ node _ hnode h

end Registration

/-- A name passes the check if and only if it is one that a flow may have. -/
theorem FlowName.check_eq_ok_iff {name : String} :
    FlowName.check name = .ok () ↔ FlowName.IsValid name := by
  unfold FlowName.check FlowName.IsValid
  cases isBlankText name.toList with
  | true => simp
  | false => cases FlowName.isUnsafe name.toList <;> simp

namespace Registration

theorem check_eq_ok_iff {r : Registration} :
    r.check = .ok () ↔ FlowName.IsValid r.flowName ∧ r.refreshInterval ≠ some 0 := by
  unfold check
  cases hname : FlowName.check r.flowName with
  | error e =>
    have hnot : ¬ FlowName.IsValid r.flowName := by
      rw [← FlowName.check_eq_ok_iff, hname]
      exact fun h => nomatch h
    simp [bind, Except.bind, hnot]
  | ok u =>
    have hvalid : FlowName.IsValid r.flowName := FlowName.check_eq_ok_iff.1 hname
    by_cases hzero : r.refreshInterval = some 0
    · simp [bind, Except.bind, hzero, throw, throwThe, MonadExceptOf.throw]
    · simp [bind, Except.bind, hvalid, hzero, pure, Except.pure]

/-- What is read from a text is acceptable. -/
theorem isAcceptable_of_ofGlyphs {s : List Glyph} {r : Registration} (h : ofGlyphs s = .ok r) :
    r.IsAcceptable := by
  unfold ofGlyphs at h
  split at h
  · cases h
  · next r' hrun =>
    obtain ⟨u, hcheck, hr⟩ := bind_eq_ok h
    cases hr
    obtain ⟨a, hread, hrun⟩ := bind_eq_ok hrun
    split at hrun
    · cases hrun
    · cases hrun
      obtain ⟨hname, hzero⟩ := check_eq_ok_iff.1 hcheck
      obtain ⟨hinterval, hdatabases, hmappings⟩ := yields_registration (isScanned_scan s) hread
      exact ⟨hname, fun n hn => ⟨fun h => hzero (h ▸ hn), hinterval n hn⟩, hdatabases, hmappings⟩

/-- A text whose shape is that of an acceptable registration reads as that registration. -/
theorem ofGlyphs_eq_ok {r : Registration} (h : r.IsAcceptable) {s : List Glyph}
    (hs : Document.scan s = ⟨Node.ofJson r.toJson, false⟩) : ofGlyphs s = .ok r := by
  have hread := reads_toJson h Mode.start fun _ => Nat.le_refl _
  have hcheck : r.check = .ok () :=
    check_eq_ok_iff.2 ⟨h.name, fun hzero => (h.interval 0 hzero).1 rfl⟩
  have hrun : Registration.reader.run s = .ok r := by
    simp only [Reader.run, hs, hread, bind, Except.bind]
    rfl
  simp only [ofGlyphs, hrun, hcheck, bind, Except.bind]
  rfl

end Registration

end Flowline
