import Flowline.Proofs.Json.Accepting
import Flowline.Proofs.Status.Reading

/-!
# Which events are read back

`Event.IsProper` says what an event is like that has been read from a text. What is written for it
is not always read as the event, since the readers of times take only the years that have four
digits and no sign, and an offset can move a time out of them. If the time of the event is one of
these, the event cannot be read again; a time of a patch that is one of these counts as not
provided (`Event.reread`). Without floats nothing else is lost, so an event is read back if and only
if all its times have plain years (`Event.run_written_iff`).
-/

namespace Flowline

open Json Time

/-! ## What becomes of a change -/

/-- What is read from what is written for a change. -/
def TimeChange.reread : TimeChange → TimeChange
  | keep => keep
  | clear => clear
  | set t => if t.HasPlainYear then set t else keep

/-- The time that is set, if one is, has a plain year. -/
def TimeChange.HasPlainYear (c : TimeChange) : Prop := ∀ t, c = .set t → t.HasPlainYear

theorem TimeChange.reread_eq_self_iff {c : TimeChange} : c.reread = c ↔ c.HasPlainYear := by
  cases c with
  | keep => simp [reread, HasPlainYear]
  | clear => simp [reread, HasPlainYear]
  | set t => by_cases h : t.HasPlainYear <;> simp [reread, HasPlainYear, h]

namespace Patch

def reread (p : Patch) : Patch :=
  { p with startTime := p.startTime.reread, endTime := p.endTime.reread }

/-- Both times have plain years. -/
def HasPlainYears (p : Patch) : Prop := p.startTime.HasPlainYear ∧ p.endTime.HasPlainYear

theorem reread_eq_self_iff {p : Patch} : p.reread = p ↔ p.HasPlainYears := by
  obtain ⟨status, startTime, endTime, details⟩ := p
  simp [reread, HasPlainYears, TimeChange.reread_eq_self_iff]

end Patch

namespace Event

/-- What is read from what is written for an event. -/
def reread (e : Event) : Event := { e with stages := e.stages.mapValues Patch.reread }

/-- The times of all patches have plain years. -/
def HasPlainPatches (e : Event) : Prop := ∀ entry ∈ e.stages.entries, entry.2.HasPlainYears

theorem reread_eq_self_iff {e : Event} : e.reread = e ↔ e.HasPlainPatches := by
  obtain ⟨flowName, timestamp, stages⟩ := e
  simp only [reread, HasPlainPatches, Event.mk.injEq, true_and, NameMap.mapValues_eq_self_iff,
    Patch.reread_eq_self_iff]

end Event

/-! ## Reading what is written -/

/-- The time that is set, if one is, is proper. -/
def TimeChange.IsProper (c : TimeChange) : Prop := ∀ t, c = .set t → t.IsProper

/-- A change spells what is read from it: nothing, `null` or a text. -/
theorem TimeChange.spelled {c : TimeChange} (h : c.IsProper) (name : String) {d : Nat}
    {αs : List Type} {rest : Fields αs} {members : List (String × Json)} {values : Values αs}
    (hrest : rest.Spelled d members values) :
    (Fields.cons (.withDefault name TimeChange.reader .keep) rest).Spelled d
      (c.toMember name ++ members) (c.reread, values) := by
  cases c with
  | keep => exact .absent rfl hrest
  | clear => exact .present (fun _ _ => rfl) hrest
  | set t =>
    have hraw : TimeChange.ofRaw (some t.text) = (TimeChange.set t).reread := by
      have htext := timestamp?_text (h t rfl)
      by_cases hplain : t.HasPlainYear
      · rw [if_pos hplain] at htext
        simp only [ofRaw, htext, reread, hplain, if_true]
      · rw [if_neg hplain] at htext
        simp only [ofRaw, htext, reread, hplain, if_false]
    have hread := ((reads_text t.text).optional fun hnull => nomatch hnull).map TimeChange.ofRaw
    rw [hraw] at hread
    exact .present (hread.mono (Nat.zero_le d)) hrest

/-- The times are proper, and the details can be kept and nest no deeper than `d`. -/
structure Patch.IsProper (d : Nat) (p : Patch) : Prop where
  startTime : p.startTime.IsProper
  endTime : p.endTime.IsProper
  details : ∀ m ∈ p.details, IsKept m ∧ ∀ e ∈ m.entries, e.2.depth ≤ d

theorem Patch.reads_toJson {p : Patch} {d : Nat} (h : p.IsProper d) :
    Patch.reader.Reads (d + 2) p.toJson p.reread := by
  have hstatus : ∀ s ∈ p.status, Status.reader.Reads (d + 1) s.toJson s ∧ s.toJson ≠ .null :=
    fun s _ => ⟨s.reads_toJson.mono (Nat.zero_le _), nofun⟩
  have hdetails : ∀ m ∈ p.details,
      Reader.anyMap.Reads (d + 1) (.ofNameMap m) m ∧ Json.ofNameMap m ≠ .null :=
    fun m hm => ⟨reads_anyMap (fun e he => ((h.details m hm).1 e he).1) (h.details m hm).2, nofun⟩
  have hmembers := reads_record "struct StatusPatch" rfl
    (spelled_memberIfSome "status" hstatus (TimeChange.spelled h.startTime "start_time"
    (TimeChange.spelled h.endTime "end_time" (spelled_memberIfSome "details" hdetails .nil))))
  rw [List.append_nil] at hmembers
  rw [toJson, List.append_assoc, List.append_assoc]
  exact hmembers.map _

theorem Patch.IsProper.isIntegral {p : Patch} {d : Nat} (h : p.IsProper d) :
    p.toJson.IsIntegral := by
  have hchange : ∀ name (c : TimeChange), ∀ e ∈ c.toMember name, e.2.IsIntegral := by
    intro name c
    cases c with
    | keep => exact List.forall_mem_nil _
    | clear => simp [TimeChange.toMember, isIntegral_null]
    | set t => simp [TimeChange.toMember, Instant.toJson, isIntegral_text]
  simp only [toJson, isIntegral_object, List.forall_mem_append]
  exact ⟨⟨⟨isIntegral_memberIfSome fun _ _ => isIntegral_text _, hchange _ _⟩, hchange _ _⟩,
    isIntegral_memberIfSome fun m hm => (h.details m hm).1.isIntegral⟩

namespace Event

/-- What an event is like that has been read from a text without floats. An event, the object of
its patches, a patch and its details are four of the levels that may nest. -/
structure IsProper (e : Event) : Prop where
  timestamp : e.timestamp.IsProper
  stages : ∀ entry ∈ e.stages.entries, entry.2.IsProper 123

theorem IsProper.isIntegral {e : Event} (h : e.IsProper) : e.toJson.IsIntegral := by
  have hstages : (Json.ofMap Patch.toJson e.stages).IsIntegral :=
    isIntegral_object.2 (List.forall_mem_map.2 fun entry he => (h.stages entry he).isIntegral)
  simp only [toJson, isIntegral_object, List.forall_mem_cons]
  exact ⟨isIntegral_text _, isIntegral_text _, hstages, List.forall_mem_nil _⟩

theorem read_timestamp {t : Instant} (h : t.IsProper) (mode : Mode) :
    eventTimeReader mode (Node.ofJson t.toJson) =
      if t.HasPlainYear then .ok t else mismatch (.invalidTimestamp t.text) := by
  have htext := timestamp?_text h
  by_cases hplain : t.HasPlainYear
  · rw [if_pos hplain] at htext
    simp only [eventTimeReader, Instant.toJson, Reader.text, readText?, Node.ofJson, Token.good,
      Break.fault, Option.getD_some, bind, Except.bind, htext, hplain, if_true]
    rfl
  · rw [if_neg hplain] at htext
    simp only [eventTimeReader, Instant.toJson, Reader.text, readText?, Node.ofJson, Token.good,
      Break.fault, Option.getD_some, bind, Except.bind, htext, hplain, if_false]

/-- The fields of an event that is read at the time `now`. -/
def fields (now : Instant) : Json.Fields [String, Instant, Patches] :=
  .cons ⟨"flowName", ["flow_name"], Reader.text, none⟩
    (.cons (.withDefault "timestamp" eventTimeReader now)
    (.cons ⟨"stages", ["status"], Patches.reader, some NameMap.empty⟩ .nil))

/-- An event is read as `reread` says, unless its own time has no plain year. -/
theorem read_toJson {e : Event} (h : e.IsProper) (now : Instant) :
    Event.reader now Mode.start (Node.ofJson e.toJson) =
      if e.timestamp.HasPlainYear then .ok e.reread
      else mismatch (.invalidTimestamp e.timestamp.text) := by
  have htime := read_timestamp h.timestamp
  by_cases hplain : e.timestamp.HasPlainYear
  · have hread : eventTimeReader.Reads 126 e.timestamp.toJson e.timestamp :=
      fun mode _ => (htime mode).trans (if_pos hplain)
    have hstages : Patches.reader.Reads 126 (.ofMap Patch.toJson e.stages)
        (e.stages.mapValues Patch.reread) :=
      reads_nameMap_mapValues fun entry he => Patch.reads_toJson (h.stages entry he)
    have hspelled : (fields now).Spelled 126 [("flowName", .text e.flowName),
        ("timestamp", e.timestamp.toJson), ("stages", .ofMap Patch.toJson e.stages)]
          (e.flowName, e.timestamp, e.stages.mapValues Patch.reread, ()) :=
      .present ((reads_text e.flowName).mono (Nat.zero_le _))
        (.present hread (.present hstages .nil))
    rw [if_pos hplain]
    exact (reads_record "struct StatusEvent" rfl hspelled).map _ Mode.start fun _ => Nat.le_refl 127
  · rw [if_neg hplain]
    have henter : Mode.start.enter = .ok ⟨false, 126⟩ := rfl
    -- The flow name is read; then the time of the event is refused.
    have hfault := (htime ⟨false, 126⟩).trans (if_neg hplain)
    have hname : (fields now).fill "flowName" ⟨false, 126⟩ (Node.ofJson (.text e.flowName))
        (fields now).noSlots = some (.ok (some e.flowName, none, none, ())) := by
      simp only [fields, Fields.fill, Field.goesBy, decide_true, Bool.true_or, if_true]
      rfl
    have htimestamp : (fields now).fill "timestamp" ⟨false, 126⟩ (Node.ofJson e.timestamp.toJson)
        (some e.flowName, none, none, ()) =
          some (mismatch (.invalidTimestamp e.timestamp.text)) := by
      simp [fields, Fields.fill, Field.goesBy, Field.withDefault, hfault]
      rfl
    have hmembers : Node.ofJson e.toJson = .object
        (.member (.good "flowName") (Node.ofJson (.text e.flowName))
        (.member (.good "timestamp") (Node.ofJson e.timestamp.toJson)
        (Members.ofList [("stages", .ofMap Patch.toJson e.stages)]))) := rfl
    show (Reader.map _ (Reader.record "struct StatusEvent" (fields now))) _ _ = _
    rw [hmembers]
    simp only [Reader.map, Reader.record, Reader.objectRecord, henter, Fields.readMembers,
      Token.good, Break.fault, hname, htimestamp, bind, Except.bind]
    rfl

end Event

/-! ## What has been read -/

theorem TimeChange.isProper_ofRaw (raw : Option String) : (TimeChange.ofRaw raw).IsProper := by
  intro t ht
  cases raw with
  | none => cases ht
  | some raw =>
    rw [ofRaw] at ht
    split at ht
    · next t' hraw =>
      cases ht
      exact isProper_of_timestamp? hraw
    · cases ht

/-- What a patch is like that has been read: its times are proper, and its details lie two levels
below it. -/
theorem yields_patch : Patch.reader.Yields fun mode p => p.startTime.IsProper ∧
    p.endTime.IsProper ∧ ∀ m ∈ p.details, ∀ e ∈ m.entries, ∃ inner value,
      mode.enter = .ok inner ∧ inner.enter = .ok value ∧ IsOpaque value e.2 := by
  refine came_record.map ?_
  rintro mode ⟨status, startTime, endTime, details, _⟩ ⟨inner, henter, -, hstart, hend, hdetails, -⟩
  have hchange : ∀ {c : TimeChange}, (some TimeChange.keep = some c ∨
      ∃ node : Node, node.IsScanned ∧ TimeChange.reader inner node = .ok c) → c.IsProper := by
    rintro c (h | ⟨node, hnode, h⟩)
    · cases h
      exact fun _ ht => nomatch ht
    · exact yields_map_of_forall TimeChange.isProper_ofRaw inner node c hnode h
  refine ⟨hchange hstart, hchange hend, fun m hm e he => ?_⟩
  rcases hdetails with h | ⟨node, hnode, h⟩
  · cases h
    cases hm
  · obtain ⟨value, hvalue, hwhole⟩ :=
      (yields_any.nameMap).optional inner node details hnode h m hm e he
    exact ⟨inner, value, henter, hvalue, hwhole⟩

theorem yields_eventTime : eventTimeReader.Yields fun _ t => t.IsProper := by
  intro mode node t _ h
  obtain ⟨raw, -, h⟩ := bind_eq_ok h
  split at h
  · next t' hraw =>
    cases h
    exact isProper_of_timestamp? hraw
  · cases h

/-- A value that has been read whole can be kept if no number in it is a float. -/
theorem isIntegral_of_isOpaque {mode : Mode} {j : Json} (h : IsOpaque mode j)
    (hfloat : ∀ n ∈ j.numbers, n.isInteger = true) : j.IsIntegral := by
  intro n hn
  obtain ⟨i, rfl⟩ := n.exists_eq_integer (hfloat n hn)
  exact isInteger64_of_isScanned (h.numbers _ hn)

/-- No number in the details is a float. -/
def Patch.FloatFree (p : Patch) : Prop :=
  ∀ m ∈ p.details, ∀ detail ∈ m.entries, ∀ n ∈ detail.2.numbers, n.isInteger = true

instance (p : Patch) : Decidable p.FloatFree := Option.decidableForallMem p.details

namespace Event

/-- No number in the details of the patches is a float. -/
def FloatFree (e : Event) : Prop := ∀ entry ∈ e.stages.entries, entry.2.FloatFree

instance (e : Event) : Decidable e.FloatFree := inferInstanceAs (Decidable (∀ _ ∈ _, _))

/-- What is read from a text at a proper time is proper, if it holds no float. -/
theorem isProper_of_run {s : List Text.Glyph} {now : Instant} {e : Event}
    (h : (Event.reader now).run s = .ok e) (hnow : now.IsProper) (hfloat : e.FloatFree) :
    e.IsProper := by
  obtain ⟨e', hread, hrun⟩ := bind_eq_ok h
  have he : e' = e := by
    split at hrun
    · cases hrun
    · exact Except.ok.inj hrun
  subst he
  obtain ⟨values, hvalues, hvalue⟩ := map_eq_ok hread
  obtain ⟨inner, henter, hcame⟩ :=
    came_record Mode.start _ values (isScanned_scan s) hvalues
  cases henter
  obtain ⟨flowName, timestamp, stages, _⟩ := values
  subst hvalue
  obtain ⟨-, htimestamp, hstages, -⟩ := hcame
  constructor
  · rcases htimestamp with h | ⟨node, hnode, h⟩
    · cases h
      exact hnow
    · exact yields_eventTime _ node timestamp hnode h
  · intro entry hentry
    rcases hstages with h | ⟨node, hnode, h⟩
    · cases h
      cases hentry
    · obtain ⟨inner, henter, hstart, hend, hdetails⟩ :=
        yields_patch.nameMap _ node stages hnode h entry hentry
      cases henter
      refine ⟨hstart, hend, fun m hm => ⟨fun e he => ?_, fun e he => ?_⟩⟩
      · obtain ⟨inner, value, -, -, hwhole⟩ := hdetails m hm e he
        exact ⟨hwhole.sorted, isIntegral_of_isOpaque hwhole (hfloat entry hentry m hm e he)⟩
      · obtain ⟨inner, value, henter, hvalue, hwhole⟩ := hdetails m hm e he
        cases henter
        cases hvalue
        exact hwhole.depth rfl

/-- An event without floats that has been read from a text is written so that its own time is
refused if its year is not plain. Otherwise it is read with the times that have other years left
out. So it is read back if and only if all its times have plain years. -/
theorem run_written_iff {s : List Text.Glyph} {now : Instant} {e : Event}
    (h : (Event.reader now).run s = .ok e) (hnow : now.IsProper) (hfloat : e.FloatFree)
    {write : Json → String} (hwrite : write = Json.compact ∨ write = Json.pretty)
    (later : Instant) :
    (Event.reader later).run (Text.Glyph.ofBytes (write e.toJson).toUTF8.toList) =
        (if e.timestamp.HasPlainYear then .ok e.reread
          else .error (.mismatch (.invalidTimestamp e.timestamp.text))) ∧
      ((Event.reader later).run (Text.Glyph.ofBytes (write e.toJson).toUTF8.toList) = .ok e ↔
        e.timestamp.HasPlainYear ∧ e.HasPlainPatches) := by
  have hproper := isProper_of_run h hnow hfloat
  have hrun := (hproper.isIntegral.run_written hwrite (Event.reader later)).trans
    (read_toJson hproper later)
  refine ⟨hrun, ?_⟩
  rw [hrun]
  by_cases hplain : e.timestamp.HasPlainYear
  · simp only [hplain, if_true, true_and, Except.ok.injEq, reread_eq_self_iff]
  · simp [hplain, mismatch]

/-- One time is read back, one is cleared, and one has left the years of four digits by its
offset, so that nothing is left of it. -/
theorem run_written_iff_offset :
    let text := "\x7b\"flowName\":\"é\",\"timestamp\":\" 2025-3-7 08:20:00\",\"status\":\x7b"
      ++ "\"a\":\x7b\"status\":\"SUCCESS\",\"start_time\":\"2016-12-31T23:59:60.5Z\","
      ++ "\"end_time\":null,\"details\":\x7b\"k\":[-1]\x7d\x7d,"
      ++ "\"b\":\x7b\"end_time\":\"9999-12-31T23:59:00-01:00\"\x7d\x7d\x7d"
    let leap : Instant := ⟨17166, 86399, 1500000000, by decide, by decide⟩
    let late : Instant := ⟨2932897, 3540, 0, by decide, by decide⟩
    let e : Event := ⟨"é", ⟨20154, 30000, 0, by decide, by decide⟩, .ofList
      [("a", ⟨some .completed, .set leap, .clear,
          some (.ofList [("k", .list [.int (.negSucc 0)])])⟩),
        ("b", ⟨none, .keep, .set late, none⟩)]⟩
    let written := Text.Glyph.ofBytes e.toJson.compact.toUTF8.toList
    ((Event.reader default).run (Text.Glyph.ofBytes text.toUTF8.toList) = .ok e ∧
      (default : Instant).IsProper ∧ e.FloatFree) ∧
      ((Event.reader default).run written =
          (if e.timestamp.HasPlainYear then .ok e.reread
            else .error (.mismatch (.invalidTimestamp e.timestamp.text))) ∧
        ((Event.reader default).run written = .ok e ↔
          e.timestamp.HasPlainYear ∧ e.HasPlainPatches)) ∧
      e.timestamp.HasPlainYear ∧ e.reread ≠ e := by
  intro text leap late e written
  have h : (Event.reader default).run (Text.Glyph.ofBytes text.toUTF8.toList) = .ok e := by
    rw [Text.Glyph.ofBytes_toUTF8, ← toOption_eq_some_iff, Text.Glyph.ofString,
      String.toList_append, String.toList_append, String.toList_append]
    rw [String.toList_ofList, String.toList_ofList, String.toList_ofList, String.toList_ofList]
    decide +kernel
  have hnow : (default : Instant).IsProper := by decide +kernel
  have hfloat : e.FloatFree := by decide +kernel
  exact ⟨⟨h, hnow, hfloat⟩, run_written_iff h hnow hfloat (.inl rfl) default, by decide +kernel,
    by decide +kernel⟩

/-- Not every event without floats that has been read from a text is read back: this one happened
half an hour before the year 0000. -/
theorem not_run_written_event : ¬ ∀ (s : List Text.Glyph) (now : Instant) (e : Event),
    (Event.reader now).run s = .ok e → e.FloatFree →
      (Event.reader now).run (Text.Glyph.ofBytes e.toJson.compact.toUTF8.toList) = .ok e := by
  intro hall
  let text := "\x7b\"flowName\":\"F\",\"timestamp\":\"0000-01-01T00:30:00+01:00\","
    ++ "\"stages\":\x7b\x7d\x7d"
  let e : Event := ⟨"F", { day := -719529, second := 84600, nano := 0 }, NameMap.empty⟩
  have h : (Event.reader default).run (Text.Glyph.ofString text) = .ok e := by
    rw [← toOption_eq_some_iff]
    decide +kernel
  have hback := hall _ default e h (by decide +kernel)
  rw [Text.Glyph.ofBytes_toUTF8, ← toOption_eq_some_iff] at hback
  revert hback
  decide +kernel

end Event

end Flowline
