import Flowline.Proofs.Mapping.Lines
import Flowline.Registration

/-!
# Mappings as texts and as tables

A mapping is handed in as a text or as a table, and the two say the same: the text of a table that
can be written stands for that table, and the table of any text can be written
(`toMapping_texts_tables`).

* `isEntryLine_entryText`: the line of an entry is well formed, and `isIdPair_idsText` its value.
* `tableOf_tableText`: a table is read back if each of its entries is.
* `isAwsTable_parseAws`, `isOnPremTable_parseOnPrem`: what has been read can be written.
-/

namespace Flowline.Mapping

open Text

/-! ## The line of an entry -/

theorem isEntryLine_entryText {name value : String} (hname : IsName name) (hvalue : IsPart value) :
    IsEntryLine (entryText name value).toList name value.toList := by
  obtain ⟨⟨hne, htrimmed, -⟩, hcolon⟩ := hname
  obtain ⟨hne', htrimmed', -⟩ := hvalue
  have hnil : name.toList ≠ [] := fun h => hne (String.toList_eq_nil_iff.1 h)
  have hnil' : value.toList ≠ [] := fun h => hne' (String.toList_eq_nil_iff.1 h)
  have hline : (entryText name value).toList = name.toList ++ [':', ' '] ++ value.toList := by
    rw [entryText, String.toList_append, String.toList_append]
    rfl
  have hafter : trim (' ' :: value.toList) = value.toList :=
    (trim_cons rfl _).trans (trim_eq_self htrimmed')
  refine ⟨name.toList, ' ' :: value.toList, ?_, hcolon, trim_eq_self htrimmed, hafter, hne, hnil'⟩
  rw [hline, trim_eq_self (isTrimmed_append htrimmed hnil htrimmed' hnil'), List.append_assoc]
  rfl

theorem feed_notMem_entryText {name value : String} (hname : IsName name) (hvalue : IsPart value) :
    '\n' ∉ (entryText name value).toList := by
  have hbetween : '\n' ∉ ": ".toList := by decide
  rw [entryText, String.toList_append, String.toList_append, List.mem_append, List.mem_append]
  exact not_or.2 ⟨not_or.2 ⟨hname.1.2.2, hbetween⟩, hvalue.2.2⟩

/-! ## A pair of ids -/

theorem isTrimmed_integerText (n : Int) : IsTrimmed (integerText n).toList :=
  isTrimmed_of_forall fun c hc => by
    rcases mem_integerText hc with rfl | hdigit
    · rfl
    · exact isBlank_eq_false_of_isDigit hdigit

theorem notMem_integerText {c : Char} (hminus : c ≠ '-') (hdigit : c.isDigit = false) (n : Int) :
    c ∉ (integerText n).toList := by
  intro hc
  rcases mem_integerText hc with h | h
  · exact hminus h
  · rw [hdigit] at h
    cases h

theorem toList_integerText_ne_nil (n : Int) : (integerText n).toList ≠ [] := by
  rw [toList_integerText]
  exact List.append_ne_nil_of_right_ne_nil _ Nat.toDigits_ne_nil

theorem toList_idsText (ids : OnPremIds) : (idsText ids).toList =
    (integerText ids.bpfId).toList ++ [',', ' '] ++ (integerText ids.processId).toList := by
  rw [idsText, String.toList_append, String.toList_append]
  rfl

theorem isPart_idsText (ids : OnPremIds) : IsPart (idsText ids) := by
  have hfeed : '\n' ∉ [',', ' '] := by decide
  refine ⟨?_, ?_, ?_⟩
  · rw [ne_eq, ← String.toList_eq_nil_iff, toList_idsText]
    exact List.append_ne_nil_of_right_ne_nil _ (toList_integerText_ne_nil _)
  · rw [toList_idsText]
    exact isTrimmed_append (isTrimmed_integerText _) (toList_integerText_ne_nil _)
      (isTrimmed_integerText _) (toList_integerText_ne_nil _)
  · rw [toList_idsText, List.mem_append, List.mem_append]
    exact not_or.2 ⟨not_or.2 ⟨notMem_integerText (by decide) rfl _, hfeed⟩,
      notMem_integerText (by decide) rfl _⟩

theorem isIdPair_idsText {ids : OnPremIds} (hbpf : IsInt64 ids.bpfId)
    (hprocess : IsInt64 ids.processId) : IsIdPair (idsText ids).toList ids := by
  have hcomma : ∀ n : Int, ',' ∉ (integerText n).toList := notMem_integerText (by decide) rfl
  refine ⟨(integerText ids.bpfId).toList, ' ' :: (integerText ids.processId).toList, ?_, hcomma _,
    ?_, ?_, ?_⟩
  · rw [toList_idsText, List.append_assoc]
    rfl
  · exact List.not_mem_cons_of_ne_of_not_mem (by decide) (hcomma _)
  · rw [trim_eq_self (isTrimmed_integerText _)]
    exact ⟨isLiteral_integerText _, hbpf⟩
  · rw [trim_cons rfl, trim_eq_self (isTrimmed_integerText _)]
    exact ⟨isLiteral_integerText _, hprocess⟩

/-! ## The text of a table -/

theorem tableOf_tableText {α : Type} {entry : List Char → Option (String × α)}
    (hnil : entry [] = none) {write : α → String} {t : Table String α}
    (h : ∀ e ∈ t.entries, '\n' ∉ (entryText e.1 (write e.2)).toList ∧
      HasEntry entry (entryText e.1 (write e.2)).toList e.1 e.2) (ended : Bool) :
    tableOf entry (lines (tableText write ended t).toList) = t := by
  have hone : ∀ l ∈ t.entries.map fun e => entryText e.1 (write e.2), '\n' ∉ l.toList := by
    intro l hl
    obtain ⟨e, he, rfl⟩ := List.mem_map.1 hl
    exact (h e he).1
  have hread : ((t.entries.map fun e => entryText e.1 (write e.2)).map String.toList).filterMap
      entry = t.entries := by
    rw [List.map_map, List.filterMap_map]
    refine (List.filterMap_congr fun e he => (h e he).2).trans ?_
    exact List.filterMap_some
  unfold tableOf tableText
  rw [filterMap_lines_linesText hnil ended hone, hread, Table.ofList_entries]

theorem parseAws_awsText {t : Table String String} (h : IsAwsTable t) (ended : Bool) :
    parseAws (awsText ended t) = t := by
  have hnil : awsEntry? [] = none := rfl
  refine tableOf_tableText hnil (fun e he => ?_) ended
  obtain ⟨hname, hvalue⟩ := h e he
  exact ⟨feed_notMem_entryText hname hvalue,
    awsEntry?_eq_some_iff.2 (isEntryLine_entryText hname hvalue)⟩

theorem parseOnPrem_onPremText {t : Table String OnPremIds} (h : IsOnPremTable t) (ended : Bool) :
    parseOnPrem (onPremText ended t) = t := by
  have hnil : onPremEntry? [] = none := rfl
  refine tableOf_tableText hnil (fun e he => ?_) ended
  obtain ⟨hname, hbpf, hprocess⟩ := h e he
  exact ⟨feed_notMem_entryText hname (isPart_idsText e.2), onPremEntry?_eq_some_iff.2
    ⟨_, isEntryLine_entryText hname (isPart_idsText e.2), isIdPair_idsText hbpf hprocess⟩⟩

/-! ## What has been read -/

theorem isName_of_isEntryLine {line : List Char} {name : String} {value : List Char}
    (h : IsEntryLine line name value) (hline : '\n' ∉ line) : IsName name := by
  obtain ⟨before, after, hsplit, hcolon, hname, -, hne, -⟩ := h
  have hmem : ∀ c ∈ name.toList, c ∈ before := fun c hc => mem_of_mem_trim (hname ▸ hc)
  refine ⟨⟨hne, hname ▸ isTrimmed_trim before, fun hfeed => hline ?_⟩, fun hc => hcolon (hmem _ hc)⟩
  refine mem_of_mem_trim ?_
  rw [hsplit]
  exact List.mem_append_left _ (hmem _ hfeed)

theorem isPart_of_isEntryLine {line : List Char} {name value : String}
    (h : IsEntryLine line name value.toList) (hline : '\n' ∉ line) : IsPart value := by
  obtain ⟨before, after, hsplit, -, -, hvalue, -, hne⟩ := h
  refine ⟨fun hnil => hne (String.toList_eq_nil_iff.2 hnil), hvalue ▸ isTrimmed_trim after,
    fun hfeed => hline ?_⟩
  refine mem_of_mem_trim ?_
  rw [hsplit]
  exact List.mem_append_right _ (List.mem_cons_of_mem _ (mem_of_mem_trim (hvalue ▸ hfeed)))

/-- What is in the table of a text stands on one of its lines. -/
theorem exists_line_of_mem_tableOf {α : Type} {entry : List Char → Option (String × α)}
    {text : String} {e : String × α} (h : e ∈ (tableOf entry (lines text.toList)).entries) :
    ∃ line, '\n' ∉ line ∧ HasEntry entry line e.1 e.2 := by
  obtain ⟨line, hline, hentry⟩ := List.mem_filterMap.1 (Table.mem_of_mem_ofList h)
  exact ⟨line, not_mem_of_mem_splitOn hline, hentry⟩

theorem isAwsTable_parseAws (text : String) : IsAwsTable (parseAws text) := by
  intro e he
  obtain ⟨line, hline, hentry⟩ := exists_line_of_mem_tableOf he
  have hentry := awsEntry?_eq_some_iff.1 hentry
  exact ⟨isName_of_isEntryLine hentry hline, isPart_of_isEntryLine hentry hline⟩

theorem isOnPremTable_parseOnPrem (text : String) : IsOnPremTable (parseOnPrem text) := by
  intro e he
  obtain ⟨line, hline, hentry⟩ := exists_line_of_mem_tableOf he
  obtain ⟨value, hentry, _, _, -, -, -, hbpf, hprocess⟩ := onPremEntry?_eq_some_iff.1 hentry
  exact ⟨isName_of_isEntryLine hentry hline, hbpf.2, hprocess.2⟩

/-! ## Both forms of a mapping -/

/-- The text of a table that can be written stands for the table, and the table of any text can be
written, so that the text of that table stands for it too. -/
theorem toMapping_texts_tables (ended : Bool) :
    (∀ t onPrem, IsAwsTable t →
      MappingSources.toMapping ⟨.text (awsText ended t), onPrem⟩ =
        MappingSources.toMapping ⟨.table t, onPrem⟩) ∧
    (∀ aws t, IsOnPremTable t →
      MappingSources.toMapping ⟨aws, .text (onPremText ended t)⟩ =
        MappingSources.toMapping ⟨aws, .table t⟩) ∧
    ∀ aws onPrem, IsAwsTable (parse aws onPrem).aws ∧ IsOnPremTable (parse aws onPrem).onPrem ∧
      parse (awsText ended (parse aws onPrem).aws) (onPremText ended (parse aws onPrem).onPrem) =
        parse aws onPrem := by
  refine ⟨fun t onPrem h => ?_, fun aws t h => ?_, fun aws onPrem => ?_⟩
  · simp only [MappingSources.toMapping, MappingSource.toTable, parseAws_awsText h]
  · simp only [MappingSources.toMapping, MappingSource.toTable, parseOnPrem_onPremText h]
  · have haws := isAwsTable_parseAws aws
    have honPrem := isOnPremTable_parseOnPrem onPrem
    refine ⟨haws, honPrem, ?_⟩
    rw [parse, parse, parseAws_awsText haws, parseOnPrem_onPremText honPrem]

/-- A DAG id with colons in it, and ids at both ends of the range. -/
theorem toMapping_texts_tables_extremes :
    let aws : Table String String :=
      Table.ofList [("Calc", "dag:with: colons"), ("Stage 1", "x, y")]
    let onPrem : Table String OnPremIds :=
      Table.ofList [("BPF", ⟨0x7FFFFFFFFFFFFFFF, -0x8000000000000000⟩)]
    IsAwsTable aws ∧ IsOnPremTable onPrem ∧
      MappingSources.toMapping ⟨.text (awsText true aws), .text (onPremText true onPrem)⟩ =
        ⟨aws, onPrem⟩ := by
  intro aws onPrem
  have haws : IsAwsTable aws := by decide
  have honPrem : IsOnPremTable onPrem := by decide
  refine ⟨haws, honPrem, ?_⟩
  rw [(toMapping_texts_tables true).1 aws _ haws,
    (toMapping_texts_tables true).2.1 _ onPrem honPrem]
  rfl

end Flowline.Mapping
