import Flowline.Proofs.Except
import Flowline.Proofs.Text.Blank
import Flowline.Source.Database

/-!
# Table names in queries

The names of the tables come from the settings and become part of the texts of queries as they are,
so all depends on which names `checkTable` accepts.

* `isTable_iff`: the accepted names are one word, or two with a dot between them (`IsTableName`).
* `IsTableName.keepsForm`: a query with such a name is the bare query with some more word characters
  and at most one dot. So nothing in a name ends the place where it stands: no blank, quote or
  semicolon does, and no comment begins there.
* `accepts_tables`: both for the two queries of a source.
-/

namespace Flowline.Database

open Text

/-! ## The names -/

/-- A letter, a digit or an underscore of ASCII. -/
def IsWordChar (c : Char) : Prop :=
  ('a' ≤ c ∧ c ≤ 'z') ∨ ('A' ≤ c ∧ c ≤ 'Z') ∨ ('0' ≤ c ∧ c ≤ '9') ∨ c = '_'

/-- At least one word character, and no digit to begin with. -/
structure IsWord (s : List Char) : Prop where
  ne_nil : s ≠ []
  chars : ∀ c ∈ s, IsWordChar c
  head : ∀ c ∈ s.head?, ¬ ('0' ≤ c ∧ c ≤ '9')

/-- One word, or two with a dot between them. -/
inductive IsTableName : List Char → Prop where
  | table {name : List Char} (h : IsWord name) : IsTableName name
  | inSchema {schema name : List Char} (hschema : IsWord schema) (hname : IsWord name) :
      IsTableName (schema ++ '.' :: name)

theorem isDigit_iff {c : Char} : c.isDigit = true ↔ '0' ≤ c ∧ c ≤ '9' := Char.isDigit_iff_toNat

theorem isNameChar_iff {c : Char} : isNameChar c = true ↔ IsWordChar c := by
  have hupper : c.isUpper = true ↔ 'A' ≤ c ∧ c ≤ 'Z' := decide_eq_true_iff
  have hlower : c.isLower = true ↔ 'a' ≤ c ∧ c ≤ 'z' :=
    Bool.and_eq_true_iff.trans (and_congr decide_eq_true_iff decide_eq_true_iff)
  have hkinds : isNameChar c = (((c.isUpper || c.isLower) || c.isDigit) || c == '_') := rfl
  simp only [hkinds, Bool.or_eq_true, hupper, hlower, isDigit_iff, beq_iff_eq, IsWordChar]
  rw [or_assoc, or_assoc, or_left_comm]

theorem isName_iff {s : List Char} : isName s = true ↔ IsWord s := by
  have hhead : (!s.head?.any Char.isDigit) = true ↔ ∀ c ∈ s.head?, ¬ ('0' ≤ c ∧ c ≤ '9') := by
    cases s.head? with
    | none => simp
    | some c => simp [← isDigit_iff]
  rw [isName, Bool.and_eq_true, Bool.and_eq_true, hhead, List.all_eq_true]
  simp only [isNameChar_iff]
  constructor
  · rintro ⟨⟨hne, hchars⟩, hhead⟩
    exact ⟨by simpa using hne, hchars, hhead⟩
  · rintro ⟨hne, hchars, hhead⟩
    exact ⟨⟨by simpa using hne, hchars⟩, hhead⟩

theorem IsWord.dot_not_mem {s : List Char} (h : IsWord s) : '.' ∉ s :=
  fun hmem => absurd (isNameChar_iff.2 (h.chars '.' hmem)) (by decide)

theorem isTable_iff {name : String} : isTable name = true ↔ IsTableName name.toList := by
  simp only [isTable, Bool.and_eq_true, decide_eq_true_eq, List.all_eq_true, isName_iff]
  constructor
  · rintro ⟨hlength, hwords⟩
    have hjoin : ['.'].intercalate (name.toList.splitOn '.') = name.toList :=
      List.intercalate_splitOn '.'
    match hparts : name.toList.splitOn '.' with
    | [] => exact absurd hparts (List.splitOn_ne_nil _ _)
    | [part] =>
      rw [hparts, List.intercalate_singleton] at hjoin
      rw [← hjoin]
      exact .table (hwords part (hparts ▸ List.mem_cons_self))
    | [schema, part] =>
      obtain ⟨hname, -, -⟩ := splitOn_eq_pair_iff.1 hparts
      rw [hname]
      rw [hparts] at hwords
      exact .inSchema (hwords schema (by simp)) (hwords part (by simp))
    | _ :: _ :: _ :: _ =>
      rw [hparts] at hlength
      simp at hlength
  · intro h
    generalize name.toList = s at h
    cases h with
    | table h =>
      rw [List.splitOn_eq_singleton h.dot_not_mem]
      simpa using h
    | inSchema hschema hname =>
      rw [splitOn_eq_pair_iff.2 ⟨rfl, hschema.dot_not_mem, hname.dot_not_mem⟩]
      simpa using And.intro hschema hname

/-- No word is empty or begins with a digit, there are no three of them, and digits and letters
beyond ASCII do not count. -/
example : ["", ".", "a.", "1a", "a.b.c", "a; b", "é", "a٣"].any isTable = false := by decide

theorem checkTable_eq_ok_iff {name : String} :
    checkTable name = .ok () ↔ IsTableName name.toList := by
  rw [← isTable_iff, checkTable]
  split
  · next h => exact iff_of_true rfl h
  · next h => exact iff_of_false nofun h

theorem checked_eq_ok_iff {dagRuns stageStatuses : String} {tables : Tables} :
    Tables.checked dagRuns stageStatuses = .ok tables ↔
      IsTableName dagRuns.toList ∧ IsTableName stageStatuses.toList ∧
        tables = ⟨dagRuns, stageStatuses⟩ := by
  rw [← checkTable_eq_ok_iff, ← checkTable_eq_ok_iff]
  constructor
  · intro h
    obtain ⟨_, hdagRuns, h⟩ := bind_eq_ok h
    obtain ⟨_, hstageStatuses, h⟩ := bind_eq_ok h
    exact ⟨hdagRuns, hstageStatuses, (Except.ok.inj h).symm⟩
  · rintro ⟨hdagRuns, hstageStatuses, rfl⟩
    rw [Tables.checked, hdagRuns, hstageStatuses]
    rfl

/-! ## The queries -/

/-- A character that has no place in a table name. -/
def isForeign (c : Char) : Bool := !isNameChar c && c != '.'

/-- The quotes, the semicolon and the characters that begin and end comments. -/
def marks : List Char := ['\x27', '\x22', '\x60', ';', '-', '/', '*', '#']

/-- The text has no mark and no dot. -/
def IsClean (s : List Char) : Prop := ∀ c ∈ s, c ∉ marks ∧ c ≠ '.'

instance (s : List Char) : Decidable (IsClean s) :=
  List.decidableBAll (fun c => c ∉ marks ∧ c ≠ '.') s

/-- The query has the form of the bare one, which is the query without a name. -/
structure KeepsForm (bare query : List Char) : Prop where
  /-- Of all characters but word characters and dots it has those of the bare query, in order. -/
  foreign : query.filter isForeign = bare.filter isForeign
  /-- It has the blanks of the bare query. -/
  blanks : query.filter isBlank = bare.filter isBlank
  /-- It has no quote, no semicolon, and no comment. -/
  marks : ∀ c ∈ marks, c ∉ query
  /-- It has at most one dot, which stands between a schema and a table. -/
  dots : query.count '.' ≤ 1

/-- The codes of word characters lie between those of `0` and `z`. -/
theorem IsWordChar.toNat_bounds {c : Char} (h : IsWordChar c) : 48 ≤ c.toNat ∧ c.toNat ≤ 122 := by
  rcases h with ⟨hge, hle⟩ | ⟨hge, hle⟩ | ⟨hge, hle⟩ | rfl
  · exact ⟨Nat.le_trans (by decide) hge, hle⟩
  · exact ⟨Nat.le_trans (by decide) hge, Nat.le_trans hle (by decide)⟩
  · exact ⟨hge, Nat.le_trans hle (by decide)⟩
  · decide

/-- A blank has no place in a table name. -/
theorem isForeign_of_isBlank {c : Char} (h : isBlank c = true) : isForeign c = true := by
  simp only [isBlank, Bool.or_eq_true, Bool.and_eq_true, decide_eq_true_eq, beq_iff_eq] at h
  have hword : isNameChar c = false := by
    rw [← Bool.not_eq_true, isNameChar_iff]
    intro hword
    have hbounds := hword.toNat_bounds
    omega
  have hdot : c ≠ '.' := by
    rintro rfl
    simp at h
  simp [isForeign, hword, hdot]

theorem isForeign_of_mem_marks : ∀ c ∈ marks, isForeign c = true :=
  List.all_eq_true.1 (by decide)

theorem IsWord.isForeign_eq_false {s : List Char} (h : IsWord s) :
    ∀ c ∈ s, isForeign c = false := by
  intro c hc
  rw [isForeign, isNameChar_iff.2 (h.chars c hc)]
  rfl

namespace IsTableName

variable {name : List Char} (h : IsTableName name)
include h

theorem isForeign_eq_false : ∀ c ∈ name, isForeign c = false := by
  intro c hc
  cases h with
  | table h => exact h.isForeign_eq_false c hc
  | inSchema hschema hname =>
    rcases List.mem_append.1 hc with hc | hc
    · exact hschema.isForeign_eq_false c hc
    · rcases List.mem_cons.1 hc with rfl | hc
      · rfl
      · exact hname.isForeign_eq_false c hc

theorem count_dot_le : name.count '.' ≤ 1 := by
  cases h with
  | table h =>
    rw [List.count_eq_zero.2 h.dot_not_mem]
    exact Nat.zero_le 1
  | inSchema hschema hname =>
    rw [List.count_append, List.count_cons_self, List.count_eq_zero.2 hschema.dot_not_mem,
      List.count_eq_zero.2 hname.dot_not_mem]

/-- What is foreign to names is not added by one. -/
theorem filter_eq_nil {p : Char → Bool} (hp : ∀ c, p c = true → isForeign c = true) :
    name.filter p = [] := by
  refine List.filter_eq_nil_iff.2 fun c hc hpc => ?_
  have hforeign := hp c hpc
  rw [h.isForeign_eq_false c hc] at hforeign
  cases hforeign

/-- A table name between the parts of a clean text. -/
theorem keepsForm {front back : List Char} (hbare : IsClean (front ++ back)) :
    KeepsForm (front ++ back) (front ++ name ++ back) where
  foreign := by
    rw [List.filter_append, List.filter_append, h.filter_eq_nil fun _ hc => hc, List.append_nil,
      List.filter_append]
  blanks := by
    rw [List.filter_append, List.filter_append, h.filter_eq_nil fun _ => isForeign_of_isBlank,
      List.append_nil, List.filter_append]
  marks := by
    intro c hc hmem
    rw [List.mem_append, List.mem_append] at hmem
    rcases hmem with (hmem | hmem) | hmem
    · exact (hbare c (List.mem_append_left _ hmem)).1 hc
    · have hforeign := isForeign_of_mem_marks c hc
      rw [h.isForeign_eq_false c hmem] at hforeign
      cases hforeign
    · exact (hbare c (List.mem_append_right _ hmem)).1 hc
  dots := by
    have hnone : front.count '.' + back.count '.' = 0 := by
      rw [← List.count_append]
      exact List.count_eq_zero.2 fun hmem => (hbare '.' hmem).2 rfl
    have hname := h.count_dot_le
    rw [List.count_append, List.count_append]
    omega

end IsTableName

theorem keepsForm_splice {front table back : String} (h : IsTableName table.toList)
    (hfront : IsClean front.toList) (hback : IsClean back.toList) :
    KeepsForm (front ++ "" ++ back).toList (front ++ table ++ back).toList := by
  rw [String.append_empty, String.toList_append, String.toList_append, String.toList_append]
  refine h.keepsForm fun c hc => ?_
  rcases List.mem_append.1 hc with hc | hc
  · exact hfront c hc
  · exact hback c hc

theorem keepsForm_dagRunQuery {table : String} (h : IsTableName table.toList) :
    KeepsForm (dagRunQuery "").toList (dagRunQuery table).toList :=
  keepsForm_splice h (by decide +kernel) (by decide +kernel)

theorem keepsForm_stageStatusQuery {table : String} (h : IsTableName table.toList) :
    KeepsForm (stageStatusQuery "").toList (stageStatusQuery table).toList :=
  keepsForm_splice h (by decide +kernel) (by decide +kernel)

/-- Exactly the words and the pairs of words with a dot between them are accepted as names of
tables. Both names must be accepted, and each query keeps its form with its name: it has no foreign
character, no blank and no mark that is not in the text around the name, and no second dot. -/
theorem accepts_tables (dagRuns stageStatuses : String) :
    (checkTable dagRuns = .ok () ↔ IsTableName dagRuns.toList) ∧
    (∀ tables, Tables.checked dagRuns stageStatuses = .ok tables ↔
      IsTableName dagRuns.toList ∧ IsTableName stageStatuses.toList ∧
        tables = ⟨dagRuns, stageStatuses⟩) ∧
    ∀ tables, Tables.checked dagRuns stageStatuses = .ok tables →
      KeepsForm (dagRunQuery "").toList (dagRunQuery tables.dagRuns).toList ∧
      KeepsForm (stageStatusQuery "").toList (stageStatusQuery tables.stageStatuses).toList := by
  refine ⟨checkTable_eq_ok_iff, fun tables => checked_eq_ok_iff, fun tables h => ?_⟩
  obtain ⟨hdagRuns, hstageStatuses, rfl⟩ := checked_eq_ok_iff.1 h
  exact ⟨keepsForm_dagRunQuery hdagRuns, keepsForm_stageStatusQuery hstageStatuses⟩

/-- A schema in front of each table, a digit after the first letter or after an underscore. -/
theorem accepts_tables_schemas :
    let tables : Tables := ⟨"schema1.dag_run", "_9.Stage_Status"⟩
    Tables.checked tables.dagRuns tables.stageStatuses = .ok tables ∧
      KeepsForm (dagRunQuery "").toList (dagRunQuery tables.dagRuns).toList ∧
      KeepsForm (stageStatusQuery "").toList (stageStatusQuery tables.stageStatuses).toList := by
  intro tables
  have h : Tables.checked tables.dagRuns tables.stageStatuses = .ok tables := by decide
  exact ⟨h, (accepts_tables tables.dagRuns tables.stageStatuses).2.2 tables h⟩

end Flowline.Database
