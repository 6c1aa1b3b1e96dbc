import Flowline.Mapping.Writing
import Flowline.Proofs.Maps
import Flowline.Proofs.Text.Blank
import Flowline.Proofs.Text.Integer
import Mathlib.Data.Nat.Find

/-!
# What the lines of a mapping text say

A line is well formed for a name if it splits at its first colon into that name and a value
(`IsEntryLine`) and the value is one of its table: anything for the cloud (`IsAwsLine`), two ids
with one comma for the premises (`IsOnPremLine`). The table of a text is what its well-formed lines
say (`ReadsLines`): names in the order of their first lines, with the values of their last ones. All
other lines might as well not be there.

The two tables are read alike, so what is said about lines is proved for the table that any reader
of single lines makes (`tableOf`), by induction on the lines, the last one first.
-/

namespace Flowline.Mapping

open Text

variable {α : Type}

/-! ## Well-formed lines -/

/-- Around the first colon stand, apart from blanks, a name and a value, neither empty. -/
def IsEntryLine (line : List Char) (name : String) (value : List Char) : Prop :=
  ∃ before after, trim line = before ++ ':' :: after ∧ ':' ∉ before ∧
    trim before = name.toList ∧ trim after = value ∧ name ≠ "" ∧ value ≠ []

/-- Around the only comma stand, apart from blanks, literals of two ids that 64 bits hold. -/
def IsIdPair (value : List Char) (ids : OnPremIds) : Prop :=
  ∃ before after, value = before ++ ',' :: after ∧ ',' ∉ before ∧ ',' ∉ after ∧
    (IsLiteral (trim before) ids.bpfId ∧ IsInt64 ids.bpfId) ∧
    IsLiteral (trim after) ids.processId ∧ IsInt64 ids.processId

/-- The line gives the name a DAG id. -/
def IsAwsLine (line : List Char) (name dagId : String) : Prop := IsEntryLine line name dagId.toList

/-- The line gives the name a process on the premises. -/
def IsOnPremLine (line : List Char) (name : String) (ids : OnPremIds) : Prop :=
  ∃ value, IsEntryLine line name value ∧ IsIdPair value ids

theorem entryOf?_eq_some_iff {line : List Char} {name : String} {value : List Char} :
    entryOf? line = some (name, value) ↔ IsEntryLine line name value := by
  unfold entryOf? IsEntryLine
  constructor
  · intro h
    split at h
    · cases h
    · next before after hcut =>
      obtain ⟨hline, hbefore⟩ := cutAt_eq_some_iff.1 hcut
      obtain ⟨hne, heq⟩ := Option.ite_none_left_eq_some.1 h
      obtain ⟨hname, hvalue⟩ := not_or.1 hne
      cases heq
      exact ⟨before, after, hline, hbefore, String.toList_ofList.symm, rfl,
        fun hnil => hname (String.ofList_eq_empty_iff.1 hnil), hvalue⟩
  · rintro ⟨before, after, hline, hbefore, hname, rfl, hne, hvalue⟩
    have hname' : trim before ≠ [] := by
      rw [hname]
      exact fun hnil => hne (String.toList_eq_nil_iff.1 hnil)
    rw [cutAt_eq_some_iff.2 ⟨hline, hbefore⟩]
    dsimp only
    rw [if_neg (not_or.2 ⟨hname', hvalue⟩), hname, String.ofList_toList]

theorem idPair?_eq_some_iff {value : List Char} {ids : OnPremIds} :
    idPair? value = some ids ↔ IsIdPair value ids := by
  unfold idPair? IsIdPair
  constructor
  · intro h
    split at h
    · next bpf process hpieces =>
      obtain ⟨before, rest, hsplit, rfl, hrest⟩ := List.map_eq_cons_iff.1 hpieces
      obtain ⟨after, tail, rfl, rfl, htail⟩ := List.map_eq_cons_iff.1 hrest
      obtain rfl := List.map_eq_nil_iff.1 htail
      obtain ⟨hvalue, hbefore, hafter⟩ := splitOn_eq_pair_iff.1 hsplit
      obtain ⟨bpfId, hbpf, h⟩ := Option.bind_eq_some_iff.1 h
      obtain ⟨processId, hprocess, h⟩ := Option.bind_eq_some_iff.1 h
      cases h
      exact ⟨before, after, hvalue, hbefore, hafter, int64?_eq_some_iff.1 hbpf,
        int64?_eq_some_iff.1 hprocess⟩
    · cases h
  · rintro ⟨before, after, hvalue, hbefore, hafter, hbpf, hprocess⟩
    rw [splitOn_eq_pair_iff.2 ⟨hvalue, hbefore, hafter⟩]
    dsimp only [List.map]
    rw [int64?_eq_some_iff.2 hbpf, int64?_eq_some_iff.2 hprocess]
    rfl

theorem awsEntry?_eq_some_iff {line : List Char} {name dagId : String} :
    awsEntry? line = some (name, dagId) ↔ IsAwsLine line name dagId := by
  unfold awsEntry? IsAwsLine
  rw [← entryOf?_eq_some_iff, Option.map_eq_some_iff]
  constructor
  · rintro ⟨⟨name', value⟩, hentry, heq⟩
    cases heq
    rw [hentry, String.toList_ofList]
  · intro h
    exact ⟨(name, dagId.toList), h, Prod.ext rfl String.ofList_toList⟩

theorem onPremEntry?_eq_some_iff {line : List Char} {name : String} {ids : OnPremIds} :
    onPremEntry? line = some (name, ids) ↔ IsOnPremLine line name ids := by
  unfold onPremEntry? IsOnPremLine
  constructor
  · intro h
    obtain ⟨⟨name', value⟩, hentry, h⟩ := Option.bind_eq_some_iff.1 h
    obtain ⟨ids', hids, heq⟩ := Option.bind_eq_some_iff.1 h
    cases heq
    exact ⟨value, entryOf?_eq_some_iff.1 hentry, idPair?_eq_some_iff.1 hids⟩
  · rintro ⟨value, hentry, hids⟩
    rw [entryOf?_eq_some_iff.2 hentry]
    dsimp only [Option.bind_eq_bind, Option.bind_some]
    rw [idPair?_eq_some_iff.2 hids]
    rfl

/-- Blanks at the end of a line do not count, so neither does a carriage return. -/
theorem entryOf?_append {line after : List Char} (h : ∀ c ∈ after, isBlank c = true) :
    entryOf? (line ++ after) = entryOf? line := by
  have htrim : trim (line ++ after) = trim line :=
    trim_between (s := line) (fun c hc => absurd hc List.not_mem_nil) h
  rw [entryOf?, htrim, entryOf?]

/-! ## The table of some lines -/

/-- The table that the entries of the lines make. -/
def tableOf (entry : List Char → Option (String × α)) (ls : List (List Char)) : Table String α :=
  Table.ofList (ls.filterMap entry)

variable {entry : List Char → Option (String × α)} {ls : List (List Char)}

theorem tableOf_skip {line : List Char} (h : entry line = none) (more : List (List Char)) :
    tableOf entry (ls ++ line :: more) = tableOf entry (ls ++ more) := by
  unfold tableOf
  rw [List.filterMap_append, List.filterMap_cons_none h, ← List.filterMap_append]

theorem tableOf_concat_of_none {line : List Char} (h : entry line = none) :
    tableOf entry (ls ++ [line]) = tableOf entry ls := by
  rw [tableOf_skip h, List.append_nil]

theorem tableOf_concat_of_some {line : List Char} {name : String} {value : α}
    (h : entry line = some (name, value)) :
    tableOf entry (ls ++ [line]) = (tableOf entry ls).insert name value := by
  unfold tableOf
  rw [List.filterMap_append, List.filterMap_cons_some h, List.filterMap_nil]
  exact Table.insertAll_concat Table.empty _ _

/-- The line has an entry for the name. -/
def HasEntry (entry : List Char → Option (String × α)) (line : List Char) (name : String)
    (value : α) : Prop := entry line = some (name, value)

theorem mem_keys_tableOf {name : String} : name ∈ (tableOf entry ls).keys ↔
    ∃ line ∈ ls, ∃ value, HasEntry entry line name value := by
  have hkeys : (tableOf entry ls).keys = ((ls.filterMap entry).map Prod.fst).eraseDups :=
    Table.keys_insertAll Table.empty _
  rw [hkeys, List.mem_eraseDups, List.mem_map]
  constructor
  · rintro ⟨⟨name, value⟩, hmem, rfl⟩
    obtain ⟨line, hline, hentry⟩ := List.mem_filterMap.1 hmem
    exact ⟨line, hline, value, hentry⟩
  · rintro ⟨line, hline, value, hentry⟩
    exact ⟨(name, value), List.mem_filterMap.2 ⟨line, hline, hentry⟩, rfl⟩

/-! ## Places -/

section Places

variable {IsLine : List Char → String → α → Prop} {name : String}

/-- The place of the first line that is well formed for the name. -/
def IsFirst (IsLine : List Char → String → α → Prop) (ls : List (List Char)) (name : String)
    (i : Nat) : Prop :=
  (∃ line ∈ ls[i]?, ∃ value, IsLine line name value) ∧
    ∀ j < i, ∀ line ∈ ls[j]?, ∀ value, ¬ IsLine line name value

/-- The place of the last line that is well formed for the name, and the value there. -/
def IsLast (IsLine : List Char → String → α → Prop) (ls : List (List Char)) (name : String)
    (value : α) (i : Nat) : Prop :=
  (∃ line ∈ ls[i]?, IsLine line name value) ∧
    ∀ j > i, ∀ line ∈ ls[j]?, ∀ other, ¬ IsLine line name other

theorem exists_isFirst (h : ∃ line ∈ ls, ∃ value, IsLine line name value) :
    ∃ i, IsFirst IsLine ls name i := by
  classical
  have hsome : ∃ i : Nat, ∃ line ∈ ls[i]?, ∃ value, IsLine line name value := by
    obtain ⟨line, hline, hvalue⟩ := h
    obtain ⟨i, hi⟩ := List.mem_iff_getElem?.1 hline
    exact ⟨i, line, hi, hvalue⟩
  refine ⟨Nat.find hsome, Nat.find_spec hsome, fun j hj line hline value hvalue => ?_⟩
  exact Nat.find_min hsome hj ⟨line, hline, value, hvalue⟩

theorem IsFirst.lt_length {i : Nat} (h : IsFirst IsLine ls name i) : i < ls.length := by
  obtain ⟨⟨line, hline, -⟩, -⟩ := h
  exact (List.getElem?_eq_some_iff.1 hline).1

theorem IsFirst.append {i : Nat} (h : IsFirst IsLine ls name i) (more : List (List Char)) :
    IsFirst IsLine (ls ++ more) name i := by
  have hi := h.lt_length
  refine ⟨?_, fun j hj => ?_⟩
  · rw [List.getElem?_append_left hi]
    exact h.1
  · rw [List.getElem?_append_left (hj.trans hi)]
    exact h.2 j hj

theorem mem_getElem?_concat {line line' : List Char} {i : Nat} :
    line' ∈ (ls ++ [line])[i]? ↔ line' ∈ ls[i]? ∨ i = ls.length ∧ line' = line := by
  rcases Nat.lt_trichotomy i ls.length with hi | rfl | hi
  · rw [List.getElem?_append_left hi]
    simp [hi.ne]
  · simp [eq_comm]
  · have hlength : (ls ++ [line]).length ≤ i := by rwa [List.length_append]
    rw [List.getElem?_eq_none hlength, List.getElem?_eq_none hi.le]
    simp [hi.ne']

theorem isFirst_length {line : List Char} {value : α} (hline : IsLine line name value)
    (h : ¬ ∃ line ∈ ls, ∃ value, IsLine line name value) :
    IsFirst IsLine (ls ++ [line]) name ls.length := by
  refine ⟨⟨line, mem_getElem?_concat.2 (.inr ⟨rfl, rfl⟩), value, hline⟩, ?_⟩
  intro j hj line' hline' other hother
  rw [List.getElem?_append_left hj] at hline'
  exact h ⟨line', List.mem_of_getElem? hline', other, hother⟩

theorem isLast_concat_of_not {line : List Char} (h : ∀ value, ¬ IsLine line name value) {value : α}
    {i : Nat} : IsLast IsLine (ls ++ [line]) name value i ↔ IsLast IsLine ls name value i := by
  constructor
  · rintro ⟨⟨line', hline', hvalue⟩, hlast⟩
    refine ⟨?_, fun j hj l hl => hlast j hj l (mem_getElem?_concat.2 (.inl hl))⟩
    rcases mem_getElem?_concat.1 hline' with hline' | ⟨-, rfl⟩
    · exact ⟨line', hline', hvalue⟩
    · exact absurd hvalue (h value)
  · rintro ⟨⟨line', hline', hvalue⟩, hlast⟩
    refine ⟨⟨line', mem_getElem?_concat.2 (.inl hline'), hvalue⟩, fun j hj l hl => ?_⟩
    rcases mem_getElem?_concat.1 hl with hl | ⟨-, rfl⟩
    · exact hlast j hj l hl
    · exact h

theorem isLast_concat {line : List Char} {value : α} (h : IsLine line name value)
    (hunique : ∀ other, IsLine line name other → other = value) {value' : α} {i : Nat} :
    IsLast IsLine (ls ++ [line]) name value' i ↔ i = ls.length ∧ value' = value := by
  constructor
  · rintro ⟨⟨line', hline', hvalue⟩, hlast⟩
    rcases mem_getElem?_concat.1 hline' with hline' | ⟨rfl, rfl⟩
    · -- The line that was added is later, and well formed too.
      have hi : i < ls.length := (List.getElem?_eq_some_iff.1 hline').1
      exact absurd h (hlast ls.length hi line (mem_getElem?_concat.2 (.inr ⟨rfl, rfl⟩)) value)
    · exact ⟨rfl, hunique value' hvalue⟩
  · rintro ⟨rfl, rfl⟩
    refine ⟨⟨line, mem_getElem?_concat.2 (.inr ⟨rfl, rfl⟩), h⟩, fun j hj l hl => ?_⟩
    have hlt : j < (ls ++ [line]).length := (List.getElem?_eq_some_iff.1 hl).1
    rw [List.length_append, List.length_singleton] at hlt
    omega

end Places

/-! ## Order and values -/

theorem pairwise_keys_tableOf (ls : List (List Char)) :
    (tableOf entry ls).keys.Pairwise fun name name' => ∃ i j, i < j ∧
      IsFirst (HasEntry entry) ls name i ∧ IsFirst (HasEntry entry) ls name' j := by
  induction ls using List.reverseRecOn with
  | nil => exact List.Pairwise.nil
  | append_singleton ls line ih =>
    have hold : (tableOf entry ls).keys.Pairwise fun name name' => ∃ i j, i < j ∧
        IsFirst (HasEntry entry) (ls ++ [line]) name i ∧
          IsFirst (HasEntry entry) (ls ++ [line]) name' j :=
      ih.imp fun ⟨i, j, hij, hi, hj⟩ => ⟨i, j, hij, hi.append [line], hj.append [line]⟩
    cases hentry : entry line with
    | none => rwa [tableOf_concat_of_none hentry]
    | some e =>
      obtain ⟨name, value⟩ := e
      rw [tableOf_concat_of_some hentry, Table.keys_insert]
      split
      · exact hold
      · next hnew =>
        refine List.pairwise_append.2
          ⟨hold, List.pairwise_singleton _ _, fun name₀ hname₀ b hb => ?_⟩
        rw [List.mem_singleton.1 hb]
        obtain ⟨i, hi⟩ := exists_isFirst (mem_keys_tableOf.1 hname₀)
        exact ⟨i, ls.length, hi.lt_length, hi.append [line],
          isFirst_length hentry fun h => hnew (mem_keys_tableOf.2 h)⟩

theorem get?_tableOf (ls : List (List Char)) {name : String} {value : α} :
    (tableOf entry ls).get? name = some value ↔
      ∃ i, IsLast (HasEntry entry) ls name value i := by
  induction ls using List.reverseRecOn with
  | nil =>
    constructor
    · intro h
      cases h
    · rintro ⟨i, ⟨line, hline, -⟩, -⟩
      cases hline
  | append_singleton ls line ih =>
    cases hentry : entry line with
    | none =>
      have hnot : ∀ other, ¬ HasEntry entry line name other := fun other h => by
        rw [HasEntry, hentry] at h
        cases h
      rw [tableOf_concat_of_none hentry, ih]
      exact exists_congr fun i => (isLast_concat_of_not hnot).symm
    | some e =>
      obtain ⟨name', value'⟩ := e
      rw [tableOf_concat_of_some hentry, Table.get?_insert]
      split
      · next heq =>
        subst heq
        have hunique : ∀ other, HasEntry entry line name' other → other = value' := fun other h =>
          (Prod.mk.inj (Option.some.inj (hentry.symm.trans h))).2.symm
        rw [exists_congr fun i => isLast_concat hentry hunique, Option.some_inj, eq_comm]
        simp
      · next hne =>
        have hnot : ∀ other, ¬ HasEntry entry line name other := fun other h =>
          hne (Prod.mk.inj (Option.some.inj (hentry.symm.trans h))).1
        rw [ih]
        exact exists_congr fun i => (isLast_concat_of_not hnot).symm

/-! ## Texts -/

/-- The table of a text is what its well-formed lines say. -/
structure ReadsLines (IsLine : List Char → String → α → Prop) (parse : String → Table String α) :
    Prop where
  /-- A name is in the table if and only if some line is well formed for it. -/
  mem_keys : ∀ text name, name ∈ (parse text).keys ↔
    ∃ line ∈ lines text.toList, ∃ value, IsLine line name value
  /-- Names stand in the order of their first well-formed lines. -/
  ordered : ∀ text, (parse text).keys.Pairwise fun name name' => ∃ i j, i < j ∧
    IsFirst IsLine (lines text.toList) name i ∧ IsFirst IsLine (lines text.toList) name' j
  /-- A name has the value of its last well-formed line. -/
  get? : ∀ text name value, (parse text).get? name = some value ↔
    ∃ i, IsLast IsLine (lines text.toList) name value i
  /-- Malformed lines may be deleted, some of them or all. -/
  deleted : ∀ (text : String) (keep : List Char → Bool) (ended : Bool),
    (∀ line name value, IsLine line name value → keep line = true) →
    parse (linesText ended (((lines text.toList).filter keep).map String.ofList)) = parse text
  /-- A malformed line behind others changes nothing, whatever comes after it. -/
  skipped : ∀ before line after : String, '\n' ∉ line.toList →
    (∀ name value, ¬ IsLine line.toList name value) → ∀ rest ∈ ["", "\n" ++ after],
    parse (before ++ "\n" ++ (line ++ rest)) = parse (before ++ rest)
  /-- A text behind a line break adds its own entries, one after the other. -/
  joined : ∀ first second : String, ∀ br ∈ ["\n", "\r\n"],
    parse (first ++ br ++ second) = (parse first).insertAll (parse second).entries

theorem filterMap_filter_of_some {keep : List Char → Bool}
    (h : ∀ line name value, HasEntry entry line name value → keep line = true) :
    (ls.filter keep).filterMap entry = ls.filterMap entry := by
  rw [List.filterMap_filter]
  refine List.filterMap_congr fun line _ => ?_
  split
  · rfl
  · next hkeep =>
    cases hentry : entry line with
    | none => rfl
    | some e => exact absurd (h line e.1 e.2 hentry) hkeep

/-- Of the lines that are written none is lost, and none that says something is added. -/
theorem filterMap_lines_linesText (hnil : entry [] = none) (ended : Bool) {ls : List String}
    (h : ∀ l ∈ ls, '\n' ∉ l.toList) :
    (lines (linesText ended ls).toList).filterMap entry =
      (ls.map String.toList).filterMap entry := by
  cases ended with
  | true =>
    rw [linesText, if_pos rfl, lines_unlines h, List.filterMap_append,
      List.filterMap_cons_none hnil, List.filterMap_nil, List.append_nil]
  | false =>
    rw [linesText, if_neg Bool.false_ne_true]
    cases ls with
    | nil => exact List.filterMap_cons_none hnil
    | cons l ls => rw [lines_intercalate h (List.cons_ne_nil l ls)]

theorem lines_append_feed (first second : String) :
    lines (first ++ "\n" ++ second).toList = lines first.toList ++ lines second.toList := by
  rw [String.toList_append, String.toList_append, List.append_assoc]
  exact lines_append_cons first.toList second.toList

theorem filterMap_lines_append_return (hcr : ∀ line, entry (line ++ ['\r']) = entry line)
    (text : String) :
    (lines (text ++ "\r").toList).filterMap entry = (lines text.toList).filterMap entry := by
  have hfeed : '\n' ∉ ['\r'] := by decide
  obtain ⟨pieces, last, htext, happend⟩ := exists_splitOn_append hfeed text.toList
  rw [String.toList_append, lines, lines, htext]
  refine (congrArg (List.filterMap entry) happend).trans ?_
  rw [List.filterMap_append, List.filterMap_append, List.filterMap_cons, List.filterMap_cons, hcr]

/-- A reader of lines, to which blanks at the end of a line and empty lines say nothing, makes the
table that its well-formed lines say. -/
theorem readsLines_tableOf (hnil : entry [] = none)
    (hcr : ∀ line, entry (line ++ ['\r']) = entry line) :
    ReadsLines (HasEntry entry) fun text => tableOf entry (lines text.toList) := by
  refine ⟨fun text name => mem_keys_tableOf, fun text => pairwise_keys_tableOf _,
    fun text name value => get?_tableOf _, ?_, ?_, ?_⟩
  · intro text keep ended hkeep
    have hone : ∀ l ∈ ((lines text.toList).filter keep).map String.ofList, '\n' ∉ l.toList := by
      intro l hl
      obtain ⟨line, hline, rfl⟩ := List.mem_map.1 hl
      rw [String.toList_ofList]
      exact not_mem_of_mem_splitOn (List.mem_of_mem_filter hline)
    unfold tableOf
    rw [filterMap_lines_linesText hnil ended hone, List.map_map]
    simp only [Function.comp_def, String.toList_ofList, List.map_id']
    rw [filterMap_filter_of_some hkeep]
  · intro before line after hfeed hmalformed rest hrest
    have hentry : entry line.toList = none :=
      Option.eq_none_iff_forall_not_mem.2 fun e he => hmalformed e.1 e.2 he
    have hone : lines line.toList = [line.toList] := lines_of_not_mem hfeed
    rcases List.mem_pair.1 hrest with rfl | rfl
    · rw [String.append_empty, String.append_empty, lines_append_feed, hone,
        tableOf_concat_of_none hentry]
    · rw [lines_append_feed, ← String.append_assoc, lines_append_feed, hone, List.singleton_append,
        tableOf_skip hentry, ← String.append_assoc, lines_append_feed]
  · intro first second br hbr
    have hsplit : ((lines (first ++ br ++ second).toList).filterMap entry) =
        (lines first.toList).filterMap entry ++ (lines second.toList).filterMap entry := by
      rcases List.mem_pair.1 hbr with rfl | rfl
      · rw [lines_append_feed, List.filterMap_append]
      · have hbreak : "\r\n" = "\r" ++ "\n" := by decide
        rw [hbreak, ← String.append_assoc, lines_append_feed, List.filterMap_append,
          filterMap_lines_append_return hcr]
    unfold tableOf
    rw [hsplit, Table.insertAll_ofList]
    exact List.foldl_append

/-- The tables of both environments are what the well-formed lines of their texts say. -/
theorem readsLines_parse :
    ReadsLines IsAwsLine parseAws ∧ ReadsLines IsOnPremLine parseOnPrem := by
  have haws : HasEntry awsEntry? = IsAwsLine := by
    funext line name dagId
    exact propext awsEntry?_eq_some_iff
  have honPrem : HasEntry onPremEntry? = IsOnPremLine := by
    funext line name ids
    exact propext onPremEntry?_eq_some_iff
  have hcr : ∀ line, entryOf? (line ++ ['\r']) = entryOf? line :=
    fun line => entryOf?_append fun c hc => by rw [List.mem_singleton.1 hc]; rfl
  rw [← haws, ← honPrem]
  constructor
  · refine readsLines_tableOf rfl fun line => ?_
    unfold awsEntry?
    rw [hcr]
  · refine readsLines_tableOf rfl fun line => ?_
    unfold onPremEntry?
    rw [hcr]

end Flowline.Mapping
