import Flowline.Text.Blank
import Mathlib.Data.List.DropRight

/-!
# Trimming and cutting

What `trim`, `lines` and `cutAt` do, so that nobody else opens them.

* `exists_blanks`: a text is its trimmed part between blanks, and `trim_between` the converse: what
  stands between blanks has the same trimmed part. `isTrimmed_trim`, `trim_eq_self`: a trimmed part
  is trimmed, and only then is a text its own. `trim_ne_nil_iff`: it is empty for blank texts only.
* `lines_unlines`, `lines_intercalate`: lines that are each ended by a line feed, or that have line
  feeds between them, are read back.
* `cutAt_eq_some_iff`: the cut is at the first occurrence.
-/

namespace Flowline.Text

theorem isBlank_eq_false_of_isDigit {c : Char} (h : c.isDigit = true) : isBlank c = false := by
  have hrange : 48 ≤ c.toNat ∧ c.toNat ≤ 57 := Char.isDigit_iff_toNat.1 h
  simp only [isBlank, Bool.or_eq_false_iff, Bool.and_eq_false_iff, beq_eq_false_iff_ne,
    decide_eq_false_iff_not]
  omega

/-! ## Trimming -/

theorem isTrimmed_trim (s : List Char) : IsTrimmed (trim s) := by
  refine ⟨fun c hc => ?_, fun c hc => ?_⟩
  · -- The trimmed text begins as the text without its leading blanks does.
    obtain ⟨rest, hrest⟩ : trim s <+: trimLeft s := List.rdropWhile_prefix isBlank (trimLeft s)
    have hhead : (trimLeft s).head? = some c := by
      rw [← hrest, List.head?_append, hc]
      rfl
    have hnot := List.head?_dropWhile_not isBlank s
    unfold trimLeft at hhead
    rw [hhead] at hnot
    exact hnot
  · have hne : trim s ≠ [] := by
      intro hnil
      rw [hnil] at hc
      cases hc
    have hlast : (trim s).getLast hne = c :=
      Option.some.inj ((List.getLast?_eq_some_getLast hne).symm.trans hc)
    have hnot := List.rdropWhile_last_not isBlank (trimLeft s) hne
    rw [← hlast]
    exact Bool.eq_false_iff.2 hnot

theorem trimLeft_eq_self {s : List Char} (h : ∀ c ∈ s.head?, isBlank c = false) :
    trimLeft s = s := by
  refine List.dropWhile_eq_self_iff.2 fun hl => ?_
  have := h s[0] (List.head?_eq_getElem? .. ▸ List.getElem?_eq_getElem hl)
  simp [this]

/-- The trimmed part begins a text that does not begin with a blank. -/
theorem trim_prefix_self {s : List Char} (h : ∀ c ∈ s.head?, isBlank c = false) : trim s <+: s := by
  have hright : trim s <+: trimLeft s := List.rdropWhile_prefix isBlank (trimLeft s)
  rwa [trimLeft_eq_self h] at hright

theorem trim_eq_self {s : List Char} (h : IsTrimmed s) : trim s = s := by
  have hright : trimRight s = s := by
    refine List.rdropWhile_eq_self_iff.2 fun hne => ?_
    have := h.2 (s.getLast hne) (List.getLast?_eq_some_getLast hne)
    simp [this]
  rw [trim, trimLeft_eq_self h.1, hright]

/-- A text is its trimmed part between blanks. -/
theorem exists_blanks (s : List Char) : ∃ before after, s = before ++ trim s ++ after ∧
    (∀ c ∈ before, isBlank c = true) ∧ ∀ c ∈ after, isBlank c = true := by
  refine ⟨s.takeWhile isBlank, (trimLeft s).rtakeWhile isBlank, ?_, ?_, ?_⟩
  · have hright : trim s ++ (trimLeft s).rtakeWhile isBlank = trimLeft s :=
      List.rdropWhile_append_rtakeWhile ..
    rw [List.append_assoc, hright]
    exact List.takeWhile_append_dropWhile.symm
  · exact fun c hc => List.mem_takeWhile_imp hc
  · exact fun c hc => List.mem_rtakeWhile_imp hc

theorem mem_of_mem_trim {s : List Char} {c : Char} (h : c ∈ trim s) : c ∈ s := by
  obtain ⟨before, after, hs, -, -⟩ := exists_blanks s
  rw [hs]
  exact List.mem_append_left after (List.mem_append_right before h)

/-- Blanks around a text do not change its trimmed part. -/
theorem trim_between {before s after : List Char} (hbefore : ∀ c ∈ before, isBlank c = true)
    (hafter : ∀ c ∈ after, isBlank c = true) : trim (before ++ s ++ after) = trim s := by
  have hright : trim (s ++ after) = trim s := by
    unfold trim trimLeft
    rw [List.dropWhile_append]
    split
    · next hempty =>
      rw [List.isEmpty_iff.1 hempty, List.dropWhile_eq_nil_iff.2 hafter]
    · unfold trimRight
      rw [List.reverse_append, List.dropWhile_append_of_pos]
      exact fun c hc => hafter c (List.mem_reverse.1 hc)
  rw [List.append_assoc, ← hright]
  unfold trim trimLeft
  rw [List.dropWhile_append_of_pos hbefore]

theorem trim_cons {c : Char} (h : isBlank c = true) (s : List Char) : trim (c :: s) = trim s := by
  unfold trim trimLeft
  rw [List.dropWhile_cons_of_pos h]

theorem isTrimmed_of_forall {s : List Char} (h : ∀ c ∈ s, isBlank c = false) : IsTrimmed s :=
  ⟨fun c hc => h c (List.mem_of_mem_head? hc), fun c hc => h c (List.mem_of_mem_getLast? hc)⟩

theorem isTrimmed_append {a b c : List Char} (ha : IsTrimmed a) (hne : a ≠ []) (hc : IsTrimmed c)
    (hne' : c ≠ []) : IsTrimmed (a ++ b ++ c) := by
  obtain ⟨x, a, rfl⟩ := List.exists_cons_of_ne_nil hne
  refine ⟨fun d hd => ha.1 d hd, fun d hd => hc.2 d ?_⟩
  rwa [List.getLast?_append_of_ne_nil _ hne'] at hd

/-- Something is left of a text that is not blank. -/
theorem trim_ne_nil_iff {s : List Char} : trim s ≠ [] ↔ ∃ c ∈ s, isBlank c = false := by
  constructor
  · intro hne
    obtain ⟨c, rest, htrim⟩ := List.exists_cons_of_ne_nil hne
    have hhead : c ∈ (trim s).head? := by rw [htrim]; rfl
    exact ⟨c, mem_of_mem_trim (List.mem_of_mem_head? hhead), (isTrimmed_trim s).1 c hhead⟩
  · rintro ⟨c, hc, hnot⟩ hnil
    obtain ⟨before, after, hs, hbefore, hafter⟩ := exists_blanks s
    rw [hs, hnil, List.append_nil] at hc
    have hblank : isBlank c = true := (List.mem_append.1 hc).elim (hbefore c) (hafter c)
    rw [hblank] at hnot
    cases hnot

theorem trimmed_ne_empty_iff {s : String} : trimmed s ≠ "" ↔ trim s.toList ≠ [] := by
  rw [← toList_trimmed, ne_eq, ne_eq, String.toList_eq_nil_iff]

/-! ## Pieces -/

/-- What is added without the separator is added to the last piece. -/
theorem exists_splitOn_append {c : Char} {t : List Char} (h : c ∉ t) (s : List Char) :
    ∃ pieces last, s.splitOn c = pieces ++ [last] ∧ (s ++ t).splitOn c = pieces ++ [last ++ t] := by
  induction s with
  | nil => exact ⟨[], [], List.splitOn_nil c, List.splitOn_eq_singleton h⟩
  | cons d s ih =>
    obtain ⟨pieces, last, hs, hst⟩ := ih
    rw [List.cons_append, List.splitOn_cons_eq_if_modifyHead, List.splitOn_cons_eq_if_modifyHead,
      hs, hst]
    split
    · exact ⟨[] :: pieces, last, rfl, rfl⟩
    · cases pieces with
      | nil => exact ⟨[], d :: last, rfl, rfl⟩
      | cons piece pieces => exact ⟨(d :: piece) :: pieces, last, rfl, rfl⟩

theorem not_mem_of_mem_splitOn {c : Char} {s piece : List Char} (h : piece ∈ s.splitOn c) :
    c ∉ piece := by
  induction s generalizing piece with
  | nil =>
    rw [List.splitOn_nil, List.mem_singleton] at h
    exact h ▸ List.not_mem_nil
  | cons d s ih =>
    obtain ⟨first, pieces, hs⟩ := List.exists_cons_of_ne_nil (List.splitOn_ne_nil c s)
    rw [List.splitOn_cons_eq_if_modifyHead, hs, List.modifyHead_cons] at h
    rw [hs] at ih
    split at h
    · rcases List.mem_cons.1 h with rfl | h
      · exact List.not_mem_nil
      · exact ih h
    · next hd =>
      rcases List.mem_cons.1 h with rfl | h
      · intro hmem
        rcases List.mem_cons.1 hmem with rfl | hmem
        · exact hd BEq.rfl
        · exact ih List.mem_cons_self hmem
      · exact ih (List.mem_cons_of_mem _ h)

/-- A text that falls into two pieces has the separator once. -/
theorem splitOn_eq_pair_iff {c : Char} {s a b : List Char} :
    s.splitOn c = [a, b] ↔ s = a ++ c :: b ∧ c ∉ a ∧ c ∉ b := by
  constructor
  · intro h
    refine ⟨?_, not_mem_of_mem_splitOn (s := s) (by simp [h]),
      not_mem_of_mem_splitOn (s := s) (by simp [h])⟩
    have hjoin : [c].intercalate (s.splitOn c) = s := List.intercalate_splitOn c
    rw [h, List.intercalate_cons_cons, List.intercalate_singleton, List.append_assoc] at hjoin
    exact hjoin.symm
  · rintro ⟨rfl, ha, hb⟩
    rw [List.splitOn_append_cons_self_of_not_mem ha, List.splitOn_eq_singleton hb]

/-! ## Lines -/

theorem lines_append_cons (s t : List Char) : lines (s ++ '\n' :: t) = lines s ++ lines t :=
  List.splitOn_append_cons_self s t

theorem lines_of_not_mem {s : List Char} (h : '\n' ∉ s) : lines s = [s] :=
  List.splitOn_eq_singleton h

theorem toList_unlines (ls : List String) :
    (unlines ls).toList = ls.flatMap fun l => l.toList ++ ['\n'] := by
  induction ls with
  | nil => rfl
  | cons l ls ih => simpa [unlines] using ih

theorem toList_unlines_cons (l : String) (ls : List String) :
    (unlines (l :: ls)).toList = l.toList ++ '\n' :: (unlines ls).toList := by
  simp [toList_unlines]

theorem lines_unlines {ls : List String} (h : ∀ l ∈ ls, '\n' ∉ l.toList) :
    lines (unlines ls).toList = ls.map String.toList ++ [[]] := by
  induction ls with
  | nil => rfl
  | cons l ls ih =>
    obtain ⟨hl, hls⟩ := List.forall_mem_cons.1 h
    rw [toList_unlines_cons, lines_append_cons, lines_of_not_mem hl, ih hls]
    rfl

theorem lines_intercalate {ls : List String} (h : ∀ l ∈ ls, '\n' ∉ l.toList) (hne : ls ≠ []) :
    lines ("\n".intercalate ls).toList = ls.map String.toList := by
  have hlines : ∀ l ∈ ls.map String.toList, '\n' ∉ l := by simpa using h
  rw [String.toList_intercalate]
  exact List.splitOn_intercalate '\n' hlines (mt List.map_eq_nil_iff.1 hne)

/-! ## Cuts -/

/-- A text is cut in front of the first such character. -/
theorem cutAt_append {c : Char} {a : List Char} (h : c ∉ a) (b : List Char) :
    cutAt c (a ++ c :: b) = some (a, b) := by
  induction a with
  | nil => rw [List.nil_append, cutAt, if_pos rfl]
  | cons d a ih =>
    obtain ⟨hd, ha⟩ := not_or.1 (mt List.mem_cons.2 h)
    rw [List.cons_append, cutAt, if_neg (Ne.symm hd), ih ha]
    rfl

theorem cutAt_eq_some_iff {c : Char} {s a b : List Char} :
    cutAt c s = some (a, b) ↔ s = a ++ c :: b ∧ c ∉ a := by
  constructor
  · intro h
    induction s generalizing a with
    | nil => cases h
    | cons d s ih =>
      rw [cutAt] at h
      split at h
      · next hd =>
        cases h
        exact ⟨congrArg (· :: _) hd, List.not_mem_nil⟩
      · next hd =>
        obtain ⟨⟨a', b'⟩, hcut, heq⟩ := Option.map_eq_some_iff.1 h
        cases heq
        obtain ⟨rfl, hnot⟩ := ih hcut
        exact ⟨rfl, List.not_mem_cons_of_ne_of_not_mem (Ne.symm hd) hnot⟩
  · rintro ⟨rfl, hnot⟩
    exact cutAt_append hnot b

end Flowline.Text
