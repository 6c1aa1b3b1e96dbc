import Flowline.Proofs.Definition.Line

/-!
# Which lines are stages

A line is a stage if no header begins it, its braces are one that opens and one that closes at the
end (`IsBraced`), and what stands before them is not blank. The other tests of `classify` that come
first make no difference, since no token has a brace and a lone brace has nothing before it.

* `isBraced_iff`: such a text is what stands before the braces, what stands in them, and the braces.
* `stageParts?_eq_some_iff_isBraced`: it is cut there, whatever stands in front or inside.
* `classify_eq_stage_iff`: the lines that are stages, with their names and contents.
-/

namespace Flowline.Definition.Line

open Text

/-- One brace opens, one closes, and this one ends the text. -/
structure IsBraced (s : List Char) : Prop where
  opens : s.count '\x7b' = 1
  closes : s.count '\x7d' = 1
  last : s.getLast? = some '\x7d'

/-- What stands before the brace that opens. -/
def beforeBraces (s : List Char) : List Char := s.takeWhile (· ≠ '\x7b')

/-- What stands between the brace that opens and the last character. -/
def insideBraces (s : List Char) : List Char := ((s.dropWhile (· ≠ '\x7b')).drop 1).dropLast

theorem isBrace_eq_false_iff {c : Char} : isBrace c = false ↔ c ≠ '\x7b' ∧ c ≠ '\x7d' := by
  simp [isBrace]

/-- A text without braces has neither of them. -/
theorem unbraced_iff {s : List Char} :
    (∀ c ∈ s, isBrace c = false) ↔ '\x7b' ∉ s ∧ '\x7d' ∉ s := by
  simp only [isBrace_eq_false_iff, ne_eq]
  constructor
  · exact fun h => ⟨fun hmem => (h _ hmem).1 rfl, fun hmem => (h _ hmem).2 rfl⟩
  · exact fun h c hc => ⟨fun heq => h.1 (heq ▸ hc), fun heq => h.2 (heq ▸ hc)⟩

section Split

variable {before inside : List Char}

theorem decide_ne_open (h : '\x7b' ∉ before) : ∀ c ∈ before, decide (c ≠ '\x7b') = true :=
  fun _ hc => decide_eq_true fun heq => h (heq ▸ hc)

theorem beforeBraces_append (h : '\x7b' ∉ before) (rest : List Char) :
    beforeBraces (before ++ '\x7b' :: rest) = before := by
  rw [beforeBraces, List.takeWhile_append_of_pos (decide_ne_open h)]
  simp

theorem insideBraces_append (h : '\x7b' ∉ before) (inside : List Char) (last : Char) :
    insideBraces (before ++ '\x7b' :: (inside ++ [last])) = inside := by
  rw [insideBraces, List.dropWhile_append_of_pos (decide_ne_open h)]
  simp

/-- Each brace is counted once more than before and in the braces. -/
theorem count_brace {brace : Char} (h : isBrace brace = true) (before inside : List Char) :
    (before ++ '\x7b' :: (inside ++ ['\x7d'])).count brace =
      before.count brace + inside.count brace + 1 := by
  rw [isBrace, Bool.or_eq_true, beq_iff_eq, beq_iff_eq] at h
  rcases h with rfl | rfl
  · rw [List.count_append, List.count_cons_self, List.count_append, Nat.add_assoc]
    rfl
  · rw [List.count_append, List.count_cons_of_ne (by decide), List.count_append, Nat.add_assoc]
    rfl

theorem isBraced_append (hbefore : ∀ c ∈ before, isBrace c = false)
    (hinside : ∀ c ∈ inside, isBrace c = false) :
    IsBraced (before ++ '\x7b' :: (inside ++ ['\x7d'])) := by
  obtain ⟨hopen, hclose⟩ := unbraced_iff.1 hbefore
  obtain ⟨hopen', hclose'⟩ := unbraced_iff.1 hinside
  refine ⟨?_, ?_, ?_⟩
  · rw [count_brace rfl, List.count_eq_zero.2 hopen, List.count_eq_zero.2 hopen']
  · rw [count_brace rfl, List.count_eq_zero.2 hclose, List.count_eq_zero.2 hclose']
  · rw [← List.cons_append, ← List.append_assoc, List.getLast?_concat]

end Split

/-- A text with these braces is what stands before them, what stands in them, and the braces. -/
theorem isBraced_iff {s : List Char} : IsBraced s ↔
    s = beforeBraces s ++ '\x7b' :: (insideBraces s ++ ['\x7d']) ∧
      (∀ c ∈ beforeBraces s, isBrace c = false) ∧ ∀ c ∈ insideBraces s, isBrace c = false := by
  constructor
  · rintro ⟨hopens, hcloses, hlast⟩
    have hmem : '\x7b' ∈ s := List.count_pos_iff.1 (by omega)
    obtain ⟨before, rest, rfl, hbefore⟩ := List.eq_append_cons_of_mem hmem
    -- The last character is not the brace that opens.
    rcases List.eq_nil_or_concat' rest with rfl | ⟨inside, last, rfl⟩
    · simp at hlast
    · rw [← List.cons_append, ← List.append_assoc, List.getLast?_concat, Option.some_inj] at hlast
      subst hlast
      rw [count_brace rfl] at hopens
      rw [count_brace rfl] at hcloses
      have hopens' : '\x7b' ∉ inside := List.count_eq_zero.1 (by omega)
      have hclosesBefore : '\x7d' ∉ before := List.count_eq_zero.1 (by omega)
      have hclosesInside : '\x7d' ∉ inside := List.count_eq_zero.1 (by omega)
      rw [beforeBraces_append hbefore, insideBraces_append hbefore]
      exact ⟨rfl, unbraced_iff.2 ⟨hbefore, hclosesBefore⟩, unbraced_iff.2 ⟨hopens', hclosesInside⟩⟩
  · rintro ⟨hs, hbefore, hinside⟩
    rw [hs]
    exact isBraced_append hbefore hinside

/-- A text has the form `name{content}` if it has these braces and something before them. -/
theorem stageParts?_eq_some_iff_isBraced {s name content : List Char} :
    stageParts? s = some (name, content) ↔
      IsBraced s ∧ beforeBraces s ≠ [] ∧ name = beforeBraces s ∧ content = insideBraces s := by
  rw [stageParts?_eq_some_iff]
  constructor
  · rintro ⟨rfl, hne, hname, hcontent⟩
    have hopen := (unbraced_iff.1 hname).1
    rw [beforeBraces_append hopen, insideBraces_append hopen]
    exact ⟨isBraced_append hname hcontent, hne, rfl, rfl⟩
  · rintro ⟨hbraced, hne, rfl, rfl⟩
    obtain ⟨hs, hbefore, hinside⟩ := isBraced_iff.1 hbraced
    exact ⟨hs, hne, hbefore, hinside⟩

/-! ## Stages -/

/-- A stage is no header. -/
theorem header?_of_classify {line name content : String} (h : classify line = stage name content) :
    isOverallHeader line.toList = false ∧ isSubStagesHeader line.toList = false := by
  rw [← header?_classify_eq_none_iff, h]
  rfl

/-- The lines that are stages, and which. -/
theorem classify_eq_stage_iff_isBraced {line name content : String} :
    classify line = stage name content ↔
      (isOverallHeader line.toList = false ∧ isSubStagesHeader line.toList = false ∧
        IsBraced line.toList ∧ ∃ c ∈ beforeBraces line.toList, isBlank c = false) ∧
      name = String.ofList (trim (beforeBraces line.toList)) ∧
      content = String.ofList (trim (insideBraces line.toList)) := by
  constructor
  · intro h
    obtain ⟨hoverall, hsubStages⟩ := header?_of_classify h
    obtain ⟨before, inside, hparts, hne, rfl, rfl⟩ := stageParts?_of_classify h
    obtain ⟨hbraced, -, rfl, rfl⟩ := stageParts?_eq_some_iff_isBraced.1 hparts
    exact ⟨⟨hoverall, hsubStages, hbraced, trim_ne_nil_iff.1 hne⟩, rfl, rfl⟩
  · rintro ⟨⟨hoverall, hsubStages, hbraced, c, hc, hnot⟩, rfl, rfl⟩
    have hparts := stageParts?_eq_some_iff_isBraced.2
      ⟨hbraced, List.ne_nil_of_mem hc, rfl, rfl⟩
    exact classify_eq_stage hoverall hsubStages hparts (trim_ne_nil_iff.2 ⟨c, hc, hnot⟩)

/-- A trimmed text with these braces is the trimmed part before them and the trimmed part in them,
with blanks after the first and around the second one. -/
theorem exists_blanks_of_isBraced {s : List Char} (htrimmed : IsTrimmed s) (h : IsBraced s) :
    ∃ a b c, (∀ x ∈ a ++ b ++ c, isBlank x = true) ∧
      s = trim (beforeBraces s) ++ a ++ ['\x7b'] ++ b ++ trim (insideBraces s) ++ c ++
        ['\x7d'] := by
  obtain ⟨hs, -, -⟩ := isBraced_iff.1 h
  obtain ⟨lead, a, hbefore, hlead, ha⟩ := exists_blanks (beforeBraces s)
  obtain ⟨b, c, hinside, hb, hc⟩ := exists_blanks (insideBraces s)
  refine ⟨a, b, c, ?_, ?_⟩
  · simp only [List.mem_append]
    rintro x ((hx | hx) | hx)
    · exact ha x hx
    · exact hb x hx
    · exact hc x hx
  · -- A blank in front would begin the text.
    obtain rfl : lead = [] := by
      refine List.eq_nil_iff_forall_not_mem.2 fun x hx => ?_
      obtain ⟨y, rest, rfl⟩ := List.exists_cons_of_ne_nil (List.ne_nil_of_mem hx)
      have hhead : s.head? = some y := by
        rw [hs, hbefore]
        rfl
      have hnot := htrimmed.1 y hhead
      rw [hlead y List.mem_cons_self] at hnot
      cases hnot
    calc s = beforeBraces s ++ '\x7b' :: (insideBraces s ++ ['\x7d']) := hs
      _ = ([] ++ trim (beforeBraces s) ++ a) ++
            '\x7b' :: ((b ++ trim (insideBraces s) ++ c) ++ ['\x7d']) := by
          rw [← hbefore, ← hinside]
      _ = trim (beforeBraces s) ++ a ++ ['\x7b'] ++ b ++ trim (insideBraces s) ++ c ++
            ['\x7d'] := by simp

/-- A trimmed line is a stage exactly if no header begins it in any case, it has one brace of each
kind, the one that closes is its last character, and what stands before the one that opens is not
blank. Its name and its content are then what stands before and in the braces, trimmed, and but for
blanks the line is nothing else. -/
theorem classify_eq_stage_iff {line : String} (htrimmed : IsTrimmed line.toList) :
    ((∃ name content, classify line = stage name content) ↔
      (¬ "overall flow".toList <+: line.toList.map Char.toLower ∧
        ¬ "sub-stages".toList <+: line.toList.map Char.toLower ∧
        line.toList.count '\x7b' = 1 ∧ line.toList.count '\x7d' = 1 ∧
        line.toList.getLast? = some '\x7d' ∧
        ∃ c ∈ beforeBraces line.toList, isBlank c = false)) ∧
    ∀ name content, classify line = stage name content →
      name.toList = trim (beforeBraces line.toList) ∧
      content.toList = trim (insideBraces line.toList) ∧
      ∃ a b c, (∀ x ∈ a ++ b ++ c, isBlank x = true) ∧
        line.toList = name.toList ++ a ++ ['\x7b'] ++ b ++ content.toList ++ c ++ ['\x7d'] := by
  have hheader : ∀ word, beginsWith word line.toList = false ↔
      ¬ word <+: line.toList.map Char.toLower :=
    fun word => by rw [← beginsWith_iff, Bool.not_eq_true]
  refine ⟨?_, fun name content h => ?_⟩
  · constructor
    · rintro ⟨name, content, h⟩
      obtain ⟨⟨hoverall, hsubStages, hbraced, hname⟩, -, -⟩ := classify_eq_stage_iff_isBraced.1 h
      exact ⟨(hheader _).1 hoverall, (hheader _).1 hsubStages, hbraced.opens, hbraced.closes,
        hbraced.last, hname⟩
    · rintro ⟨hoverall, hsubStages, hopens, hcloses, hlast, hname⟩
      exact ⟨_, _, classify_eq_stage_iff_isBraced.2 ⟨⟨(hheader _).2 hoverall,
        (hheader _).2 hsubStages, ⟨hopens, hcloses, hlast⟩, hname⟩, rfl, rfl⟩⟩
  · obtain ⟨⟨-, -, hbraced, -⟩, rfl, rfl⟩ := classify_eq_stage_iff_isBraced.1 h
    rw [String.toList_ofList, String.toList_ofList]
    exact ⟨rfl, rfl, exists_blanks_of_isBraced htrimmed hbraced⟩

/-- A line with a letter and blanks beyond ASCII, and with the word of a header in its content. -/
theorem classify_eq_stage_iff_wide :
    let line := "Stage Ü\u00a0\x7b\u2003Sub-stages -> B,\u3000\x7d"
    IsTrimmed line.toList ∧ (∃ name content, classify line = stage name content) ∧
      ∃ a b c, (∀ x ∈ a ++ b ++ c, isBlank x = true) ∧
        line.toList = "Stage Ü".toList ++ a ++ ['\x7b'] ++ b ++ "Sub-stages -> B,".toList ++ c ++
          ['\x7d'] := by
  intro line
  have htrimmed : IsTrimmed line.toList := by decide
  obtain ⟨hiff, hparts⟩ := classify_eq_stage_iff htrimmed
  have hclassify : classify line = stage "Stage Ü" "Sub-stages -> B," := by decide
  obtain ⟨-, -, hblanks⟩ := hparts _ _ hclassify
  refine ⟨htrimmed, hiff.2 ⟨by decide, by decide, by decide, by decide, by decide, ?_⟩, hblanks⟩
  exact ⟨'S', by decide, by decide⟩

end Flowline.Definition.Line
