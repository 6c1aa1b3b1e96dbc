import Flowline.Definition.Writing
import Flowline.Proofs.Definition.Document
import Flowline.Proofs.Text.Blank
import Mathlib.Data.List.Basic

/-!
# What a line is

* `stageParts?_eq_some_iff`: the form `name{content}`.
* `classify_stageText`: the line that is written for a stage is read as that stage, trimmed. A
  header could only begin it if it began the name, since no header has a brace or ends in a blank
  (`beginsWith_of_append_brace`).
* `header?_classify_eq_none_iff`, `stageParts?_of_classify`: conversely, what a line must be that is
  no header, and one that is a stage.
-/

namespace Flowline.Definition.Line

open Text

/-! ## Headers -/

theorem beginsWith_iff {word s : List Char} :
    beginsWith word s = true ↔ word <+: s.map Char.toLower := List.isPrefixOf_iff_prefix

theorem beginsWith_mono {word s t : List Char} (hst : s <+: t)
    (h : beginsWith word s = true) : beginsWith word t = true := by
  rw [beginsWith_iff] at h ⊢
  exact h.trans (hst.map Char.toLower)

theorem toLower_of_isBlank {c : Char} (h : isBlank c = true) : c.toLower = c := by
  unfold Char.toLower
  rw [dif_neg]
  rintro ⟨hge, hle⟩
  simp only [isBlank, Bool.or_eq_true, Bool.and_eq_true, decide_eq_true_eq, beq_iff_eq] at h
  have hge : 65 ≤ c.toNat := hge
  have hle : c.toNat ≤ 90 := hle
  omega

/-- The words of headers: no brace is in them, and they do not end in a blank. -/
structure IsHeaderWord (word : List Char) : Prop where
  noBrace : '\x7b' ∉ word
  last : word.getLast?.any isBlank = false

theorem prefix_append_or {word s t : List Char} (h : word <+: s ++ t) :
    word <+: s ∨ ∃ u, word = s ++ u ∧ u <+: t := by
  rcases List.prefix_or_prefix_of_prefix h (List.prefix_append s t) with hword | ⟨u, hu⟩
  · exact Or.inl hword
  · rw [← hu] at h
    exact Or.inr ⟨u, hu.symm, (List.prefix_append_right_inj s).1 h⟩

/-- A header that begins a text with blanks and a brace after it begins the text itself. -/
theorem beginsWith_of_append_brace {word s blanks rest : List Char} (hword : IsHeaderWord word)
    (hblanks : ∀ c ∈ blanks, isBlank c = true)
    (h : beginsWith word (s ++ (blanks ++ '\x7b' :: rest)) = true) : beginsWith word s = true := by
  have hlower : blanks.map Char.toLower = blanks :=
    (List.map_congr_left fun c hc => toLower_of_isBlank (hblanks c hc)).trans (List.map_id blanks)
  rw [beginsWith_iff, List.map_append, List.map_append, hlower] at h
  rw [beginsWith_iff]
  rcases prefix_append_or h with h | ⟨u, hu, hprefix⟩
  · exact h
  · have hsuffix : u <+: blanks := by
      rcases prefix_append_or hprefix with hprefix | ⟨v, hv, hprefix⟩
      · exact hprefix
      · -- What is left of the word begins with the brace, so nothing is left.
        cases v with
        | nil =>
          have hu : u = blanks := hv.trans (List.append_nil blanks)
          exact hu ▸ List.prefix_refl u
        | cons x v =>
          obtain ⟨hx, -⟩ := List.cons_prefix_cons.1 hprefix
          have hx : x = '\x7b' := hx
          refine absurd ?_ hword.noBrace
          rw [hu, hv, hx]
          simp
    cases hlast : u.getLast? with
    | none =>
      have hs : word = s.map Char.toLower := by
        rw [hu, List.getLast?_eq_none_iff.1 hlast, List.append_nil]
      exact hs ▸ List.prefix_refl word
    | some c =>
      have hmem : c ∈ blanks := hsuffix.mem (List.mem_of_getLast? hlast)
      have hnot := hword.last
      rw [hu, List.getLast?_append, hlast] at hnot
      exact absurd (hblanks c hmem) (Bool.eq_false_iff.1 hnot)

theorem isHeaderWord_overall : IsHeaderWord "overall flow".toList :=
  ⟨by decide, by decide⟩

theorem isHeaderWord_subStages : IsHeaderWord "sub-stages".toList :=
  ⟨by decide, by decide⟩

/-! ## Stages -/

theorem stageParts?_eq_some_iff {s name content : List Char} :
    stageParts? s = some (name, content) ↔ s = name ++ '\x7b' :: (content ++ ['\x7d']) ∧
      name ≠ [] ∧ (∀ c ∈ name, isBrace c = false) ∧ ∀ c ∈ content, isBrace c = false := by
  unfold stageParts?
  constructor
  · intro h
    cases hcut : cutAt '\x7b' s with
    | none =>
      rw [hcut] at h
      cases h
    | some parts =>
      obtain ⟨name', rest⟩ := parts
      rw [hcut] at h
      dsimp only at h
      split at h
      · next hparts =>
        obtain ⟨hne, hname, hlast, hcontent⟩ := hparts
        cases h
        obtain ⟨rfl, -⟩ := cutAt_eq_some_iff.1 hcut
        refine ⟨?_, hne, ?_, ?_⟩
        · obtain ⟨front, rfl⟩ := List.getLast?_eq_some_iff.1 hlast
          rw [List.dropLast_concat]
        · simpa using hname
        · simpa using hcontent
      · cases h
  · rintro ⟨rfl, hne, hname, hcontent⟩
    have hnot : '\x7b' ∉ name := by
      intro hmem
      have := hname _ hmem
      cases this
    rw [cutAt_append hnot]
    dsimp only
    rw [List.dropLast_concat, List.getLast?_concat, if_pos]
    refine ⟨hne, ?_, rfl, ?_⟩
    · simpa using hname
    · simpa using hcontent

theorem ofToken?_eq_none {line : String} (h : '\x7b' ∈ line.toList) :
    Category.ofToken? line = none := by
  cases htoken : Category.ofToken? line with
  | none => rfl
  | some c =>
    rw [Category.ofToken?_eq_some_iff.1 htoken] at h
    revert h
    cases c <;> decide

/-- A line of the form of a stage, with a name that is not blank and no header before it, is the
stage. -/
theorem classify_eq_stage {line : String} {name content : List Char}
    (hoverall : isOverallHeader line.toList = false)
    (hsubStages : isSubStagesHeader line.toList = false)
    (hparts : stageParts? line.toList = some (name, content)) (hname : trim name ≠ []) :
    classify line = stage (String.ofList (trim name)) (String.ofList (trim content)) := by
  obtain ⟨hline, hne, -, -⟩ := stageParts?_eq_some_iff.1 hparts
  have hmem : '\x7b' ∈ line.toList := by
    rw [hline]
    simp
  have hopen : line.toList ≠ ['\x7b'] := by
    intro h
    have := congrArg List.length (hline.symm.trans h)
    simp only [List.length_append, List.length_cons, List.length_nil] at this
    omega
  have hclose : line.toList ≠ ['\x7d'] := by
    intro h
    have := congrArg List.length (hline.symm.trans h)
    simp only [List.length_append, List.length_cons, List.length_nil] at this
    omega
  unfold classify
  simp only [hoverall, hsubStages, Bool.false_eq_true, if_false, ofToken?_eq_none hmem, hopen,
    hclose, hparts, hname]

/-- The line of a stage, trimmed: the name without its leading blanks, then the rest as it is. -/
theorem exists_trimmed_stageText {name : String} (expr : String)
    (hname : trim name.toList ≠ []) :
    ∃ after : List Char, (∀ c ∈ after, isBlank c = true ∧ c ∈ name.toList) ∧
      (trimmed (stageText (name, expr))).toList = trim name.toList ++
        ((after ++ [' ']) ++ '\x7b' :: (' ' :: (expr.toList ++ [' ']) ++ ['\x7d'])) := by
  obtain ⟨before, after, hsplit, hbefore, hafter⟩ := exists_blanks name.toList
  refine ⟨after, fun c hc => ⟨hafter c hc, ?_⟩, ?_⟩
  · rw [hsplit]
    exact List.mem_append_right _ hc
  · have hraw : (stageText (name, expr)).toList =
        before ++ (trim name.toList ++ (after ++ " \x7b ".toList ++ expr.toList ++ [' ']) ++
          ['\x7d']) ++ [] := by
      simp only [stageText, String.toList_append]
      conv_lhs => rw [hsplit]
      simp
    have htrimmed := isTrimmed_append (b := after ++ " \x7b ".toList ++ expr.toList ++ [' '])
      (c := ['\x7d']) (isTrimmed_trim name.toList) hname (by decide) (by decide)
    rw [toList_trimmed, hraw, trim_between hbefore (by simp), trim_eq_self htrimmed]
    simp

theorem isBlank_append_space {after : List Char} (h : ∀ c ∈ after, isBlank c = true) :
    ∀ c ∈ after ++ [' '], isBlank c = true := by
  intro c hc
  rcases List.mem_append.1 hc with hc | hc
  · exact h c hc
  · rw [List.mem_singleton.1 hc]
    decide

theorem isBrace_append_space {s : List Char} (h : ∀ c ∈ s, isBrace c = false) :
    ∀ c ∈ s ++ [' '], isBrace c = false := by
  intro c hc
  rcases List.mem_append.1 hc with hc | hc
  · exact h c hc
  · rw [List.mem_singleton.1 hc]
    decide

/-- The line of a stage, trimmed, is that stage, trimmed. -/
theorem classify_stageText {stage : String × String} (h : WritableStage stage)
    (hname : trimmed stage.1 ≠ "") :
    classify (trimmed (stageText stage)) = .stage (trimmed stage.1) (trimmed stage.2) := by
  obtain ⟨name, expr⟩ := stage
  obtain ⟨⟨-, hunbraced, hoverall, hsubStages⟩, -, hunbraced'⟩ := h
  dsimp only at hname hunbraced hoverall hsubStages hunbraced' ⊢
  rw [trimmed_ne_empty_iff] at hname
  obtain ⟨after, hafter, hline⟩ := exists_trimmed_stageText expr hname
  have hblanks := isBlank_append_space fun c hc => (hafter c hc).1
  have hheader : ∀ word, IsHeaderWord word → beginsWith word (trim name.toList) = false →
      beginsWith word (trimmed (stageText (name, expr))).toList = false := by
    intro word hword hnot
    rw [hline, Bool.eq_false_iff]
    exact mt (beginsWith_of_append_brace hword hblanks) (Bool.eq_false_iff.1 hnot)
  have hparts : stageParts? (trimmed (stageText (name, expr))).toList =
      some (trim name.toList ++ (after ++ [' ']), ' ' :: (expr.toList ++ [' '])) := by
    rw [stageParts?_eq_some_iff, hline]
    refine ⟨by simp, by simp, fun c hc => ?_, ?_⟩
    · rcases List.mem_append.1 hc with hc | hc
      · exact hunbraced c (mem_of_mem_trim hc)
      · exact isBrace_append_space (fun d hd => hunbraced d (hafter d hd).2) c hc
    · exact List.forall_mem_cons.2 ⟨by decide, isBrace_append_space hunbraced'⟩
  have htrim : trim (trim name.toList ++ (after ++ [' '])) = trim name.toList := by
    have hright := trim_between (List.forall_mem_nil _) hblanks (s := trim name.toList)
    rw [List.nil_append] at hright
    rw [hright, trim_eq_self (isTrimmed_trim _)]
  have htrim' : trim (' ' :: (expr.toList ++ [' '])) = trim expr.toList := by
    have hblank : ∀ c ∈ [' '], isBlank c = true := List.forall_mem_singleton.2 (by decide)
    exact trim_between hblank hblank
  have hclassify := classify_eq_stage (hheader _ isHeaderWord_overall hoverall)
    (hheader _ isHeaderWord_subStages hsubStages) hparts (by rw [htrim]; exact hname)
  rw [htrim, htrim'] at hclassify
  exact hclassify

/-! ## What classification says of a line -/

theorem header?_classify_eq_none_iff {line : String} : (classify line).header? = none ↔
    isOverallHeader line.toList = false ∧ isSubStagesHeader line.toList = false := by
  cases hoverall : isOverallHeader line.toList with
  | true => simp [classify, hoverall, header?]
  | false =>
    cases hsubStages : isSubStagesHeader line.toList with
    | true => simp [classify, hoverall, hsubStages, header?]
    | false =>
      refine iff_of_true ?_ ⟨rfl, rfl⟩
      unfold classify
      simp only [hoverall, hsubStages, Bool.false_eq_true, if_false]
      split
      · rfl
      split
      · rfl
      split
      · rfl
      split
      · rfl
      split <;> rfl

theorem stageParts?_of_classify {line name expr : String} (h : classify line = stage name expr) :
    ∃ n e, stageParts? line.toList = some (n, e) ∧ trim n ≠ [] ∧ name = String.ofList (trim n) ∧
      expr = String.ofList (trim e) := by
  unfold classify at h
  dsimp only at h
  -- Every other branch is a line of another kind.
  split at h
  · cases h
  split at h
  · cases h
  split at h
  · cases h
  split at h
  · cases h
  split at h
  · cases h
  split at h
  · cases h
  next n e hparts =>
    split at h
    · cases h
    next hne =>
      cases h
      exact ⟨n, e, hparts, hne, rfl, rfl⟩

end Flowline.Definition.Line
