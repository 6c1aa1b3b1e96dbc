import Flowline.Text.Arrow
import Flowline.Proofs.Text.Blank
import Mathlib.Data.List.Forall2
import Mathlib.Data.List.Infix

/-!
# Cutting a text at a separator

* `Cuts sep s pieces`: the pieces, with the separator between them, are the text, and the separator
  is in none of them. `cuts_iff_splitArrow`, `cuts_iff_splitOn`: these are the pieces at the arrows
  and at a character, since two occurrences of such a separator never overlap. Hence pieces that are
  put together are found again, whatever they begin or end with.
* `infix_append_cons`: a character that is not in a word keeps its occurrences apart. So blanks
  around a text hide none and make none (`Padded.infix_of_infix`).
* `namesOf_eq_of_padded`: pieces that are names with blanks around them give the names.
-/

namespace Flowline.Text

/-! ## Pieces -/

/-- The pieces with the separator between them are the text, and the separator is in none of
them. -/
structure Cuts (sep s : List Char) (pieces : List (List Char)) : Prop where
  joined : sep.intercalate pieces = s
  free : ∀ piece ∈ pieces, ¬ sep <:+: piece
  ne_nil : pieces ≠ []

section Cuts

variable {sep s piece : List Char} {pieces : List (List Char)}

theorem mem_of_mem_intercalate {c : Char} (h : c ∈ sep.intercalate pieces) :
    c ∈ sep ∨ ∃ piece ∈ pieces, c ∈ piece := by
  induction pieces with
  | nil => cases h
  | cons piece rest ih =>
    cases rest with
    | nil =>
      rw [List.intercalate_singleton] at h
      exact .inr ⟨piece, List.mem_cons_self, h⟩
    | cons next rest =>
      rw [List.intercalate_cons_cons, List.append_assoc, List.mem_append, List.mem_append] at h
      rcases h with h | h | h
      · exact .inr ⟨piece, List.mem_cons_self, h⟩
      · exact .inl h
      · rcases ih h with h | ⟨piece', hpiece', h⟩
        · exact .inl h
        · exact .inr ⟨piece', List.mem_cons_of_mem _ hpiece', h⟩

/-- A text is its own only piece exactly if the separator is not in it. -/
theorem cuts_singleton_iff : Cuts sep s [s] ↔ ¬ sep <:+: s := by
  constructor
  · exact fun h => h.free s List.mem_cons_self
  · exact fun h => ⟨List.intercalate_singleton, by simpa using h, List.cons_ne_nil _ _⟩

theorem Cuts.cons (h : Cuts sep s pieces) (hpiece : ¬ sep <:+: piece) :
    Cuts sep (piece ++ sep ++ s) (piece :: pieces) where
  joined := by rw [List.intercalate_cons_of_ne_nil h.ne_nil, h.joined]
  free := List.forall_mem_cons.2 ⟨hpiece, h.free⟩
  ne_nil := List.cons_ne_nil _ _

theorem Cuts.infix_of_mem (h : Cuts sep s pieces) (hpiece : piece ∈ pieces) : piece <:+: s := by
  obtain ⟨rfl, -, -⟩ := h
  induction pieces with
  | nil => cases hpiece
  | cons first rest ih =>
    cases rest with
    | nil =>
      rw [List.mem_singleton.1 hpiece, List.intercalate_singleton]
    | cons next rest =>
      rw [List.intercalate_cons_cons]
      rcases List.mem_cons.1 hpiece with rfl | hpiece
      · rw [List.append_assoc]
        exact (List.prefix_append _ _).isInfix
      · exact (ih hpiece).trans (List.suffix_append _ _).isInfix

/-- A character in front of a text is in front of its first piece, unless a separator begins with
it. -/
theorem Cuts.modifyHead (h : Cuts sep s pieces) {c : Char} (hc : ¬ sep <+: c :: s) :
    Cuts sep (c :: s) (pieces.modifyHead (c :: ·)) := by
  obtain ⟨first, rest, rfl⟩ := List.exists_cons_of_ne_nil h.ne_nil
  have hjoined : sep.intercalate ((c :: first) :: rest) = c :: s := by
    have hs := h.joined
    cases rest with
    | nil => rw [List.intercalate_singleton] at hs ⊢; rw [hs]
    | cons next rest =>
      rw [List.intercalate_cons_cons] at hs ⊢
      exact congrArg (List.cons c) hs
  refine ⟨hjoined, List.forall_mem_cons.2 ⟨fun hin => ?_, ?_⟩, List.cons_ne_nil _ _⟩
  · have hfirst : first <+: s := by
      rw [← h.joined]
      cases rest with
      | nil => rw [List.intercalate_singleton]
      | cons next rest =>
        rw [List.intercalate_cons_cons, List.append_assoc]
        exact List.prefix_append _ _
    rcases List.infix_cons_iff.1 hin with hbegin | hin
    · exact hc (hbegin.trans (List.cons_prefix_cons.2 ⟨rfl, hfirst⟩))
    · exact h.free first List.mem_cons_self hin
  · exact fun piece hpiece => h.free piece (List.mem_cons_of_mem _ hpiece)

/-- What cuts off a first piece at a time gives the pieces. -/
theorem Cuts.eq_of_forall {f : List Char → List (List Char)} (h : Cuts sep s pieces)
    (hlast : ∀ {a}, ¬ sep <:+: a → f a = [a])
    (hcons : ∀ {a}, ¬ sep <:+: a → ∀ t, f (a ++ sep ++ t) = a :: f t) : f s = pieces := by
  obtain ⟨rfl, hfree, hne⟩ := h
  induction pieces with
  | nil => exact absurd rfl hne
  | cons piece rest ih =>
    obtain ⟨hpiece, hrest⟩ := List.forall_mem_cons.1 hfree
    cases rest with
    | nil => rw [List.intercalate_singleton, hlast hpiece]
    | cons next rest =>
      rw [List.intercalate_cons_cons, hcons hpiece, ih hrest (List.cons_ne_nil _ _)]

end Cuts

/-! ## Words among other characters -/

/-- A character that is not in a word keeps its occurrences apart. -/
theorem infix_append_cons {w a b : List Char} {c : Char} (hc : c ∉ w) (h : w <:+: a ++ c :: b) :
    w <:+: a ∨ w <:+: b := by
  rcases List.infix_append_iff.1 h with h | h | ⟨u, v, rfl, hu, hv⟩
  · exact .inl h
  · rcases List.infix_cons_iff.1 h with h | h
    · cases w with
      | nil => exact .inl (List.nil_infix)
      | cons d w => exact absurd ((List.cons_prefix_cons.1 h).1 ▸ List.mem_cons_self) hc
    · exact .inr h
  · cases v with
    | nil => exact .inl ((List.append_nil u).symm ▸ hu.isInfix)
    | cons d v =>
      refine absurd (List.mem_append_right u ?_) hc
      exact (List.cons_prefix_cons.1 hv).1 ▸ List.mem_cons_self

/-- The second text is the first one with blanks around it. -/
def Padded (s t : List Char) : Prop :=
  ∃ before after, t = before ++ s ++ after ∧
    (∀ c ∈ before, isBlank c = true) ∧ ∀ c ∈ after, isBlank c = true

/-- A word without blanks is in a text if it is in the text with blanks around it. -/
theorem Padded.infix_of_infix {w s t : List Char} (h : Padded s t) (hw : ∀ c ∈ w, isBlank c = false)
    (hne : w ≠ []) (hin : w <:+: t) : w <:+: s := by
  obtain ⟨before, after, rfl, hbefore, hafter⟩ := h
  -- No part of the word lies in the blanks.
  have hpart : ∀ {part blanks : List Char}, part ⊆ w → (∀ c ∈ blanks, isBlank c = true) →
      part <:+: blanks → part = [] := by
    intro part blanks hsub hblanks hin
    refine List.eq_nil_iff_forall_not_mem.2 fun c hc => ?_
    have hblank := hblanks c (hin.mem hc)
    rw [hw c (hsub hc)] at hblank
    cases hblank
  have hleft : w <:+: before ++ s := by
    rcases List.infix_append_iff.1 hin with h | h | ⟨u, v, rfl, hu, hv⟩
    · exact h
    · exact absurd (hpart (List.Subset.refl w) hafter h) hne
    · rw [hpart (List.subset_append_right u v) hafter hv.isInfix, List.append_nil]
      exact hu.isInfix
  rcases List.infix_append_iff.1 hleft with h | h | ⟨u, v, rfl, hu, hv⟩
  · exact absurd (hpart (List.Subset.refl w) hbefore h) hne
  · exact h
  · rw [hpart (List.subset_append_left u v) hbefore hu.isInfix, List.nil_append]
    exact hv.isInfix

theorem Padded.trim_eq {s t : List Char} (h : Padded s t) (hs : IsTrimmed s) : trim t = s := by
  obtain ⟨before, after, rfl, hbefore, hafter⟩ := h
  rw [trim_between hbefore hafter, trim_eq_self hs]

theorem padded_self (s : List Char) : Padded s s := ⟨[], [], by simp, by simp, by simp⟩

/-! ## Names -/

theorem mem_namesOf {pieces : List (List Char)} {name : String} :
    name ∈ namesOf pieces ↔ ∃ piece ∈ pieces, trim piece ≠ [] ∧ name.toList = trim piece := by
  simp only [namesOf, List.mem_map, List.mem_filter, decide_eq_true_eq]
  constructor
  · rintro ⟨_, ⟨⟨piece, hpiece, rfl⟩, hne⟩, rfl⟩
    exact ⟨piece, hpiece, hne, String.toList_ofList⟩
  · rintro ⟨piece, hpiece, hne, hname⟩
    exact ⟨trim piece, ⟨⟨piece, hpiece, rfl⟩, hne⟩, by rw [← hname, String.ofList_toList]⟩

/-- A text that can be a name between separators. -/
def IsName (s : String) : Prop := s ≠ "" ∧ IsTrimmed s.toList

instance (s : String) : Decidable (IsName s) := inferInstanceAs (Decidable (_ ∧ _))

theorem isName_of_mem_namesOf {pieces : List (List Char)} {name : String}
    (h : name ∈ namesOf pieces) : IsName name := by
  obtain ⟨piece, -, hne, hname⟩ := mem_namesOf.1 h
  refine ⟨?_, hname ▸ isTrimmed_trim piece⟩
  rintro rfl
  exact hne hname.symm

theorem namesOf_eq_of_padded {names : List String} {pieces : List (List Char)}
    (h : List.Forall₂ (fun name piece => Padded name.toList piece) names pieces)
    (hnames : ∀ name ∈ names, IsName name) : namesOf pieces = names := by
  induction h with
  | nil => rfl
  | @cons name piece names pieces hpadded _ ih =>
    obtain ⟨⟨hne, htrimmed⟩, hnames⟩ := List.forall_mem_cons.1 hnames
    have hkept : name.toList ≠ [] := mt String.toList_eq_nil_iff.1 hne
    have hrest : namesOf (piece :: pieces) = name :: namesOf pieces := by
      unfold namesOf
      rw [List.map_cons, hpadded.trim_eq htrimmed, List.filter_cons_of_pos (by simpa using hkept),
        List.map_cons, String.ofList_toList]
    rw [hrest, ih hnames]

/-! ## At a character -/

theorem cuts_splitOn (c : Char) (s : List Char) : Cuts [c] s (s.splitOn c) where
  joined := List.intercalate_splitOn c
  free _ hpiece hin := not_mem_of_mem_splitOn hpiece ((List.singleton_infix_iff c _).1 hin)
  ne_nil := List.splitOn_ne_nil c s

theorem cuts_iff_splitOn {c : Char} {s : List Char} {pieces : List (List Char)} :
    Cuts [c] s pieces ↔ s.splitOn c = pieces := by
  constructor
  · rintro ⟨rfl, hfree, hne⟩
    exact List.splitOn_intercalate c
      (fun piece hpiece => mt (List.singleton_infix_iff c piece).2 (hfree piece hpiece)) hne
  · rintro rfl
    exact cuts_splitOn c s

/-! ## At the arrows -/

/-- The separator of a chain. -/
def arrow : List Char := ['-', '>']

theorem forall_mem_arrow {p : Char → Prop} : (∀ c ∈ arrow, p c) ↔ p '-' ∧ p '>' := by
  rw [arrow, List.forall_mem_cons, List.forall_mem_singleton]

theorem splitArrow_cons {c : Char} {s : List Char} (h : ¬ arrow <+: c :: s) :
    splitArrow (c :: s) = (splitArrow s).modifyHead (c :: ·) := by
  rw [splitArrow]
  rintro t rfl rfl
  exact h ⟨t, rfl⟩

theorem splitArrow_eq_singleton {a : List Char} (h : ¬ arrow <:+: a) : splitArrow a = [a] := by
  induction a with
  | nil => rfl
  | cons c a ih =>
    rw [splitArrow_cons (mt List.IsPrefix.isInfix h),
      ih (mt (List.infix_cons (a := c)) h)]
    rfl

theorem splitArrow_append {a : List Char} (h : ¬ arrow <:+: a) (t : List Char) :
    splitArrow (a ++ arrow ++ t) = a :: splitArrow t := by
  induction a with
  | nil => rfl
  | cons c a ih =>
    have hbegin : ¬ arrow <+: c :: (a ++ arrow ++ t) := by
      intro hbegin
      obtain ⟨hc, hnext⟩ := List.cons_prefix_cons.1 hbegin
      cases a with
      | nil => exact absurd (List.cons_prefix_cons.1 hnext).1 (by decide)
      | cons d a =>
        obtain ⟨hd, -⟩ := List.cons_prefix_cons.1 hnext
        exact h ⟨[], a, by rw [← hc, ← hd]; rfl⟩
    rw [List.cons_append, List.cons_append, splitArrow_cons hbegin,
      ih (mt (List.infix_cons (a := c)) h)]
    rfl

theorem cuts_splitArrow (s : List Char) : Cuts arrow s (splitArrow s) := by
  fun_induction splitArrow s with
  | case1 s ih =>
    have hnil : ¬ arrow <:+: [] := by simp [arrow]
    exact ih.cons hnil
  | case2 c s h ih =>
    refine ih.modifyHead fun ⟨t, ht⟩ => ?_
    obtain ⟨rfl, rfl⟩ := List.cons.inj ht
    exact h t rfl rfl
  | case3 => exact cuts_singleton_iff.2 (by simp [arrow])

theorem cuts_iff_splitArrow {s : List Char} {pieces : List (List Char)} :
    Cuts arrow s pieces ↔ splitArrow s = pieces := by
  constructor
  · exact fun h => h.eq_of_forall splitArrow_eq_singleton fun ha => splitArrow_append ha
  · rintro rfl
    exact cuts_splitArrow s

theorem hasArrow_iff {s : List Char} : hasArrow s = true ↔ arrow <:+: s := by
  fun_induction hasArrow s with
  | case1 t => exact iff_of_true rfl ⟨[], t, rfl⟩
  | case2 c t h ih =>
    rw [ih, List.infix_cons_iff, or_iff_right]
    rintro ⟨u, hu⟩
    obtain ⟨rfl, rfl⟩ := List.cons.inj hu
    exact h u rfl rfl
  | case3 => exact iff_of_false Bool.false_ne_true (by simp [arrow])

end Flowline.Text
