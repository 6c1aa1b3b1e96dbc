import Mathlib.Data.List.Induction

/-!
# Lists that grow at the end

Things are recorded one after the other, so most proofs about what has been recorded add one element
at the end. These lemmas say what that does to a list without its repetitions (`eraseDups_concat`),
to the places of the elements (`concat_eq_append_cons`, `idxOf?_concat_self`), and how one chooses
among lists that are put together (`filter_flatMap_eq`).
-/

namespace Flowline

section Repetitions

variable {α : Type} [BEq α] [LawfulBEq α]

/-- A list grows by an element that it has already, or by a new last one. -/
theorem eraseDups_concat (l : List α) (a : α) :
    (l ++ [a]).eraseDups = if a ∈ l.eraseDups then l.eraseDups else l.eraseDups ++ [a] := by
  rw [List.eraseDups_append]
  by_cases h : a ∈ l
  · simp [List.removeAll, h]
  · simp [List.removeAll, h, List.eraseDups_cons]

theorem nodup_eraseDups (l : List α) : l.eraseDups.Nodup := by
  induction l using List.reverseRecOn with
  | nil => exact List.nodup_nil
  | append_singleton l a ih =>
    rw [eraseDups_concat]
    split
    · exact ih
    · next h =>
      refine List.nodup_append.2 ⟨ih, List.pairwise_singleton _ a, ?_⟩
      intro b hb c hc
      rw [List.mem_singleton.1 hc]
      rintro rfl
      exact h hb

theorem eraseDups_of_nodup {l : List α} (h : l.Nodup) : l.eraseDups = l := by
  induction l using List.reverseRecOn with
  | nil => rfl
  | append_singleton l a ih =>
    obtain ⟨hl, -, hnot⟩ := List.nodup_append.1 h
    have ha : a ∉ l := fun ha => hnot a ha a (List.mem_singleton_self a) rfl
    rw [eraseDups_concat, ih hl, if_neg ha]

/-- Repetitions within the second list are repetitions in both lists together. -/
theorem eraseDups_append_eraseDups (l m : List α) :
    (l ++ m.eraseDups).eraseDups = (l ++ m).eraseDups := by
  induction m using List.reverseRecOn with
  | nil => rfl
  | append_singleton m a ih =>
    rw [eraseDups_concat, ← List.append_assoc, eraseDups_concat, ← ih]
    split
    · next h =>
      have hmem : a ∈ (l ++ m.eraseDups).eraseDups :=
        List.mem_eraseDups.2 (List.mem_append_right _ h)
      rw [if_pos hmem]
    · rw [← List.append_assoc, eraseDups_concat]

end Repetitions

/-! ## Places -/

/-- An element of a list that has grown by one is the new one, or was there before. -/
theorem concat_eq_append_cons {α : Type} {xs before after : List α} {a b : α}
    (h : xs ++ [a] = before ++ b :: after) :
    (xs = before ∧ a = b ∧ after = []) ∨
      ∃ rest, after = rest ++ [a] ∧ xs = before ++ b :: rest := by
  rcases List.eq_nil_or_concat after with rfl | ⟨rest, c, rfl⟩
  · obtain ⟨hxs, hlast⟩ := List.append_inj' h rfl
    exact .inl ⟨hxs, List.singleton_inj.1 hlast, rfl⟩
  · have hsplit : xs ++ [a] = (before ++ b :: rest) ++ [c] := by simpa using h
    obtain ⟨hxs, hlast⟩ := List.append_inj' hsplit rfl
    obtain rfl := List.singleton_inj.1 hlast
    exact .inr ⟨rest, by simp, hxs⟩

theorem idxOf?_concat_of_ne {α : Type} [DecidableEq α] {a b : α} (h : b ≠ a) (xs : List α) :
    (xs ++ [b]).idxOf? a = xs.idxOf? a := by
  have hb : (b == a) = false := beq_false_of_ne h
  rw [List.idxOf?, List.findIdx?_append, List.findIdx?_singleton, hb]
  simp

theorem idxOf?_concat_self {α : Type} [DecidableEq α] {a : α} {xs : List α} (h : a ∉ xs) :
    (xs ++ [a]).idxOf? a = some xs.length := by
  have hnone : xs.idxOf? a = none := List.idxOf?_eq_none_iff.2 h
  rw [List.idxOf?] at hnone ⊢
  rw [List.findIdx?_append, hnone]
  simp

/-! ## Choosing -/

/-- What is chosen of the lists of some elements, if the elements decide it. -/
theorem filter_flatMap_eq {α β : Type} {f : α → List β} {p : β → Bool} {q : α → Bool} {l : List α}
    (h : ∀ a ∈ l, ∀ b ∈ f a, p b = q a) : (l.flatMap f).filter p = (l.filter q).flatMap f := by
  induction l with
  | nil => rfl
  | cons a l ih =>
    obtain ⟨ha, hl⟩ := List.forall_mem_cons.1 h
    rw [List.flatMap_cons, List.filter_append, ih hl]
    cases hq : q a with
    | false =>
      have hnone : (f a).filter p = [] :=
        List.filter_eq_nil_iff.2 fun b hb => by simp [ha b hb, hq]
      rw [hnone, List.filter_cons_of_neg (by simp [hq]), List.nil_append]
    | true =>
      have hall : (f a).filter p = f a := List.filter_eq_self.2 fun b hb => by rw [ha b hb, hq]
      rw [hall, List.filter_cons_of_pos hq, List.flatMap_cons]

end Flowline
