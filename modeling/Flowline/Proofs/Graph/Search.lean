import Flowline.Proofs.Graph.Ids

/-!
# The search for a free number

A base that is taken is tried with 2, 3, 4, … until its id is free. `Tries` is this search as it
runs, one number after the other and without a bound; that it ends is a theorem and not part of
how it is written.

* `tries_iff`: the search from `n` on ends with the least number from `n` on with which the base is
  free, and with no other one.
* `le_length_of_taken`: all numbers before it are in use, and the base itself, so the number is at
  most one more than the number of ids in use. A counter of 32 bits with a sign holds it as long as
  fewer than 2147483647 ids are in use.
* `claim_search`: what a claim hands out is what this search ends with, and nothing else comes into
  use.
-/

namespace Flowline.Ids

variable {ids : Ids} {base : String}

/-- Trying the base with the numbers from the first one on ends with the second one. -/
inductive Tries (ids : Ids) (base : String) : Nat → Nat → Prop where
  | free {n : Nat} (h : numbered base n ∉ ids.used) : Tries ids base n n
  | taken {n m : Nat} (h : numbered base n ∈ ids.used) (rest : Tries ids base (n + 1) m) :
      Tries ids base n m

theorem tries_iff {n m : Nat} : ids.Tries base n m ↔
    n ≤ m ∧ numbered base m ∉ ids.used ∧ ∀ k, n ≤ k → k < m → numbered base k ∈ ids.used := by
  constructor
  · intro h
    induction h with
    | free hfree => exact ⟨Nat.le_refl _, hfree, fun k hnk hkn => by omega⟩
    | @taken n m htaken _ ih =>
      obtain ⟨hle, hfree, hbefore⟩ := ih
      refine ⟨by omega, hfree, fun k hnk hkm => ?_⟩
      rcases Nat.eq_or_lt_of_le hnk with rfl | hlt
      · exact htaken
      · exact hbefore k hlt hkm
  · rintro ⟨hle, hfree, hbefore⟩
    -- From the last number back to the first one.
    obtain ⟨d, rfl⟩ := Nat.exists_eq_add_of_le hle
    induction d generalizing n with
    | zero => exact .free hfree
    | succ d ih =>
      refine .taken (hbefore n (Nat.le_refl n) (by omega)) ?_
      rw [show n + (d + 1) = n + 1 + d by omega] at hfree hbefore ⊢
      exact ih (by omega) hfree fun k hk => hbefore k (by omega)

theorem numbered_ne_self (base : String) (n : Nat) : numbered base n ≠ base := by
  intro h
  have hlength := congrArg String.length h
  rw [numbered, String.length_append, String.length_append] at hlength
  have hdash : "-".length = 1 := rfl
  omega

/-- If the base and its ids before a number are taken, there are as many ids in use. -/
theorem le_length_of_taken {n : Nat} (hbase : base ∈ ids.used)
    (hbefore : ∀ k, 2 ≤ k → k < n → numbered base k ∈ ids.used) : n ≤ ids.used.length + 1 := by
  have hnodup : (base :: (List.range' 2 (n - 2)).map (numbered base)).Nodup := by
    refine List.nodup_cons.2 ⟨fun hmem => ?_, ?_⟩
    · obtain ⟨k, -, hk⟩ := List.mem_map.1 hmem
      exact numbered_ne_self base k hk
    · exact List.Nodup.map (numbered_injective base) List.nodup_range'
  have hsub : base :: (List.range' 2 (n - 2)).map (numbered base) ⊆ ids.used := by
    refine List.cons_subset.2 ⟨hbase, fun id hid => ?_⟩
    obtain ⟨k, hk, rfl⟩ := List.mem_map.1 hid
    have hrange := List.mem_range'_1.1 hk
    exact hbefore k hrange.1 (by omega)
  have hle := (hnodup.subperm hsub).length_le
  simp only [List.length_cons, List.length_map, List.length_range'] at hle
  omega

/-- A claim hands out an id that was not in use, and exactly this id comes into use. It is the base
if that was free. Otherwise the search from two on ends, and the id is the base with the number that
it ends with: the least one that was free, and at most one more than the number of ids in use. -/
theorem claim_search (ids : Ids) (base : String) :
    (ids.claim base).1 ∉ ids.used ∧
    (∀ id, id ∈ (ids.claim base).2.used ↔ id = (ids.claim base).1 ∨ id ∈ ids.used) ∧
    ((base ∉ ids.used ∧ (ids.claim base).1 = base) ∨
      (base ∈ ids.used ∧ ∃ n, (∀ m, ids.Tries base 2 m ↔ m = n) ∧
        2 ≤ n ∧ n ≤ ids.used.length + 1 ∧
        (ids.claim base).1 = base ++ "-" ++ n.repr ∧ base ++ "-" ++ n.repr ∉ ids.used ∧
        ∀ k, 2 ≤ k → k < n → base ++ "-" ++ k.repr ∈ ids.used)) := by
  refine ⟨idFor_not_mem ids base, fun id => List.mem_cons, ?_⟩
  by_cases hbase : base ∈ ids.used
  · obtain ⟨n, hn, hid, hfree, hbefore⟩ := idFor_of_mem hbase
    refine .inr ⟨hbase, n, fun m => ⟨fun h => ?_, ?_⟩, hn, le_length_of_taken hbase hbefore, hid,
      hfree, hbefore⟩
    · obtain ⟨hm, hfree', hbefore'⟩ := tries_iff.1 h
      have hmn : ¬ m < n := fun hlt => hfree' (hbefore m hm hlt)
      have hnm : ¬ n < m := fun hlt => hfree (hbefore' n hn hlt)
      omega
    · rintro rfl
      exact tries_iff.2 ⟨hn, hfree, hbefore⟩
  · exact .inl ⟨hbase, idFor_of_not_mem hbase⟩

/-- Ids in use that look like numbered ones, in any order, are passed over, also those that are
numbered twice. -/
example : ((⟨["A-3", "A-2-2", "A", "A-02", "A-2"]⟩ : Ids).claim "A").1 = "A-4" := by decide

end Flowline.Ids
