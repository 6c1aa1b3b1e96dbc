import Flowline.Graph.Ids
import Mathlib.Data.List.Perm.Subperm
import Mathlib.Data.List.Nodup

/-!
# Every id is handed out once

`Ids.claim` hands out the base that it is asked for, or the base with the least free number.

* `idFor_of_not_mem`, `idFor_of_mem`: which of the two, and which number. The search always ends
  with a free number, since there is one candidate more than there are ids in use (`exists_free`).
* `Hands before after given`: a passage from one supply to another that handed out exactly the ids
  of a list. It is composed of claims by `Hands.append`, and no id of such a list is repeated or
  was in use before.
* `AgreeOn p a b`: of the ids with a property the same ones are in use. If the ids that begin with a
  base all have it, two such supplies hand out the same id for this base (`AgreeOn.idFor_eq`).
* `claimAll`: the ids that a list of bases gets. A base is kept exactly if no earlier id is the same
  (`getElem?_claimAll_eq_iff`), so all are kept exactly if they are distinct
  (`claimAll_eq_self_iff`).
-/

namespace Flowline.Ids

/-! ## One claim -/

theorem numbered_injective (base : String) : Function.Injective (numbered base) := by
  intro m n h
  have hdigits : Nat.toDigits 10 m = Nat.toDigits 10 n := by
    have := congrArg String.toList ((String.append_right_inj (base ++ "-")).1 h)
    simpa using this
  rw [← Nat.ofDigitChars_ten_toDigits (n := m), hdigits, Nat.ofDigitChars_ten_toDigits]

/-- One of the candidates is free: there are more of them than ids in use. -/
theorem exists_free (ids : Ids) (base : String) : ∃ id ∈ ids.candidates base, id ∉ ids.used := by
  by_contra hall
  have hsub : ids.candidates base ⊆ ids.used := by
    intro id hid
    by_contra hfree
    exact hall ⟨id, hid, hfree⟩
  have hnodup : (ids.candidates base).Nodup :=
    List.Nodup.map (numbered_injective base) List.nodup_range'
  have hle := (hnodup.subperm hsub).length_le
  simp only [candidates, List.length_map, List.length_range'] at hle
  omega

theorem idFor_of_not_mem {ids : Ids} {base : String} (h : base ∉ ids.used) :
    ids.idFor base = base := if_neg h

theorem claim_of_not_mem {ids : Ids} {base : String} (h : base ∉ ids.used) :
    ids.claim base = (base, ⟨base :: ids.used⟩) := by
  rw [claim, idFor_of_not_mem h]

/-- A base that is taken gets the least number, from two on, with which it is free. -/
theorem idFor_of_mem {ids : Ids} {base : String} (h : base ∈ ids.used) :
    ∃ n, 2 ≤ n ∧ ids.idFor base = numbered base n ∧ numbered base n ∉ ids.used ∧
      ∀ m, 2 ≤ m → m < n → numbered base m ∈ ids.used := by
  obtain ⟨id, hid, hfree⟩ := ids.exists_free base
  rw [idFor, if_pos h, candidates, List.find?_map]
  cases hfind : (List.range' 2 (ids.used.length + 1)).find?
      ((fun id => decide (id ∉ ids.used)) ∘ numbered base) with
  | none =>
    obtain ⟨n, hn, rfl⟩ := List.mem_map.1 hid
    have := List.find?_eq_none.1 hfind n hn
    simp [hfree] at this
  | some n =>
    obtain ⟨hn, hmem, hleast⟩ := List.find?_range'_eq_some.1 hfind
    refine ⟨n, (List.mem_range'_1.1 hmem).1, rfl, by simpa using hn, fun m hm hlt => ?_⟩
    simpa using hleast m hm hlt

theorem idFor_not_mem (ids : Ids) (base : String) : ids.idFor base ∉ ids.used := by
  by_cases h : base ∈ ids.used
  · obtain ⟨n, -, hid, hfree, -⟩ := idFor_of_mem h
    rwa [hid]
  · rwa [idFor_of_not_mem h]

theorem idFor_eq_self_iff {ids : Ids} {base : String} :
    ids.idFor base = base ↔ base ∉ ids.used := by
  constructor
  · intro h
    have hfree := ids.idFor_not_mem base
    rwa [h] at hfree
  · exact idFor_of_not_mem

/-- An id begins with the base that it was asked for. -/
theorem exists_idFor_eq_append (ids : Ids) (base : String) : ∃ s, ids.idFor base = base ++ s := by
  by_cases h : base ∈ ids.used
  · obtain ⟨n, -, hid, -, -⟩ := idFor_of_mem h
    exact ⟨"-" ++ n.repr, by rw [hid, numbered, String.append_assoc]⟩
  · exact ⟨"", by rw [idFor_of_not_mem h, String.append_empty]⟩

/-! ## Several claims -/

/-- Between the two supplies exactly the ids of the list were handed out, each of them new. -/
structure Hands (before after : Ids) (given : List String) : Prop where
  nodup : given.Nodup
  fresh : ∀ id ∈ given, id ∉ before.used
  used : ∀ id, id ∈ after.used ↔ id ∈ given ∨ id ∈ before.used

theorem Hands.refl (ids : Ids) : Hands ids ids [] where
  nodup := List.nodup_nil
  fresh := by simp
  used := by simp

theorem hands_claim (ids : Ids) (base : String) :
    Hands ids (ids.claim base).2 [(ids.claim base).1] where
  nodup := List.nodup_singleton _
  fresh := by
    intro id hid
    rw [List.mem_singleton.1 hid]
    exact idFor_not_mem ids base
  used := by
    intro id
    rw [List.mem_singleton]
    exact List.mem_cons

theorem Hands.append {a b c : Ids} {given given' : List String} (h : Hands a b given)
    (h' : Hands b c given') : Hands a c (given ++ given') where
  nodup := by
    refine List.nodup_append.2 ⟨h.nodup, h'.nodup, fun x hx y hy hxy => ?_⟩
    exact h'.fresh y hy ((h.used y).2 (Or.inl (hxy ▸ hx)))
  fresh := by
    intro id hid
    rcases List.mem_append.1 hid with hid | hid
    · exact h.fresh id hid
    · exact fun hused => h'.fresh id hid ((h.used id).2 (Or.inr hused))
  used := by
    intro id
    rw [h'.used, h.used, List.mem_append]
    tauto

/-! ## Two supplies -/

/-- Of the ids with the property the same ones are in use. -/
def AgreeOn (p : String → Prop) (a b : Ids) : Prop := ∀ id, p id → (id ∈ a.used ↔ id ∈ b.used)

section AgreeOn

variable {p : String → Prop} {a b c : Ids}

theorem AgreeOn.refl (p : String → Prop) (a : Ids) : AgreeOn p a a := fun _ _ => Iff.rfl

theorem AgreeOn.symm (h : AgreeOn p a b) : AgreeOn p b a := fun id hid => (h id hid).symm

theorem AgreeOn.trans (h : AgreeOn p a b) (h' : AgreeOn p b c) : AgreeOn p a c :=
  fun id hid => (h id hid).trans (h' id hid)

/-- The number that a base gets in one supply is not above the one that it gets in the other. -/
theorem AgreeOn.le_of_least {base : String} (h : AgreeOn p a b) (hp : ∀ s, p (base ++ s))
    {m n : Nat} (hm : 2 ≤ m) (hfree : numbered base m ∉ a.used)
    (hleast : ∀ k, 2 ≤ k → k < n → numbered base k ∈ b.used) : n ≤ m := by
  by_contra hlt
  have hid : p (numbered base m) := by
    rw [numbered, String.append_assoc]
    exact hp _
  exact hfree ((h _ hid).2 (hleast m hm (by omega)))

theorem AgreeOn.idFor_eq {base : String} (h : AgreeOn p a b) (hp : ∀ s, p (base ++ s)) :
    a.idFor base = b.idFor base := by
  have hbase : base ∈ a.used ↔ base ∈ b.used := h base (by simpa using hp "")
  by_cases hused : base ∈ a.used
  · obtain ⟨m, hm, hidm, hfreem, hleastm⟩ := idFor_of_mem hused
    obtain ⟨n, hn, hidn, hfreen, hleastn⟩ := idFor_of_mem (hbase.1 hused)
    have hnm : n ≤ m := h.le_of_least hp hm hfreem hleastn
    have hmn : m ≤ n := h.symm.le_of_least hp hn hfreen hleastm
    rw [hidm, hidn, Nat.le_antisymm hmn hnm]
  · rw [idFor_of_not_mem hused, idFor_of_not_mem (mt hbase.2 hused)]

theorem AgreeOn.claim (h : AgreeOn p a b) (base : String) (hp : ∀ s, p (base ++ s)) :
    (a.claim base).1 = (b.claim base).1 ∧ AgreeOn p (a.claim base).2 (b.claim base).2 := by
  have hid : a.idFor base = b.idFor base := h.idFor_eq hp
  refine ⟨hid, fun id hpid => ?_⟩
  simp only [Ids.claim, List.mem_cons, hid, h id hpid]

/-- A passage that hands out no id with the property does not show in those ids. -/
theorem Hands.agreeOn {given : List String} (h : Hands a b given) (hnot : ∀ id ∈ given, ¬ p id) :
    AgreeOn p a b := by
  intro id hid
  rw [h.used]
  exact (or_iff_right fun hgiven => hnot id hgiven hid).symm

end AgreeOn

/-! ## A list of bases -/

/-- Hands out ids for some bases in turn: the ids and the ids in use after them. -/
def claimAll : Ids → List String → List String × Ids
  | ids, [] => ([], ids)
  | ids, base :: bases =>
    let (id, ids) := ids.claim base
    let (rest, ids) := ids.claimAll bases
    (id :: rest, ids)

theorem claimAll_cons (ids : Ids) (base : String) (bases : List String) :
    ids.claimAll (base :: bases) =
      ((ids.claim base).1 :: ((ids.claim base).2.claimAll bases).1,
        ((ids.claim base).2.claimAll bases).2) := rfl

theorem hands_claimAll (ids : Ids) (bases : List String) :
    Hands ids (ids.claimAll bases).2 (ids.claimAll bases).1 := by
  induction bases generalizing ids with
  | nil => exact Hands.refl ids
  | cons base bases ih => exact (ids.hands_claim base).append (ih _)

theorem claimAll_append (ids : Ids) (before after : List String) :
    ids.claimAll (before ++ after) =
      ((ids.claimAll before).1 ++ ((ids.claimAll before).2.claimAll after).1,
        ((ids.claimAll before).2.claimAll after).2) := by
  induction before generalizing ids with
  | nil => rfl
  | cons base before ih =>
    rw [List.cons_append, claimAll_cons, ih, claimAll_cons, List.cons_append]

theorem length_claimAll (ids : Ids) (bases : List String) :
    (ids.claimAll bases).1.length = bases.length := by
  induction bases generalizing ids with
  | nil => rfl
  | cons base bases ih => exact congrArg Nat.succ (ih _)

/-- A base is kept exactly if it is not in use and no earlier base has got it as its id. -/
theorem getElem?_claimAll_eq_iff (ids : Ids) {bases : List String} {i : Nat}
    (h : i < bases.length) :
    (ids.claimAll bases).1[i]? = some bases[i] ↔
      bases[i] ∉ (ids.claimAll bases).1.take i ∧ bases[i] ∉ ids.used := by
  have hsplit : bases = bases.take i ++ bases[i] :: bases.drop (i + 1) := by
    rw [← List.drop_eq_getElem_cons h, List.take_append_drop]
  generalize bases[i] = base at hsplit ⊢
  have hlength : (ids.claimAll (bases.take i)).1.length = i := by
    rw [length_claimAll, List.length_take, Nat.min_eq_left (Nat.le_of_lt h)]
  -- The ids that come before are those of the earlier bases.
  have hids : (ids.claimAll bases).1 = (ids.claimAll (bases.take i)).1 ++
      ((ids.claimAll (bases.take i)).2.claimAll (base :: bases.drop (i + 1))).1 := by
    conv_lhs => rw [hsplit, claimAll_append]
  have hused := (hands_claimAll ids (bases.take i)).used base
  rw [hids, List.getElem?_append_right (by omega), List.take_left' hlength, hlength, Nat.sub_self,
    ← not_or, ← hused, ← idFor_eq_self_iff]
  exact Option.some_inj

/-- All bases are kept exactly if they are distinct and none is in use. -/
theorem claimAll_eq_self_iff {ids : Ids} {bases : List String} :
    (ids.claimAll bases).1 = bases ↔ bases.Nodup ∧ ∀ base ∈ bases, base ∉ ids.used := by
  constructor
  · intro h
    have hands := hands_claimAll ids bases
    rw [h] at hands
    exact ⟨hands.nodup, hands.fresh⟩
  · rintro ⟨hnodup, hfree⟩
    induction bases generalizing ids with
    | nil => rfl
    | cons base bases ih =>
      obtain ⟨hnot, hnodup⟩ := List.nodup_cons.1 hnodup
      obtain ⟨hbase, hfree⟩ := List.forall_mem_cons.1 hfree
      rw [claimAll_cons, claim_of_not_mem hbase]
      refine congrArg (List.cons base) (ih hnodup fun other hother hused => ?_)
      rcases List.mem_cons.1 hused with rfl | hused
      · exact hnot hother
      · exact hfree other hother hused

theorem AgreeOn.claimAll {p : String → Prop} {a b : Ids} (h : AgreeOn p a b) {bases : List String}
    (hp : ∀ base ∈ bases, ∀ s, p (base ++ s)) :
    (a.claimAll bases).1 = (b.claimAll bases).1 ∧
      AgreeOn p (a.claimAll bases).2 (b.claimAll bases).2 := by
  induction bases generalizing a b with
  | nil => exact ⟨rfl, h⟩
  | cons base bases ih =>
    obtain ⟨hbase, hbases⟩ := List.forall_mem_cons.1 hp
    obtain ⟨hid, hclaimed⟩ := h.claim base hbase
    obtain ⟨hrest, hafter⟩ := ih hclaimed hbases
    exact ⟨congrArg₂ List.cons hid hrest, hafter⟩

end Flowline.Ids
