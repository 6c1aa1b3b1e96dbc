import Flowline.NameMap
import Flowline.Proofs.Lists
import Flowline.Table

/-!
# Maps and the pairs that they are made from

A map or a table made from pairs has no entries but those (`mem_of_mem_ofList`), and a map is made
again from its own entries (`NameMap.ofList_entries`). Inserting pairs into a table one after the
other does what inserting the entries of their own table does (`Table.insertAll_ofList`).
-/

namespace Flowline

namespace NameMap

variable {α : Type}

theorem entries_foldl_insert (m : NameMap α) {pairs : List (String × α)}
    (h : (m.entries ++ pairs).Pairwise fun a b => a.1 < b.1) :
    (pairs.foldl (fun m p => m.insert p.1 p.2) m).entries = m.entries ++ pairs := by
  induction pairs generalizing m with
  | nil => simp
  | cons p pairs ih =>
    have hplace : ∀ es : List (String × α), (∀ e ∈ es, e.1 < p.1) →
        place p.1 (fun _ => p.2) es = es ++ [p] := by
      intro es hes
      induction es with
      | nil => rfl
      | cons e es ihes =>
        have hlt := hes e List.mem_cons_self
        have hnlt : ¬ p.1 < e.1 := fun h => String.lt_irrefl _ (String.lt_trans h hlt)
        have hne : e.1 ≠ p.1 := fun h => String.lt_irrefl _ (h ▸ hlt)
        rw [place, if_neg hnlt, if_neg hne, ihes fun e' he' => hes e' (List.mem_cons_of_mem _ he'),
          List.cons_append]
    have hinsert : (m.insert p.1 p.2).entries = m.entries ++ [p] :=
      hplace m.entries fun e he => (List.pairwise_append.1 h).2.2 e he p List.mem_cons_self
    rw [List.foldl_cons, ih, hinsert, List.append_assoc]
    · rfl
    · rw [hinsert, List.append_assoc]
      exact h

theorem eq_of_entries {m n : NameMap α} (h : m.entries = n.entries) : m = n := by
  obtain ⟨es, hes⟩ := m
  obtain ⟨fs, hfs⟩ := n
  cases h
  rfl

/-- Pairs in the order of their names are the entries of the map that they make. -/
theorem entries_ofList {pairs : List (String × α)} (h : pairs.Pairwise fun a b => a.1 < b.1) :
    (ofList pairs).entries = pairs := entries_foldl_insert empty h

theorem ofList_entries (m : NameMap α) : ofList m.entries = m :=
  eq_of_entries (entries_ofList m.sorted)

/-- A function leaves a map as it is if and only if it leaves each of its values so. -/
theorem mapValues_eq_self_iff {m : NameMap α} {f : α → α} :
    m.mapValues f = m ↔ ∀ e ∈ m.entries, f e.2 = e.2 := by
  constructor
  · intro h e he
    have hentries : m.entries.map (fun e => (e.1, f e.2)) = m.entries.map id :=
      (congrArg entries h).trans (List.map_id _).symm
    exact congrArg Prod.snd (List.map_inj_left.1 hentries e he)
  · intro h
    have hentries : m.entries.map (fun e => (e.1, f e.2)) = m.entries.map id :=
      List.map_congr_left fun e he => Prod.ext rfl (h e he)
    exact eq_of_entries (hentries.trans (List.map_id _))

theorem mem_place {name : String} {f : Option α → α} {es : List (String × α)} {e : String × α}
    (h : e ∈ place name f es) : e ∈ es ∨ ∃ old, e = (name, f old) := by
  induction es with
  | nil => exact .inr ⟨none, List.mem_singleton.1 h⟩
  | cons a es ih =>
    obtain ⟨n, v⟩ := a
    rw [place] at h
    split at h
    · rcases List.mem_cons.1 h with rfl | h
      · exact .inr ⟨none, rfl⟩
      · exact .inl h
    · split at h
      · next hn =>
        rcases List.mem_cons.1 h with rfl | h
        · exact .inr ⟨some v, by rw [hn]⟩
        · exact .inl (List.mem_cons_of_mem _ h)
      · rcases List.mem_cons.1 h with rfl | h
        · exact .inl List.mem_cons_self
        · rcases ih h with h | h
          · exact .inl (List.mem_cons_of_mem _ h)
          · exact .inr h

/-- The entries of a map all come from the pairs that it is made from. -/
theorem mem_of_mem_ofList {pairs : List (String × α)} {e : String × α}
    (h : e ∈ (ofList pairs).entries) : e ∈ pairs := by
  have hfold : ∀ m : NameMap α, e ∈ (pairs.foldl (fun m p => m.insert p.1 p.2) m).entries →
      e ∈ m.entries ∨ e ∈ pairs := by
    clear h
    induction pairs with
    | nil => exact fun m h => .inl h
    | cons p pairs ih =>
      intro m h
      rcases ih _ h with h | h
      · rcases mem_place h with h | ⟨_, rfl⟩
        · exact .inl h
        · exact .inr List.mem_cons_self
      · exact .inr (List.mem_cons_of_mem _ h)
  exact (hfold empty h).resolve_left (List.not_mem_nil)

theorem find_eq_some_iff {name : String} {v : α} {es : List (String × α)}
    (h : es.Pairwise fun a b => a.1 < b.1) : find name es = some v ↔ (name, v) ∈ es := by
  induction es with
  | nil => simp [find]
  | cons e es ih =>
    obtain ⟨n, w⟩ := e
    obtain ⟨hlt, hes⟩ := List.pairwise_cons.1 h
    rw [find, List.mem_cons]
    split
    · next hn =>
      subst hn
      have hnot : (n, v) ∉ es := fun hmem => String.lt_irrefl n (hlt _ hmem)
      simp [hnot, eq_comm]
    · next hn =>
      have hne : (name, v) ≠ (n, w) := fun heq => hn (Prod.mk.inj heq).1.symm
      simp [hne, ih hes]

theorem get?_eq_some_iff {m : NameMap α} {name : String} {v : α} :
    m.get? name = some v ↔ (name, v) ∈ m.entries := find_eq_some_iff m.sorted

theorem find_append (name : String) (es fs : List (String × α)) :
    find name (es ++ fs) = (find name es).or (find name fs) := by
  induction es with
  | nil => rfl
  | cons e es ih =>
    rw [List.cons_append, find, find]
    split
    · rfl
    · exact ih

theorem find_eq_none_iff {name : String} {es : List (String × α)} :
    find name es = none ↔ name ∉ es.map Prod.fst := by
  rw [← isSome_find, Bool.not_eq_true, Option.isSome_eq_false_iff,
    Option.isNone_iff_eq_none]

theorem mem_of_find {name : String} {es : List (String × α)} {v : α}
    (h : find name es = some v) : (name, v) ∈ es := by
  induction es with
  | nil => cases h
  | cons e es ih =>
    rw [find] at h
    split at h
    · next he =>
      cases h
      rw [← he]
      exact List.mem_cons_self
    · exact List.mem_cons_of_mem _ (ih h)

/-- The last of the pairs with the name. -/
theorem find_reverse_eq_some {name : String} {es : List (String × α)} {i : Nat} {v : α}
    (hi : es[i]? = some (name, v)) (hlast : ∀ j w, i < j → es[j]? ≠ some (name, w)) :
    find name es.reverse = some v := by
  induction es using List.reverseRecOn with
  | nil => cases hi
  | append_singleton es e ih =>
    have hlt := (List.getElem?_eq_some_iff.1 hi).1
    rw [List.reverse_concat, find]
    by_cases h : i = es.length
    · subst h
      simp at hi
      simp [hi]
    · have hbefore : i < es.length := by simp at hlt; omega
      rw [List.getElem?_append_left hbefore] at hi
      have hne : e.1 ≠ name := by
        intro heq
        apply hlast es.length e.2 hbefore
        simp [← heq]
      rw [if_neg hne]
      apply ih hi
      intro j w hj hjw
      have hjlt := (List.getElem?_eq_some_iff.1 hjw).1
      exact hlast j w hj ((List.getElem?_append_left hjlt).trans hjw)

/-- Of a repeated name the last pair counts. -/
theorem get?_ofList (pairs : List (String × α)) (name : String) :
    (ofList pairs).get? name = find name pairs.reverse := by
  induction pairs using List.reverseRecOn with
  | nil => rfl
  | append_singleton pairs p ih =>
    have hinsert : ofList (pairs ++ [p]) = (ofList pairs).insert p.1 p.2 := List.foldl_append
    rw [hinsert, get?_insert, ih, List.reverse_concat]
    rfl

end NameMap

namespace Table

variable {κ α : Type} [DecidableEq κ]

theorem mem_place {k : κ} {f : Option α → α} {es : List (κ × α)} {e : κ × α}
    (h : e ∈ place k f es) : e ∈ es ∨ ∃ old, e = (k, f old) := by
  induction es with
  | nil => exact .inr ⟨none, List.mem_singleton.1 h⟩
  | cons a es ih =>
    obtain ⟨k', v⟩ := a
    rw [place] at h
    split at h
    · next hk =>
      rcases List.mem_cons.1 h with rfl | h
      · exact .inr ⟨some v, by rw [hk]⟩
      · exact .inl (List.mem_cons_of_mem _ h)
    · rcases List.mem_cons.1 h with rfl | h
      · exact .inl List.mem_cons_self
      · exact (ih h).imp_left (List.mem_cons_of_mem _)

/-- The entries of a table all come from the pairs that it is made from. -/
theorem mem_of_mem_ofList {pairs : List (κ × α)} {e : κ × α} (h : e ∈ (ofList pairs).entries) :
    e ∈ pairs := by
  have hfold : ∀ t : Table κ α, e ∈ (t.insertAll pairs).entries → e ∈ t.entries ∨ e ∈ pairs := by
    clear h
    induction pairs with
    | nil => exact fun t h => .inl h
    | cons p pairs ih =>
      intro t h
      rcases ih _ h with h | h
      · rcases mem_place h with h | ⟨_, rfl⟩
        · exact .inl h
        · exact .inr List.mem_cons_self
      · exact .inr (List.mem_cons_of_mem _ h)
  exact (hfold empty h).resolve_left List.not_mem_nil

/-! ## Inserting pairs -/

theorem insertAll_concat (t : Table κ α) (pairs : List (κ × α)) (p : κ × α) :
    t.insertAll (pairs ++ [p]) = (t.insertAll pairs).insert p.1 p.2 := List.foldl_append

/-- New keys come behind the old ones, in the order of their first pairs. -/
theorem keys_insertAll (t : Table κ α) (pairs : List (κ × α)) :
    (t.insertAll pairs).keys = (t.keys ++ pairs.map Prod.fst).eraseDups := by
  induction pairs using List.reverseRecOn with
  | nil =>
    have hnodup : t.keys.Nodup := t.keys_nodup
    rw [List.map_nil, List.append_nil, eraseDups_of_nodup hnodup]
    rfl
  | append_singleton pairs p ih =>
    rw [insertAll_concat, keys_insert, ih, List.map_append, List.map_singleton,
      ← List.append_assoc, eraseDups_concat]

/-- A key that stands in no pair keeps its value, and of others the last pair counts. -/
theorem get?_insertAll (t : Table κ α) (pairs : List (κ × α)) (k : κ) :
    (t.insertAll pairs).get? k = ((empty.insertAll pairs).get? k).or (t.get? k) := by
  induction pairs using List.reverseRecOn with
  | nil => rfl
  | append_singleton pairs p ih =>
    rw [insertAll_concat, insertAll_concat, get?_insert, get?_insert, ih]
    split
    · rfl
    · rfl

theorem insertAll_ofList (t : Table κ α) (pairs : List (κ × α)) :
    t.insertAll (ofList pairs).entries = t.insertAll pairs := by
  have hkeys : (ofList pairs).entries.map Prod.fst = (pairs.map Prod.fst).eraseDups :=
    keys_insertAll empty pairs
  have hself : (empty : Table κ α).insertAll (ofList pairs).entries = empty.insertAll pairs :=
    ofList_entries (ofList pairs)
  refine ext_get? ?_ fun k => ?_
  · rw [keys_insertAll, keys_insertAll, hkeys, eraseDups_append_eraseDups]
  · rw [get?_insertAll, get?_insertAll t pairs, hself]

end Table

end Flowline
