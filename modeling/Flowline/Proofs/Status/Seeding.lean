import Flowline.Proofs.Status.LastWrite

/-!
# Seeding and merging

Seeding gives a pending record to each name that has none (`get?_seed`), which is what a patch takes
for granted of a name without a record. So it does not matter whether names are seeded before or
after events are merged (`seed_mergeAll`), and the record of a name is the one that it started from
with the patches of its name applied in order (`recordOf_mergeAll_eq_foldl`).
-/

namespace Flowline.StatusMap

theorem get?_seed (m : StatusMap) (names : List String) (name : String) :
    (m.seed names).get? name =
      if name ∈ names then some ((m.get? name).getD Record.pending) else m.get? name := by
  induction names generalizing m with
  | nil => rfl
  | cons first names ih =>
    have hstep : m.seed (first :: names) =
        StatusMap.seed (NameMap.alter m first fun old => old.getD Record.pending) names := rfl
    rw [hstep, ih, NameMap.get?_alter]
    by_cases hfirst : first = name
    · subst hfirst
      simp
    · have hother : name ≠ first := fun h => hfirst h.symm
      simp [hfirst, hother]

theorem seed_append (m : StatusMap) (names others : List String) :
    m.seed (names ++ others) = (m.seed names).seed others := List.foldl_append

theorem isSome_seed (m : StatusMap) (names : List String) (name : String) :
    ((m.seed names).get? name).isSome = true ↔ (m.get? name).isSome = true ∨ name ∈ names := by
  rw [get?_seed]
  by_cases h : name ∈ names
  · simp [h]
  · simp [h]

theorem recordOf_seed (m : StatusMap) (names : List String) (name : String) :
    recordOf (m.seed names) name = recordOf m name := by
  unfold recordOf
  rw [get?_seed]
  by_cases h : name ∈ names
  · rw [if_pos h]
    rfl
  · rw [if_neg h]

/-- A record that is there stays as it is. -/
theorem get?_seed_of_eq_some {m : StatusMap} {name : String} {r : Record}
    (h : m.get? name = some r) (names : List String) : (m.seed names).get? name = some r := by
  rw [get?_seed, h]
  split
  · rfl
  · rfl

theorem seed_merge (m : StatusMap) (names : List String) (event : Patches) :
    (merge m event).seed names = merge (m.seed names) event := by
  apply NameMap.ext_get?
  intro name
  rw [get?_seed, get?_merge, get?_merge, recordOf_seed, get?_seed]
  cases event.get? name with
  | none => rfl
  | some p =>
    split
    · rfl
    · rfl

theorem seed_mergeAll (m : StatusMap) (names : List String) (events : List Patches) :
    (mergeAll m events).seed names = mergeAll (m.seed names) events := by
  induction events using List.reverseRecOn with
  | nil => rfl
  | append_singleton events event ih => rw [mergeAll_concat, mergeAll_concat, seed_merge, ih]

theorem deliveries_concat (name : String) (events : List Patches) (event : Patches) :
    deliveries name (events ++ [event]) = deliveries name events ++ (event.get? name).toList := by
  unfold deliveries
  rw [List.filterMap_append]
  cases h : event.get? name with
  | none => simp [h]
  | some p => simp [h]

/-- The patches for a name are applied to its record in the order of their delivery. -/
theorem recordOf_mergeAll_eq_foldl (m : StatusMap) (events : List Patches) (name : String) :
    recordOf (mergeAll m events) name =
      (deliveries name events).foldl (fun r p => p.apply r) (recordOf m name) := by
  induction events using List.reverseRecOn with
  | nil => rfl
  | append_singleton events event ih =>
    rw [mergeAll_concat, deliveries_concat, List.foldl_append, ← ih]
    unfold recordOf
    rw [get?_merge]
    cases event.get? name with
    | none => rfl
    | some p => rfl

end Flowline.StatusMap
