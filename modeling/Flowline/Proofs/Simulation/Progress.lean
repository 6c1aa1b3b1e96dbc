import Flowline.Proofs.Lists
import Flowline.Proofs.Maps
import Flowline.Proofs.Monitor.History
import Flowline.Simulation

/-!
# How far the simulation of a flow has come

The simulation keeps a count for each flow, which says how often the flow has been fetched since its
current version was registered (`Mock.place`, `IsAbreast`). So every fetch is told by its number:
the `k`-th completes the sub-stage at place `k - 1` and starts the one at place `k` (`Mock.news`).
If nothing else reports on a flow, its records are told by the instants of its fetches
(`recordAfter`). `progresses` says both.
-/

namespace Flowline

open Time

namespace Mock

/-! ## One fetch -/

/-- The progress of a version with `n` sub-stages after `k` fetches. -/
def place (version n k : Nat) : Progress := ⟨version, min (k - 1) n, decide (1 ≤ k ∧ k ≤ n)⟩

/-- What the `k`-th fetch says of a sub-stage, if anything. -/
def news (now : Instant) (names : List String) (k : Nat) (name : String) : Option Patch :=
  if 1 ≤ k ∧ names[k - 1]? = some name then some (startedPatch now)
  else if 2 ≤ k ∧ names[k - 2]? = some name then some (completedPatch now)
  else none

/-- The patches of the fetch that follows on `k` fetches. -/
def patchesAfter (now : Instant) (names : List String) (k : Nat) : List (String × Patch) :=
  (if k = 0 then [] else patchAt names (k - 1) (completedPatch now)) ++
    patchAt names k (startedPatch now)

variable {now : Instant} {names : List String} {name : String} {version k : Nat}

theorem distinct_eq_eraseDups (names : List String) : distinct names = names.eraseDups := by
  induction names using List.reverseRecOn with
  | nil => rfl
  | append_singleton names name ih =>
    rw [eraseDups_concat, ← ih, distinct, List.foldl_append]
    rfl

theorem place_zero (version n : Nat) : place version n 0 = Progress.start version := by
  simp [place, Progress.start]

/-- After a fetch a sub-stage is running if there is one at this place. -/
theorem place_succ (version n k : Nat) :
    place version n (k + 1) = ⟨version, min k n, decide (k < n)⟩ := by
  have hrunning : 1 ≤ k + 1 ∧ k + 1 ≤ n ↔ k < n := and_iff_right (Nat.le_add_left 1 k)
  rw [place, decide_eq_decide.2 hrunning, Nat.add_sub_cancel]

theorem patchAt_eq_nil_iff {i : Nat} {p : Patch} : patchAt names i p = [] ↔ names.length ≤ i := by
  unfold patchAt
  split
  · next h =>
    have hlt := (List.getElem?_eq_some_iff.1 h).1
    simp [hlt]
  · next h => simp [List.getElem?_eq_none_iff.1 h]

theorem isEmpty_patchAt (names : List String) (i : Nat) (p : Patch) :
    (!(patchAt names i p).isEmpty) = decide (i < names.length) := by
  rw [Bool.eq_iff_iff, Bool.not_eq_true', List.isEmpty_eq_false_iff, Ne, patchAt_eq_nil_iff,
    decide_eq_true_iff, not_le]

theorem step_place (now : Instant) (names : List String) (version k : Nat) :
    step now names (place version names.length k) =
      (patchesAfter now names k, place version names.length (k + 1)) := by
  rw [place_succ]
  by_cases hk : k = 0
  · subst hk
    simp [step, place, patchesAfter, isEmpty_patchAt]
  by_cases hn : k ≤ names.length
  · -- the sub-stage before place `k` is running
    have hrunning : 1 ≤ k ∧ k ≤ names.length := ⟨by omega, hn⟩
    have hcompleted : min (k - 1) names.length = k - 1 := by omega
    have hnext : k - 1 + 1 = k := by omega
    simp [step, place, patchesAfter, isEmpty_patchAt, hk, hrunning, hcompleted, hnext]
  · -- all have completed
    have hcompleted : min (k - 1) names.length = names.length := by omega
    have hnext : min k names.length = names.length := by omega
    have hlast : patchAt names (k - 1) (completedPatch now) = [] := patchAt_eq_nil_iff.2 (by omega)
    have hafter : patchAt names k (startedPatch now) = [] := patchAt_eq_nil_iff.2 (by omega)
    have hend : patchAt names names.length (startedPatch now) = [] := patchAt_eq_nil_iff.2 le_rfl
    have hmore : ¬ k < names.length := by omega
    simp [step, place, patchesAfter, hk, hn, hcompleted, hnext, hlast, hafter, hend, hmore]

theorem find_patchAt (names : List String) (i : Nat) (p : Patch) (name : String) :
    NameMap.find name (patchAt names i p) = if names[i]? = some name then some p else none := by
  unfold patchAt
  split
  · next h => simp [NameMap.find, h]
  · next h => simp [NameMap.find, h]

theorem reverse_patchAt (names : List String) (i : Nat) (p : Patch) :
    (patchAt names i p).reverse = patchAt names i p := by
  unfold patchAt
  split
  · rfl
  · rfl

/-- The patches of a fetch are its news. -/
theorem get?_patchesAfter (now : Instant) (names : List String) (k : Nat) (name : String) :
    (NameMap.ofList (patchesAfter now names k)).get? name = news now names (k + 1) name := by
  rw [NameMap.get?_ofList, patchesAfter, List.reverse_append, NameMap.find_append, reverse_patchAt,
    find_patchAt, news]
  by_cases hstarted : names[k]? = some name
  · simp [hstarted]
  by_cases hk : k = 0
  · simp [hk, NameMap.find]
  · have hbefore : k + 1 - 2 = k - 1 := by omega
    have hsecond : 2 ≤ k + 1 := by omega
    simp [hstarted, hk, hbefore, hsecond, reverse_patchAt, find_patchAt]

/-- A fetch has news of two sub-stages at most: the one that is to start and the one before. -/
theorem news_succ_of_getElem? (hnames : names.Nodup) {i : Nat} (h : names[i]? = some name) :
    news now names (k + 1) name =
      if i = k then some (startedPatch now)
      else if i + 1 = k then some (completedPatch now) else none := by
  have hi : i < names.length := (List.getElem?_eq_some_iff.1 h).1
  have hplace : ∀ j, names[j]? = some name ↔ i = j := by
    intro j
    constructor
    · intro hj
      exact (List.getElem?_inj hi hnames).1 (h.trans hj.symm)
    · rintro rfl
      exact h
  have hbefore : 2 ≤ k + 1 ∧ i = k + 1 - 2 ↔ i + 1 = k := by omega
  simp only [news, hplace, hbefore, Nat.add_sub_cancel, Nat.le_add_left, true_and]

/-- After the last sub-stage has completed there is no news. -/
theorem news_eq_none (hk : names.length + 2 ≤ k) : news now names k name = none := by
  have hstarted : names[k - 1]? = none := List.getElem?_eq_none (by omega)
  have hcompleted : names[k - 2]? = none := List.getElem?_eq_none (by omega)
  simp [news, hstarted, hcompleted]

end Mock

namespace Simulation

open StatusMap

/-! ## Counting fetches -/

/-- The instant of a fetch of the flow. -/
def Move.fetched? (f : String) : Move → Option Instant
  | .fetch f' now _ => if f' = f then some now else none
  | .call _ => none

/-- Whether the flow is registered, anew or again. -/
def Move.isRegistration (f : String) : Move → Bool
  | .call (.register r) => r.flowName = f
  | _ => false

/-- The instants of the fetches of a flow since it was registered last. -/
def fetched (f : String) (moves : List Move) : List Instant :=
  (moves.rtakeWhile fun a => !a.isRegistration f).filterMap (Move.fetched? f)

/-- The sub-stages of a flow, each name once, where it is first. -/
def subStages (x : Snapshot) : List String := x.graph.subStageNames.eraseDups

section Counting

variable {f : String} {moves : List Move} (a : Move)

theorem fetched_concat_of_registration (h : a.isRegistration f = true) :
    fetched f (moves ++ [a]) = [] := by
  rw [fetched, List.rtakeWhile_concat]
  simp [h]

theorem fetched_concat (h : a.isRegistration f = false) :
    fetched f (moves ++ [a]) = fetched f moves ++ (a.fetched? f).toList := by
  rw [fetched, List.rtakeWhile_concat, fetched]
  cases ha : a.fetched? f with
  | none => simp [h, ha]
  | some now => simp [h, ha]

theorem fetched_concat_of_ne (h : a.flowName ≠ f) : fetched f (moves ++ [a]) = fetched f moves := by
  have hregistration : a.isRegistration f = false := by
    cases a with
    | fetch => rfl
    | call c =>
      cases c with
      | register r => exact decide_eq_false h
      | remove => rfl
      | apply => rfl
  have hfetched : a.fetched? f = none := by
    cases a with
    | fetch f' now merged => exact if_neg h
    | call => rfl
  rw [fetched_concat a hregistration, hfetched]
  exact List.append_nil _

theorem performAll_concat (s : Simulation) (moves : List Move) (a : Move) :
    s.performAll (moves ++ [a]) = (s.performAll moves).perform a := List.foldl_append

end Counting

/-! ## The monitor -/

/-- The event of a fetch is applied like any other. -/
def Move.calls (s : Simulation) : Move → List Monitor.Call
  | .call c => [c]
  | .fetch f now merged =>
    if merged then ((s.fetch? f now).map fun p => Monitor.Call.apply p.1).toList else []

theorem monitor_perform (s : Simulation) (a : Move) :
    (s.perform a).monitor = s.monitor.performAll (a.calls s) := by
  cases a with
  | call c => rfl
  | fetch f now merged =>
    cases hfetch : s.fetch? f now with
    | none => cases merged <;> simp [perform, Move.calls, hfetch, Monitor.performAll]
    | some p => cases merged <;> simp [perform, Move.calls, hfetch, Monitor.performAll]

/-- The monitor of a simulation is one that calls have led to. -/
theorem exists_calls (moves : List Move) :
    ∃ calls, (empty.performAll moves).monitor = Monitor.empty.performAll calls := by
  induction moves using List.reverseRecOn with
  | nil => exact ⟨[], rfl⟩
  | append_singleton moves a ih =>
    obtain ⟨calls, hcalls⟩ := ih
    refine ⟨calls ++ a.calls (empty.performAll moves), ?_⟩
    rw [performAll_concat, monitor_perform, hcalls]
    exact List.foldl_append.symm

/-! ## The count of the simulation -/

/-- The simulation has counted the fetches of every flow since it was registered last. -/
structure IsAbreast (moves : List Move) (s : Simulation) : Prop where
  named : s.monitor.IsNamed
  progress : ∀ f x, s.monitor.snapshot? f = some x → Mock.progressOf s.memory x =
    Mock.place x.version (subStages x).length (fetched f moves).length
  version_le : ∀ f x, s.monitor.snapshot? f = some x → x.version ≤ s.monitor.registry.lastVersion
  known_le : ∀ f p, s.memory.get? f = some p → p.version ≤ s.monitor.registry.lastVersion

/-- A version that is not the one that was simulated starts over. -/
theorem progressOf_of_newer {m : Mock.Memory} {x : Snapshot}
    (h : ∀ p, m.get? x.name = some p → p.version < x.version) :
    Mock.progressOf m x = Mock.Progress.start x.version := by
  unfold Mock.progressOf
  cases hp : m.get? x.name with
  | none => rfl
  | some p => exact if_neg (h p hp).ne

theorem progressOf_insert (m : Mock.Memory) (x : Snapshot) (name : String) (p : Mock.Progress) :
    Mock.progressOf (m.insert name p) x =
      if name = x.name ∧ p.version = x.version then p
      else if name = x.name then Mock.Progress.start x.version else Mock.progressOf m x := by
  unfold Mock.progressOf
  rw [NameMap.get?_insert]
  by_cases hname : name = x.name
  · by_cases hversion : p.version = x.version
    · simp [hname, hversion]
    · simp [hname, hversion]
  · simp [hname]

/-- A fetch of a flow that has been fetched `k` times. -/
theorem fetch_of_progressOf {m : Mock.Memory} {x : Snapshot} {k : Nat} (now : Instant)
    (h : Mock.progressOf m x = Mock.place x.version (subStages x).length k) :
    Mock.fetch now m x =
      (⟨x.name, now, NameMap.ofList (Mock.patchesAfter now (subStages x) k)⟩,
       m.insert x.name (Mock.place x.version (subStages x).length (k + 1))) := by
  rw [Mock.fetch, h, Mock.distinct_eq_eraseDups, ← subStages, Mock.step_place]

theorem isAbreast_empty : IsAbreast [] empty where
  named := Monitor.isNamed_empty
  progress := fun _ _ h => nomatch h
  version_le := fun _ _ h => nomatch h
  known_le := fun _ _ h => nomatch h

section Counted

variable {s : Simulation} {moves : List Move} {f : String} {x : Snapshot}

theorem IsAbreast.fetch? (h : IsAbreast moves s) (hx : s.monitor.snapshot? f = some x)
    (now : Instant) :
    s.fetch? f now = some
      (⟨f, now, NameMap.ofList
        (Mock.patchesAfter now (subStages x) (fetched f moves).length)⟩,
       s.memory.insert f
        (Mock.place x.version (subStages x).length ((fetched f moves).length + 1))) := by
  obtain rfl : x.name = f := h.named f x hx
  rw [Simulation.fetch?, hx, Option.map_some, fetch_of_progressOf now (h.progress _ _ hx)]

theorem IsAbreast.register (h : IsAbreast moves s) (r : Registration) :
    IsAbreast (moves ++ [.call (.register r)]) (s.perform (.call (.register r))) where
  named := Monitor.isNamed_register s.monitor h.named r
  progress := by
    intro f x hx
    have hget := (Monitor.snapshot?_register s.monitor r f).symm.trans hx
    by_cases hf : r.flowName = f
    · rw [if_pos hf] at hget
      obtain rfl := Option.some.inj hget
      rw [fetched_concat_of_registration (.call (.register r)) (decide_eq_true hf),
        List.length_nil, Mock.place_zero]
      apply progressOf_of_newer
      intro p hp
      exact Nat.lt_succ_of_le (h.known_le _ p hp)
    · rw [if_neg hf] at hget
      rw [fetched_concat_of_ne (.call (.register r)) hf]
      exact h.progress f x hget
  version_le := by
    intro f x hx
    have hget := (Monitor.snapshot?_register s.monitor r f).symm.trans hx
    split at hget
    · obtain rfl := Option.some.inj hget
      exact le_rfl
    · exact Nat.le_succ_of_le (h.version_le f x hget)
  known_le := fun f p hp => Nat.le_succ_of_le (h.known_le f p hp)

/-- The memory keeps what it knows of the flow, but the flow has no version that it counts for. -/
theorem IsAbreast.remove (h : IsAbreast moves s) (name : String) :
    IsAbreast (moves ++ [.call (.remove name)]) (s.perform (.call (.remove name))) where
  named := Monitor.isNamed_perform h.named (.remove name)
  progress := by
    intro f x hx
    have hget := (s.monitor.registry.get?_remove f name).symm.trans hx
    split at hget
    · cases hget
    · next hf =>
      rw [fetched_concat_of_ne (.call (.remove name)) hf]
      exact h.progress f x hget
  version_le := by
    intro f x hx
    have hget := (s.monitor.registry.get?_remove f name).symm.trans hx
    split at hget
    · cases hget
    · exact h.version_le f x hget
  known_le := h.known_le

/-- A move that leaves the registry as it is. -/
theorem IsAbreast.congr (h : IsAbreast moves s) {others : List Move} {t : Simulation}
    (hregistry : t.monitor.registry = s.monitor.registry)
    (hprogress : ∀ f x, s.monitor.snapshot? f = some x → Mock.progressOf t.memory x =
      Mock.place x.version (subStages x).length (fetched f others).length)
    (hknown : ∀ f p, t.memory.get? f = some p → p.version ≤ s.monitor.registry.lastVersion) :
    IsAbreast others t := by
  have hsnapshot : ∀ f, t.monitor.snapshot? f = s.monitor.snapshot? f :=
    fun f => congrArg (Registry.get? · f) hregistry
  constructor
  · intro f x hx
    exact h.named f x (hsnapshot f ▸ hx)
  · intro f x hx
    exact hprogress f x (hsnapshot f ▸ hx)
  · intro f x hx
    rw [hregistry]
    exact h.version_le f x (hsnapshot f ▸ hx)
  · rw [hregistry]
    exact hknown

theorem registry_perform_fetch (s : Simulation) (f : String) (now : Instant) (merged : Bool) :
    (s.perform (.fetch f now merged)).monitor.registry = s.monitor.registry := by
  rw [perform]
  split
  · rfl
  · cases merged with
    | false => rfl
    | true => exact Monitor.registry_perform_apply

theorem IsAbreast.fetch (h : IsAbreast moves s) (f : String) (now : Instant) (merged : Bool) :
    IsAbreast (moves ++ [.fetch f now merged]) (s.perform (.fetch f now merged)) := by
  cases hx : s.monitor.snapshot? f with
  | none =>
    have hsame : s.perform (.fetch f now merged) = s := by
      rw [perform, Simulation.fetch?, hx]
      rfl
    rw [hsame]
    apply h.congr rfl ?_ h.known_le
    intro f' x' hx'
    have hf : f ≠ f' := by
      rintro rfl
      cases hx.symm.trans hx'
    rw [fetched_concat_of_ne (.fetch f now merged) hf]
    exact h.progress f' x' hx'
  | some x =>
    have hmemory : (s.perform (.fetch f now merged)).memory = s.memory.insert f
        (Mock.place x.version (subStages x).length ((fetched f moves).length + 1)) := by
      rw [perform, h.fetch? hx]
    apply h.congr (registry_perform_fetch s f now merged)
    · intro f' x' hx'
      obtain rfl : x'.name = f' := h.named f' x' hx'
      rw [hmemory, progressOf_insert]
      by_cases hf : f = x'.name
      · subst hf
        obtain rfl : x = x' := Option.some.inj (hx.symm.trans hx')
        rw [if_pos ⟨rfl, rfl⟩, fetched_concat (.fetch x.name now merged) rfl, Move.fetched?,
          if_pos rfl]
        simp
      · rw [if_neg fun hand => hf hand.1, if_neg hf,
          fetched_concat_of_ne (.fetch f now merged) hf]
        exact h.progress _ x' hx'
    · intro f' p hp
      rw [hmemory, NameMap.get?_insert] at hp
      split at hp
      · obtain rfl := Option.some.inj hp
        exact h.version_le f x hx
      · exact h.known_le f' p hp

theorem IsAbreast.concat (h : IsAbreast moves s) (a : Move) :
    IsAbreast (moves ++ [a]) (s.perform a) := by
  cases a with
  | fetch f now merged => exact h.fetch f now merged
  | call c =>
    cases c with
    | register r => exact h.register r
    | remove name => exact h.remove name
    | apply e =>
      have hregistry : (s.perform (.call (.apply e))).monitor.registry = s.monitor.registry :=
        Monitor.registry_perform_apply
      apply h.congr hregistry ?_ h.known_le
      intro f x hx
      have hsame : fetched f (moves ++ [.call (.apply e)]) = fetched f moves :=
        (fetched_concat (.call (.apply e)) rfl).trans (List.append_nil _)
      rw [hsame]
      exact h.progress f x hx

end Counted

theorem isAbreast_performAll (moves : List Move) : IsAbreast moves (empty.performAll moves) := by
  induction moves using List.reverseRecOn with
  | nil => exact isAbreast_empty
  | append_singleton moves a ih =>
    rw [performAll_concat]
    exact ih.concat a

/-! ## The records -/

/-- The record of the sub-stage at a place after fetches at these instants: it starts at its own
fetch and completes at the next one. -/
def recordAfter (times : List Instant) (i : Nat) : Record where
  status :=
    if i + 1 < times.length then .completed
    else if i < times.length then .running
    else .pending
  startTime := times[i]?
  endTime := times[i + 1]?
  details := NameMap.empty

/-- The map has a record for each of the sub-stages, told by the instants of the fetches. -/
structure Tells (names : List String) (times : List Instant) (map : StatusMap) : Prop where
  declared : ∀ i name, names[i]? = some name → map.get? name = some (recordAfter times i)
  undeclared : ∀ name, name ∉ names → map.get? name = none

theorem tells_seed (names : List String) :
    Tells names.eraseDups [] (StatusMap.seed NameMap.empty names) where
  declared := by
    intro i name h
    have hmem : name ∈ names := List.mem_eraseDups.1 (List.mem_of_getElem? h)
    rw [get?_seed, if_pos hmem]
    rfl
  undeclared := by
    intro name h
    rw [get?_seed, if_neg fun hmem => h (List.mem_eraseDups.2 hmem)]
    rfl

section Telling

variable {names : List String} {times : List Instant} {map : StatusMap}

theorem getElem?_concat_of_ne {i : Nat} (now : Instant) (h : i ≠ times.length) :
    (times ++ [now])[i]? = times[i]? := by
  rcases Nat.lt_or_gt_of_ne h with hlt | hgt
  · exact List.getElem?_append_left hlt
  · rw [List.getElem?_eq_none (by simp; omega), List.getElem?_eq_none (by omega)]

/-- A fetch is no news to the sub-stages that it neither starts nor completes. -/
theorem recordAfter_concat {i : Nat} {now : Instant} (hstarted : i ≠ times.length)
    (hcompleted : i + 1 ≠ times.length) :
    recordAfter (times ++ [now]) i = recordAfter times i := by
  have hlt : i + 1 < times.length + 1 ↔ i + 1 < times.length := by omega
  have hlt' : i < times.length + 1 ↔ i < times.length := by omega
  rw [recordAfter, recordAfter, getElem?_concat_of_ne now hstarted,
    getElem?_concat_of_ne now hcompleted, List.length_append, List.length_singleton]
  simp only [hlt, hlt']

/-- One more fetch, merged. -/
theorem Tells.merge (h : Tells names times map) (hnames : names.Nodup) {now : Instant}
    {patches : Patches}
    (hnews : ∀ name, patches.get? name = Mock.news now names (times.length + 1) name) :
    Tells names (times ++ [now]) (map.merge patches) where
  declared := by
    intro i name hi
    have hold : recordOf map name = recordAfter times i := by
      rw [recordOf, h.declared i name hi]
      rfl
    rw [get?_merge, hnews, Mock.news_succ_of_getElem? hnames hi, hold, h.declared i name hi]
    by_cases hstarted : i = times.length
    · subst hstarted
      simp [recordAfter, Patch.apply, Mock.startedPatch, Patch.ofStatus, Patch.empty,
        TimeChange.apply]
    by_cases hcompleted : i + 1 = times.length
    · have hlt : i < times.length := by omega
      simp [recordAfter, Patch.apply, Mock.completedPatch, Patch.ofStatus, Patch.empty,
        TimeChange.apply, hstarted, hcompleted, List.getElem?_append_left hlt]
    · simp [hstarted, hcompleted, recordAfter_concat hstarted hcompleted]
  undeclared := by
    intro name hname
    have hnone : ∀ i, names[i]? ≠ some name := fun i hi => hname (List.mem_of_getElem? hi)
    rw [get?_merge, hnews]
    simp [Mock.news, hnone, h.undeclared name hname]

end Telling

/-! ## Runs -/

/-- Nothing but fetches that are merged is about the flow. -/
def OnlyFetched (f : String) (moves : List Move) : Prop :=
  ∀ a ∈ moves, a.flowName = f → ∃ now, a = .fetch f now true

/-- The fetches of a flow since it was registered, and its records if nothing else reports on it. -/
structure Progresses (moves : List Move) : Prop where
  /-- A fetch of a flow that was fetched `k` times since its version was registered has the news of
  the fetch with the number `k + 1`, of which there is none after all sub-stages have completed. -/
  event : ∀ f x now, (empty.performAll moves).monitor.snapshot? f = some x →
    ∃ event memory, (empty.performAll moves).fetch? f now = some (event, memory) ∧
      event.flowName = f ∧
      (∀ name, event.stages.get? name =
        Mock.news now (subStages x) ((fetched f moves).length + 1) name) ∧
      ((subStages x).length + 2 ≤ (fetched f moves).length + 1 → event.stages = NameMap.empty)
  /-- Of a flow that was not registered before and of which every fetch is merged. -/
  status : ∀ before r after, moves = before ++ .call (.register r) :: after →
    (empty.performAll before).monitor.contains r.flowName = false →
    OnlyFetched r.flowName after →
    ∃ map, (empty.performAll moves).monitor.status? r.flowName = some map ∧
      Tells r.graph.subStageNames.eraseDups (fetched r.flowName moves) map

section Runs

variable {f : String} {before after moves : List Move} {r : Registration} {x : Snapshot}

/-- A flow that is not registered has no map. -/
theorem mapOf_of_not_contains (h : (empty.performAll moves).monitor.contains f = false) :
    (empty.performAll moves).monitor.board.mapOf f = NameMap.empty := by
  obtain ⟨calls, hcalls⟩ := exists_calls moves
  rw [hcalls] at h ⊢
  apply Board.mapOf_of_eq_none
  have hmap := (Monitor.follows_performAll f calls).hasMap_iff
  rw [h, ← Bool.not_eq_false, Option.isSome_eq_false_iff, Option.isNone_iff_eq_none] at hmap
  simpa using hmap

/-- The events of a fetch are about the flow that is fetched. -/
theorem flowName_of_mem_calls {s : Simulation} (hs : s.monitor.IsNamed) {a : Move}
    {c : Monitor.Call} (hc : c ∈ a.calls s) : c.flowName = a.flowName := by
  cases a with
  | call c' =>
    obtain rfl := List.mem_singleton.1 hc
    rfl
  | fetch f now merged =>
    cases merged with
    | false => cases hc
    | true =>
      rw [Move.calls, if_pos rfl, Simulation.fetch?] at hc
      cases hx : s.monitor.snapshot? f with
      | none => simp [hx] at hc
      | some x =>
        obtain rfl : c = .apply (Mock.fetch now s.memory x).1 := by simpa [hx] using hc
        exact hs f x hx

theorem perform_of_ne {s : Simulation} (hs : s.monitor.IsNamed) {a : Move} (h : a.flowName ≠ f) :
    (s.perform a).monitor.snapshot? f = s.monitor.snapshot? f ∧
      (s.perform a).monitor.board.get? f = s.monitor.board.get? f := by
  rw [monitor_perform]
  have hcalls : ∀ c ∈ a.calls s, c.flowName ≠ f := by
    intro c hc
    rw [flowName_of_mem_calls hs hc]
    exact h
  generalize a.calls s = calls at hcalls
  induction calls using List.reverseRecOn with
  | nil => exact ⟨rfl, rfl⟩
  | append_singleton calls c ih =>
    obtain ⟨hsnapshot, hget⟩ := ih fun c' hc' => hcalls c' (List.mem_append_left _ hc')
    obtain ⟨hsnapshot', hget'⟩ := Monitor.perform_of_ne (m := s.monitor.performAll calls)
      (hcalls c (List.mem_append_right _ (List.mem_singleton_self c)))
    rw [Monitor.performAll_concat]
    exact ⟨hsnapshot'.trans hsnapshot, hget'.trans hget⟩

/-- A fetch that is merged. -/
theorem perform_fetch_merged {s : Simulation} (h : IsAbreast moves s)
    (hx : s.monitor.snapshot? f = some x) (now : Instant) :
    (s.perform (.fetch f now true)).monitor.board.get? f = some ((s.monitor.board.mapOf f).merge
      (NameMap.ofList (Mock.patchesAfter now (subStages x) (fetched f moves).length))) := by
  have hcontains : s.monitor.contains f = true := congrArg Option.isSome hx
  rw [perform, h.fetch? hx]
  simp only [if_true]
  rw [Monitor.perform_apply_of_contains hcontains]
  exact (Board.get?_apply _ f _).trans (if_pos rfl)

/-- From its registration on, a flow of which every fetch is merged is told by them. -/
theorem exists_tells (hfresh : (empty.performAll before).monitor.contains r.flowName = false)
    (hafter : OnlyFetched r.flowName after) :
    ∃ x map, x.graph = r.graph ∧
      (empty.performAll (before ++ .call (.register r) :: after)).monitor.snapshot? r.flowName =
        some x ∧
      (empty.performAll (before ++ .call (.register r) :: after)).monitor.board.get? r.flowName =
        some map ∧
      Tells (subStages x) (fetched r.flowName (before ++ .call (.register r) :: after)) map := by
  induction after using List.reverseRecOn with
  | nil =>
    rw [performAll_concat,
      fetched_concat_of_registration (.call (.register r)) (decide_eq_true rfl)]
    refine ⟨_, _, rfl, (Monitor.snapshot?_register _ r r.flowName).trans (if_pos rfl),
      (Board.get?_seed _ r.flowName _).trans (if_pos rfl), ?_⟩
    rw [mapOf_of_not_contains hfresh]
    exact tells_seed _
  | append_singleton after a ih =>
    obtain ⟨x, map, hgraph, hx, hmap, htells⟩ :=
      ih fun b hb => hafter b (List.mem_append_left _ hb)
    have habreast := isAbreast_performAll (before ++ .call (.register r) :: after)
    rw [← List.cons_append, ← List.append_assoc, performAll_concat]
    by_cases ha : a.flowName = r.flowName
    · obtain ⟨now, rfl⟩ := hafter a (List.mem_append_right _ (List.mem_singleton_self a)) ha
      refine ⟨x, _, hgraph, ?_, perform_fetch_merged habreast hx now, ?_⟩
      · rw [← hx]
        exact congrArg (Registry.get? · r.flowName) (registry_perform_fetch _ r.flowName now true)
      · rw [Board.mapOf_of_get? hmap, fetched_concat _ rfl, Move.fetched?, if_pos rfl]
        exact htells.merge (nodup_eraseDups _) fun name => Mock.get?_patchesAfter now _ _ name
    · obtain ⟨hsnapshot, hget⟩ := perform_of_ne habreast.named ha
      rw [hsnapshot, hget, fetched_concat_of_ne a ha]
      exact ⟨x, map, hgraph, hx, hmap, htells⟩

end Runs

/-- The simulation goes through the sub-stages of every flow, one fetch after the other, and begins
anew when the flow is registered again, whatever happens to other flows in the meantime. -/
theorem progresses (moves : List Move) : Progresses moves where
  event := by
    intro f x now hx
    refine ⟨_, _, (isAbreast_performAll moves).fetch? hx now, rfl,
      fun name => Mock.get?_patchesAfter now _ _ name, ?_⟩
    intro hk
    apply NameMap.ext_get?
    intro name
    rw [Mock.get?_patchesAfter]
    exact Mock.news_eq_none hk
  status := by
    rintro before r after rfl hfresh hafter
    obtain ⟨x, map, hgraph, hx, hmap, htells⟩ := exists_tells hfresh hafter
    have hcontains : (empty.performAll (before ++ .call (.register r) :: after)).monitor.contains
        r.flowName = true := congrArg Option.isSome hx
    refine ⟨map, ?_, ?_⟩
    · rw [Monitor.status?, if_pos hcontains, Board.mapOf_of_get? hmap]
    · rw [← hgraph]
      exact htells

end Simulation

end Flowline
