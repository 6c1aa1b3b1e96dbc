import Flowline.Monitor.Basic
import Flowline.Proofs.Maps

/-!
# Registering flows one after the other

Registering a flow changes what a monitor knows of this flow and of no other (`snapshot?_register`,
`mapOf_register`). So a monitor on which registrations have been registered knows the flows that
they name (`exists_flows_name_iff`), and a flow that one of them alone names as this one says
(`snapshot?_registerAll`, `mapOf_registerAll`).
-/

namespace Flowline.Monitor

/-- The monitor after registrations, one after the other. -/
def registerAll (m : Monitor) (rs : List Registration) : Monitor :=
  rs.foldl (fun m r => (m.register r).2) m

variable (m : Monitor) {rs rest : List Registration} {r : Registration} {name : String}

theorem snapshot?_register (r : Registration) (name : String) :
    (m.register r).2.snapshot? name =
      if r.flowName = name then some (.ofRegistration (m.registry.lastVersion + 1) r)
      else m.snapshot? name :=
  NameMap.get?_insert m.registry.flows r.flowName name _

theorem mapOf_register (r : Registration) (name : String) :
    (m.register r).2.board.mapOf name =
      if r.flowName = name then (m.board.mapOf name).seed r.graph.subStageNames
      else m.board.mapOf name := by
  have hget : (m.register r).2.board.get? name = if r.flowName = name then
      some ((m.board.mapOf r.flowName).seed r.graph.subStageNames) else m.board.get? name :=
    NameMap.get?_insert m.board.maps r.flowName name _
  rw [Board.mapOf, hget]
  split
  · next heq =>
    subst heq
    rfl
  · rfl

/-- Registrations of other flows change nothing that is known of a flow. -/
theorem registerAll_of_forall_ne (h : ∀ r ∈ rs, r.flowName ≠ name) :
    (m.registerAll rs).snapshot? name = m.snapshot? name ∧
      (m.registerAll rs).board.mapOf name = m.board.mapOf name := by
  induction rs generalizing m with
  | nil => exact ⟨rfl, rfl⟩
  | cons r rs ih =>
    obtain ⟨hr, hrs⟩ := List.forall_mem_cons.1 h
    obtain ⟨hsnapshot, hmap⟩ := ih (m.register r).2 hrs
    rw [snapshot?_register, if_neg hr] at hsnapshot
    rw [mapOf_register, if_neg hr] at hmap
    exact ⟨hsnapshot, hmap⟩

theorem registerAll_append_cons (rs : List Registration) (r : Registration)
    (rest : List Registration) : m.registerAll (rs ++ r :: rest) =
      ((m.registerAll rs).register r).2.registerAll rest := List.foldl_append

/-- A flow is known as it was registered last. -/
theorem snapshot?_registerAll (hafter : ∀ r' ∈ rest, r'.flowName ≠ r.flowName) :
    ∃ version, (m.registerAll (rs ++ r :: rest)).snapshot? r.flowName =
      some (.ofRegistration version r) := by
  refine ⟨(m.registerAll rs).registry.lastVersion + 1, ?_⟩
  rw [registerAll_append_cons, (registerAll_of_forall_ne _ hafter).1, snapshot?_register,
    if_pos rfl]

/-- The map of a flow that is registered once has been seeded once. -/
theorem mapOf_registerAll (hbefore : ∀ r' ∈ rs, r'.flowName ≠ r.flowName)
    (hafter : ∀ r' ∈ rest, r'.flowName ≠ r.flowName) :
    (m.registerAll (rs ++ r :: rest)).board.mapOf r.flowName =
      (m.board.mapOf r.flowName).seed r.graph.subStageNames := by
  rw [registerAll_append_cons, (registerAll_of_forall_ne _ hafter).2, mapOf_register, if_pos rfl,
    (registerAll_of_forall_ne _ hbefore).2]

/-- The map of a flow has been seeded by the registrations of this flow alone. -/
theorem mapOf_registerAll_eq (rs : List Registration) (name : String) :
    (m.registerAll rs).board.mapOf name = (rs.filter fun r => r.flowName = name).foldl
      (fun map r => map.seed r.graph.subStageNames) (m.board.mapOf name) := by
  induction rs generalizing m with
  | nil => rfl
  | cons r rs ih =>
    have hstep : m.registerAll (r :: rs) = (m.register r).2.registerAll rs := rfl
    rw [hstep, ih, mapOf_register]
    by_cases heq : r.flowName = name
    · rw [if_pos heq, List.filter_cons_of_pos (by simpa using heq), List.foldl_cons]
    · rw [if_neg heq, List.filter_cons_of_neg (by simpa using heq)]

/-! ## The flows of a monitor -/

/-- Every snapshot is held under the name of its flow. -/
def IsNamed (m : Monitor) : Prop := ∀ name s, m.snapshot? name = some s → s.name = name

theorem isNamed_register (h : m.IsNamed) (r : Registration) : (m.register r).2.IsNamed := by
  intro name s hs
  rw [snapshot?_register] at hs
  split at hs
  · next heq =>
    cases hs
    exact heq
  · exact h name s hs

theorem isNamed_registerAll (h : m.IsNamed) (rs : List Registration) :
    (m.registerAll rs).IsNamed := by
  induction rs generalizing m with
  | nil => exact h
  | cons r rs ih => exact ih _ (isNamed_register m h r)

/-- Only the registry tells the names. -/
theorem isNamed_congr {m m' : Monitor} (hregistry : m'.registry = m.registry) (h : m.IsNamed) :
    m'.IsNamed :=
  fun name s hs => h name s ((congrArg (Registry.get? · name) hregistry.symm).trans hs)

theorem isNamed_empty : empty.IsNamed := fun _ _ h => nomatch h

theorem isSome_snapshot?_registerAll (rs : List Registration) (name : String) :
    ((m.registerAll rs).snapshot? name).isSome = true ↔
      (m.snapshot? name).isSome = true ∨ ∃ r ∈ rs, r.flowName = name := by
  induction rs generalizing m with
  | nil => simp [registerAll]
  | cons r rs ih =>
    have hstep : m.registerAll (r :: rs) = (m.register r).2.registerAll rs := rfl
    rw [hstep, ih, snapshot?_register]
    by_cases heq : r.flowName = name
    · simp [heq]
    · simp [heq]

/-- The listing of the flows has one entry for each snapshot. -/
theorem mem_flows_iff {f : FlowSummary} :
    f ∈ m.flows ↔ ∃ name s, m.snapshot? name = some s ∧ s.summary = f := by
  rw [flows, Registry.list, NameMap.values, List.map_map, List.mem_map]
  constructor
  · rintro ⟨e, he, rfl⟩
    exact ⟨e.1, e.2, NameMap.get?_eq_some_iff.2 he, rfl⟩
  · rintro ⟨name, s, hs, rfl⟩
    exact ⟨(name, s), NameMap.get?_eq_some_iff.1 hs, rfl⟩

/-- The flows that are listed are those that the registrations name. -/
theorem exists_flows_name_iff (rs : List Registration) (name : String) :
    (∃ f ∈ (empty.registerAll rs).flows, f.name = name) ↔ ∃ r ∈ rs, r.flowName = name := by
  have hsome : ((empty.registerAll rs).snapshot? name).isSome = true ↔
      ∃ r ∈ rs, r.flowName = name :=
    (isSome_snapshot?_registerAll empty rs name).trans (or_iff_right fun h => nomatch h)
  rw [← hsome, Option.isSome_iff_exists]
  constructor
  · rintro ⟨f, hf, rfl⟩
    obtain ⟨name, s, hs, rfl⟩ := (mem_flows_iff _).1 hf
    obtain rfl := isNamed_registerAll empty isNamed_empty rs name s hs
    exact ⟨s, hs⟩
  · rintro ⟨s, hs⟩
    exact ⟨s.summary, (mem_flows_iff _).2 ⟨name, s, hs, rfl⟩,
      isNamed_registerAll empty isNamed_empty rs name s hs⟩

end Flowline.Monitor
