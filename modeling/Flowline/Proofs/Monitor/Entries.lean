import Flowline.Monitor.Basic

/-!
# The entries of a registry and of a board

What each change of a registry does to the snapshot of a flow, and what each change of a board does
to its map. A change that is about one flow leaves what is held of the others.
-/

namespace Flowline

namespace Registry

variable (r : Registry) (f : String)

theorem get?_publish (s : Snapshot) :
    (r.publish s).get? f = if s.name = f then some s else r.get? f :=
  NameMap.get?_insert r.flows s.name f s

theorem get?_remove (name : String) :
    (r.remove name).get? f = if name = f then none else r.get? f :=
  NameMap.get?_erase r.flows name f

end Registry

namespace Board

variable (b : Board) (f : String)

theorem get?_seed (s : Snapshot) :
    (b.seed s).get? f =
      if s.name = f then some ((b.mapOf f).seed s.graph.subStageNames) else b.get? f := by
  have hget : (b.seed s).get? f = if s.name = f then
      some ((b.mapOf s.name).seed s.graph.subStageNames) else b.get? f :=
    NameMap.get?_insert b.maps s.name f _
  rw [hget]
  by_cases h : s.name = f
  · subst h
    rfl
  · rw [if_neg h, if_neg h]

theorem get?_apply (e : Event) :
    (b.apply e).get? f =
      if e.flowName = f then some ((b.mapOf f).merge e.stages) else b.get? f := by
  have hget : (b.apply e).get? f = if e.flowName = f then
      some ((b.mapOf e.flowName).merge e.stages) else b.get? f :=
    NameMap.get?_insert b.maps e.flowName f _
  rw [hget]
  by_cases h : e.flowName = f
  · subst h
    rfl
  · rw [if_neg h, if_neg h]

theorem get?_remove (name : String) :
    (b.remove name).get? f = if name = f then none else b.get? f :=
  NameMap.get?_erase b.maps name f

variable {b} {f}

theorem mapOf_of_get? {map : StatusMap} (h : b.get? f = some map) : b.mapOf f = map := by
  rw [mapOf, h]
  rfl

theorem mapOf_of_eq_none (h : b.get? f = none) : b.mapOf f = NameMap.empty := by
  rw [mapOf, h]
  rfl

end Board

theorem Monitor.contains_eq_false {m : Monitor} {f : String} (h : m.snapshot? f = none) :
    m.contains f = false :=
  congrArg Option.isSome h

end Flowline
