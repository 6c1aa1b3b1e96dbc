import Flowline.Proofs.Monitor.Interleaving
import Flowline.Proofs.Status.LastWrite

/-!
# Events that come while flows are removed

An event that is accepted holds the board until it is merged, so it counts from then on: the map of
a flow is taken from the board after that event (`Shared.settledBoard`). As long as a flow is not
being registered, this map changes only when an event of the flow is accepted or the map is dropped
(`Step.get?_settledBoard`). Both statements of `removed_or_kept` come from it. A removed flow stays
without a map, since no event of it is accepted any more (`Gone`). The map of a flow that nobody
removes is the one that it had with every accepted event merged, in the order in which they were
accepted (`Run.get?_settledBoard`).
-/

namespace Flowline.Monitor

open StatusMap

/-- The board after the event that is being merged. -/
def Shared.settledBoard (s : Shared) : Board :=
  s.merging.elim s.monitor.board s.monitor.board.apply

/-- The patches of the event of a flow that a move accepts. -/
def Move.accepted? (f : String) : Move → Option Patches
  | .accept e => if e.flowName = f then some e.stages else none
  | _ => none

/-- The patches of the accepted events of a flow, in the order of acceptance. -/
def acceptedIn (f : String) (moves : List Move) : List Patches :=
  moves.filterMap (Move.accepted? f)

/-- A map with patches merged into it. Only the first of them needs no map. -/
def received (map : Option StatusMap) (ps : List Patches) : Option StatusMap :=
  if ps = [] then map else some (mergeAll (map.getD NameMap.empty) ps)

variable {m : Monitor} {moves : List Move} {s t : Shared} {a : Move} {f : String}

theorem received_concat (map : Option StatusMap) (ps : List Patches) (p : Patches) :
    received map (ps ++ [p]) = some (((received map ps).getD NameMap.empty).merge p) := by
  have hne : ps ++ [p] ≠ [] := List.append_ne_nil_of_right_ne_nil ps (List.cons_ne_nil p [])
  rw [received, if_neg hne, mergeAll_concat, received]
  by_cases h : ps = []
  · rw [if_pos h, h]
    rfl
  · rw [if_neg h]
    rfl

/-! ## One step -/

theorem Step.dropMap_mem (h : Step s (.dropMap f) t) : .dropMap f ∈ s.tasks := by
  cases h with
  | dropMap => exact Multiset.mem_cons_self _ _

theorem Step.get?_settledBoard_of_accepted (h : Step s a t) {p : Patches}
    (hp : a.accepted? f = some p) :
    t.settledBoard.get? f = some ((s.settledBoard.mapOf f).merge p) := by
  cases h with
  | accept e _ =>
    rw [Move.accepted?] at hp
    split at hp
    · rename_i hf
      obtain rfl := Option.some.inj hp
      exact (Board.get?_apply _ f e).trans (if_pos hf)
    · cases hp
  | _ => cases hp

/-- The map of a flow stays as it is unless an event is accepted or a map is seeded or dropped. -/
theorem Step.get?_settledBoard (h : Step s a t) (hp : a.accepted? f = none)
    (hreg : ∀ k ∈ s.tasks, k.purpose ≠ .registering f) (hdrop : a ≠ .dropMap f) :
    t.settledBoard.get? f = s.settledBoard.get? f := by
  cases h with
  | call | takeVersion | publish | dropFlow | refuse | merge => rfl
  | seed x =>
    have hx : x.name ≠ f := by
      intro heq
      exact hreg _ (Multiset.mem_cons_self _ _) (congrArg Purpose.registering heq)
    exact (Board.get?_seed _ f x).trans (if_neg hx)
  | dropMap name =>
    have hname : name ≠ f := by
      intro heq
      exact hdrop (congrArg Move.dropMap heq)
    exact (Board.get?_remove _ f name).trans (if_neg hname)
  | accept e _ =>
    rw [Move.accepted?] at hp
    split at hp
    · cases hp
    · rename_i hf
      exact (Board.get?_apply _ f e).trans (if_neg hf)

theorem Step.snapshot?_eq_none (h : Step s a t)
    (hreg : ∀ k ∈ s.tasks, k.purpose ≠ .registering f)
    (hnone : s.monitor.snapshot? f = none ∨ a = .dropFlow f) : t.monitor.snapshot? f = none := by
  rw [h.snapshot?]
  cases h with
  | publish x =>
    have hx : x.name ≠ f := by
      intro heq
      exact hreg _ (Multiset.mem_cons_self _ _) (congrArg Purpose.registering heq)
    exact (if_neg hx).trans (hnone.resolve_right Move.noConfusion)
  | dropFlow name =>
    rw [Move.snapshotAfter]
    split
    · rfl
    · rename_i hname
      exact hnone.resolve_right fun heq => hname (Move.dropFlow.inj heq)
  | _ => exact hnone.resolve_right Move.noConfusion

/-! ## A flow that is removed -/

/-- A removed flow: it has left the registry and the board, and no event of it is being merged. -/
structure Gone (f : String) (s : Shared) : Prop where
  unregistered : s.monitor.snapshot? f = none
  noMap : s.settledBoard.get? f = none

theorem Gone.get?_board (h : Gone f s) : s.monitor.board.get? f = none := by
  have hmap := h.noMap
  rw [Shared.settledBoard] at hmap
  cases hmerging : s.merging with
  | none =>
    rw [hmerging] at hmap
    exact hmap
  | some e =>
    rw [hmerging] at hmap
    replace hmap := (Board.get?_apply _ f e).symm.trans hmap
    split at hmap
    · cases hmap
    · exact hmap

theorem Step.accepted?_eq_none (h : Step s a t) (hnone : s.monitor.snapshot? f = none) :
    a.accepted? f = none := by
  cases h with
  | accept e hcontains =>
    apply if_neg
    intro hf
    subst hf
    cases hcontains.symm.trans (contains_eq_false hnone)
  | _ => rfl

theorem Gone.of_dropMap (hstep : Step s (.dropMap f) t) (hnone : s.monitor.snapshot? f = none) :
    Gone f t := by
  cases hstep with
  | dropMap => exact ⟨hnone, (Board.get?_remove _ f f).trans (if_pos rfl)⟩

/-- Nothing that is in progress brings a removed flow back. -/
theorem Gone.step (h : Gone f s) (hstep : Step s a t)
    (hreg : ∀ k ∈ s.tasks, k.purpose ≠ .registering f) : Gone f t := by
  by_cases hdrop : a = .dropMap f
  · subst hdrop
    exact .of_dropMap hstep h.unregistered
  · constructor
    · exact hstep.snapshot?_eq_none hreg (.inl h.unregistered)
    · -- An event of the flow would have to be accepted, and the flow has left the registry.
      rw [hstep.get?_settledBoard (hstep.accepted?_eq_none h.unregistered) hreg hdrop]
      exact h.noMap

/-- A removal that has yet to drop the map comes from a step that dropped the flow. -/
theorem Step.dropMap_of_mem (h : Step s a t) (hmem : .dropMap f ∈ t.tasks) :
    .dropMap f ∈ s.tasks ∨ a = .dropFlow f := by
  refine (h.mem_tasks hmem).imp_right ?_
  intro hnext
  cases a with
  | call c => cases c <;> cases hnext
  | dropFlow name =>
    obtain rfl := Task.dropMap.inj (Option.some.inj hnext)
    rfl
  | _ => cases hnext

section Run

variable (hcalls : ∀ r, .call (.register r) ∈ moves → r.flowName ≠ f)

include hcalls

theorem Run.snapshot?_eq_none (h : Run (.idle m) moves s) (hmem : .dropMap f ∈ s.tasks) :
    s.monitor.snapshot? f = none := by
  induction h with
  | nil => exact absurd hmem (Multiset.notMem_zero _)
  | concat run step ih =>
    have hcalls' := fun r hr => hcalls r (List.mem_append_left _ hr)
    apply step.snapshot?_eq_none fun k hk => run.not_registering rfl hcalls' hk
    exact (step.dropMap_of_mem hmem).imp_left (ih hcalls')

/-- Once a removal has dropped the map of a flow, the flow is gone. -/
theorem Run.gone (h : Run (.idle m) moves s) (hmem : .dropMap f ∈ moves) : Gone f s := by
  induction h with
  | nil => exact absurd hmem List.not_mem_nil
  | concat run step ih =>
    have hcalls' := fun r hr => hcalls r (List.mem_append_left _ hr)
    rcases List.mem_append.1 hmem with hmem | hmem
    · exact (ih hcalls' hmem).step step fun k hk => run.not_registering rfl hcalls' hk
    · obtain rfl := List.mem_singleton.1 hmem
      exact .of_dropMap step (run.snapshot?_eq_none hcalls' step.dropMap_mem)

/-! ## A flow that nobody removes -/

theorem Run.get?_settledBoard (h : Run (.idle m) moves s) (hkeep : .call (.remove f) ∉ moves) :
    s.settledBoard.get? f = received (m.board.get? f) (acceptedIn f moves) := by
  induction h with
  | nil => rfl
  | @concat moves t a u run step ih =>
    have hcalls' := fun r hr => hcalls r (List.mem_append_left _ hr)
    have hkeep' : .call (.remove f) ∉ moves := fun hmem => hkeep (List.mem_append_left _ hmem)
    have hget := ih hcalls' hkeep'
    have hdrop : a ≠ .dropMap f := by
      intro heq
      subst heq
      exact run.not_removing rfl hkeep' step.dropMap_mem rfl
    rw [acceptedIn, List.filterMap_append, ← acceptedIn]
    cases hp : a.accepted? f with
    | none =>
      rw [step.get?_settledBoard hp (fun k hk => run.not_registering rfl hcalls' hk) hdrop, hget,
        List.filterMap_cons_none hp, List.filterMap_nil, List.append_nil]
    | some p =>
      rw [step.get?_settledBoard_of_accepted hp, List.filterMap_cons_some hp, List.filterMap_nil,
        received_concat, ← hget]
      rfl

end Run

/-- However calls overlap, as long as a flow is not registered: once a removal of it is done, the
board has no map of it, whatever events are still being applied. If nobody removes it, no accepted
event is lost: its map is the one that it had with all of them merged, in the order in which they
took the board. -/
theorem removed_or_kept (h : Run (.idle m) moves s)
    (hcalls : ∀ r, .call (.register r) ∈ moves → r.flowName ≠ f) :
    (.dropMap f ∈ moves → s.monitor.board.get? f = none) ∧
    (.call (.remove f) ∉ moves → s.merging = none →
      s.monitor.board.get? f = received (m.board.get? f) (acceptedIn f moves)) := by
  constructor
  · intro hmem
    exact (h.gone hcalls hmem).get?_board
  · intro hkeep hmerging
    have hget := h.get?_settledBoard hcalls hkeep
    rw [Shared.settledBoard, hmerging] at hget
    exact hget

/-- Of two flows one is removed. Its registration ends between the acceptance of an event and the
merge, and its map is dropped after the next event of it has been refused. In the meantime an event
of the other flow is merged. -/
theorem removed_and_kept_at_once :
    let f : Registration := ⟨"F", none, Table.empty, .text "Sub-stages\nAWS\nX{a}", default⟩
    let g : Registration := { f with flowName := "G" }
    let m := empty.performAll [.register f, .register g]
    let running (name : String) : Event :=
      ⟨name, default, NameMap.empty.insert "a" (.ofStatus .running)⟩
    let moves : List Move := [.call (.apply (running "F")), .accept (running "F"),
      .call (.remove "F"), .dropFlow "F", .merge (running "F"), .call (.apply (running "G")),
      .accept (running "G"), .merge (running "G"), .call (.apply (running "F")),
      .refuse (running "F"), .dropMap "F"]
    ∃ s, Run (.idle m) moves s ∧ s.merging = none ∧
      (∀ r, .call (.register r) ∉ moves) ∧ .dropMap "F" ∈ moves ∧ .call (.remove "G") ∉ moves ∧
      s.monitor.board.get? "F" = none ∧
      s.monitor.board.get? "G" = some (mergeAll (m.board.mapOf "G") [(running "G").stages]) := by
  intro f g m running moves
  have hnone : (m.registry.remove "F").get? "F" = none :=
    (Registry.get?_remove _ "F" "F").trans (if_pos rfl)
  have hfirst : m.contains "F" = true := by decide +kernel
  have hother : (m.registry.remove "F").contains "G" = true := by decide +kernel
  have hrun : ∃ m', Run (.idle m) moves (.idle m') :=
    ⟨_, .cons (.call (.apply _)) <| .cons (.accept _ hfirst) <| .cons (.call (.remove "F")) <|
      .cons (.dropFlow "F") <| .cons (.merge _) <| .cons (.call (.apply _)) <|
      .cons (.accept _ hother) <| .cons (.merge _) <| .cons (.call (.apply _)) <|
      .cons (.refuse _ (contains_eq_false hnone)) <| Step.run (.dropMap "F")⟩
  obtain ⟨m', hrun⟩ := hrun
  have hcalls : ∀ r, .call (.register r) ∉ moves := by
    intro r
    simp [moves]
  have hdrop : .dropMap "F" ∈ moves := by simp [moves]
  have hkeep : .call (.remove "G") ∉ moves := by simp [moves]
  obtain ⟨hremoved, -⟩ := removed_or_kept hrun fun r hr => absurd hr (hcalls r)
  obtain ⟨-, hkept⟩ := removed_or_kept hrun fun r hr => absurd hr (hcalls r)
  exact ⟨_, hrun, rfl, hcalls, hdrop, hkeep, hremoved hdrop, hkept hkeep rfl⟩

end Flowline.Monitor
