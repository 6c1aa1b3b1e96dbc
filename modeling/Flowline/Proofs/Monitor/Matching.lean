import Flowline.Proofs.Monitor.Interleaving
import Flowline.Proofs.Status.Seeding

/-!
# Whether the board matches the registry

Registering and removing a flow change the registry first and the board after it. If no call is in
progress, the board should have a map for the registered flows and no others, with a record for each
sub-stage that a current graph declares (`Matched`). Dropping a map does not ask whether the flow is
there again (`exists_run_without_map`), and seeding one does not ask whether the flow is still there
(`exists_run_without_flow`), so this fails when a flow is removed and registered at the same time.
It holds of a flow as long as its registrations and removals do not cross: none of them has changed
the registry alone while one of the other kind has (`Matching`). Other flows and events do not
matter, however they come (`Step.keeps`).
-/

namespace Flowline.Monitor

open StatusMap

/-- The board has a map of the flow exactly if the flow is registered, and a record for each
sub-stage that its current graph declares. -/
structure Matched (f : String) (m : Monitor) : Prop where
  hasMap_iff : (m.board.get? f).isSome = true ↔ m.contains f = true
  recorded : ∀ x, m.snapshot? f = some x →
    ∀ n ∈ x.graph.subStageNames, n ∈ (m.board.mapOf f).names

/-- A registration of the flow has published its snapshot and not yet seeded the map, while a
removal has dropped the flow and not yet its map. -/
def Crossed (f : String) (s : Shared) : Prop :=
  (∃ x, .seed x ∈ s.tasks ∧ x.name = f) ∧ .dropMap f ∈ s.tasks

/-! ## Records on the board -/

/-- The board has a map of the flow with a record for each of the names. -/
def HasRecords (b : Board) (f : String) (names : List String) : Prop :=
  ∃ map, b.get? f = some map ∧ ∀ n ∈ names, n ∈ map.names

section HasRecords

variable {b : Board} {f : String} {names : List String}

theorem HasRecords.of_get?_eq {b' : Board} (h : HasRecords b f names)
    (hget : b'.get? f = b.get? f) : HasRecords b' f names := by
  obtain ⟨map, hmap, hnames⟩ := h
  exact ⟨map, hget.trans hmap, hnames⟩

theorem HasRecords.seed (h : HasRecords b f names) (x : Snapshot) :
    HasRecords (b.seed x) f names := by
  by_cases hx : x.name = f
  · obtain ⟨map, hmap, hnames⟩ := h
    refine ⟨_, (b.get?_seed f x).trans (if_pos hx), ?_⟩
    intro n hn
    rw [← NameMap.isSome_get?, isSome_seed, Board.mapOf_of_get? hmap, NameMap.isSome_get?]
    exact .inl (hnames n hn)
  · exact h.of_get?_eq ((b.get?_seed f x).trans (if_neg hx))

theorem HasRecords.apply (h : HasRecords b f names) (e : Event) :
    HasRecords (b.apply e) f names := by
  by_cases he : e.flowName = f
  · obtain ⟨map, hmap, hnames⟩ := h
    refine ⟨_, (b.get?_apply f e).trans (if_pos he), ?_⟩
    intro n hn
    rw [← NameMap.isSome_get?, isSome_merge, Board.mapOf_of_get? hmap, Bool.or_eq_true,
      NameMap.isSome_get?]
    exact .inl (hnames n hn)
  · exact h.of_get?_eq ((b.get?_apply f e).trans (if_neg he))

theorem hasRecords_seed (b : Board) (x : Snapshot) :
    HasRecords (b.seed x) x.name x.graph.subStageNames := by
  refine ⟨_, (b.get?_seed x.name x).trans (if_pos rfl), ?_⟩
  intro n hn
  rw [← NameMap.isSome_get?, isSome_seed]
  exact .inr hn

end HasRecords

/-! ## Moves about other flows -/

/-- The move publishes the flow or drops it, seeds or drops its map, or merges an event of it. -/
def Move.IsAbout (f : String) : Move → Prop
  | .publish x => x.name = f
  | .seed x => x.name = f
  | .dropFlow name => name = f
  | .dropMap name => name = f
  | .merge e => e.flowName = f
  | .call _ | .takeVersion _ | .accept _ | .refuse _ => False

/-- Of the flow the second state has what the first one has. -/
structure Keeps (f : String) (s t : Shared) : Prop where
  snapshot? : t.monitor.snapshot? f = s.monitor.snapshot? f
  map : t.monitor.board.get? f = s.monitor.board.get? f
  /-- No event begins to be merged but one of a registered flow. -/
  merging : ∀ e, t.merging = some e → s.merging = some e ∨ s.monitor.contains e.flowName = true
  seed : ∀ x, x.name = f → (.seed x ∈ t.tasks ↔ .seed x ∈ s.tasks)
  dropMap : .dropMap f ∈ t.tasks ↔ .dropMap f ∈ s.tasks

theorem Step.keeps {s t : Shared} {a : Move} {f : String} (hstep : Step s a t)
    (ha : ¬ a.IsAbout f) : Keeps f s t := by
  cases hstep with
  | call c =>
    refine ⟨rfl, rfl, fun e he => .inl he, fun x _ => ?_, ?_⟩
    · cases c <;> simp [Call.task]
    · cases c <;> simp [Call.task]
  | takeVersion r => exact ⟨rfl, rfl, fun e he => .inl he, fun x _ => by simp, by simp⟩
  | @publish m _ _ x =>
    have hsnapshot := (m.registry.get?_publish f x).trans (if_neg ha)
    refine ⟨hsnapshot, rfl, fun e he => .inl he, fun y hy => ?_, by simp⟩
    have hne : y ≠ x := fun heq => ha (heq ▸ hy)
    simp [hne]
  | @seed m _ x =>
    have hmap := (m.board.get?_seed f x).trans (if_neg ha)
    refine ⟨rfl, hmap, nofun, fun y hy => ?_, by simp⟩
    have hne : y ≠ x := fun heq => ha (heq ▸ hy)
    simp [hne]
  | @dropFlow m _ _ name =>
    have hsnapshot := (m.registry.get?_remove f name).trans (if_neg ha)
    exact ⟨hsnapshot, rfl, fun e he => .inl he, fun x _ => by simp, by simp [Ne.symm ha]⟩
  | @dropMap m _ name =>
    have hmap := (m.board.get?_remove f name).trans (if_neg ha)
    exact ⟨rfl, hmap, nofun, fun x _ => by simp, by simp [Ne.symm ha]⟩
  | accept e hcontains =>
    refine ⟨rfl, rfl, fun e' he' => ?_, fun x _ => by simp, by simp⟩
    obtain rfl := Option.some.inj he'
    exact .inr hcontains
  | refuse e _ => exact ⟨rfl, rfl, fun e' he' => .inl he', fun x _ => by simp, by simp⟩
  | @merge m _ e =>
    have hmap := (m.board.get?_apply f e).trans (if_neg ha)
    exact ⟨rfl, hmap, nofun, fun x _ => Iff.rfl, Iff.rfl⟩

/-! ## While calls are in progress -/

/-- What is still to be done for the board to match the registry, as to one flow. -/
structure Matching (f : String) (s : Shared) : Prop where
  /-- A snapshot is held under the name of its flow. -/
  named : ∀ x, s.monitor.snapshot? f = some x → x.name = f
  /-- What the current graph declares has records or is about to be seeded. -/
  recorded : ∀ x, s.monitor.snapshot? f = some x →
    .seed x ∈ s.tasks ∨ HasRecords s.monitor.board f x.graph.subStageNames
  /-- The map of a flow that was removed is gone or is about to be dropped. -/
  dropped : s.monitor.snapshot? f = none →
    s.monitor.board.get? f = none ∨ .dropMap f ∈ s.tasks
  /-- An event that is being merged is for a registered flow, or its map is about to be dropped. -/
  merging : ∀ e, s.merging = some e → e.flowName = f →
    s.monitor.contains f = true ∨ .dropMap f ∈ s.tasks
  /-- A flow whose map is about to be seeded has not been removed in the meantime, and one whose map
  is about to be dropped has not been registered. -/
  seeding : ∀ x, .seed x ∈ s.tasks → x.name = f → s.monitor.contains f = true
  dropping : .dropMap f ∈ s.tasks → s.monitor.snapshot? f = none

theorem matching_idle_empty (f : String) : Matching f (.idle empty) where
  named := fun _ h => nomatch h
  recorded := fun _ h => nomatch h
  dropped := fun _ => .inl rfl
  merging := fun _ h => nomatch h
  seeding := fun _ h => absurd h (Multiset.notMem_zero _)
  dropping := fun _ => rfl

section Matching

variable {f : String} {s t : Shared} {a : Move}

theorem Matching.matched (h : Matching f s) (hidle : s.IsIdle) : Matched f s.monitor := by
  have hnone : ∀ k, k ∉ s.tasks := by
    intro k hk
    rw [hidle.1] at hk
    exact Multiset.notMem_zero k hk
  have hrecords : ∀ x, s.monitor.snapshot? f = some x →
      HasRecords s.monitor.board f x.graph.subStageNames := by
    intro x hx
    exact (h.recorded x hx).resolve_left (hnone _)
  constructor
  · constructor
    · intro hmap
      cases hx : s.monitor.snapshot? f with
      | none =>
        rw [(h.dropped hx).resolve_right (hnone _)] at hmap
        cases hmap
      | some x => exact congrArg Option.isSome hx
    · intro hc
      obtain ⟨x, hx⟩ := Option.isSome_iff_exists.1 hc
      obtain ⟨map, hmap, -⟩ := hrecords x hx
      rw [hmap]
      rfl
  · intro x hx n hn
    obtain ⟨map, hmap, hnames⟩ := hrecords x hx
    rw [Board.mapOf_of_get? hmap]
    exact hnames n hn

/-- If nothing of the flow changes, what is still to be done for it stays the same. -/
theorem Matching.of_keeps (h : Matching f s) (hkeeps : Keeps f s t) : Matching f t := by
  have hsnapshot := hkeeps.snapshot?
  have hcontains : t.monitor.contains f = s.monitor.contains f := congrArg Option.isSome hsnapshot
  constructor
  · intro x hx
    exact h.named x (hsnapshot ▸ hx)
  · intro x hx
    rw [hsnapshot] at hx
    rw [hkeeps.seed x (h.named x hx)]
    exact (h.recorded x hx).imp_right fun hrecords => hrecords.of_get?_eq hkeeps.map
  · intro hnone
    rw [hsnapshot] at hnone
    rw [hkeeps.map, hkeeps.dropMap]
    exact h.dropped hnone
  · intro e he hf
    rw [hcontains, hkeeps.dropMap]
    rcases hkeeps.merging e he with he | hc
    · exact h.merging e he hf
    · exact .inl (hf ▸ hc)
  · intro x hx hf
    rw [hcontains]
    exact h.seeding x ((hkeeps.seed x hf).1 hx) hf
  · intro hmem
    rw [hsnapshot]
    exact h.dropping (hkeeps.dropMap.1 hmem)

variable {m : Monitor} {ts : Multiset Task} {held : Option Event}

theorem Matching.publish {x : Snapshot}
    (hcross : ¬ Crossed x.name
      ⟨{ m with registry := m.registry.publish x }, .seed x ::ₘ ts, held⟩) :
    Matching x.name ⟨{ m with registry := m.registry.publish x }, .seed x ::ₘ ts, held⟩ := by
  have hget : (m.registry.publish x).get? x.name = some x :=
    (m.registry.get?_publish x.name x).trans (if_pos rfl)
  have hcontains : (m.registry.publish x).contains x.name = true := congrArg Option.isSome hget
  constructor
  · intro y hy
    obtain rfl := Option.some.inj (hget.symm.trans hy)
    rfl
  · intro y hy
    obtain rfl := Option.some.inj (hget.symm.trans hy)
    exact .inl (Multiset.mem_cons_self _ _)
  · intro hnone
    cases hget.symm.trans hnone
  · intro e _ _
    exact .inl hcontains
  · intro y _ _
    exact hcontains
  · intro hmem
    exact absurd ⟨⟨x, Multiset.mem_cons_self _ _, rfl⟩, hmem⟩ hcross

theorem Matching.seed {x : Snapshot} (h : Matching x.name ⟨m, .seed x ::ₘ ts, none⟩) :
    Matching x.name ⟨{ m with board := m.board.seed x }, ts, none⟩ := by
  have hcontains : m.contains x.name = true := h.seeding x (Multiset.mem_cons_self _ _) rfl
  constructor
  · exact h.named
  · intro y hy
    rcases h.recorded y hy with hmem | hrecords
    · rcases Multiset.mem_cons.1 hmem with heq | hmem
      · obtain rfl := Task.seed.inj heq
        exact .inr (hasRecords_seed m.board y)
      · exact .inl hmem
    · exact .inr (hrecords.seed x)
  · intro hnone
    cases hcontains.symm.trans (contains_eq_false hnone)
  · intro e he
    cases he
  · intro y hy hf
    exact h.seeding y (Multiset.mem_cons_of_mem hy) hf
  · intro hmem
    exact h.dropping (Multiset.mem_cons_of_mem hmem)

theorem Matching.dropFlow
    (hcross : ¬ Crossed f ⟨{ m with registry := m.registry.remove f }, .dropMap f ::ₘ ts, held⟩) :
    Matching f ⟨{ m with registry := m.registry.remove f }, .dropMap f ::ₘ ts, held⟩ := by
  have hnone : (m.registry.remove f).get? f = none :=
    (m.registry.get?_remove f f).trans (if_pos rfl)
  have hmem : Task.dropMap f ∈ .dropMap f ::ₘ ts := Multiset.mem_cons_self _ _
  constructor
  · intro x hx
    cases hnone.symm.trans hx
  · intro x hx
    cases hnone.symm.trans hx
  · intro _
    exact .inr hmem
  · intro e _ _
    exact .inr hmem
  · intro x hx hf
    exact absurd ⟨⟨x, hx, hf⟩, hmem⟩ hcross
  · intro _
    exact hnone

theorem Matching.dropMap (h : Matching f ⟨m, .dropMap f ::ₘ ts, none⟩) :
    Matching f ⟨{ m with board := m.board.remove f }, ts, none⟩ := by
  have hnone : m.snapshot? f = none := h.dropping (Multiset.mem_cons_self _ _)
  constructor
  · exact h.named
  · intro x hx
    cases hnone.symm.trans hx
  · intro _
    exact .inl ((m.board.get?_remove f f).trans (if_pos rfl))
  · intro e he
    cases he
  · intro x hx hf
    exact h.seeding x (Multiset.mem_cons_of_mem hx) hf
  · intro _
    exact hnone

theorem Matching.merge {e : Event} (h : Matching f ⟨m, ts, some e⟩) (hf : e.flowName = f) :
    Matching f ⟨{ m with board := m.board.apply e }, ts, none⟩ := by
  constructor
  · exact h.named
  · intro x hx
    exact (h.recorded x hx).imp_right fun hrecords => hrecords.apply e
  · intro hnone
    rcases h.merging e rfl hf with hcontains | hmem
    · cases hcontains.symm.trans (contains_eq_false hnone)
    · exact .inr hmem
  · intro e' he'
    cases he'
  · exact h.seeding
  · exact h.dropping

theorem Matching.step_of_isAbout (h : Matching f s) (hstep : Step s a t) (hcross : ¬ Crossed f t)
    (ha : a.IsAbout f) : Matching f t := by
  cases hstep with
  | publish x =>
    obtain rfl := ha
    exact .publish hcross
  | seed x =>
    obtain rfl := ha
    exact h.seed
  | dropFlow name =>
    obtain rfl := ha
    exact .dropFlow hcross
  | dropMap name =>
    obtain rfl := ha
    exact h.dropMap
  | merge e => exact h.merge ha
  | call | takeVersion | accept | refuse => exact ha.elim

theorem Matching.step (h : Matching f s) (hstep : Step s a t) (hcross : ¬ Crossed f t) :
    Matching f t := by
  by_cases ha : a.IsAbout f
  · exact h.step_of_isAbout hstep hcross ha
  · exact h.of_keeps (hstep.keeps ha)

theorem Run.matching {moves : List Move} (h : Run (.idle empty) moves s)
    (hcross : Always (fun u => ¬ Crossed f u) (.idle empty) moves) : Matching f s := by
  induction h with
  | nil => exact matching_idle_empty f
  | concat run step ih => exact (ih hcross.of_concat).step step (hcross.last (.concat run step))

end Matching

/-! ## When no call is in progress -/

/-- A flow that nobody removes is never crossed. -/
theorem always_not_crossed {m : Monitor} {moves : List Move} {f : String}
    (h : .call (.remove f) ∉ moves) : Always (fun u => ¬ Crossed f u) (.idle m) moves := by
  intro before after t hsplit hrun hcrossed
  refine hrun.not_removing rfl ?_ hcrossed.2 rfl
  intro hmem
  apply h
  rw [hsplit]
  exact List.mem_append_left _ hmem

/-- However calls overlap, the board matches the registry as to a flow whose registrations and
removals do not cross. -/
theorem matched_of_not_crossed {moves : List Move} {s : Shared} {f : String}
    (h : Run (.idle empty) moves s) (hidle : s.IsIdle)
    (hcross : Always (fun u => ¬ Crossed f u) (.idle empty) moves) : Matched f s.monitor :=
  (h.matching hcross).matched hidle

/-- A flow is registered, and before its map is seeded an event of it is accepted, another flow
leaves the registry, the event is merged, and the map of the other flow is dropped. -/
theorem matched_beside_removal : ∃ moves s, Run (.idle empty) moves s ∧ s.IsIdle ∧
    Always (fun u => ¬ Crossed "F" u) (.idle empty) moves ∧ Matched "F" s.monitor := by
  let r : Registration := ⟨"F", none, Table.empty, .text "Sub-stages\nAWS\nX{a}", default⟩
  let x : Snapshot := .ofRegistration 1 r
  let e : Event := ⟨"F", default, NameMap.empty⟩
  let moves : List Move := [.call (.register r), .takeVersion r, .publish x, .call (.apply e),
    .accept e, .call (.remove "G"), .dropFlow "G", .merge e, .dropMap "G", .seed x]
  have hrun : ∃ m, Run (.idle empty) moves (.idle m) :=
    ⟨_, .cons (.call (.register r)) <| .cons (.takeVersion r) <| .cons (.publish x) <|
      .cons (.call (.apply e)) <| .cons (.accept e rfl) <| .cons (.call (.remove "G")) <|
      .cons (.dropFlow "G") <| .cons (.merge e) <| .cons (.dropMap "G") <| Step.run (.seed x)⟩
  obtain ⟨m, hrun⟩ := hrun
  have hcross : Always (fun u => ¬ Crossed "F" u) (.idle empty) moves := by
    apply always_not_crossed
    simp [moves]
  exact ⟨moves, _, hrun, ⟨rfl, rfl⟩, hcross, matched_of_not_crossed hrun ⟨rfl, rfl⟩ hcross⟩

/-! ## When they cross -/

/-- If a flow is registered after a removal has dropped it and before the removal drops its map, it
ends without a map. -/
theorem exists_run_without_map (m : Monitor) (r : Registration) :
    ∃ moves m', Run (.idle m) moves (.idle m') ∧
      m'.contains r.flowName = true ∧ m'.board.get? r.flowName = none := by
  let dropped : Registry := m.registry.remove r.flowName
  let x : Snapshot := .ofRegistration dropped.takeVersion.1 r
  obtain ⟨registering, hregister⟩ :=
    exists_run_perform ⟨dropped, m.board⟩ (.dropMap r.flowName ::ₘ 0) (.register r)
  refine ⟨_, _, .cons (.call (.remove r.flowName)) (.cons (.dropFlow r.flowName)
    (hregister.append (Step.run (.dropMap r.flowName)))), ?_, ?_⟩
  · exact congrArg Option.isSome ((Registry.get?_publish _ r.flowName x).trans (if_pos rfl))
  · exact (Board.get?_remove _ r.flowName r.flowName).trans (if_pos rfl)

/-- If a flow is removed after a registration has published it and before the registration seeds
its map, the map stays without the flow. -/
theorem exists_run_without_flow (m : Monitor) (r : Registration) :
    ∃ moves m', Run (.idle m) moves (.idle m') ∧
      m'.contains r.flowName = false ∧ (m'.board.get? r.flowName).isSome = true := by
  let x : Snapshot := .ofRegistration m.registry.takeVersion.1 r
  obtain ⟨removing, hremove⟩ :=
    exists_run_perform { m with registry := m.registry.takeVersion.2.publish x }
      (.seed x ::ₘ 0) (.remove r.flowName)
  refine ⟨_, _, .cons (.call (.register r)) (.cons (.takeVersion r) (.cons (.publish x)
    (hremove.append (Step.run (.seed x))))), ?_, ?_⟩
  · exact congrArg Option.isSome ((Registry.get?_remove _ r.flowName _).trans (if_pos rfl))
  · exact congrArg Option.isSome ((Board.get?_seed _ r.flowName x).trans (if_pos rfl))

/-- The board matches the registry whenever no call is in progress. -/
def AlwaysMatched : Prop :=
  ∀ moves s, Run (.idle empty) moves s → s.IsIdle → ∀ f, Matched f s.monitor

/-- A flow can end up registered without a map. -/
theorem not_alwaysMatched : ¬ AlwaysMatched := by
  intro h
  let r : Registration := ⟨"F", none, Table.empty, .text "Sub-stages\nAWS\nX{a}", default⟩
  obtain ⟨first, hfirst⟩ := exists_run_performAll empty [.register r]
  obtain ⟨moves, m, hrun, hcontains, hmap⟩ :=
    exists_run_without_map (empty.performAll [.register r]) r
  have hmatched : Matched "F" m := h _ _ (hfirst.append hrun) ⟨rfl, rfl⟩ "F"
  have hsome : (m.board.get? "F").isSome = true := hmatched.hasMap_iff.2 hcontains
  rw [hmap] at hsome
  cases hsome

end Flowline.Monitor
