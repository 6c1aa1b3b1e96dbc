import Flowline.Proofs.Monitor.Interleaving
import Mathlib.Data.Multiset.Count

/-!
# The versions that are read while flows are registered

A registration takes its version before it publishes its snapshot, and another registration of the
same flow may come between. Then the snapshot with the earlier version is published later and stays,
so the version that one reads decreases (`exists_run_version_decreases`,
`not_versionsNeverDecrease`).

What one reads is the snapshot that was published last (`Run.snapshot?_eq`). So the versions never
decrease exactly if the snapshots are published in the order of their versions
(`versionsIncrease_iff`). They are as long as the flow is registered by one caller at a time
(`InOrder.pairwise`).
-/

namespace Flowline.Monitor

/-- The snapshot of a flow that a move publishes. -/
def Move.published? (f : String) : Move → Option Snapshot
  | .publish x => if x.name = f then some x else none
  | _ => none

/-- The snapshots of a flow that are published, first things first. -/
def published (f : String) (moves : List Move) : List Snapshot :=
  moves.filterMap (Move.published? f)

/-- Of two reads of a flow the later one gives no smaller version. -/
def VersionsIncrease (f : String) (s : Shared) (moves : List Move) : Prop :=
  ∀ before between after t u, moves = before ++ between ++ after →
    Run s before t → Run t between u →
    ∀ x y, t.monitor.snapshot? f = some x → u.monitor.snapshot? f = some y → x.version ≤ y.version

def Task.isPublishing (f : String) : Task → Bool
  | .publish x => x.name = f
  | _ => false

/-- At most one caller has taken a version for the flow and not yet published its snapshot. -/
def Alone (f : String) (s : Shared) : Prop := s.tasks.countP (fun k => k.isPublishing f = true) ≤ 1

instance (f : String) : DecidablePred (Alone f) := fun s =>
  inferInstanceAs (Decidable (s.tasks.countP (fun k => k.isPublishing f = true) ≤ 1))

variable {s t u : Shared} {moves others : List Move} {a : Move} {f : String}

theorem published_append (f : String) (moves others : List Move) :
    published f (moves ++ others) = published f moves ++ published f others :=
  List.filterMap_append

theorem published_concat (f : String) (moves : List Move) (a : Move) :
    published f (moves ++ [a]) = published f moves ++ (a.published? f).toList := by
  rw [published_append]
  apply congrArg
  cases h : a.published? f with
  | none => exact List.filterMap_cons_none h
  | some x => exact List.filterMap_cons_some h

theorem mem_published {x : Snapshot} :
    x ∈ published f moves ↔ .publish x ∈ moves ∧ x.name = f := by
  rw [published, List.mem_filterMap]
  constructor
  · rintro ⟨a, ha, hx⟩
    cases a with
    | publish y =>
      rw [Move.published?] at hx
      split at hx
      · obtain rfl := Option.some.inj hx
        exact ⟨ha, ‹_›⟩
      · cases hx
    | _ => cases hx
  · rintro ⟨hmem, hname⟩
    exact ⟨.publish x, hmem, if_pos hname⟩

/-! ## What is read -/

theorem Step.snapshot?_eq (h : Step s a t) (hdrop : a ≠ .dropFlow f) :
    t.monitor.snapshot? f = (a.published? f).or (s.monitor.snapshot? f) := by
  rw [h.snapshot?]
  cases a with
  | publish x =>
    rw [Move.snapshotAfter, Move.published?]
    split
    · rfl
    · rfl
  | dropFlow name => exact if_neg fun heq => hdrop (congrArg Move.dropFlow heq)
  | _ => rfl

/-- One reads what was published last. -/
theorem Run.snapshot?_eq (h : Run s moves t) (hdrop : .dropFlow f ∉ moves) :
    t.monitor.snapshot? f = (published f moves).getLast?.or (s.monitor.snapshot? f) := by
  induction h with
  | nil => rfl
  | @concat moves t a u run step ih =>
    have hstep : a ≠ .dropFlow f := by
      intro heq
      subst heq
      exact hdrop (List.mem_append_right _ (List.mem_singleton_self _))
    rw [step.snapshot?_eq hstep, ih fun hmem => hdrop (List.mem_append_left _ hmem),
      published_concat, List.getLast?_append, Option.or_assoc]
    cases a.published? f with
    | none => rfl
    | some x => rfl

/-- Each snapshot that is published can be read at some time. -/
theorem Run.exists_read (h : Run s moves t) {x : Snapshot} (hx : x ∈ published f moves) :
    ∃ before after v, moves = before ++ after ∧ Run s before v ∧ Run v after t ∧
      v.monitor.snapshot? f = some x := by
  obtain ⟨hmem, hname⟩ := mem_published.1 hx
  obtain ⟨before, after, rfl⟩ := List.append_of_mem hmem
  rw [List.append_cons] at h
  obtain ⟨v, hbefore, hafter⟩ := h.exists_between
  obtain ⟨w, -, hstep⟩ := hbefore.exists_last
  refine ⟨before ++ [.publish x], after, v, List.append_cons before _ after, hbefore, hafter, ?_⟩
  rw [hstep.snapshot?_eq Move.noConfusion, Move.published?, if_pos hname]
  rfl

theorem VersionsIncrease.of_append (h : VersionsIncrease f s (moves ++ others)) :
    VersionsIncrease f s moves := by
  intro before between after t u hsplit
  apply h before between (after ++ others) t u
  rw [hsplit, List.append_assoc _ after]

theorem VersionsIncrease.pairwise (hincrease : VersionsIncrease f s moves) (h : Run s moves t)
    (hdrop : .dropFlow f ∉ moves) :
    (published f moves).Pairwise fun x y => x.version ≤ y.version := by
  induction h with
  | nil => exact .nil
  | @concat moves t a u run step ih =>
    have hdrop' : .dropFlow f ∉ moves := fun hmem => hdrop (List.mem_append_left _ hmem)
    rw [published_concat, List.pairwise_append]
    refine ⟨ih hincrease.of_append hdrop', ?_, ?_⟩
    · cases a.published? f with
      | none => exact .nil
      | some y => exact List.pairwise_singleton _ y
    · intro x hx y hy
      rw [Option.mem_toList] at hy
      obtain ⟨before, after, v, rfl, hbefore, hafter, hread⟩ := run.exists_read hx
      have hlast : u.monitor.snapshot? f = some y := by
        have hstep : a ≠ .dropFlow f := by
          intro heq
          subst heq
          cases hy
        rw [step.snapshot?_eq hstep, hy]
        rfl
      have hsplit : before ++ after ++ [a] = before ++ (after ++ [a]) ++ [] := by
        rw [List.append_nil, List.append_assoc]
      exact hincrease before (after ++ [a]) [] v u hsplit hbefore (.concat hafter step) x y
        hread hlast

theorem versionsIncrease_of_pairwise (hnone : s.monitor.snapshot? f = none)
    (hdrop : .dropFlow f ∉ moves)
    (hpairwise : (published f moves).Pairwise fun x y => x.version ≤ y.version) :
    VersionsIncrease f s moves := by
  intro before between after t u hsplit hbefore hbetween x y hx hy
  subst hsplit
  have hdropBefore : .dropFlow f ∉ before := by
    intro hmem
    exact hdrop (List.mem_append_left _ (List.mem_append_left _ hmem))
  have hdropBetween : .dropFlow f ∉ between := by
    intro hmem
    exact hdrop (List.mem_append_left _ (List.mem_append_right _ hmem))
  have hread : x ∈ published f before := by
    rw [hbefore.snapshot?_eq hdropBefore, hnone, Option.or_none] at hx
    exact List.mem_of_getLast? hx
  rw [hbetween.snapshot?_eq hdropBetween, hx] at hy
  cases hlast : (published f between).getLast? with
  | none =>
    rw [hlast] at hy
    obtain rfl := Option.some.inj hy
    exact Nat.le_refl _
  | some z =>
    rw [hlast] at hy
    obtain rfl := Option.some.inj hy
    rw [published_append, published_append, List.pairwise_append, List.pairwise_append] at hpairwise
    exact hpairwise.1.2.2 x hread z (List.mem_of_getLast? hlast)

/-! ## One caller at a time -/

/-- The snapshots of a flow, also those to come, are published in the order of their versions. -/
structure InOrder (f : String) (moves : List Move) (s : Shared) : Prop where
  published : (published f moves).Pairwise fun x y => x.version ≤ y.version
  publishing : ∀ y, .publish y ∈ s.tasks → y.name = f →
    ∀ x ∈ Monitor.published f moves, x.version ≤ y.version
  /-- The next version is greater than all that are published or to be published. -/
  taken : ∀ x, x ∈ Monitor.published f moves ∨ .publish x ∈ s.tasks →
    x.version ≤ s.monitor.registry.lastVersion

theorem inOrder_nil (hnone : ∀ x, .publish x ∉ s.tasks) : InOrder f [] s where
  published := .nil
  publishing := fun _ _ _ _ hx => nomatch hx
  taken := by
    rintro x (hx | hx)
    · cases hx
    · exact absurd hx (hnone x)

/-- A move that takes no version and publishes nothing of the flow. -/
theorem InOrder.congr (h : InOrder f moves s) (hpublished : a.published? f = none)
    (hpublishing : ∀ x, .publish x ∈ t.tasks → .publish x ∈ s.tasks)
    (hlast : t.monitor.registry.lastVersion = s.monitor.registry.lastVersion) :
    InOrder f (moves ++ [a]) t := by
  have hsame : Monitor.published f (moves ++ [a]) = Monitor.published f moves := by
    rw [published_concat, hpublished]
    exact List.append_nil _
  constructor
  · rw [hsame]
    exact h.published
  · intro y hy hname x hx
    rw [hsame] at hx
    exact h.publishing y (hpublishing y hy) hname x hx
  · intro x hx
    rw [hsame] at hx
    rw [hlast]
    exact h.taken x (hx.imp_right (hpublishing x))

section InOrder

variable {m : Monitor} {ts : Multiset Task} {held : Option Event}

theorem InOrder.takeVersion {r : Registration}
    (h : InOrder f moves ⟨m, .takeVersion r ::ₘ ts, held⟩) :
    InOrder f (moves ++ [.takeVersion r]) ⟨{ m with registry := m.registry.takeVersion.2 },
      .publish (.ofRegistration m.registry.takeVersion.1 r) ::ₘ ts, held⟩ := by
  have hsame : Monitor.published f (moves ++ [.takeVersion r]) = Monitor.published f moves := by
    rw [published_concat]
    exact List.append_nil _
  have htaken : ∀ x, x ∈ Monitor.published f moves ∨ .publish x ∈ ts →
      x.version ≤ m.registry.lastVersion := by
    intro x hx
    exact h.taken x (hx.imp_right Multiset.mem_cons_of_mem)
  constructor
  · rw [hsame]
    exact h.published
  · intro y hy hname x hx
    rw [hsame] at hx
    rcases Multiset.mem_cons.1 hy with heq | hy
    · obtain rfl := Task.publish.inj heq
      exact Nat.le_succ_of_le (htaken x (.inl hx))
    · exact h.publishing y (Multiset.mem_cons_of_mem hy) hname x hx
  · intro x hx
    rw [hsame, Multiset.mem_cons, or_left_comm] at hx
    rcases hx with heq | hx
    · obtain rfl := Task.publish.inj heq
      exact Nat.le_refl _
    · exact Nat.le_succ_of_le (htaken x hx)

theorem InOrder.publish {x : Snapshot} (h : InOrder f moves ⟨m, .publish x ::ₘ ts, held⟩)
    (halone : Alone f ⟨m, .publish x ::ₘ ts, held⟩) (hname : x.name = f) :
    InOrder f (moves ++ [.publish x])
      ⟨{ m with registry := m.registry.publish x }, .seed x ::ₘ ts, held⟩ := by
  have hmore : Monitor.published f (moves ++ [.publish x]) = Monitor.published f moves ++ [x] := by
    rw [published_concat, Move.published?, if_pos hname]
    rfl
  have hmem : Task.publish x ∈ .publish x ::ₘ ts := Multiset.mem_cons_self _ _
  -- Nobody else is about to publish the flow, so no earlier version is still to come.
  have hno : ∀ y, .publish y ∈ .seed x ::ₘ ts → y.name ≠ f := by
    intro y hy hf
    have hy' : Task.publish y ∈ ts := (Multiset.mem_cons.1 hy).resolve_left Task.noConfusion
    have hpos : 0 < ts.countP (fun k => k.isPublishing f = true) :=
      Multiset.countP_pos_of_mem hy' (decide_eq_true hf)
    have hcount : (Task.publish x ::ₘ ts).countP (fun k => k.isPublishing f = true) ≤ 1 := halone
    rw [Multiset.countP_cons_of_pos ts (a := .publish x) (decide_eq_true hname)] at hcount
    omega
  constructor
  · rw [hmore, List.pairwise_append]
    refine ⟨h.published, List.pairwise_singleton _ x, ?_⟩
    intro y hy z hz
    obtain rfl := List.mem_singleton.1 hz
    exact h.publishing z hmem hname y hy
  · intro y hy hf
    exact absurd hf (hno y hy)
  · intro y hy
    apply h.taken y
    rw [hmore, List.mem_append, List.mem_singleton] at hy
    rcases hy with (hy | rfl) | hy
    · exact .inl hy
    · exact .inr hmem
    · have hy' : Task.publish y ∈ ts := (Multiset.mem_cons.1 hy).resolve_left Task.noConfusion
      exact .inr (Multiset.mem_cons_of_mem hy')

end InOrder

theorem InOrder.step (h : InOrder f moves s) (hstep : Step s a t) (halone : Alone f s) :
    InOrder f (moves ++ [a]) t := by
  have hpublishing : ∀ x, .publish x ∈ t.tasks →
      .publish x ∈ s.tasks ∨ a.next? s.monitor.registry.takeVersion.1 = some (.publish x) :=
    fun x hx => hstep.mem_tasks hx
  cases hstep with
  | takeVersion r => exact h.takeVersion
  | publish x =>
    by_cases hname : x.name = f
    · exact h.publish halone hname
    · refine h.congr (if_neg hname) ?_ rfl
      intro y hy
      exact (hpublishing y hy).resolve_right nofun
  | call c =>
    refine h.congr rfl ?_ rfl
    intro x hx
    apply (hpublishing x hx).resolve_right
    cases c with
    | register r => nofun
    | remove name => nofun
    | apply e => nofun
  | _ =>
    refine h.congr rfl ?_ rfl
    intro x hx
    exact (hpublishing x hx).resolve_right nofun

theorem Run.inOrder (h : Run s moves t) (hnone : ∀ x, .publish x ∉ s.tasks)
    (halone : Always (Alone f) s moves) : InOrder f moves t := by
  induction h with
  | nil => exact inOrder_nil hnone
  | concat run step ih => exact (ih halone.of_concat).step step (halone.of_concat.last run)

/-! ## When versions decrease -/

/-- The versions of a flow that is registered and not removed never decrease exactly if its
snapshots are published in the order of their versions. They never decrease if only one caller at a
time is about to publish the flow. -/
theorem versionsIncrease_iff {m : Monitor} (h : Run (.idle m) moves t)
    (hnone : m.snapshot? f = none) (hdrop : .dropFlow f ∉ moves) :
    (VersionsIncrease f (.idle m) moves ↔
      (published f moves).Pairwise fun x y => x.version ≤ y.version) ∧
    (Always (Alone f) (.idle m) moves → VersionsIncrease f (.idle m) moves) := by
  have hiff : VersionsIncrease f (.idle m) moves ↔
      (published f moves).Pairwise fun x y => x.version ≤ y.version :=
    ⟨fun hincrease => hincrease.pairwise h hdrop, versionsIncrease_of_pairwise hnone hdrop⟩
  refine ⟨hiff, ?_⟩
  intro halone
  exact hiff.2 (h.inOrder (fun x => Multiset.notMem_zero _) halone).published

/-- A flow is registered again while its first map is still to be seeded. -/
theorem versionsIncrease_registered_again :
    let r : Registration := ⟨"F", none, Table.empty, .text "Sub-stages\nAWS\nX{a}", default⟩
    let moves : List Move := [.call (.register r), .takeVersion r, .publish (.ofRegistration 1 r),
      .call (.register r), .takeVersion r, .publish (.ofRegistration 2 r)]
    (∃ s, Run (.idle empty) moves s) ∧ .dropFlow "F" ∉ moves ∧
      Always (Alone "F") (.idle empty) moves ∧ VersionsIncrease "F" (.idle empty) moves := by
  intro r moves
  have hrun : ∃ s, Run (.idle empty) moves s :=
    ⟨_, .cons (.call _) <| .cons (.takeVersion r) <| .cons (.publish _) <|
      .cons (.call _) <| .cons (.takeVersion r) <| Step.run (.publish _)⟩
  have hdrop : .dropFlow "F" ∉ moves := by simp [moves]
  have halone : Always (Alone "F") (.idle empty) moves :=
    .cons (by decide) (.call _) <| .cons (by decide) (.takeVersion r) <|
      .cons (by decide) (.publish _) <| .cons (by decide) (.call _) <|
      .cons (by decide) (.takeVersion r) <| .cons (by decide) (.publish _) <| .nil (by decide)
  obtain ⟨s, hs⟩ := hrun
  exact ⟨⟨s, hs⟩, hdrop, halone, (versionsIncrease_iff hs rfl hdrop).2 halone⟩

/-- If a registration comes between the two steps of another registration of the same flow, its
snapshot is replaced by the one with the earlier version, which stays. -/
theorem exists_run_version_decreases (m : Monitor) (r : Registration) :
    ∃ moves m', Run (.idle m) moves (.idle m') ∧ (∀ c, .call c ∈ moves → c = .register r) ∧
      ¬ VersionsIncrease r.flowName (.idle m) moves ∧
      ∃ x, m'.snapshot? r.flowName = some x ∧ x.version < m'.registry.lastVersion := by
  let taken : Registry := m.registry.takeVersion.2
  let x : Snapshot := .ofRegistration m.registry.takeVersion.1 r
  let y : Snapshot := .ofRegistration taken.takeVersion.1 r
  let first : List Move := [.call (.register r), .takeVersion r, .call (.register r),
    .takeVersion r, .publish y]
  let rest : List Move := [.seed y, .publish x, .seed x]
  let between : Shared :=
    ⟨⟨taken.takeVersion.2.publish y, m.board⟩, .seed y ::ₘ .publish x ::ₘ 0, none⟩
  let last : Monitor := ⟨(taken.takeVersion.2.publish y).publish x, (m.board.seed y).seed x⟩
  have hfirst : Run (.idle m) first between :=
    .cons (.call _) <| .cons (.takeVersion r) <| .cons (.call _) <| .cons (.takeVersion r) <|
      Step.run (.publish y)
  have hrest : Run between rest (.idle last) :=
    .cons (.seed y) <| .cons (.publish x) <| Step.run (.seed x)
  have hy : between.monitor.snapshot? r.flowName = some y :=
    (Registry.get?_publish _ r.flowName y).trans (if_pos rfl)
  have hx : last.snapshot? r.flowName = some x :=
    (Registry.get?_publish _ r.flowName x).trans (if_pos rfl)
  refine ⟨first ++ rest, last, hfirst.append hrest, ?_, ?_, x, hx, Nat.lt_succ_self _⟩
  · intro c hc
    simp only [first, rest, List.cons_append, List.nil_append, List.mem_cons, List.not_mem_nil,
      Move.call.injEq, reduceCtorEq, or_false, false_or, or_self] at hc
    exact hc
  · intro hincrease
    have hle : y.version ≤ x.version :=
      hincrease first rest [] between (.idle last) (List.append_nil _).symm hfirst hrest y x hy hx
    exact Nat.not_succ_le_self _ hle

/-- While flows are registered and none is removed, the versions that successive reads of a flow
give never decrease. -/
def VersionsNeverDecrease : Prop :=
  ∀ moves s, Run (.idle empty) moves s → (∀ c, .call c ∈ moves → ∃ r, c = .register r) →
    ∀ f, VersionsIncrease f (.idle empty) moves

/-- Two registrations of one flow can be published in the wrong order. -/
theorem not_versionsNeverDecrease : ¬ VersionsNeverDecrease := by
  intro h
  let r : Registration := ⟨"F", none, Table.empty, .text "Sub-stages\nAWS\nX{a}", default⟩
  obtain ⟨moves, m, hrun, hcalls, hdecrease, -⟩ := exists_run_version_decreases empty r
  exact hdecrease (h moves _ hrun (fun c hc => ⟨r, hcalls c hc⟩) "F")

end Flowline.Monitor
