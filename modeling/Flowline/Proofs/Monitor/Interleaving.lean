import Flowline.Monitor.Interleaving
import Flowline.Proofs.Monitor.Entries
import Mathlib.Data.List.Induction

/-!
# Runs of a shared monitor

A run that begins with no call in progress has done nothing that was not called for: each task that
is left serves a call that has begun (`Run.exists_call`). A call that nobody disturbs takes its
steps one after the other and does what it does on a monitor of its own (`exists_run_perform`), so
every monitor that calls lead to one after the other is also reached here (`exists_run_performAll`).
-/

namespace Flowline.Monitor

variable {s t u : Shared} {moves others : List Move} {a : Move} {f : String}

/-! ## What a step does -/

/-- The snapshot of a flow after a move. -/
def Move.snapshotAfter (f : String) (old : Option Snapshot) : Move → Option Snapshot
  | .publish x => if x.name = f then some x else old
  | .dropFlow name => if name = f then none else old
  | _ => old

/-- The task that a move leads to, with the version that is next. -/
def Move.next? (version : Nat) : Move → Option Task
  | .call c => some c.task
  | .takeVersion r => some (.publish (.ofRegistration version r))
  | .publish x => some (.seed x)
  | .dropFlow name => some (.dropMap name)
  | _ => none

theorem Step.snapshot? (h : Step s a t) (f : String) :
    t.monitor.snapshot? f = a.snapshotAfter f (s.monitor.snapshot? f) := by
  cases h with
  | publish x => exact Registry.get?_publish _ f x
  | dropFlow name => exact Registry.get?_remove _ f name
  | _ => rfl

theorem Step.mem_tasks (h : Step s a t) {k : Task} (hk : k ∈ t.tasks) :
    k ∈ s.tasks ∨ a.next? s.monitor.registry.takeVersion.1 = some k := by
  cases h with
  | call c =>
    rcases Multiset.mem_cons.1 hk with rfl | hk
    · exact .inr rfl
    · exact .inl hk
  | takeVersion | publish | dropFlow =>
    rcases Multiset.mem_cons.1 hk with rfl | hk
    · exact .inr rfl
    · exact .inl (Multiset.mem_cons_of_mem hk)
  | merge e => exact .inl hk
  | _ => exact .inl (Multiset.mem_cons_of_mem hk)

/-! ## Putting runs together -/

theorem Step.run (h : Step s a t) : Run s [a] t := .concat .nil h

theorem Run.append (h : Run s moves t) (h' : Run t others u) : Run s (moves ++ others) u := by
  induction h' with
  | nil =>
    rw [List.append_nil]
    exact h
  | concat _ step ih =>
    rw [← List.append_assoc]
    exact .concat ih step

theorem Run.cons (h : Step s a t) (h' : Run t moves u) : Run s (a :: moves) u := h.run.append h'

theorem Run.eq_of_nil (h : Run s [] t) : t = s := by
  generalize hnil : ([] : List Move) = moves at h
  cases h with
  | nil => rfl
  | concat => exact absurd hnil.symm (List.append_ne_nil_of_right_ne_nil _ (List.cons_ne_nil _ _))

theorem Run.exists_last (h : Run s (moves ++ [a]) u) : ∃ t, Run s moves t ∧ Step t a u := by
  generalize hall : moves ++ [a] = all at h
  cases h with
  | nil => exact absurd hall (List.append_ne_nil_of_right_ne_nil _ (List.cons_ne_nil _ _))
  | concat run step =>
    obtain ⟨rfl, ha⟩ := List.append_inj' hall rfl
    obtain rfl := List.singleton_inj.1 ha
    exact ⟨_, run, step⟩

theorem Run.exists_between (h : Run s (moves ++ others) u) :
    ∃ t, Run s moves t ∧ Run t others u := by
  induction others using List.reverseRecOn generalizing u with
  | nil =>
    rw [List.append_nil] at h
    exact ⟨u, h, .nil⟩
  | append_singleton others a ih =>
    rw [← List.append_assoc] at h
    obtain ⟨v, hrun, hstep⟩ := h.exists_last
    obtain ⟨t, hfirst, hrest⟩ := ih hrun
    exact ⟨t, hfirst, .concat hrest hstep⟩

/-! ## The moves tell where a run leads -/

theorem Step.unique (h : Step s a t) (h' : Step s a u) : t = u := by
  generalize hs : s = s' at h'
  cases h with
  | call | merge =>
    cases h'
    cases hs
    rfl
  | takeVersion | publish | seed | dropFlow | dropMap | accept | refuse =>
    cases h'
    obtain ⟨hm, hts, hheld⟩ := Shared.mk.inj hs
    obtain rfl := (Multiset.cons_inj_right _).1 hts
    cases hm
    cases hheld
    rfl

theorem Run.unique (h : Run s moves t) (h' : Run s moves u) : t = u := by
  induction h generalizing u with
  | nil => exact h'.eq_of_nil.symm
  | concat run step ih =>
    obtain ⟨v, hrun, hstep⟩ := h'.exists_last
    obtain rfl := ih hrun
    exact step.unique hstep

/-! ## Properties of every state of a run -/

theorem Always.last {P : Shared → Prop} (h : Always P s moves) (hrun : Run s moves t) : P t :=
  h moves [] t (List.append_nil moves).symm hrun

theorem Always.of_concat {P : Shared → Prop} (h : Always P s (moves ++ [a])) :
    Always P s moves := by
  intro before after t hsplit hrun
  subst hsplit
  exact h before (after ++ [a]) t (List.append_assoc _ _ _) hrun

theorem Always.nil {P : Shared → Prop} (h : P s) : Always P s [] := by
  intro before after t hsplit hrun
  obtain ⟨rfl, -⟩ := List.append_eq_nil_iff.1 hsplit.symm
  rw [hrun.eq_of_nil]
  exact h

theorem Always.cons {P : Shared → Prop} (h : P s) (hstep : Step s a t)
    (hrest : Always P t moves) : Always P s (a :: moves) := by
  intro before after u hsplit hrun
  cases before with
  | nil =>
    rw [hrun.eq_of_nil]
    exact h
  | cons b before =>
    obtain ⟨rfl, rfl⟩ := List.cons.inj hsplit
    obtain ⟨v, hfirst, hbefore⟩ := (show Run s ([a] ++ before) u from hrun).exists_between
    obtain rfl := hstep.run.unique hfirst
    exact hrest before after u rfl hbefore

/-! ## What is in progress has been called for -/

/-- What a call is for. -/
inductive Purpose where
  | registering (f : String)
  | removing (f : String)
  | applying (f : String)

def Call.purpose : Call → Purpose
  | .register r => .registering r.flowName
  | .remove name => .removing name
  | .apply e => .applying e.flowName

def Task.purpose : Task → Purpose
  | .takeVersion r => .registering r.flowName
  | .publish x | .seed x => .registering x.name
  | .dropFlow name | .dropMap name => .removing name
  | .check e => .applying e.flowName

theorem Call.purpose_task (c : Call) : c.task.purpose = c.purpose := by
  cases c with
  | register r => rfl
  | remove name => rfl
  | apply e => rfl

/-- A step goes on with tasks that are there. -/
theorem Step.purpose_of_mem (h : Step s a t) {k : Task} (hk : k ∈ t.tasks) :
    (∃ c, a = .call c ∧ c.purpose = k.purpose) ∨ ∃ k' ∈ s.tasks, k'.purpose = k.purpose := by
  cases h with
  | call c =>
    rcases Multiset.mem_cons.1 hk with rfl | hk
    · exact .inl ⟨c, rfl, c.purpose_task.symm⟩
    · exact .inr ⟨k, hk, rfl⟩
  | takeVersion r =>
    rcases Multiset.mem_cons.1 hk with rfl | hk
    · exact .inr ⟨_, Multiset.mem_cons_self _ _, rfl⟩
    · exact .inr ⟨k, Multiset.mem_cons_of_mem hk, rfl⟩
  | publish x =>
    rcases Multiset.mem_cons.1 hk with rfl | hk
    · exact .inr ⟨_, Multiset.mem_cons_self _ _, rfl⟩
    · exact .inr ⟨k, Multiset.mem_cons_of_mem hk, rfl⟩
  | dropFlow name =>
    rcases Multiset.mem_cons.1 hk with rfl | hk
    · exact .inr ⟨_, Multiset.mem_cons_self _ _, rfl⟩
    · exact .inr ⟨k, Multiset.mem_cons_of_mem hk, rfl⟩
  | seed x => exact .inr ⟨k, Multiset.mem_cons_of_mem hk, rfl⟩
  | dropMap name => exact .inr ⟨k, Multiset.mem_cons_of_mem hk, rfl⟩
  | accept e _ => exact .inr ⟨k, Multiset.mem_cons_of_mem hk, rfl⟩
  | refuse e _ => exact .inr ⟨k, Multiset.mem_cons_of_mem hk, rfl⟩
  | merge e => exact .inr ⟨k, hk, rfl⟩

theorem Run.exists_call (h : Run s moves t) (hs : s.tasks = 0) {k : Task} (hk : k ∈ t.tasks) :
    ∃ c, .call c ∈ moves ∧ c.purpose = k.purpose := by
  induction h generalizing k with
  | nil =>
    rw [hs] at hk
    exact absurd hk (Multiset.notMem_zero k)
  | concat run step ih =>
    rcases step.purpose_of_mem hk with ⟨c, rfl, hc⟩ | ⟨k', hk', hpurpose⟩
    · exact ⟨c, List.mem_append_right _ (List.mem_singleton_self _), hc⟩
    · obtain ⟨c, hmem, hc⟩ := ih hk'
      exact ⟨c, List.mem_append_left _ hmem, hc.trans hpurpose⟩

/-- A flow that nobody registers during a run is not about to be registered. -/
theorem Run.not_registering (h : Run s moves t) (hs : s.tasks = 0)
    (hcalls : ∀ r, .call (.register r) ∈ moves → r.flowName ≠ f) {k : Task} (hk : k ∈ t.tasks) :
    k.purpose ≠ .registering f := by
  intro hpurpose
  obtain ⟨c, hmem, hc⟩ := h.exists_call hs hk
  rw [hpurpose] at hc
  cases c with
  | register r => exact hcalls r hmem (Purpose.registering.inj hc)
  | remove name => cases hc
  | apply e => cases hc

/-- A flow that nobody removes during a run is not about to be removed. -/
theorem Run.not_removing (h : Run s moves t) (hs : s.tasks = 0)
    (hcalls : .call (.remove f) ∉ moves) {k : Task} (hk : k ∈ t.tasks) :
    k.purpose ≠ .removing f := by
  intro hpurpose
  obtain ⟨c, hmem, hc⟩ := h.exists_call hs hk
  rw [hpurpose] at hc
  cases c with
  | register r => cases hc
  | remove name =>
    obtain rfl := Purpose.removing.inj hc
    exact hcalls hmem
  | apply e => cases hc

/-! ## Calls that nobody disturbs -/

theorem exists_run_perform (m : Monitor) (ts : Multiset Task) (c : Call) :
    ∃ moves, Run ⟨m, ts, none⟩ (.call c :: moves) ⟨(m.perform c).2, ts, none⟩ := by
  cases c with
  | register r =>
    let x := Snapshot.ofRegistration m.registry.takeVersion.1 r
    refine ⟨[.takeVersion r, .publish x, .seed x], .cons (.call (.register r)) ?_⟩
    exact .cons (.takeVersion r) (.cons (.publish x) (Step.run (.seed x)))
  | remove name =>
    refine ⟨[.dropFlow name, .dropMap name], .cons (.call (.remove name)) ?_⟩
    exact .cons (.dropFlow name) (Step.run (.dropMap name))
  | apply e =>
    cases hc : m.contains e.flowName with
    | true =>
      rw [perform_apply_of_contains hc]
      refine ⟨[.accept e, .merge e], .cons (.call (.apply e)) ?_⟩
      exact .cons (.accept e hc) (Step.run (.merge e))
    | false =>
      rw [perform_apply_of_not_contains hc]
      exact ⟨[.refuse e], .cons (.call (.apply e)) (Step.run (.refuse e hc))⟩

/-- Calls one after the other are a run. -/
theorem exists_run_performAll (m : Monitor) (calls : List Call) :
    ∃ moves, Run (.idle m) moves (.idle (m.performAll calls)) := by
  induction calls generalizing m with
  | nil => exact ⟨[], .nil⟩
  | cons c calls ih =>
    obtain ⟨first, hfirst⟩ := exists_run_perform m 0 c
    obtain ⟨rest, hrest⟩ := ih (m.perform c).2
    exact ⟨_, hfirst.append hrest⟩

end Flowline.Monitor
