import Flowline.Proofs.Maps
import Flowline.Source.Database

/-!
# What the databases say of a flow

A fetch asks one query for all DAGs of a flow and one for each process. What it comes to is told by
the answers alone: when the fetch fails and with which message (`result_cases`), and what the event
says of each name (`get?_patches_of_process`, `get?_patches_of_dag`). Every patch is the one that
stands for the answer to a query (`answerPatch`). `yields` puts it together.
-/

namespace Flowline.Database

open Time

/-! ## Reading the answers -/

/-- The DAG that a sub-stage runs as. -/
def dagOf? (s : SubStage) : Option (String × String) :=
  match s.target with
  | some (.dag id) => some (s.name, id)
  | _ => none

/-- The process that a sub-stage runs as. -/
def processOf? (s : SubStage) : Option (String × OnPremIds) :=
  match s.target with
  | some (.onPrem ids) => some (s.name, ids)
  | _ => none

/-- The names of the sub-stages that run as a DAG, in order, each with its DAG. -/
def dagTargets (g : Graph) : List (String × String) := g.subStages.filterMap dagOf?

/-- The names of the sub-stages that run on premises, in order, each with its process. -/
def processTargets (g : Graph) : List (String × OnPremIds) := g.subStages.filterMap processOf?

/-- What a row says of a sub-stage. -/
structure Row where
  state : Option String
  start : Option Instant
  finish : Option Instant

/-- The patch that stands for the answer to a query about what the ids identify. The word that a row
has for its state is told beside them. -/
def answerPatch (ids : List (String × Json)) (key : String) : Except String (Option Row) → Patch
  | .error message =>
    ⟨some .error, .keep, .keep, some (NameMap.ofList [("error", .text message)])⟩
  | .ok none => ⟨some .unknown, .keep, .keep, some (NameMap.ofList ids)⟩
  | .ok (some row) =>
    ⟨some (Status.normalize (row.state.getD "unknown")), .to row.start, .to row.finish,
     some (NameMap.ofList (ids ++ [(key, .text (row.state.getD "unknown"))]))⟩

namespace Answers

/-- What is answered about a DAG: of several rows the first one counts. -/
def dag (a : Answers) (id : String) : Except String (Option Row) :=
  a.dagRuns.map fun runs =>
    (runs.find? fun run => run.dagId == id).map fun run => ⟨run.state, run.start, run.finish⟩

/-- What is answered about the process at a place. -/
def process (a : Answers) (i : Nat) : Except String (Option Row) :=
  (a.stageRun i).map (Option.map fun run => ⟨run.status, run.start, run.finish⟩)

/-- The flow has DAGs, and the query for them failed. -/
def DagsFail (a : Answers) (g : Graph) (message : String) : Prop :=
  dagTargets g ≠ [] ∧ a.dagRuns = .error message

/-- The flow has processes, and the query for each of them failed, the first one thus. -/
def ProcessesFail (a : Answers) (g : Graph) (message : String) : Prop :=
  processTargets g ≠ [] ∧ a.stageRun 0 = .error message ∧
    ∀ i < (processTargets g).length, ∃ m, a.stageRun i = .error m

end Answers

variable {a : Answers} {g : Graph} {name id : String} {ids : OnPremIds}

/-! ## The targets -/

theorem processes_add (t : Targets) (s : SubStage) :
    (t.add s).processes = t.processes ++ (processOf? s).toList := by
  unfold Targets.add processOf?
  split
  · next id hs => simp [hs]
  · next ids hs => simp [hs]
  · next hs => simp [hs]

theorem processes_ofGraph (g : Graph) : (Targets.ofGraph g).processes = processTargets g := by
  unfold Targets.ofGraph processTargets
  induction g.subStages using List.reverseRecOn with
  | nil => rfl
  | append_singleton ss s ih =>
    rw [List.foldl_append, List.filterMap_append, ← ih, List.foldl_cons, List.foldl_nil,
      processes_add]
    cases hs : processOf? s with
    | none => simp [hs]
    | some t => simp [hs]

/-- The sub-stages of a DAG, in order. -/
def namesOf (targets : List (String × String)) (id : String) : List String :=
  (targets.filter fun t => t.2 = id).map Prod.fst

theorem mem_namesOf {targets : List (String × String)} :
    name ∈ namesOf targets id ↔ (name, id) ∈ targets := by
  simp [namesOf]

theorem namesOf_append (targets others : List (String × String)) (id : String) :
    namesOf (targets ++ others) id = namesOf targets id ++ namesOf others id := by
  simp [namesOf]

theorem get?_dags_add (t : Targets) (s : SubStage) (id : String) :
    (t.add s).dags.get? id =
      if namesOf (dagOf? s).toList id = [] then t.dags.get? id
      else some ((t.dags.get? id).getD [] ++ namesOf (dagOf? s).toList id) := by
  unfold Targets.add dagOf?
  split
  · next id' hs =>
    simp only [hs]
    by_cases hid : id' = id
    · simp [hid, namesOf, NameMap.get?_alter]
    · simp [hid, namesOf, NameMap.get?_alter]
  · next ids hs => simp [hs, namesOf]
  · next hs => simp [hs, namesOf]

theorem get?_dags_ofGraph (g : Graph) (id : String) :
    (Targets.ofGraph g).dags.get? id =
      if namesOf (dagTargets g) id = [] then none else some (namesOf (dagTargets g) id) := by
  unfold Targets.ofGraph dagTargets
  induction g.subStages using List.reverseRecOn with
  | nil => rfl
  | append_singleton ss s ih =>
    have hlast : [s].filterMap dagOf? = (dagOf? s).toList := by
      cases hs : dagOf? s with
      | none => simp [hs]
      | some t => simp [hs]
    rw [List.foldl_append, List.foldl_cons, List.foldl_nil, get?_dags_add, ih,
      List.filterMap_append, hlast, namesOf_append]
    by_cases hbefore : namesOf (ss.filterMap dagOf?) id = []
    · simp [hbefore]
    · by_cases hs : namesOf (dagOf? s).toList id = []
      · simp [hbefore, hs]
      · simp [hbefore, hs]

theorem mem_entries_iff {names : List String} : (id, names) ∈ (Targets.ofGraph g).dags.entries ↔
    names ≠ [] ∧ names = namesOf (dagTargets g) id := by
  rw [← NameMap.get?_eq_some_iff, get?_dags_ofGraph]
  split
  · next hnil => simp [hnil]
  · next hne =>
    rw [Option.some.injEq]
    constructor
    · rintro rfl
      exact ⟨hne, rfl⟩
    · rintro ⟨-, rfl⟩
      rfl

theorem isEmpty_dags_iff (g : Graph) :
    (Targets.ofGraph g).dags.isEmpty = true ↔ dagTargets g = [] := by
  rw [NameMap.isEmpty, List.isEmpty_iff, List.eq_nil_iff_forall_not_mem,
    List.eq_nil_iff_forall_not_mem]
  constructor
  · rintro h ⟨name, id⟩ hmem
    have hname := mem_namesOf.2 hmem
    exact h _ (mem_entries_iff.2 ⟨List.ne_nil_of_mem hname, rfl⟩)
  · rintro h ⟨id, names⟩ hmem
    obtain ⟨hne, rfl⟩ := mem_entries_iff.1 hmem
    obtain ⟨name, hname⟩ := List.exists_mem_of_ne_nil _ hne
    exact h _ (mem_namesOf.1 hname)

/-! ## The parts -/

theorem processPatch_eq (a : Answers) (i : Nat) (ids : OnPremIds) :
    processPatch ids (a.stageRun i) =
      answerPatch (processDetails ids) "original_status" (a.process i) := by
  unfold Answers.process
  cases a.stageRun i with
  | error message => rfl
  | ok row =>
    cases row with
    | none => rfl
    | some run => rfl

theorem patches_dagPart (a : Answers) (dags : NameMap (List String)) :
    (dagPart a.dagRuns dags).patches = dags.entries.flatMap fun e =>
      e.2.map fun name => (name, answerPatch (dagDetails e.1) "state" (a.dag e.1)) := by
  unfold dagPart Answers.dag
  cases a.dagRuns with
  | error message => rfl
  | ok runs =>
    have hpatch : ∀ id, dagPatch runs id = answerPatch (dagDetails id) "state"
        (.ok ((runs.find? fun run => run.dagId == id).map
          fun run => ⟨run.state, run.start, run.finish⟩)) := by
      intro id
      unfold dagPatch
      cases hrun : runs.find? fun run => run.dagId == id with
      | none => rfl
      | some run =>
        obtain rfl : run.dagId = id := by simpa using List.find?_some hrun
        rfl
    simp only [hpatch]
    rfl

theorem fault_dagPart (answer : Except String (List DagRun)) (dags : NameMap (List String)) :
    (dagPart answer dags).fault = fault? answer := by
  cases answer with
  | error message => rfl
  | ok runs => rfl

/-- The answers about the processes, each beside its process. -/
def Answers.aboutProcesses (a : Answers) (ps : List (String × OnPremIds)) :
    List ((String × OnPremIds) × Except String (Option StageRun)) :=
  ps.zipIdx.map fun (process, i) => (process, a.stageRun i)

theorem isSome_fault?_iff {α : Type} {x : Except String α} :
    (fault? x).isSome = true ↔ ∃ message, x = .error message := by
  cases x with
  | ok v => simp [fault?]
  | error message => simp [fault?]

theorem all_aboutProcesses_iff {ps : List (String × OnPremIds)} :
    ((a.aboutProcesses ps).all fun entry => (fault? entry.2).isSome) = true ↔
      ∀ i < ps.length, ∃ message, a.stageRun i = .error message := by
  simp only [Answers.aboutProcesses, List.all_map, List.all_eq_true, Function.comp_apply,
    isSome_fault?_iff]
  constructor
  · intro h i hi
    exact h (ps[i], i) (List.mem_zipIdx_iff_getElem?.2 (List.getElem?_eq_getElem hi))
  · rintro h ⟨process, i⟩ hmem
    have hi := List.mem_zipIdx_iff_getElem?.1 hmem
    exact h i (List.getElem?_eq_some_iff.1 hi).1

/-- The part on premises fails as its first query does, if all do. -/
theorem fault_processPart {ps : List (String × OnPremIds)} (hps : ps ≠ []) {message : String} :
    (processPart (a.aboutProcesses ps)).fault = some message ↔
      a.stageRun 0 = .error message ∧ ∀ i < ps.length, ∃ m, a.stageRun i = .error m := by
  obtain ⟨p, rest, rfl⟩ := List.exists_cons_of_ne_nil hps
  unfold processPart
  simp only
  split
  · next hall =>
    have hfail := all_aboutProcesses_iff.1 hall
    obtain ⟨m, hm⟩ := hfail 0 (Nat.succ_pos _)
    simp only [Answers.aboutProcesses, List.zipIdx_cons, List.map_cons, List.findSome?_cons, hm,
      fault?, Option.some.injEq, Except.error.injEq]
    exact (and_iff_left hfail).symm
  · next hall =>
    apply iff_of_false
    · simp
    · rintro ⟨-, h⟩
      exact hall (all_aboutProcesses_iff.2 h)

theorem parts_ofGraph (a : Answers) (g : Graph) :
    a.parts (Targets.ofGraph g) =
      (if dagTargets g = [] then [] else [dagPart a.dagRuns (Targets.ofGraph g).dags]) ++
      (if processTargets g = [] then []
        else [processPart (a.aboutProcesses (processTargets g))]) := by
  unfold Answers.parts
  rw [processes_ofGraph]
  simp only [isEmpty_dags_iff, List.isEmpty_iff]
  rfl

/-- The patches of a fetch, in the order in which they are made. -/
def Answers.patches (a : Answers) (g : Graph) : List (String × Patch) :=
  (dagPart a.dagRuns (Targets.ofGraph g).dags).patches ++
    (processPart (a.aboutProcesses (processTargets g))).patches

theorem patches_parts (a : Answers) (g : Graph) :
    (a.parts (Targets.ofGraph g)).flatMap Part.patches = a.patches g := by
  have hdags : dagTargets g = [] →
      (dagPart a.dagRuns (Targets.ofGraph g).dags).patches = [] := by
    intro h
    have hempty := (isEmpty_dags_iff g).2 h
    rw [NameMap.isEmpty, List.isEmpty_iff] at hempty
    rw [patches_dagPart, hempty]
    rfl
  rw [parts_ofGraph, Answers.patches]
  by_cases hd : dagTargets g = []
  · by_cases hp : processTargets g = []
    · simp [hd, hp, hdags hd, processPart, Answers.aboutProcesses]
    · simp [hd, hp, hdags hd]
  · by_cases hp : processTargets g = []
    · simp [hd, hp, processPart, Answers.aboutProcesses]
    · simp [hd, hp]

/-! ## When a fetch fails -/

/-- The message with which a fetch fails, if every part of the flow does. -/
def Answers.Fails (a : Answers) (g : Graph) (message : String) : Prop :=
  (a.DagsFail g message ∧ (processTargets g = [] ∨ ∃ m, a.ProcessesFail g m)) ∨
    (dagTargets g = [] ∧ a.ProcessesFail g message)

section Result

variable {now : Instant} {s : Snapshot} {message : String}

theorem result_of_forall_fault {p : Part} {rest : List Part}
    (hparts : a.parts (Targets.ofGraph s.graph) = p :: rest) (hp : p.fault = some message)
    (hrest : ∀ q ∈ rest, q.fault.isSome) : a.result now s = .error (.database message) := by
  have hlength : (rest.filterMap Part.fault).length = rest.length :=
    List.filterMap_length_eq_length.2 hrest
  simp [Answers.result, hparts, hp, hlength]

theorem result_of_exists_ok
    (h : ∀ p rest, a.parts (Targets.ofGraph s.graph) = p :: rest →
      ∃ q ∈ p :: rest, q.fault = none) :
    a.result now s = .ok ⟨s.name, now, NameMap.ofList (a.patches s.graph)⟩ := by
  rw [← patches_parts]
  unfold Answers.result
  cases hparts : a.parts (Targets.ofGraph s.graph) with
  | nil => rfl
  | cons p rest =>
    obtain ⟨q, hq, hnone⟩ := h p rest hparts
    have hlength : ((p :: rest).filterMap Part.fault).length ≠ (p :: rest).length := by
      intro hlength
      have hsome := List.filterMap_length_eq_length.1 hlength q hq
      rw [hnone] at hsome
      cases hsome
    simp only
    split
    · next hfault => rw [← hfault, if_neg hlength]
    · rfl

theorem processesFail_iff (hp : processTargets g ≠ []) : a.ProcessesFail g message ↔
    (processPart (a.aboutProcesses (processTargets g))).fault = some message := by
  rw [fault_processPart hp, Answers.ProcessesFail, and_iff_right hp]

theorem dagsFail_iff (hd : dagTargets g ≠ []) (dags : NameMap (List String)) :
    a.DagsFail g message ↔ (dagPart a.dagRuns dags).fault = some message := by
  rw [fault_dagPart, Answers.DagsFail, and_iff_right hd]
  cases a.dagRuns with
  | ok runs => simp [fault?]
  | error m => simp [fault?]

/-- A fetch fails as its first part does, if all parts do. -/
theorem fails_iff : a.Fails g message ↔ ∃ p rest, a.parts (Targets.ofGraph g) = p :: rest ∧
    p.fault = some message ∧ ∀ q ∈ rest, q.fault.isSome := by
  have hprocesses (hp : processTargets g = []) : ∀ m, ¬ a.ProcessesFail g m := fun m h => h.1 hp
  rw [parts_ofGraph, Answers.Fails]
  by_cases hd : dagTargets g = []
  · have hdags : ∀ m, ¬ a.DagsFail g m := fun m h => h.1 hd
    by_cases hp : processTargets g = []
    · simp [hd, hp, hdags, hprocesses]
    · simp [hd, hp, hdags, processesFail_iff]
  · by_cases hp : processTargets g = []
    · simp [hd, hp, dagsFail_iff hd (Targets.ofGraph g).dags]
    · simp [hd, hp, dagsFail_iff hd (Targets.ofGraph g).dags, processesFail_iff,
        Option.isSome_iff_exists]

/-- A fetch that does not fail gives an event. -/
theorem result_cases (a : Answers) (now : Instant) (s : Snapshot) :
    (∃ message, a.Fails s.graph message ∧ a.result now s = .error (.database message)) ∨
    (∀ message, ¬ a.Fails s.graph message) ∧
      a.result now s = .ok ⟨s.name, now, NameMap.ofList (a.patches s.graph)⟩ := by
  by_cases hfails : ∃ message, a.Fails s.graph message
  · obtain ⟨message, hmessage⟩ := hfails
    obtain ⟨p, rest, hparts, hp, hrest⟩ := fails_iff.1 hmessage
    exact .inl ⟨message, hmessage, result_of_forall_fault hparts hp hrest⟩
  · have hnot : ∀ message, ¬ a.Fails s.graph message := not_exists.1 hfails
    refine .inr ⟨hnot, result_of_exists_ok ?_⟩
    intro p rest hparts
    by_contra hnone
    push Not at hnone
    obtain ⟨message, hp⟩ := Option.ne_none_iff_exists'.1 (hnone p List.mem_cons_self)
    have hrest : ∀ q ∈ rest, q.fault.isSome := fun q hq =>
      Option.isSome_iff_ne_none.2 (hnone q (List.mem_cons_of_mem _ hq))
    exact hnot message (fails_iff.2 ⟨p, rest, hparts, hp, hrest⟩)

end Result

/-! ## What the event says of a name -/

/-- The entries of one DAG all say the same. -/
theorem find_reverse_map (names : List String) (name : String) (p : Patch) :
    NameMap.find name (names.map fun n => (n, p)).reverse =
      if name ∈ names then some p else none := by
  split
  · next hname =>
    have hsome : (NameMap.find name (names.map fun n => (n, p)).reverse).isSome := by
      rw [NameMap.isSome_find]
      simp [hname]
    obtain ⟨v, hv⟩ := Option.isSome_iff_exists.1 hsome
    have hin := NameMap.mem_of_find hv
    simp only [List.mem_reverse, List.mem_map, Prod.mk.injEq] at hin
    obtain ⟨_, -, -, rfl⟩ := hin
    exact hv
  · next hname =>
    rw [NameMap.find_eq_none_iff]
    simp [hname]

theorem find_reverse_flatMap (patch : String → Patch) {es : List (String × List String)}
    {names : List String} (hes : es.Pairwise fun a b => a.1 < b.1) (hmem : (id, names) ∈ es)
    (hname : name ∈ names) (hgreatest : ∀ e ∈ es, name ∈ e.2 → e.1 ≤ id) :
    NameMap.find name (es.flatMap fun e => e.2.map fun n => (n, patch e.1)).reverse =
      some (patch id) := by
  induction es using List.reverseRecOn with
  | nil => cases hmem
  | append_singleton es e ih =>
    rw [List.flatMap_append, List.reverse_append, NameMap.find_append, List.flatMap_singleton,
      find_reverse_map]
    obtain ⟨hes', -, hlt⟩ := List.pairwise_append.1 hes
    by_cases he : name ∈ e.2
    · have hle := hgreatest e (by simp) he
      have hid : e.1 = id := by
        rcases List.mem_append.1 hmem with hbefore | hlast
        · exact absurd (hlt _ hbefore e (List.mem_singleton_self e)) (String.not_lt.2 hle)
        · rw [← List.mem_singleton.1 hlast]
      rw [if_pos he, hid, Option.some_or]
    · have hbefore : (id, names) ∈ es := by
        rcases List.mem_append.1 hmem with hbefore | hlast
        · exact hbefore
        · rw [← List.mem_singleton.1 hlast] at he
          exact absurd hname he
      rw [if_neg he, Option.none_or]
      exact ih hes' hbefore fun f hf => hgreatest f (List.mem_append_left _ hf)

theorem find_processPatches {ps : List (String × OnPremIds)} {i : Nat}
    (hi : ps[i]? = some (name, ids)) (hlast : ∀ j ids', i < j → ps[j]? ≠ some (name, ids')) :
    NameMap.find name (processPart (a.aboutProcesses ps)).patches.reverse =
      some (answerPatch (processDetails ids) "original_status" (a.process i)) := by
  have hget : ∀ j, (processPart (a.aboutProcesses ps)).patches[j]? =
      ps[j]?.map fun p => (p.1, processPatch p.2 (a.stageRun j)) := by
    intro j
    simp only [processPart, Answers.aboutProcesses, List.getElem?_map, List.getElem?_zipIdx]
    cases ps[j]? with
    | none => rfl
    | some p => simp
  rw [← processPatch_eq]
  apply NameMap.find_reverse_eq_some (i := i)
  · rw [hget, hi]
    rfl
  · intro j w hj hjw
    rw [hget, Option.map_eq_some_iff] at hjw
    obtain ⟨⟨n, ids'⟩, hp, heq⟩ := hjw
    obtain rfl := (Prod.mk.inj heq).1
    exact hlast j ids' hj hp

theorem names_processPatches (ps : List (String × OnPremIds)) :
    (processPart (a.aboutProcesses ps)).patches.map Prod.fst = ps.map Prod.fst := by
  rw [← congrArg (List.map Prod.fst) (List.zipIdx_map_fst 0 ps)]
  simp only [processPart, Answers.aboutProcesses, List.map_map]
  rfl

theorem mem_names_dagPatches :
    name ∈ (dagPart a.dagRuns (Targets.ofGraph g).dags).patches.map Prod.fst ↔
      ∃ id, (name, id) ∈ dagTargets g := by
  simp only [patches_dagPart, List.map_flatMap, List.map_map, List.mem_flatMap, List.mem_map,
    Function.comp_apply, exists_eq_right]
  constructor
  · rintro ⟨⟨id, names⟩, he, hname⟩
    obtain ⟨-, rfl⟩ := mem_entries_iff.1 he
    exact ⟨id, mem_namesOf.1 hname⟩
  · rintro ⟨id, hid⟩
    have hname := mem_namesOf.2 hid
    exact ⟨(id, _), mem_entries_iff.2 ⟨List.ne_nil_of_mem hname, rfl⟩, hname⟩

theorem get?_patches_of_process {i : Nat} (hi : (processTargets g)[i]? = some (name, ids))
    (hlast : ∀ j ids', i < j → (processTargets g)[j]? ≠ some (name, ids')) :
    (NameMap.ofList (a.patches g)).get? name =
      some (answerPatch (processDetails ids) "original_status" (a.process i)) := by
  rw [NameMap.get?_ofList, Answers.patches, List.reverse_append, NameMap.find_append,
    find_processPatches hi hlast, Option.some_or]

theorem get?_patches_of_dag (hnone : ∀ ids, (name, ids) ∉ processTargets g)
    (hid : (name, id) ∈ dagTargets g) (hgreatest : ∀ id', (name, id') ∈ dagTargets g → id' ≤ id) :
    (NameMap.ofList (a.patches g)).get? name =
      some (answerPatch (dagDetails id) "state" (a.dag id)) := by
  have hprocesses : NameMap.find name
      (processPart (a.aboutProcesses (processTargets g))).patches.reverse = none := by
    rw [NameMap.find_eq_none_iff, List.map_reverse, List.mem_reverse, names_processPatches]
    simpa using hnone
  have hname := mem_namesOf.2 hid
  rw [NameMap.get?_ofList, Answers.patches, List.reverse_append, NameMap.find_append, hprocesses,
    Option.none_or, patches_dagPart]
  apply find_reverse_flatMap (fun id => answerPatch (dagDetails id) "state" (a.dag id))
    (Targets.ofGraph g).dags.sorted (mem_entries_iff.2 ⟨List.ne_nil_of_mem hname, rfl⟩) hname
  rintro ⟨id', names⟩ he hname'
  obtain ⟨-, rfl⟩ := mem_entries_iff.1 he
  exact hgreatest id' (mem_namesOf.1 hname')

theorem exists_target_iff : (∃ s ∈ g.subStages, s.name = name ∧ s.target ≠ none) ↔
    (∃ id, (name, id) ∈ dagTargets g) ∨ ∃ ids, (name, ids) ∈ processTargets g := by
  simp only [dagTargets, processTargets, List.mem_filterMap]
  constructor
  · rintro ⟨s, hs, rfl, htarget⟩
    cases ht : s.target with
    | none => exact absurd ht htarget
    | some t =>
      cases t with
      | dag id => exact .inl ⟨id, s, hs, by simp [dagOf?, ht]⟩
      | onPrem ids => exact .inr ⟨ids, s, hs, by simp [processOf?, ht]⟩
  · rintro (⟨id, s, hs, h⟩ | ⟨ids, s, hs, h⟩)
    · unfold dagOf? at h
      split at h
      · next ht =>
        cases h
        exact ⟨s, hs, rfl, by simp [ht]⟩
      · cases h
    · unfold processOf? at h
      split at h
      · next ht =>
        cases h
        exact ⟨s, hs, rfl, by simp [ht]⟩
      · cases h

theorem isSome_get?_patches_iff : ((NameMap.ofList (a.patches g)).get? name).isSome ↔
    ∃ s ∈ g.subStages, s.name = name ∧ s.target ≠ none := by
  rw [NameMap.get?_ofList, NameMap.isSome_find, List.map_reverse, List.mem_reverse,
    Answers.patches, List.map_append, List.mem_append, mem_names_dagPatches, names_processPatches,
    exists_target_iff]
  simp

/-! ## What a fetch yields -/

/-- What a fetch comes to, given the answers to its queries. -/
structure Yields (a : Answers) (s : Snapshot) (result : Except FeedError Event) : Prop where
  fails_iff : ∀ e, result = .error e ↔ ∃ message, a.Fails s.graph message ∧ e = .database message
  names : ∀ event, result = .ok event → event.flowName = s.name ∧
    ∀ name, (event.stages.get? name).isSome ↔
      ∃ t ∈ s.graph.subStages, t.name = name ∧ t.target ≠ none
  /-- The last process with a name counts, even if the name has DAGs. -/
  process : ∀ event, result = .ok event → ∀ i name ids,
    (processTargets s.graph)[i]? = some (name, ids) →
    (∀ j ids', i < j → (processTargets s.graph)[j]? ≠ some (name, ids')) →
    event.stages.get? name =
      some (answerPatch (processDetails ids) "original_status" (a.process i))
  /-- Of the DAGs with a name the one with the greatest id counts. -/
  dag : ∀ event, result = .ok event → ∀ name id,
    (∀ ids, (name, ids) ∉ processTargets s.graph) → (name, id) ∈ dagTargets s.graph →
    (∀ id', (name, id') ∈ dagTargets s.graph → id' ≤ id) →
    event.stages.get? name = some (answerPatch (dagDetails id) "state" (a.dag id))

theorem Answers.Fails.unique {m n : String} (hm : a.Fails g m) (hn : a.Fails g n) : m = n := by
  rcases hm with ⟨⟨hd, hm⟩, -⟩ | ⟨hd, -, hm, -⟩
  · rcases hn with ⟨⟨-, hn⟩, -⟩ | ⟨hd', -⟩
    · exact Except.error.inj (hm.symm.trans hn)
    · exact absurd hd' hd
  · rcases hn with ⟨⟨hd', -⟩, -⟩ | ⟨-, -, hn, -⟩
    · exact absurd hd hd'
    · exact Except.error.inj (hm.symm.trans hn)

/-- The answers to its queries decide what a fetch comes to, for every graph and whatever they
are. -/
theorem yields (a : Answers) (now : Instant) (s : Snapshot) : Yields a s (a.result now s) := by
  rcases result_cases a now s with ⟨message, hfails, hresult⟩ | ⟨hnot, hresult⟩
  · rw [hresult]
    have hno : ∀ event, (.error (.database message) : Except FeedError Event) ≠ .ok event :=
      fun _ => nofun
    refine ⟨?_, fun e h => absurd h (hno e), fun e h => absurd h (hno e),
      fun e h => absurd h (hno e)⟩
    intro e
    rw [Except.error.injEq]
    constructor
    · rintro rfl
      exact ⟨message, hfails, rfl⟩
    · rintro ⟨m, hm, rfl⟩
      rw [hfails.unique hm]
  · rw [hresult]
    refine ⟨?_, ?_, ?_, ?_⟩
    · intro e
      apply iff_of_false nofun
      rintro ⟨m, hm, -⟩
      exact hnot m hm
    · rintro event ⟨⟩
      exact ⟨rfl, fun name => isSome_get?_patches_iff⟩
    · rintro event ⟨⟩ i name ids hi hlast
      exact get?_patches_of_process hi hlast
    · rintro event ⟨⟩ name id hnone hid hgreatest
      exact get?_patches_of_dag hnone hid hgreatest

end Flowline.Database
