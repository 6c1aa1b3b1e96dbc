import Flowline.Command.Perform
import Flowline.Proofs.Monitor.Registering
import Flowline.Proofs.Store.Keeps

/-!
# Flows that are found by name

The listing of the flows goes by the names in the files, removing a flow goes by the names of the
files. They agree if and only if each flow is in the file that is named after it (`finds_by_name`).
-/

namespace Flowline.Command

variable {fs : Files} {d : Deployment} {config : String}

/-- A monitor is opened with all flows that can be read. -/
theorem openMonitor_eq_ok_iff {m : Monitor} : openMonitor fs d = .ok m ↔
    ∃ rs, d.store.loadAll fs = .ok rs ∧ Monitor.empty.registerAll rs = m := by
  unfold openMonitor
  constructor
  · intro h
    obtain ⟨rs, hrs, hm⟩ := bind_eq_ok h
    exact ⟨rs, mapError_eq_ok_iff.1 hrs, Except.ok.inj hm⟩
  · rintro ⟨rs, hrs, rfl⟩
    rw [hrs]
    rfl

/-- The flows that are listed are those that can be read. -/
theorem exists_flows_iff_returns {m : Monitor} (h : openMonitor fs d = .ok m) (name : String) :
    (∃ f ∈ m.flows, f.name = name) ↔ ∃ r, d.store.Returns fs r ∧ r.flowName = name := by
  obtain ⟨rs, hrs, rfl⟩ := openMonitor_eq_ok_iff.1 h
  rw [Monitor.exists_flows_name_iff]
  constructor
  · rintro ⟨r, hr, hname⟩
    exact ⟨r, ⟨rs, hrs, hr⟩, hname⟩
  · rintro ⟨r, ⟨rs', hrs', hr⟩, hname⟩
    cases hrs.symm.trans hrs'
    exact ⟨r, hr, hname⟩

/-- A flow is removed if its file is deleted. -/
theorem failure_remove (hopen : openDeployment fs config = .ok d) {name : String}
    (hdelete : (d.store.delete fs name).1 = .ok true) :
    (remove fs config name).1.failure = none := by
  have hpair : d.store.delete fs name = (.ok true, (d.store.delete fs name).2) :=
    Prod.ext hdelete rfl
  simp only [remove, hopen]
  rw [hpair]
  rfl

/-- What is loaded by the name of a flow is what is read out of the file of that name, so it is
among all that is read, and it can be deleted. Loading and deleting by name find all flows that are
read if and only if each of them is in the file that is named after it, be it in others too; then
the flows that are listed are those that are loaded by name, and they can be removed. -/
theorem finds_by_name {s : Store} (hdir : s.dir ≠ "") (fs : Files) :
    (∀ name r, s.load fs name = .ok (some r) ↔
      FlowName.IsValid name ∧ s.Keeps fs (FlowName.fileName name) r) ∧
    (∀ name r, s.load fs name = .ok (some r) → s.Returns fs r) ∧
    (∀ name r, s.load fs name = .ok (some r) → (s.delete fs name).1 = .ok true) ∧
    (s.Agrees fs ↔ ∀ file r, s.Keeps fs file r →
      ∃ r', s.Keeps fs (FlowName.fileName r.flowName) r' ∧ r'.flowName = r.flowName) ∧
    (s.Agrees fs → ∀ config d m, openDeployment fs config = .ok d → d.store = s →
      openMonitor fs d = .ok m → ∀ name,
        ((∃ f ∈ m.flows, f.name = name) ↔
          ∃ r, s.load fs name = .ok (some r) ∧ r.flowName = name) ∧
        ((∃ f ∈ m.flows, f.name = name) → (remove fs config name).1.failure = none)) := by
  refine ⟨fun name r => Store.load_eq_some_iff hdir, fun name r => Store.returns_of_load hdir,
    fun name r h => ?_, Store.agrees_iff hdir, ?_⟩
  · obtain ⟨hname, hkeeps⟩ := (Store.load_eq_some_iff hdir).1 h
    exact Store.delete_of_keeps hname hkeeps
  · rintro hagrees config d m hopen rfl hmonitor name
    have hflows := exists_flows_iff_returns hmonitor name
    refine ⟨hflows.trans (hagrees.load name), fun hlisted => ?_⟩
    obtain ⟨r, hr, rfl⟩ := hflows.1 hlisted
    exact failure_remove hopen (hagrees.delete r hr)

/-- A flow in the file that is named after it and in a copy. -/
theorem finds_by_name_copied :
    let s : Store := ⟨"./configs"⟩
    let r : Registration := ⟨"A", none, Table.empty, FlowDefinition.empty, default⟩
    let content := Text.Glyph.ofString "\x7b\"flowName\":\"A\"\x7d"
    let fs : Files := ⟨.ofList [(["configs"], .directory), (["configs", "A.json"], .file content),
      (["configs", "copy.json"], .file content)], []⟩
    s.dir ≠ "" ∧ s.load fs "A" = .ok (some r) ∧ s.Agrees fs ∧
      (remove fs "flowtrack.yaml" "A").1.failure = none := by
  intro s r content fs
  have hdir : s.dir ≠ "" := by decide
  have hlist : s.list fs = .ok ["A.json", "copy.json"] := by
    have hlocate : fs.locate s.dir = .ok ["configs"] := toOption_eq_some_iff.1 (by decide +kernel)
    have hfiles : (fs.childNames ["configs"]).filter (Path.hasExtension Store.extension) =
        ["A.json", "copy.json"] := by decide +kernel
    rw [Store.list_of_directory hlocate (by decide +kernel), hfiles]
    exact congrArg Except.ok (List.mergeSort_of_pairwise (by decide +kernel))
  have hfile : Registration.load fs (Path.join s.dir "A.json") = .ok r :=
    toOption_eq_some_iff.1 (by decide +kernel)
  have hcopy : Registration.load fs (Path.join s.dir "copy.json") = .ok r :=
    toOption_eq_some_iff.1 (by decide +kernel)
  obtain ⟨hbyName, hreturns, -, hagrees, hcommands⟩ := finds_by_name hdir fs
  have hkeeps : s.Keeps fs (FlowName.fileName "A") r :=
    ⟨_, hlist, List.mem_cons_self, hfile⟩
  have hself : s.load fs "A" = .ok (some r) := (hbyName "A" r).2 ⟨by decide, hkeeps⟩
  have hthis : s.Agrees fs := by
    refine hagrees.2 fun file r' hkeeps' => ?_
    obtain ⟨files, hfiles, hmem, hload⟩ := hkeeps'
    cases hlist.symm.trans hfiles
    rcases List.mem_pair.1 hmem with rfl | rfl
    · cases hfile.symm.trans hload
      exact ⟨r, hkeeps, rfl⟩
    · cases hcopy.symm.trans hload
      exact ⟨r, hkeeps, rfl⟩
  let d : Deployment := ⟨default, "."⟩
  have hopen : openDeployment fs "flowtrack.yaml" = .ok d :=
    toOption_eq_some_iff.1 (by decide +kernel)
  have hstore : d.store = s := by decide +kernel
  obtain ⟨rs, hrs, -⟩ := hreturns "A" r hself
  have hmonitor : openMonitor fs d = .ok (Monitor.empty.registerAll rs) :=
    openMonitor_eq_ok_iff.2 ⟨rs, hstore ▸ hrs, rfl⟩
  have hfound := hcommands hthis "flowtrack.yaml" d _ hopen hstore hmonitor "A"
  exact ⟨hdir, hself, hthis, hfound.2 (hfound.1.2 ⟨r, hself, rfl⟩)⟩

end Flowline.Command
