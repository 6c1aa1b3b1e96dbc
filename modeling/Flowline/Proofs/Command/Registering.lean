import Flowline.Proofs.Command.ByName
import Flowline.Proofs.Graph.Projection
import Flowline.Proofs.Store.Saving

/-!
# Registering a flow

What can be checked can be registered, and what is registered is displayed as it was checked
(`register_agrees`): checking builds the graph from the file that is handed in, displaying reads the
file that was saved, registers the flow in a monitor and lays the statuses that it starts with over
the graph.

The settings that say where flows are stored must be the same after the flow has been saved. They
need not be: a flow may be saved in the settings file (`not_showsRegistered`).
-/

namespace Flowline.Command

open Text

variable {fs : Files} {config file : String} {d : Deployment} {r : Registration}

/-! ## Where flows are stored -/

theorem basePath_ne_empty (fs : Files) (path : String) : (Deployment.resolve fs path).2 ≠ "" := by
  unfold Deployment.resolve
  split
  · next hdirectory =>
    rintro rfl
    have hnone : fs.isDirectory "" = false := rfl
    rw [hnone] at hdirectory
    cases hdirectory
  · cases hparent : (Path.parent? path).filter (· ≠ "") with
    | none => simp
    | some parent => simpa using (Option.filter_eq_some_iff.1 hparent).2

/-- The directory of the stored flows has a path. -/
theorem configDir_ne_empty (h : openDeployment fs config = .ok d) : d.configDir ≠ "" := by
  have hbase : d.basePath = (Deployment.resolve fs config).2 := by
    have hload := mapError_eq_ok_iff.1 h
    unfold Deployment.loadOrDefault at hload
    dsimp only at hload
    split at hload
    · obtain ⟨settings, -, rfl⟩ := map_eq_ok hload
      rfl
    · cases hload
      rfl
  exact Path.join_ne_empty (hbase ▸ basePath_ne_empty fs config)

/-- The settings are the same in a tree in which there are the same directories and the same
settings file. -/
theorem openDeployment_congr {fs' : Files} (hstays : fs.Stays fs') {place : List String} {e : Entry}
    (hplace : fs.locate (Deployment.resolve fs config).1 = .ok place)
    (he : fs.get? place = some e) (he' : fs'.get? place = some e) :
    openDeployment fs' config = openDeployment fs config := by
  have hbefore := Files.lookUp_eq_ok_iff.2 ⟨place, hplace, he⟩
  have hlookUp := Files.lookUp_eq_ok_iff.2 ⟨place, Files.locate_mono hstays hplace, he'⟩
  rw [← hbefore] at hlookUp
  have hdirectory : fs'.isDirectory config = fs.isDirectory config := by
    cases hconfig : fs.isDirectory config with
    | true =>
      obtain ⟨p, hp, hget⟩ := Files.isDirectory_iff.1 hconfig
      exact Files.isDirectory_iff.2
        ⟨p, Files.locate_mono hstays hp, hstays.directories p hget⟩
    | false =>
      -- The settings file is what is named itself.
      have hself : (Deployment.resolve fs config).1 = config := by
        rw [Deployment.resolve, hconfig]
        rfl
      rw [hself] at hlookUp
      rw [← hconfig, Files.isDirectory, Files.isDirectory, hlookUp]
  have hresolve : Deployment.resolve fs' config = Deployment.resolve fs config := by
    rw [Deployment.resolve, Deployment.resolve, hdirectory]
  unfold openDeployment Deployment.loadOrDefault Deployment.readSettings Files.read Files.pathExists
  dsimp only
  rw [hresolve, hlookUp]

/-! ## One flow among those that are stored -/

/-- A flow of the monitor is listed. -/
theorem list_of_snapshot (hopen : openDeployment fs config = .ok d) {m : Monitor}
    (hmonitor : openMonitor fs d = .ok m) {name : String} {s : Snapshot}
    (hs : m.snapshot? name = some s) :
    list fs config = .ok (Render.flowTable m.flows) ∧ s.summary ∈ m.flows := by
  have hmem : s.summary ∈ m.flows := (Monitor.mem_flows_iff m).2 ⟨name, s, hs, rfl⟩
  have hne : m.flows.isEmpty = false := by
    rw [List.isEmpty_eq_false_iff]
    exact List.ne_nil_of_mem hmem
  refine ⟨?_, hmem⟩
  simp only [list, hopen, hmonitor, bind, Except.bind, hne]
  rfl

section Stored

variable (hopen : openDeployment fs config = .ok d) (hkeeps : d.store.Keeps fs file r)
  (honly : ∀ file' r', d.store.Keeps fs file' r' → r'.flowName = r.flowName → file' = file)

include hkeeps honly

/-- A flow that one file alone keeps is known to the monitor as it is built. -/
theorem openMonitor_of_keeps : ∃ m, openMonitor fs d = .ok m ∧
    (∃ version, m.snapshot? r.flowName = some (.ofRegistration version r)) ∧
    m.board.mapOf r.flowName = r.graph.initialStatus := by
  obtain ⟨before, after, hall, hbefore, hafter⟩ := Store.loadAll_of_keeps hkeeps honly
  exact ⟨_, openMonitor_eq_ok_iff.2 ⟨_, hall, rfl⟩, Monitor.snapshot?_registerAll _ hafter,
    Monitor.mapOf_registerAll _ hbefore hafter⟩

include hopen

/-- It is listed with its counts. -/
theorem list_of_keeps : ∃ flows version, list fs config = .ok (Render.flowTable flows) ∧
    (Snapshot.ofRegistration version r).summary ∈ flows := by
  obtain ⟨m, hmonitor, ⟨version, hsnapshot⟩, -⟩ := openMonitor_of_keeps hkeeps honly
  exact ⟨m.flows, version, list_of_snapshot hopen hmonitor hsnapshot⟩

/-- Its graph is displayed as it is built. -/
theorem display_of_keeps :
    display fs config r.flowName true = .ok (jsonText r.graph.toJson) := by
  obtain ⟨m, hmonitor, ⟨version, hsnapshot⟩, hmap⟩ := openMonitor_of_keeps hkeeps honly
  have hview : m.view? r.flowName = some (r.graph.project r.graph.initialStatus) := by
    rw [Monitor.view?, hsnapshot, hmap]
    rfl
  have hproject : (r.graph.project r.graph.initialStatus).graph = r.graph :=
    Graph.project_initialStatus r.mapping r.spec
  simp only [display, hopen, hmonitor, hview, orNotFound, hproject, bind, Except.bind]
  rfl

end Stored

/-! ## Registering -/

/-- A registration is in the listing of the flows. -/
def IsListed (fs : Files) (config : String) (r : Registration) : Prop :=
  ∃ flows version, list fs config = .ok (Render.flowTable flows) ∧
    (Snapshot.ofRegistration version r).summary ∈ flows

/-- Once the flow in a file is registered, and no other file declares it, it is listed, and
displayed as it was checked. -/
def ShowsRegistered (fs : Files) (config file : String) (d : Deployment) : Prop :=
  ∀ r, openRegistration fs file = .ok r → (register fs config file).1.failure = none →
    (∀ file' r', d.store.Keeps (register fs config file).2 file' r' →
      r'.flowName = r.flowName → file' = FlowName.fileName r.flowName) →
    IsListed (register fs config file).2 config r ∧
      display (register fs config file).2 config r.flowName true =
        .ok (validate fs file true).output

/-- A settings file that stores flows beside itself, and a flow that is named like it. -/
def selfStoring : Files :=
  ⟨.ofList [(["X.json"], .file (Glyph.ofString "config_dir: .\n")),
    (["payload"],
      .file (Glyph.ofString "\x7b\"flowName\":\"X\",\"flowDefinition\":\"\"\x7d"))], []⟩

/-- Registering a flow may write over the settings, and then it is not found any more. -/
theorem not_showsRegistered : ∃ d, openDeployment selfStoring "X.json" = .ok d ∧
    (∀ r fault, openRegistration selfStoring "payload" = .ok r →
      (d.store.save selfStoring r).1 ≠ .error (.fileSystem fault)) ∧
    ¬ ShowsRegistered selfStoring "X.json" "payload" d := by
  let d : Deployment := ⟨{ (default : Settings) with configDir := "." }, "."⟩
  let r : Registration := ⟨"X", none, Table.empty, .text "", default⟩
  have hopen : openDeployment selfStoring "X.json" = .ok d :=
    toOption_eq_some_iff.1 (by decide +kernel)
  have hread : openRegistration selfStoring "payload" = .ok r :=
    toOption_eq_some_iff.1 (by decide +kernel)
  have hsave : (d.store.save selfStoring r).1 = .ok "././X.json" :=
    toOption_eq_some_iff.1 (by decide +kernel)
  refine ⟨d, hopen, fun r' fault hr' hfault => ?_, fun hshows => ?_⟩
  · cases hread.symm.trans hr'
    rw [hsave] at hfault
    cases hfault
  · have hdone : (register selfStoring "X.json" "payload").1.failure = none := by decide +kernel
    have hlist : d.store.list (register selfStoring "X.json" "payload").2 = .ok ["X.json"] :=
      toOption_eq_some_iff.1 (by decide +kernel)
    have hshown := (hshows r hread hdone fun file' r' hkeeps _ => ?_).2
    · have hnone : (display (register selfStoring "X.json" "payload").2 "X.json" "X"
          true).toOption = none := by decide +kernel
      rw [toOption_eq_some_iff.2 hshown] at hnone
      cases hnone
    · obtain ⟨files, hfiles, hmem, -⟩ := hkeeps
      cases hlist.symm.trans hfiles
      exact List.mem_singleton.1 hmem

theorem register_of_refused {f : Failure} (hopen : openDeployment fs config = .ok d)
    (h : openRegistration fs file = .error f) : register fs config file = (.ofFailure f, fs) := by
  simp only [register, hopen, h, bind, Except.bind]

/-- What becomes of a file that can be read. -/
theorem register_of_read (hopen : openDeployment fs config = .ok d)
    (hread : openRegistration fs file = .ok r) :
    (∃ path, (d.store.save fs r).1 = .ok path ∧ (register fs config file).1.failure = none) ∨
      ∃ e, (d.store.save fs r).1 = .error e ∧ (register fs config file).1.failure ≠ none := by
  simp only [register, hopen, hread, bind, Except.bind, pure, Except.pure]
  cases hsave : d.store.save fs r with
  | mk result fs' =>
    cases result with
    | ok path => exact .inl ⟨path, rfl, rfl⟩
    | error e => exact .inr ⟨e, rfl, by simp [Report.warn, Report.ofFailure]⟩

/-- Registering leaves the files as saving does. -/
theorem snd_register (hopen : openDeployment fs config = .ok d)
    (hread : openRegistration fs file = .ok r) :
    (register fs config file).2 = (d.store.save fs r).2 := by
  simp only [register, hopen, hread, bind, Except.bind, pure, Except.pure]
  cases hsave : d.store.save fs r with
  | mk result fs' => cases result <;> rfl

theorem failure_validate (fs : Files) (file : String) (json : Bool) :
    (validate fs file json).failure = none ↔ ∃ r, openRegistration fs file = .ok r := by
  unfold validate
  cases openRegistration fs file with
  | error f => simp [Report.ofFailure]
  | ok r => cases json <;> simp [Report.ofOutput, Report.warn]

theorem isAcceptable_of_openRegistration (h : openRegistration fs file = .ok r) :
    r.IsAcceptable := by
  obtain ⟨content, -, hread⟩ := Registration.load_eq_ok_iff.1 (mapError_eq_ok_iff.1 h)
  exact Registration.isAcceptable_of_ofGlyphs hread

theorem output_validate (h : openRegistration fs file = .ok r) :
    (validate fs file true).output = jsonText r.graph.toJson := by
  simp only [validate, h, if_true, Report.ofOutput]

section Taken

variable (hopen : openDeployment fs config = .ok d)
  (hworks : ∀ r fault, openRegistration fs file = .ok r →
    (d.store.save fs r).1 ≠ .error (.fileSystem fault))

include hopen hworks

/-- A registration that can be read is saved, and so it is registered. -/
theorem exists_saved (hread : openRegistration fs file = .ok r) :
    ∃ path, (d.store.save fs r).1 = .ok path ∧ (register fs config file).1.failure = none := by
  rcases register_of_read hopen hread with hsaved | ⟨e, he, -⟩
  · exact hsaved
  · have hname := (isAcceptable_of_openRegistration hread).name
    obtain ⟨fault, rfl⟩ := Store.fileSystem_of_save hname (Prod.ext he rfl)
    exact absurd he (hworks r fault hread)

theorem failure_register :
    (register fs config file).1.failure = none ↔ ∃ r, openRegistration fs file = .ok r := by
  constructor
  · intro hnone
    cases hread : openRegistration fs file with
    | ok r => exact ⟨r, rfl⟩
    | error f =>
      rw [register_of_refused hopen hread] at hnone
      cases hnone
  · rintro ⟨r, hread⟩
    obtain ⟨-, -, hnone⟩ := exists_saved hopen hworks hread
    exact hnone

theorem snd_register_of_failure (hfailed : (register fs config file).1.failure ≠ none) :
    (register fs config file).2 = fs := by
  cases hread : openRegistration fs file with
  | ok r => exact absurd ((failure_register hopen hworks).2 ⟨r, hread⟩) hfailed
  | error f => rw [register_of_refused hopen hread]

theorem showsRegistered (hsettings : openDeployment (register fs config file).2 config = .ok d) :
    ShowsRegistered fs config file d := by
  intro r hread _ honly
  obtain ⟨path, hpath, -⟩ := exists_saved hopen hworks hread
  have hkeeps : d.store.Keeps (register fs config file).2 (FlowName.fileName r.flowName)
      r.reread := by
    rw [snd_register hopen hread]
    exact Store.keeps_of_save (configDir_ne_empty hopen) (isAcceptable_of_openRegistration hread)
      (Prod.ext hpath rfl)
  -- What is read again has the name, the definition and the mappings of what was saved.
  have hlist := list_of_keeps hsettings hkeeps honly
  have hdisplay := display_of_keeps hsettings hkeeps honly
  rw [output_validate hread]
  exact ⟨hlist, hdisplay⟩

/-- The settings stay the same if the flow is not saved in their file. -/
theorem openDeployment_register {place : List String} {e : Entry}
    (hread : openRegistration fs file = .ok r)
    (hplace : fs.locate (Deployment.resolve fs config).1 = .ok place) (he : fs.get? place = some e)
    (hother : (register fs config file).2.locate
      (Path.join d.configDir (FlowName.fileName r.flowName)) ≠ .ok place) :
    openDeployment (register fs config file).2 config = .ok d := by
  obtain ⟨path, hpath, -⟩ := exists_saved hopen hworks hread
  have hsave : d.store.save fs r = (.ok path, (register fs config file).2) := by
    rw [snd_register hopen hread]
    exact Prod.ext hpath rfl
  obtain ⟨-, rfl, -⟩ := Store.exists_write_of_save hsave
  obtain ⟨hstays, hget⟩ := Store.get?_of_save hsave
  rw [openDeployment_congr hstays hplace he (hget place e he hother), hopen]

end Taken

/-- With settings that can be read and a file system that takes the file, checking succeeds if and
only if registering does, and where registering fails, nothing has changed. If the settings are the
same afterwards, what is registered is listed, and displayed as it was checked. They are the same if
there is a settings file and the flow is not saved in it. -/
theorem register_agrees (hopen : openDeployment fs config = .ok d)
    (hworks : ∀ r fault, openRegistration fs file = .ok r →
      (d.store.save fs r).1 ≠ .error (.fileSystem fault)) :
    (∀ json, (validate fs file json).failure = none ↔
      (register fs config file).1.failure = none) ∧
    ((register fs config file).1.failure ≠ none → (register fs config file).2 = fs) ∧
    (openDeployment (register fs config file).2 config = .ok d →
      ShowsRegistered fs config file d) ∧
    (∀ r place e, openRegistration fs file = .ok r →
      fs.locate (Deployment.resolve fs config).1 = .ok place → fs.get? place = some e →
      (register fs config file).2.locate
        (Path.join d.configDir (FlowName.fileName r.flowName)) ≠ .ok place →
      openDeployment (register fs config file).2 config = .ok d) := by
  refine ⟨fun json => ?_, snd_register_of_failure hopen hworks, showsRegistered hopen hworks,
    fun r place e => openDeployment_register hopen hworks⟩
  rw [failure_validate, failure_register hopen hworks]

/-- A flow with the greatest float in its databases, saved where there is no directory yet. -/
theorem register_agrees_float :
    let text := "\x7b\"flowName\":\"X\",\"databases\":\x7b\"a\":1.7976931348623157e308\x7d," ++
      "\"flowDefinition\":\"Sub-stages\\nAWS\\nS\x7ba->b\x7d\"\x7d"
    let fs : Files := ⟨.ofList [(["flowtrack.yaml"], .file (Glyph.ofString "config_dir: flows\n")),
      (["payload"], .file (Glyph.ofString text))], []⟩
    let fs' := (register fs "flowtrack.yaml" "payload").2
    let d : Deployment := ⟨{ (default : Settings) with configDir := "flows" }, "."⟩
    openDeployment fs "flowtrack.yaml" = .ok d ∧ openDeployment fs' "flowtrack.yaml" = .ok d ∧
      (register fs "flowtrack.yaml" "payload").1.failure = none ∧
      display fs' "flowtrack.yaml" "X" true = .ok (validate fs "payload" true).output := by
  intro text fs fs' d
  have hopen : openDeployment fs "flowtrack.yaml" = .ok d :=
    toOption_eq_some_iff.1 (by decide +kernel)
  obtain ⟨r, hread⟩ := (failure_validate fs "payload" true).1 (by decide +kernel)
  have hname : r.flowName = "X" := by
    have h : (openRegistration fs "payload").toOption.map Registration.flowName = some "X" := by
      decide +kernel
    rw [hread] at h
    exact Option.some.inj h
  have hdone : (register fs "flowtrack.yaml" "payload").1.failure = none := by decide +kernel
  have hworks : ∀ r fault, openRegistration fs "payload" = .ok r →
      (d.store.save fs r).1 ≠ .error (.fileSystem fault) := by
    intro r' fault hr' hfault
    rcases register_of_read hopen hr' with ⟨path, hpath, -⟩ | ⟨e, -, hfailed⟩
    · rw [hpath] at hfault
      cases hfault
    · exact hfailed hdone
  obtain ⟨-, -, hshows, hsame⟩ := register_agrees hopen hworks
  have hsettings : openDeployment fs' "flowtrack.yaml" = .ok d := by
    have hsettingsPlace : fs.locate (Deployment.resolve fs "flowtrack.yaml").1 =
        .ok ["flowtrack.yaml"] := toOption_eq_some_iff.1 (by decide +kernel)
    have hflowPlace : fs'.locate (Path.join d.configDir (FlowName.fileName "X")) =
        .ok ["flows", "X.json"] := toOption_eq_some_iff.1 (by decide +kernel)
    refine hsame r ["flowtrack.yaml"] _ hread hsettingsPlace rfl ?_
    rw [hname, hflowPlace]
    exact fun h => absurd (Except.ok.inj h) (by decide)
  have hlist : d.store.list fs' = .ok ["X.json"] := toOption_eq_some_iff.1 (by decide +kernel)
  have hshown := (hshows hsettings r hread hdone fun file' r' hkeeps _ => ?_).2
  · exact ⟨hopen, hsettings, hdone, hname ▸ hshown⟩
  · obtain ⟨files, hfiles, hmem, -⟩ := hkeeps
    cases hlist.symm.trans hfiles
    rw [hname]
    exact List.mem_singleton.1 hmem

end Flowline.Command
