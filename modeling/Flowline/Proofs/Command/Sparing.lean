import Flowline.Proofs.Command.NewDeployment
import Flowline.Proofs.Store.Others

/-!
# Making a deployment around flows

A deployment may be made in a directory that has flows already, which were found there without
settings. Every file stays as it was but the one that the example flow is written to, whatever
stood there (`not_init_keeps_files`), and a flow that is neither named like the example nor declared
in its file is listed and displayed as before (`init_keeps_files`).
-/

namespace Flowline.Command

open Text Yaml

/-! ## Flows that are told -/

section Told

variable {fs fs' : Files} {config config' : String} {d d' : Deployment} {r : Registration}

/-- A monitor knows a flow by the registration that counts. -/
theorem snapshot?_of_tells {rs : List Registration} (hall : d.store.loadAll fs = .ok rs)
    (h : d.store.Tells fs r) :
    ∃ version, (Monitor.empty.registerAll rs).snapshot? r.flowName =
      some (.ofRegistration version r) := by
  obtain ⟨before, after, hsplit, hafter⟩ := h
  cases hall.symm.trans hsplit
  exact Monitor.snapshot?_registerAll _ hafter

theorem isListed_of_tells (hopen : openDeployment fs config = .ok d) (h : d.store.Tells fs r) :
    IsListed fs config r := by
  obtain ⟨before, after, hall, -⟩ := id h
  obtain ⟨version, hsnapshot⟩ := snapshot?_of_tells hall h
  exact ⟨_, version, list_of_snapshot hopen (openMonitor_eq_ok_iff.2 ⟨_, hall, rfl⟩) hsnapshot⟩

/-- What is displayed of a flow depends on its own registrations alone. -/
theorem display_of_tells (hopen : openDeployment fs config = .ok d)
    (hopen' : openDeployment fs' config' = .ok d') (hstore : d'.store = d.store)
    (halike : d.store.ReadsAlike fs fs' r.flowName) (h : d.store.Tells fs r) (json : Bool) :
    display fs' config' r.flowName json = display fs config r.flowName json := by
  have h' := halike.tells h
  obtain ⟨rs, rs', hall, hall', hfilter⟩ := halike
  rw [← hstore] at h' hall'
  obtain ⟨version, hsnapshot⟩ := snapshot?_of_tells hall h
  obtain ⟨version', hsnapshot'⟩ := snapshot?_of_tells hall' h'
  have hview : (Monitor.empty.registerAll rs').view? r.flowName =
      (Monitor.empty.registerAll rs).view? r.flowName := by
    rw [Monitor.view?, Monitor.view?, hsnapshot, hsnapshot', Monitor.mapOf_registerAll_eq,
      Monitor.mapOf_registerAll_eq, hfilter]
    rfl
  have hmonitor := openMonitor_eq_ok_iff.2 ⟨_, hall, rfl⟩
  have hmonitor' := openMonitor_eq_ok_iff.2 ⟨_, hall', rfl⟩
  simp only [display, hopen, hopen', hmonitor, hmonitor', bind, Except.bind, hview]

end Told

/-! ## Flows beside the new files -/

section Afterwards

variable {fs fs' : Files} {path n : String} {name : Option String}

theorem omits_newSettings (name n : String) :
    Registration.Omits name (Glyph.ofString (newSettings n)) := by
  intro r hr
  have hcomment : ∃ rest, (newSettings n).toList = '#' :: rest := by
    rw [newSettings, toList_unlines]
    exact ⟨_, rfl⟩
  obtain ⟨rest, hrest⟩ := hcomment
  rw [Glyph.ofString, hrest] at hr
  cases hr

theorem omits_example {name : String} (hname : name ≠ "DERIV") :
    Registration.Omits name (Glyph.ofString exampleFlow) := by
  intro r hr
  obtain ⟨r', hr', hderiv⟩ := exists_example
  cases hr.symm.trans hr'
  exact fun heq => hname (heq.symm.trans hderiv)

/-- Without settings a directory has the default ones. -/
theorem openDeployment_of_not_exists (hdirectory : fs.isDirectory path = true)
    (hnone : fs.pathExists (settingsPath path) = false) :
    openDeployment fs path = .ok ⟨default, path⟩ := by
  rw [settingsPath] at hnone
  simp only [openDeployment, Deployment.loadOrDefault, Deployment.resolve, hdirectory, if_true,
    hnone]
  rfl

/-- The flow of a registration can still be seen after a deployment has been made around it: it
is not hidden by the example flow, nor declared in the file that is written over, and if there are
no settings yet, the new ones can be read. -/
structure Spared (fs : Files) (path : String) (name : Option String) (s : Store)
    (r : Registration) : Prop where
  name_ne : r.flowName ≠ "DERIV"
  file : ∀ r', s.Keeps fs (FlowName.fileName "DERIV") r' → r'.flowName ≠ r.flowName
  settings : fs.pathExists (settingsPath path) = false → ∀ place n, fs.locate path = .ok place →
    name.or place.getLast? = some n → isPlainLine n.toList = true

/-- What is read as a flow is not changed by settings that are written where there were none. -/
theorem Prepared.readsAlike (h : Prepared fs path name fs n)
    (hwrite : fs.write (settingsPath path) (Glyph.ofString (newSettings n)) = .ok fs')
    {s : Store} {dir : List String} (hlocate : fs.locate s.dir = .ok dir)
    (hdir : fs.get? dir = some .directory) (flowName : String) : s.ReadsAlike fs fs' flowName := by
  refine Store.readsAlike_write h.path_ne_empty isPlain_settingsFile hwrite hlocate hdir
    (omits_newSettings flowName n) fun old hold => ?_
  obtain ⟨p, hp, hget⟩ := Files.lookUp_eq_ok_iff.1 hold
  rw [h.noSettings p hp] at hget
  cases hget

/-- Nor by the example flow, if the flow has another name and was not declared in its file. -/
theorem readsAlike_of_write_example (hpath : path ≠ "")
    (hwrite : fs.write (Path.join path exampleFile) (Glyph.ofString exampleFlow) = .ok fs')
    {dir : List String} (hlocate : fs.locate (Path.join path "configs") = .ok dir)
    (hdir : fs.get? dir = some .directory) {flowName : String} (hname : flowName ≠ "DERIV")
    (hbefore : ∀ r, (Store.mk (Path.join path "configs")).Keeps fs (FlowName.fileName "DERIV") r →
      r.flowName ≠ flowName) :
    (Store.mk (Path.join path "configs")).ReadsAlike fs fs' flowName := by
  have hconfigs : Path.join path "configs" ≠ "" := Path.join_ne_empty hpath
  rw [join_exampleFile hpath] at hwrite
  refine Store.readsAlike_write hconfigs isPlain_exampleName hwrite hlocate hdir
    (omits_example hname) fun old hold r hr => hbefore r ?_
  exact (Store.keeps_fileName_iff hconfigs (by decide)).2
    (Registration.load_eq_ok_iff.2 ⟨old, hold, hr⟩)

/-- Settings that are written change nothing in the file of the example. -/
theorem keeps_of_write_settings (hpath : path ≠ "") {content : List Glyph}
    (hwrite : fs.write (settingsPath path) content = .ok fs') {r : Registration}
    (h : (Store.mk (Path.join path "configs")).Keeps fs' (FlowName.fileName "DERIV") r) :
    (Store.mk (Path.join path "configs")).Keeps fs (FlowName.fileName "DERIV") r := by
  have hconfigs : Path.join path "configs" ≠ "" := Path.join_ne_empty hpath
  have hvalid : FlowName.IsValid "DERIV" := by decide
  obtain ⟨old, hold, hr⟩ :=
    Registration.load_eq_ok_iff.1 ((Store.keeps_fileName_iff hconfigs hvalid).1 h)
  have hbefore := (Files.lookUp_join_of_write hpath hconfigs isPlain_settingsFile
    isPlain_exampleName (by decide) hwrite).1 hold
  exact (Store.keeps_fileName_iff hconfigs hvalid).2
    (Registration.load_eq_ok_iff.2 ⟨old, hbefore, hr⟩)

/-- The flows of a directory are read from the same place, and those that are spared as before. -/
theorem Initialized.readsAlike {done : Bool} (h : Initialized fs path name done fs')
    (hdirectory : fs.isDirectory path = true) {d : Deployment}
    (hopen : openDeployment fs path = .ok d) {r : Registration} (hr : d.store.Tells fs r)
    (hspared : Spared fs path name d.store r) :
    ∃ d', openDeployment fs' path = .ok d' ∧ d'.store = d.store ∧
      d.store.ReadsAlike fs fs' r.flowName := by
  obtain ⟨dir, hlocate, hdir⟩ := Store.exists_place_of_tells hr
  by_cases hsettings : fs.pathExists (settingsPath path) = true
  · -- The settings that stand there are not written over.
    cases h with
    | refused hprepares =>
      rcases hprepares.inDirectory hdirectory with rfl | ⟨hnone, -⟩
      · exact ⟨d, hopen, rfl, hr.readsAlike _⟩
      · exact absurd hsettings (by simp [hnone])
    | unfinished hprepared _ => exact absurd hsettings (by simp [hprepared.pathExists_settings])
    | done hprepared _ _ => exact absurd hsettings (by simp [hprepared.pathExists_settings])
  · have hnone : fs.pathExists (settingsPath path) = false := by simpa using hsettings
    cases hopen.symm.trans (openDeployment_of_not_exists hdirectory hnone)
    have hmade : ∀ {made}, Prepares fs path made → made = fs :=
      fun hprepares => hprepares.eq_of_located hdirectory hlocate hdir
    cases h with
    | refused hprepares =>
      obtain rfl := hmade hprepares
      exact ⟨_, hopen, rfl, hr.readsAlike _⟩
    | unfinished hprepared hwrite =>
      obtain rfl := hmade hprepared.toPrepares
      obtain ⟨place, hplace, hn⟩ := hprepared.named
      have hnew := hasSettings_of_write hprepared.path_ne_empty hwrite
      exact ⟨_, (hnew.load (hspared.settings hnone place _ hplace hn)).2, rfl,
        hprepared.readsAlike hwrite hlocate hdir r.flowName⟩
    | done hprepared hwrite hexample =>
      obtain rfl := hmade hprepared.toPrepares
      obtain ⟨place, hplace, hn⟩ := hprepared.named
      have hpath := hprepared.path_ne_empty
      have hnew := (hasSettings_of_write hpath hwrite).write_example hexample
      have hstays := Files.stays_of_write hwrite
      have hexampleAlike := readsAlike_of_write_example hpath hexample
        (Files.locate_mono hstays hlocate) (hstays.directories _ hdir) hspared.name_ne
        fun r' hkeeps => hspared.file r' (keeps_of_write_settings hpath hwrite hkeeps)
      exact ⟨_, (hnew.load (hspared.settings hnone place _ hplace hn)).2, rfl,
        (hprepared.readsAlike hwrite hlocate hdir r.flowName).trans hexampleAlike⟩

end Afterwards

/-! ## Files that were there -/

/-- Making a deployment leaves every file as it was, unless a flow of one's own stands in the file
of the example; then it is written over. Directories stay. A flow that is spared is listed and
displayed as before, whether the deployment can be made or not. -/
theorem init_keeps_files (fs : Files) (path : String) (name : Option String) :
    ((∀ p content, fs.get? p = some (.file content) →
        (init fs path name).2.get? p = some (.file content)) ↔
      ((init fs path name).1.failure = none → ∀ p content,
        (init fs path name).2.locate (Path.join path exampleFile) = .ok p →
          fs.get? p = some (.file content) → content = Glyph.ofString exampleFlow)) ∧
    (∀ p e, fs.get? p = some e → (init fs path name).2.get? p = some e ∨
      (init fs path name).1.failure = none ∧
        (init fs path name).2.locate (Path.join path exampleFile) = .ok p) ∧
    (fs.isDirectory path = true → ∀ d r, openDeployment fs path = .ok d → d.store.Tells fs r →
      Spared fs path name d.store r → IsListed fs path r ∧ IsListed (init fs path name).2 path r ∧
        ∀ json, display (init fs path name).2 path r.flowName json =
          display fs path r.flowName json) := by
  have hinitialized := initialized fs path name
  refine ⟨⟨fun hkeeps hdone p content hp hget => ?_, fun hsame p content hget => ?_⟩,
    fun p e he => ?_, fun hdirectory d r hopen htells hspared => ?_⟩
  · rw [hdone] at hinitialized
    have hexample := hinitialized.get?_example hp
    rw [hkeeps p content hget] at hexample
    exact Entry.file.inj (Option.some.inj hexample)
  · rcases hinitialized.get?_eq hget with hstays | ⟨hdone, hp, hexample⟩
    · exact hstays
    · rw [hexample, hsame (Option.isNone_iff_eq_none.1 hdone) p content hp hget]
  · rcases hinitialized.get?_eq he with hstays | ⟨hdone, hp, -⟩
    · exact .inl hstays
    · exact .inr ⟨Option.isNone_iff_eq_none.1 hdone, hp⟩
  · obtain ⟨d', hopen', hstore, halike⟩ :=
      hinitialized.readsAlike hdirectory hopen htells hspared
    have htells' : d'.store.Tells _ r := hstore ▸ halike.tells htells
    exact ⟨isListed_of_tells hopen htells, isListed_of_tells hopen' htells',
      display_of_tells hopen hopen' hstore halike htells⟩

/-- A directory of flows without settings. -/
def unsettled (flowName : String) : Files :=
  ⟨.ofList [(["configs"], .directory), (["configs", FlowName.fileName flowName],
    .file (Glyph.ofString ("\x7b\"flowName\":\"" ++ flowName ++ "\"\x7d")))], []⟩

/-- A flow is listed and displayed as before when a deployment is made around it. -/
theorem init_keeps_files_unsettled :
    let r : Registration := ⟨"X", none, Table.empty, FlowDefinition.empty, default⟩
    (unsettled "X").isDirectory "." = true ∧
      openDeployment (unsettled "X") "." = .ok ⟨default, "."⟩ ∧
      (Deployment.store ⟨default, "."⟩).Tells (unsettled "X") r ∧
      Spared (unsettled "X") "." (some "ops") (Deployment.store ⟨default, "."⟩) r ∧
      IsListed (init (unsettled "X") "." (some "ops")).2 "." r := by
  intro r
  have hdirectory : (unsettled "X").isDirectory "." = true := by decide +kernel
  have hopen : openDeployment (unsettled "X") "." = .ok ⟨default, "."⟩ :=
    toOption_eq_some_iff.1 (by decide +kernel)
  have hlist : (Deployment.store ⟨default, "."⟩).list (unsettled "X") = .ok ["X.json"] :=
    toOption_eq_some_iff.1 (by decide +kernel)
  have hall : (Deployment.store ⟨default, "."⟩).loadAll (unsettled "X") = .ok [r] :=
    toOption_eq_some_iff.1 (by decide +kernel)
  have htells : (Deployment.store ⟨default, "."⟩).Tells (unsettled "X") r :=
    ⟨[], [], hall, fun _ hr' => nomatch hr'⟩
  have hspared : Spared (unsettled "X") "." (some "ops") (Deployment.store ⟨default, "."⟩) r := by
    refine ⟨by decide, ?_, ?_⟩
    · rintro r' ⟨files, hfiles, hmem, -⟩
      cases hlist.symm.trans hfiles
      exact absurd hmem (by decide)
    · rintro - place n - ⟨⟩
      decide +kernel
  exact ⟨hdirectory, hopen, htells, hspared,
    ((init_keeps_files (unsettled "X") "." (some "ops")).2.2 hdirectory _ r hopen htells
      hspared).2.1⟩

/-- A flow that is named like the example is written over. -/
theorem not_init_keeps_files : ¬ ∀ (fs : Files) (path : String) (name : Option String),
    ∀ p content, fs.get? p = some (.file content) →
      (init fs path name).2.get? p = some (.file content) := by
  intro h
  have hinitialized := initialized (unsettled "DERIV") "." (some "ops")
  have hdone : (init (unsettled "DERIV") "." (some "ops")).1.failure = none := by decide +kernel
  have hplace : (init (unsettled "DERIV") "." (some "ops")).2.locate
      (Path.join "." exampleFile) = .ok ["configs", "DERIV.json"] :=
    toOption_eq_some_iff.1 (by decide +kernel)
  rw [hdone] at hinitialized
  have hexample := hinitialized.get?_example hplace
  have hkept := h (unsettled "DERIV") "." (some "ops") ["configs", "DERIV.json"]
    (Glyph.ofString "\x7b\"flowName\":\"DERIV\"\x7d") (by decide +kernel)
  -- The texts differ in their second characters.
  have hstart : ∃ rest, exampleFlow.toList = '\x7b' :: '\n' :: rest := by
    unfold exampleFlow
    repeat rewrite [String.toList_append]
    rewrite [String.toList_ofList]
    exact ⟨_, rfl⟩
  obtain ⟨rest, hrest⟩ := hstart
  rw [hexample, Glyph.ofString, hrest] at hkept
  have hown : Glyph.ofString "\x7b\"flowName\":\"DERIV\"\x7d" =
      .char '\x7b' :: .char '"' :: Glyph.ofString "flowName\":\"DERIV\"\x7d" := by decide +kernel
  rw [hown] at hkept
  simp at hkept

end Flowline.Command
