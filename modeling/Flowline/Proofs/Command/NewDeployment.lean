import Flowline.Proofs.Command.Initializing
import Flowline.Proofs.Command.NewSettings
import Flowline.Proofs.Command.Registering

/-!
# A new deployment

The settings of a new deployment are read back if its name is plain text on one line, and then the
example flow is listed (`init_loads`). The name is written as it is given, so other names may make
the settings unreadable (`not_init_loads`).
-/

namespace Flowline.Command

open Text Yaml

variable {fs fs' made : Files} {path n : String} {name : Option String}

/-! ## The settings -/

/-- The settings of a new deployment stand in its directory. -/
structure HasSettings (fs' : Files) (path n : String) : Prop where
  located : ∃ place, fs'.locate path = .ok place ∧ fs'.get? place = some .directory
  settings : fs'.lookUp (settingsPath path) = .ok (.file (Glyph.ofString (newSettings n)))

/-- The settings are what their text is read as. -/
theorem HasSettings.load_eq (h : HasSettings fs' path n) :
    Deployment.load fs' path =
        (Settings.read (newSettings n).toList).map (fun settings => ⟨settings, path⟩) ∧
      Deployment.loadOrDefault fs' path = Deployment.load fs' path := by
  obtain ⟨place, hlocate, hplace⟩ := h.located
  have hresolve : Deployment.resolve fs' path = (settingsPath path, path) := by
    rw [Deployment.resolve, if_pos (Files.isDirectory_iff.2 ⟨place, hlocate, hplace⟩), settingsPath]
  have hexists := Files.pathExists_iff.2 ⟨_, h.settings⟩
  have hcontent : fs'.read (settingsPath path) = .ok (Glyph.ofString (newSettings n)) := by
    rw [Files.read, h.settings]
    rfl
  simp only [Deployment.load, Deployment.loadOrDefault, hresolve, hexists, if_true,
    Deployment.readSettings, hcontent, Glyph.ofString, Glyph.characters?_map_char, and_self]

/-- With a plain name they are read back. -/
theorem HasSettings.load (h : HasSettings fs' path n)
    (hplain : isPlainLine n.toList = true) :
    Deployment.load fs' path = .ok ⟨{ (default : Settings) with name := n }, path⟩ ∧
      openDeployment fs' path = .ok ⟨{ (default : Settings) with name := n }, path⟩ := by
  obtain ⟨hload, hopen⟩ := h.load_eq
  rw [read_newSettings hplain] at hload
  refine ⟨hload, ?_⟩
  rw [openDeployment, hopen, hload]
  rfl

theorem hasSettings_of_write (hpath : path ≠ "")
    (hwrite : made.write (settingsPath path) (Glyph.ofString (newSettings n)) = .ok fs') :
    HasSettings fs' path n := by
  refine ⟨?_, Files.lookUp_of_write hwrite⟩
  obtain ⟨place, hlocate, hplace, -, -⟩ :=
    Files.exists_put_of_write_join hpath isPlain_settingsFile hwrite
  have hstays := Files.stays_of_write hwrite
  exact ⟨place, Files.locate_mono hstays hlocate, hstays.directories _ hplace⟩

/-! ## The example flow -/

/-- The example flow is read. -/
theorem exists_example : ∃ r, Registration.ofGlyphs (Glyph.ofString exampleFlow) = .ok r ∧
    r.flowName = "DERIV" := by
  have hname : (Registration.ofGlyphs (Glyph.ofString exampleFlow)).toOption.map
      Registration.flowName = some "DERIV" := by
    unfold exampleFlow Glyph.ofString
    repeat rewrite [String.toList_append]
    repeat rewrite [String.toList_ofList]
    decide +kernel
  obtain ⟨r, hr, hderiv⟩ := Option.map_eq_some_iff.1 hname
  exact ⟨r, toOption_eq_some_iff.1 hr, hderiv⟩

theorem isPlain_exampleName : Files.IsPlain (FlowName.fileName "DERIV") :=
  FlowName.isPlain_fileName (by decide)

/-- The file of the example flow is the one of its name in the directory of the flows. -/
theorem join_exampleFile (hpath : path ≠ "") : Path.join path exampleFile =
    Path.join (Path.join path "configs") (FlowName.fileName "DERIV") := by
  have hlast : (Path.join path "configs").toList.getLast? ≠ some '/' := by
    rw [Files.toList_join hpath isPlain_configs]
    split <;> simp
  have hrelative : Path.isAbsolute exampleFile = false := by decide
  have hnames : exampleFile = "configs" ++ "/" ++ FlowName.fileName "DERIV" := by decide
  rw [Files.join_eq (Path.join_ne_empty hpath) isPlain_exampleName, if_neg hlast,
    Files.join_eq hpath isPlain_configs, Path.join]
  simp only [hrelative, hpath, decide_false, Bool.or_self, Bool.false_eq_true, if_false]
  split <;> simp only [hnames, String.append_assoc]

/-- The example flow is written beside the settings. -/
theorem HasSettings.write_example (h : HasSettings fs path n) {content : List Glyph}
    (hwrite : fs.write (Path.join path exampleFile) content = .ok fs') :
    HasSettings fs' path n := by
  obtain ⟨place, hlocate, hplace⟩ := h.located
  have hpath := Files.ne_empty_of_locate hlocate
  rw [join_exampleFile hpath] at hwrite
  have hconfigs : Path.join path "configs" ≠ "" := Path.join_ne_empty hpath
  have hother : FlowName.fileName "DERIV" ≠ Deployment.settingsFile := by decide
  have hstays := Files.stays_of_write hwrite
  refine ⟨⟨place, Files.locate_mono hstays hlocate, hstays.directories _ hplace⟩, ?_⟩
  exact (Files.lookUp_join_of_write hconfigs hpath isPlain_exampleName isPlain_settingsFile hother
    hwrite).2 h.settings

/-- The store keeps what is written as the example flow. -/
theorem keeps_of_write_example (hpath : path ≠ "") {content : List Glyph} {r : Registration}
    (hwrite : fs.write (Path.join path exampleFile) content = .ok fs')
    (hread : Registration.ofGlyphs content = .ok r) :
    (Store.mk (Path.join path "configs")).Keeps fs' (FlowName.fileName "DERIV") r := by
  have hlookUp := Files.lookUp_of_write hwrite
  rw [join_exampleFile hpath] at hlookUp
  exact (Store.keeps_fileName_iff (Path.join_ne_empty hpath) (by decide)).2
    (Registration.load_eq_ok_iff.2 ⟨content, hlookUp, hread⟩)

/-! ## What can be read -/

/-- What stands in the directory of a deployment that could be made. -/
theorem exists_settings_of_init (h : (init fs path name).1.failure = none) :
    ∃ place n, (init fs path name).2.locate path = .ok place ∧ name.or place.getLast? = some n ∧
      HasSettings (init fs path name).2 path n ∧
      ∀ r, Registration.ofGlyphs (Glyph.ofString exampleFlow) = .ok r →
        (Store.mk (Path.join path "configs")).Keeps (init fs path name).2
          (FlowName.fileName "DERIV") r := by
  have hinitialized := initialized fs path name
  rw [h] at hinitialized
  generalize (init fs path name).2 = fs' at hinitialized ⊢
  cases hinitialized with
  | @done made written _ n hprepared hwrite hexample =>
    have hpath := hprepared.path_ne_empty
    obtain ⟨place, hlocate, hn⟩ := hprepared.named
    exact ⟨place, n, Files.locate_mono (Files.stays_of_write hexample)
      (Files.locate_mono (Files.stays_of_write hwrite) hlocate), hn,
      (hasSettings_of_write hpath hwrite).write_example hexample,
      fun r hread => keeps_of_write_example hpath hexample hread⟩

/-- A deployment that could be made has a name, the given one or that of its directory. If the name
is plain text on one line, the settings are read back with this name and the usual values, and the
example flow is listed, as it is read if no other file declares it. -/
theorem init_loads (h : (init fs path name).1.failure = none) :
    ∃ place n, (init fs path name).2.locate path = .ok place ∧ name.or place.getLast? = some n ∧
      (isPlainLine n.toList = true →
        Deployment.load (init fs path name).2 path = .ok
          ⟨⟨n, "configs", .mock, ⟨5⟩, ⟨none, "dag_run", "stage_status", 5⟩, 120⟩, path⟩ ∧
        (∃ flows, list (init fs path name).2 path = .ok (Render.flowTable flows) ∧
          ∃ f ∈ flows, f.name = "DERIV") ∧
        ∃ r, Registration.ofGlyphs (Glyph.ofString exampleFlow) = .ok r ∧ r.flowName = "DERIV" ∧
          ((∀ file r', (Store.mk (Path.join path "configs")).Keeps (init fs path name).2 file r' →
              r'.flowName = "DERIV" → file = FlowName.fileName "DERIV") →
            IsListed (init fs path name).2 path r)) := by
  obtain ⟨place, n, hlocate, hn, hsettings, hexample⟩ := exists_settings_of_init h
  generalize (init fs path name).2 = fs' at hlocate hsettings hexample ⊢
  obtain ⟨r, hread, hderiv⟩ := exists_example
  have hkeeps := hexample r hread
  refine ⟨place, n, hlocate, hn, fun hplain => ?_⟩
  obtain ⟨hload, hopen⟩ := hsettings.load hplain
  refine ⟨hload, ?_, r, hread, hderiv, fun honly => ?_⟩
  · obtain ⟨rs, hall, hmem⟩ := Store.returns_iff.2 ⟨_, hkeeps⟩
    have hmonitor : openMonitor fs' ⟨{ (default : Settings) with name := n }, path⟩ =
        .ok (Monitor.empty.registerAll rs) := openMonitor_eq_ok_iff.2 ⟨rs, hall, rfl⟩
    obtain ⟨f, hf, hname⟩ :=
      (exists_flows_iff_returns hmonitor "DERIV").2 ⟨r, ⟨rs, hall, hmem⟩, hderiv⟩
    obtain ⟨name, s, hs, -⟩ := (Monitor.mem_flows_iff _).1 hf
    exact ⟨_, (list_of_snapshot hopen hmonitor hs).1, f, hf, hname⟩
  · exact list_of_keeps hopen hkeeps fun file r' hkeeps' hname =>
      honly file r' hkeeps' (hname.trans hderiv)

/-- A deployment in a directory that is made for it and gives it its name. -/
theorem init_loads_directory :
    let fs := (init Files.empty "ops" none).2
    (init Files.empty "ops" none).1.failure = none ∧
      Deployment.load fs "ops" = .ok
        ⟨⟨"ops", "configs", .mock, ⟨5⟩, ⟨none, "dag_run", "stage_status", 5⟩, 120⟩, "ops"⟩ ∧
      ∃ r, r.flowName = "DERIV" ∧ IsListed fs "ops" r := by
  intro fs
  have hdone : (init Files.empty "ops" none).1.failure = none := by decide +kernel
  obtain ⟨place, n, hlocate, hn, hloads⟩ := init_loads hdone
  have hplace : fs.locate "ops" = .ok ["ops"] := toOption_eq_some_iff.1 (by decide +kernel)
  cases hplace.symm.trans hlocate
  cases hn
  obtain ⟨hload, -, r, -, hderiv, hlisted⟩ := hloads (by decide +kernel)
  refine ⟨hdone, hload, r, hderiv, hlisted fun file r' hkeeps _ => ?_⟩
  obtain ⟨files, hfiles, hmem, -⟩ := hkeeps
  have hlist : (Store.mk "ops/configs").list fs = .ok ["DERIV.json"] :=
    toOption_eq_some_iff.1 (by decide +kernel)
  cases hlist.symm.trans hfiles
  exact List.mem_singleton.1 hmem

/-- A name with a colon in it makes the settings unreadable. -/
theorem not_init_loads : ¬ ∀ (fs : Files) (path n : String),
    (init fs path (some n)).1.failure = none →
      ∃ d, Deployment.load (init fs path (some n)).2 path = .ok d ∧ d.settings.name = n := by
  intro h
  have hdone : (init Files.empty "." (some "a: b")).1.failure = none := by decide +kernel
  obtain ⟨d, hload, -⟩ := h Files.empty "." "a: b" hdone
  obtain ⟨place, n, -, hn, hsettings, -⟩ := exists_settings_of_init hdone
  cases hn
  have hread : (Settings.read (newSettings "a: b").toList).toOption = none := by
    rw [toList_newSettings]
    decide +kernel
  rw [hsettings.load_eq.1] at hload
  obtain ⟨settings, hsome, -⟩ := map_eq_ok hload
  rw [toOption_eq_some_iff.2 hsome] at hread
  cases hread

end Flowline.Command
