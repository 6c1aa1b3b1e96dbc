import Flowline.Proofs.Store.FileNames

/-!
# What a store keeps in which file

A store finds flows in two ways: by the names of the files in its directory, and by the name of a
flow, which leads to the file that is named after it. Whatever files there are, what is loaded by
name is what `loadAll` reads out of the file of that name (`load_eq_some_iff`), and it can be
deleted (`delete_of_keeps`).

A file that is not named after the flow in it is found in the first way only, so the two ways need
not agree (`not_agrees`). They do if for each flow there is also the file that is named after it
(`agrees_iff`).
-/

namespace Flowline

open Text

namespace Store

/-- A file is listed and reads as a registration. -/
def Keeps (s : Store) (fs : Files) (file : String) (r : Registration) : Prop :=
  ∃ files, s.list fs = .ok files ∧ file ∈ files ∧
    Registration.load fs (Path.join s.dir file) = .ok r

/-- A registration is among all that can be read. -/
def Returns (s : Store) (fs : Files) (r : Registration) : Prop :=
  ∃ rs, s.loadAll fs = .ok rs ∧ r ∈ rs

section Keeps

variable {s : Store} {fs : Files} {r : Registration} {files : List String}

/-! ## The files that are listed -/

/-- The files with the extension are listed, in order. -/
theorem list_of_directory {place : List String} (hlocate : fs.locate s.dir = .ok place)
    (hplace : fs.get? place = some .directory) : s.list fs =
      .ok (((fs.childNames place).filter (Path.hasExtension extension)).mergeSort (· ≤ ·)) := by
  have hexists : fs.pathExists s.dir = true :=
    Files.pathExists_iff.2 ⟨_, Files.lookUp_eq_ok_iff.2 ⟨place, hlocate, hplace⟩⟩
  have hnames : fs.names s.dir = .ok (fs.childNames place) :=
    Files.names_eq_ok_iff.2 ⟨place, hlocate, hplace, rfl⟩
  simp only [list, hexists, if_true, hnames]

/-- Files are listed out of a directory, or there are none. -/
theorem list_cases (h : s.list fs = .ok files) : files = [] ∨
    ∃ place, fs.locate s.dir = .ok place ∧ fs.get? place = some .directory ∧
      files = ((fs.childNames place).filter (Path.hasExtension extension)).mergeSort (· ≤ ·) := by
  unfold list at h
  split at h
  · split at h
    · cases h
    · next names hnames =>
      cases h
      obtain ⟨place, hlocate, hplace, rfl⟩ := Files.names_eq_ok_iff.1 hnames
      exact .inr ⟨place, hlocate, hplace, rfl⟩
  · cases h
    exact .inl rfl

/-- The files that are listed are those in the directory that have the extension. -/
theorem mem_list_iff {place : List String} (hlocate : fs.locate s.dir = .ok place)
    (hplace : fs.get? place = some .directory) : ∃ files, s.list fs = .ok files ∧
      ∀ file, file ∈ files ↔ (fs.get? (place ++ [file])).isSome = true ∧
        Path.hasExtension extension file = true := by
  refine ⟨_, list_of_directory hlocate hplace, fun file => ?_⟩
  rw [List.mem_mergeSort, List.mem_filter, Files.mem_childNames]

/-- No file is listed twice. -/
theorem nodup_of_list (h : s.list fs = .ok files) : files.Nodup := by
  rcases list_cases h with rfl | ⟨place, -, -, rfl⟩
  · exact List.nodup_nil
  · exact (List.mergeSort_perm _ _).nodup_iff.2 ((Files.nodup_childNames fs place).filter _)

theorem loadAll_of_list (h : s.list fs = .ok files) : s.loadAll fs =
    .ok (files.filterMap fun file => (Registration.load fs (Path.join s.dir file)).toOption) := by
  rw [loadAll, h]
  rfl

/-! ## What is read -/

/-- All that can be read is read out of some file. -/
theorem returns_iff : s.Returns fs r ↔ ∃ file, s.Keeps fs file r := by
  unfold Returns Keeps loadAll
  cases s.list fs with
  | error e => simp [bind, Except.bind]
  | ok files =>
    simp [bind, Except.bind, pure, Except.pure, toOption_eq_some_iff]

/-- The file of a flow is listed if there is one. -/
theorem keeps_fileName_iff (hdir : s.dir ≠ "") {name : String} (hname : FlowName.IsValid name) :
    s.Keeps fs (FlowName.fileName name) r ↔
      Registration.load fs (Path.join s.dir (FlowName.fileName name)) = .ok r := by
  refine ⟨fun ⟨_, _, _, hload⟩ => hload, fun hload => ?_⟩
  obtain ⟨content, hlookUp, -⟩ := Registration.load_eq_ok_iff.1 hload
  obtain ⟨p, hp, hentry⟩ := Files.lookUp_eq_ok_iff.1 hlookUp
  obtain ⟨-, place, hlocate, hplace, rfl⟩ :=
    (Files.locate_join_eq_ok_iff hdir (FlowName.isPlain_fileName hname)).1 hp
  obtain ⟨files, hlist, hmem⟩ := mem_list_iff hlocate hplace
  exact ⟨files, hlist,
    (hmem _).2 ⟨by rw [hentry]; rfl, FlowName.hasExtension_fileName hname⟩, hload⟩

/-- What is loaded by the name of a flow is what its file reads as. -/
theorem load_eq_some_iff (hdir : s.dir ≠ "") {name : String} :
    s.load fs name = .ok (some r) ↔
      FlowName.IsValid name ∧ s.Keeps fs (FlowName.fileName name) r := by
  by_cases hname : FlowName.IsValid name
  · rw [keeps_fileName_iff hdir hname]
    simp only [load, s.pathFor_of_valid hname, bind, Except.bind, hname, true_and]
    constructor
    · intro h
      split at h
      · split at h
        · cases h
        · next r' hload =>
          cases h
          exact hload
      · cases h
    · intro h
      obtain ⟨content, hlookUp, -⟩ := Registration.load_eq_ok_iff.1 h
      rw [Files.pathExists_iff.2 ⟨_, hlookUp⟩, if_pos rfl, h]
      rfl
  · obtain ⟨e, -, -, hpath⟩ := s.pathFor_of_not_valid hname
    simp [load, hpath, bind, Except.bind, hname]

/-- What is loaded by name is among all that can be read. -/
theorem returns_of_load (hdir : s.dir ≠ "") {name : String}
    (h : s.load fs name = .ok (some r)) : s.Returns fs r :=
  returns_iff.2 ⟨_, ((load_eq_some_iff hdir).1 h).2⟩

/-- What is read has a name that a flow may have. -/
theorem Keeps.isValid {file : String} (h : s.Keeps fs file r) : FlowName.IsValid r.flowName := by
  obtain ⟨_, _, _, hload⟩ := h
  obtain ⟨content, -, hread⟩ := Registration.load_eq_ok_iff.1 hload
  exact (Registration.isAcceptable_of_ofGlyphs hread).name

/-- What can be read out of the file of a name can be deleted by this name. -/
theorem delete_of_keeps {name : String} (hname : FlowName.IsValid name)
    (h : s.Keeps fs (FlowName.fileName name) r) : (s.delete fs name).1 = .ok true := by
  obtain ⟨_, _, _, hload⟩ := h
  obtain ⟨content, hlookUp, -⟩ := Registration.load_eq_ok_iff.1 hload
  obtain ⟨p, hp, hentry⟩ := Files.lookUp_eq_ok_iff.1 hlookUp
  have hremove : fs.remove (Path.join s.dir (FlowName.fileName name)) = .ok (fs.drop p) := by
    simp [Files.remove, hp, hentry, bind, Except.bind, pure, Except.pure]
  simp only [delete, s.pathFor_of_valid hname, Files.pathExists_iff.2 ⟨_, hlookUp⟩, if_true,
    hremove]

/-- A flow that one file alone keeps is read once. -/
theorem loadAll_of_keeps {file : String} (h : s.Keeps fs file r)
    (honly : ∀ file' r', s.Keeps fs file' r' → r'.flowName = r.flowName → file' = file) :
    ∃ before after, s.loadAll fs = .ok (before ++ r :: after) ∧
      (∀ r' ∈ before, r'.flowName ≠ r.flowName) ∧ ∀ r' ∈ after, r'.flowName ≠ r.flowName := by
  obtain ⟨files, hlist, hmem, hload⟩ := h
  have hnodup := nodup_of_list hlist
  obtain ⟨front, back, rfl⟩ := List.append_of_mem hmem
  -- The files beside this one are others, so the flows in them have other names.
  have hothers : ∀ names : List String, (∀ name ∈ names, name ∈ front ++ file :: back) →
      file ∉ names → ∀ r' ∈ names.filterMap fun name =>
        (Registration.load fs (Path.join s.dir name)).toOption, r'.flowName ≠ r.flowName := by
    intro names hnames hnot r' hr' hname
    obtain ⟨file', hfile', hr'⟩ := List.mem_filterMap.1 hr'
    have hkeeps : s.Keeps fs file' r' :=
      ⟨_, hlist, hnames file' hfile', toOption_eq_some_iff.1 hr'⟩
    exact hnot (honly file' r' hkeeps hname ▸ hfile')
  obtain ⟨-, hback, hdisjoint⟩ := List.nodup_append.1 hnodup
  have hfront : file ∉ front := fun hmem => hdisjoint file hmem file List.mem_cons_self rfl
  refine ⟨_, _, ?_, hothers front (fun name hname => List.mem_append_left _ hname) hfront,
    hothers back (fun name hname => List.mem_append_right _ (List.mem_cons_of_mem _ hname))
      (List.nodup_cons.1 hback).1⟩
  simp only [loadAll_of_list hlist, List.filterMap_append, List.filterMap_cons, hload,
    Except.toOption]

end Keeps

/-! ## The two ways -/

/-- Loading and deleting by name find the flows that are among all that can be read. -/
structure Agrees (s : Store) (fs : Files) : Prop where
  load : ∀ name, (∃ r, s.Returns fs r ∧ r.flowName = name) ↔
    ∃ r, s.load fs name = .ok (some r) ∧ r.flowName = name
  delete : ∀ r, s.Returns fs r → (s.delete fs r.flowName).1 = .ok true

/-- A file that is not named after the flow in it. -/
def misnamed : Files :=
  ⟨.ofList [(["configs"], .directory),
    (["configs", "other.json"], .file (Glyph.ofString "\x7b\"flowName\":\"A\"\x7d"))], []⟩

/-- A flow in a file of another name is among all that can be read, but is not found by name. -/
theorem not_agrees : ¬ (Store.mk "configs").Agrees misnamed := by
  intro h
  have hall : ((Store.mk "configs").loadAll misnamed).toOption =
      some [⟨"A", none, Table.empty, FlowDefinition.empty, default⟩] := by decide +kernel
  have hreturns := h.delete _ ⟨_, toOption_eq_some_iff.1 hall, List.mem_singleton_self _⟩
  have hdelete : ((Store.mk "configs").delete misnamed "A").1 = .ok false :=
    toOption_eq_some_iff.1 (by decide +kernel)
  rw [hdelete] at hreturns
  cases hreturns

/-- The two ways agree if and only if each flow that can be read is kept, in some form, in the file
that is named after it. -/
theorem agrees_iff {s : Store} {fs : Files} (hdir : s.dir ≠ "") : s.Agrees fs ↔
    ∀ file r, s.Keeps fs file r →
      ∃ r', s.Keeps fs (FlowName.fileName r.flowName) r' ∧ r'.flowName = r.flowName := by
  constructor
  · intro h file r hkeeps
    obtain ⟨r', hload, hname⟩ := (h.load r.flowName).1 ⟨r, returns_iff.2 ⟨file, hkeeps⟩, rfl⟩
    exact ⟨r', ((load_eq_some_iff hdir).1 hload).2, hname⟩
  · intro hnamed
    refine ⟨fun name => ⟨?_, ?_⟩, fun r hr => ?_⟩
    · rintro ⟨r, hr, rfl⟩
      obtain ⟨file, hkeeps⟩ := returns_iff.1 hr
      obtain ⟨r', hkeeps', hname⟩ := hnamed file r hkeeps
      exact ⟨r', (load_eq_some_iff hdir).2 ⟨hkeeps.isValid, hkeeps'⟩, hname⟩
    · rintro ⟨r, hload, rfl⟩
      exact ⟨r, returns_of_load hdir hload, rfl⟩
    · obtain ⟨file, hkeeps⟩ := returns_iff.1 hr
      obtain ⟨r', hkeeps', -⟩ := hnamed file r hkeeps
      exact delete_of_keeps hkeeps.isValid hkeeps'

end Store

end Flowline
