import Flowline.Proofs.Files.Ways
import Flowline.Proofs.Store.Shelf

/-!
# A store keeps to its directory

What a store is asked about one flow concerns one file, right in the directory of the store: its
name is that of the flow with the extension of stored flows (`NamesChild`). Nothing else is read,
and nothing else is created, changed or removed, but that the directory is made when a flow is saved
(`Confines`). A name that no flow may have is refused whatever files there are
(`exists_refused`). `keeps_to_directory` puts it together.

That a place is not read is said of two trees that differ there, and are answered alike. Only
directories and files stand in a tree, so a path never leads elsewhere through what stands on it.
-/

namespace Flowline.Store

open Files

/-- The place of the file of a flow. -/
def child (s : Store) (fs : Files) (flowName : String) : List String :=
  fs.target s.dir ++ [FlowName.fileName flowName]

/-- The file of a flow is named after the flow and stands right in the directory. -/
structure NamesChild (s : Store) (flowName : String) : Prop where
  path : s.pathFor flowName = .ok (Path.join s.dir (flowName ++ ".json"))
  /-- Where the directory is, and the file in it. -/
  directory : ∀ fs place, fs.locate s.dir = .ok place →
    s.child fs flowName = place ++ [flowName ++ ".json"]
  file : ∀ fs place, fs.locate (Path.join s.dir (flowName ++ ".json")) = .ok place →
    place = s.child fs flowName
  /-- The name is no path, and neither that of the directory nor that of the one around it. -/
  plain : IsPlain (flowName ++ ".json")
  /-- The file is listed. -/
  extension : Path.hasExtension extension (flowName ++ ".json") = true

/-- A request about a flow concerns nothing but its file. -/
structure Confines (s : Store) (q : Request) (flowName : String) : Prop where
  /-- Everything else is as it was, but that directories are made on the way to that of the store
  when a flow is saved. -/
  others : ∀ fs place, place ≠ s.child fs flowName →
    (s.answer fs q).2.get? place = fs.get? place ∨
      (∃ r, q = .save r) ∧ fs.OnWay s.dir place ∧ fs.get? place = none ∧
        (s.answer fs q).2.get? place = some .directory
  /-- In two trees with the same directories on the way to that of the store, and the same file of
  the flow, a request is answered alike and has the same effect on the file. -/
  reads : ∀ fs fs', Alike s.dir (s.child fs flowName) fs fs' →
    (s.answer fs' q).1 = (s.answer fs q).1 ∧
      Alike s.dir (s.child fs flowName) (s.answer fs q).2 (s.answer fs' q).2

variable {s : Store} {fs fs' : Files} {name name' : String}

theorem namesChild_of_valid (s : Store) (h : FlowName.IsValid name) : s.NamesChild name where
  path := s.pathFor_of_valid h
  directory fs place hplace := by rw [eq_target_of_locate hplace]; rfl
  file fs place hplace := by
    rw [eq_target_of_locate hplace]
    exact target_join fs s.dir (FlowName.isPlain_fileName h)
  plain := FlowName.isPlain_fileName h
  extension := FlowName.hasExtension_fileName h

theorem child_inj : s.child fs name = s.child fs name' ↔ name = name' := by
  rw [child, child, List.append_cancel_left_eq, List.singleton_inj, FlowName.fileName_inj]

/-- Different flows have different paths. -/
theorem eq_of_pathFor_eq (h : FlowName.IsValid name) (h' : FlowName.IsValid name')
    (hpath : s.pathFor name = s.pathFor name') : name = name' := by
  rw [s.pathFor_of_valid h, s.pathFor_of_valid h'] at hpath
  have hchild : s.child default name = s.child default name' := by
    rw [child, child, ← target_join _ _ (FlowName.isPlain_fileName h), Except.ok.inj hpath,
      target_join _ _ (FlowName.isPlain_fileName h')]
  exact child_inj.1 hchild

/-! ## Saving -/

section Save

variable {r : Registration} (h : FlowName.IsValid r.flowName)

include h

/-- Saving makes directories, and then it may write the file. -/
theorem save_cases (s : Store) (fs : Files) :
    (s.save fs r).2 = (fs.makeDirectories s.dir).2 ∨
      (s.save fs r).2 = (fs.makeDirectories s.dir).2.put (s.child fs r.flowName)
        (.file (Text.Glyph.ofString r.storedText)) := by
  unfold Store.save
  rw [s.pathFor_of_valid h]
  dsimp only
  split
  · next fault made hmade =>
    rw [hmade]
    exact .inl rfl
  · next made hmade =>
    rw [hmade]
    split
    · exact .inl rfl
    · next written hwrite =>
      right
      obtain ⟨place, hplace, -, -, rfl⟩ := exists_put_of_write hwrite
      have hworking : made.workingPlace = fs.workingPlace := by
        have hgrows := (grows_makeDirectories fs s.dir).workingPlace
        rwa [hmade] at hgrows
      rw [eq_target_of_locate hplace, target_join _ _ (FlowName.isPlain_fileName h),
        target_congr hworking]
      rfl

theorem save_others (s : Store) (fs : Files) {place : List String}
    (hplace : place ≠ s.child fs r.flowName) :
    (s.save fs r).2.get? place = fs.get? place ∨
      fs.OnWay s.dir place ∧ fs.get? place = none ∧
        (s.save fs r).2.get? place = some .directory := by
  have hmade := get?_makeDirectories fs s.dir place
  rcases s.save_cases h fs with hsave | hsave
  · rwa [hsave]
  · have hne : s.child fs r.flowName ≠ [] := by simp [child]
    rwa [hsave, get?_put _ hne, if_neg hplace.symm]

theorem save_reads (halike : Alike s.dir (s.child fs r.flowName) fs fs') :
    (s.save fs' r).1 = (s.save fs r).1 ∧
      Alike s.dir (s.child fs r.flowName) (s.save fs r).2 (s.save fs' r).2 := by
  have hdirectories := halike.makeDirectories
  have hworking := (grows_makeDirectories fs s.dir).workingPlace
  unfold Store.save
  rw [s.pathFor_of_valid h]
  generalize fs.makeDirectories s.dir = made at hdirectories hworking
  generalize fs'.makeDirectories s.dir = made' at hdirectories
  obtain ⟨result, made⟩ := made
  obtain ⟨result', made'⟩ := made'
  obtain ⟨hresult, hmade⟩ := hdirectories
  dsimp only at hresult hmade hworking ⊢
  subst hresult
  cases result' with
  | error fault => exact ⟨rfl, hmade⟩
  | ok _ =>
    -- Relative paths start where they did, so it is the same file after directories were made.
    unfold child at hmade ⊢
    rw [← target_congr hworking] at hmade ⊢
    rcases hmade.write (FlowName.isPlain_fileName h) (Text.Glyph.ofString r.storedText) with
      ⟨fault, hwrite, hwrite'⟩ | ⟨new, new', hwrite, hwrite', hnew⟩
    · simp only [hwrite, hwrite']
      exact ⟨trivial, hmade⟩
    · simp only [hwrite, hwrite']
      exact ⟨trivial, hnew⟩

end Save

/-! ## Loading and deleting -/

section Name

variable (h : FlowName.IsValid name)

include h

theorem load_reads (halike : Alike s.dir (s.child fs name) fs fs') :
    s.load fs' name = s.load fs name := by
  have hlookUp := halike.lookUp (FlowName.isPlain_fileName h)
  unfold Store.load Registration.load Files.pathExists Files.read
  rw [s.pathFor_of_valid h]
  simp only [bind, Except.bind, hlookUp]

/-- Deleting removes the file, if anything. -/
theorem delete_cases (s : Store) (fs : Files) :
    (s.delete fs name).2 = fs ∨ (s.delete fs name).2 = fs.drop (s.child fs name) := by
  unfold Store.delete
  rw [s.pathFor_of_valid h]
  dsimp only
  split
  · split
    · exact .inl rfl
    · next removed hremove =>
      obtain ⟨place, -, hplace, -, rfl⟩ := exists_drop_of_remove hremove
      rw [eq_target_of_locate hplace, target_join _ _ (FlowName.isPlain_fileName h)]
      exact .inr rfl
  · exact .inl rfl

theorem delete_others (s : Store) (fs : Files) {place : List String}
    (hplace : place ≠ s.child fs name) : (s.delete fs name).2.get? place = fs.get? place := by
  rcases s.delete_cases h fs with hdelete | hdelete
  · rw [hdelete]
  · have hne : s.child fs name ≠ [] := by simp [child]
    rw [hdelete, get?_drop _ hne, if_neg hplace.symm]

theorem delete_reads (halike : Alike s.dir (s.child fs name) fs fs') :
    (s.delete fs' name).1 = (s.delete fs name).1 ∧
      Alike s.dir (s.child fs name) (s.delete fs name).2 (s.delete fs' name).2 := by
  have hlookUp := halike.lookUp (FlowName.isPlain_fileName h)
  unfold Store.delete Files.pathExists
  rw [s.pathFor_of_valid h]
  simp only [hlookUp]
  split
  · rcases halike.remove (FlowName.isPlain_fileName h) with
      ⟨fault, hremove, hremove'⟩ | ⟨new, new', hremove, hremove', hnew⟩
    · simp only [hremove, hremove']
      exact ⟨trivial, halike⟩
    · simp only [hremove, hremove']
      exact ⟨trivial, hnew⟩
  · exact ⟨rfl, halike⟩

end Name

/-! ## Every request -/

theorem confines_of_valid {q : Request} (hq : q.name? = some name) (h : FlowName.IsValid name) :
    s.Confines q name := by
  cases q with
  | save r =>
    cases hq
    exact ⟨fun fs place hplace =>
        (s.save_others h fs hplace).imp_right fun hmade => ⟨⟨r, rfl⟩, hmade⟩,
      fun fs fs' halike => (save_reads h halike).imp_left (congrArg Answer.saved)⟩
  | load flowName =>
    cases hq
    exact ⟨fun fs place _ => .inl rfl,
      fun fs fs' halike => ⟨congrArg Answer.loaded (load_reads h halike), halike⟩⟩
  | delete flowName =>
    cases hq
    exact ⟨fun fs place hplace => .inl (s.delete_others h fs hplace),
      fun fs fs' halike => (delete_reads h halike).imp_left (congrArg Answer.deleted)⟩
  | list => cases hq
  | loadAll => cases hq

/-- A name that no flow may have is refused before there is anything to look at. -/
theorem exists_refused (s : Store) {q : Request} (hq : q.name? = some name)
    (h : ¬ FlowName.IsValid name) :
    ∃ e, (e = .blankFlowName ∨ e = .unsafeFlowName name) ∧
      ∀ fs, s.answer fs q = (q.refused e, fs) := by
  obtain ⟨e, he, hcheck, -⟩ := s.pathFor_of_not_valid h
  refine ⟨e, he, fun fs => ?_⟩
  obtain ⟨e', -, hcheck', hanswer⟩ := s.answer_of_not_valid fs hq h
  cases hcheck.symm.trans hcheck'
  exact hanswer

/-- What a store is asked about one flow concerns one file right in its directory, which no other
flow has; and a name that no flow may have is refused, whatever files there are. -/
theorem keeps_to_directory (s : Store) :
    (∀ name, FlowName.IsValid name → s.NamesChild name) ∧
    (∀ name name', FlowName.IsValid name → FlowName.IsValid name' →
      s.pathFor name = s.pathFor name' → name = name') ∧
    (∀ fs name name', s.child fs name = s.child fs name' → name = name') ∧
    (∀ (q : Request) name, q.name? = some name →
      if FlowName.IsValid name then s.Confines q name
      else ∃ e, (e = .blankFlowName ∨ e = .unsafeFlowName name) ∧
        ∀ fs, s.answer fs q = (q.refused e, fs)) := by
  refine ⟨fun _ h => s.namesChild_of_valid h, fun _ _ h h' => eq_of_pathFor_eq h h',
    fun _ _ _ => child_inj.1, fun q name hq => ?_⟩
  split
  · next h => exact confines_of_valid hq h
  · next h => exact s.exists_refused hq h

end Flowline.Store
