import Flowline.Proofs.Store.Keeps

/-!
# Saving among other files

Whatever the directory of the store holds, a registration that is saved is kept in the file that is
named after its flow, as it is read again (`keeps_of_save`), and the other files stay as they were
(`get?_of_save`). Saving a registration that has been read can fail for reasons of the file system
only (`fileSystem_of_save`).
-/

namespace Flowline.Store

open Text

variable {s : Store} {fs : Files} {r : Registration}

/-- The steps of saving, if all of them succeed. -/
theorem exists_write_of_save {path : String} {fs' : Files} (h : s.save fs r = (.ok path, fs')) :
    FlowName.IsValid r.flowName ∧ path = Path.join s.dir (FlowName.fileName r.flowName) ∧
      ∃ made, fs.Grows made ∧ made.write path (Glyph.ofString r.storedText) = .ok fs' := by
  have hgrows := Files.grows_makeDirectories fs s.dir
  by_cases hname : FlowName.IsValid r.flowName
  · have hpath := s.pathFor_of_valid hname
    unfold save at h
    simp only [hpath] at h
    split at h
    · cases h
    · next made hmade =>
      rw [hmade] at hgrows
      split at h
      · cases h
      · next written hwritten =>
        cases h
        exact ⟨hname, rfl, made, hgrows, hwritten⟩
  · obtain ⟨e, -, -, hpath⟩ := s.pathFor_of_not_valid hname
    unfold save at h
    simp only [hpath] at h
    cases h

/-- A saved registration is kept in the file of its flow, as it is read again. -/
theorem keeps_of_save (hdir : s.dir ≠ "") (hr : r.IsAcceptable) {path : String} {fs' : Files}
    (h : s.save fs r = (.ok path, fs')) :
    s.Keeps fs' (FlowName.fileName r.flowName) r.reread := by
  obtain ⟨hname, rfl, made, -, hwrite⟩ := exists_write_of_save h
  rw [keeps_fileName_iff hdir hname]
  exact Registration.load_eq_ok_iff.2
    ⟨_, Files.lookUp_of_write hwrite, Registration.ofGlyphs_pretty hr⟩

/-- Saving leaves all that stood elsewhere as it was. -/
theorem get?_of_save {path : String} {fs' : Files} (h : s.save fs r = (.ok path, fs')) :
    fs.Stays fs' ∧ ∀ place e, fs.get? place = some e → fs'.locate path ≠ .ok place →
      fs'.get? place = some e := by
  obtain ⟨-, -, made, hgrows, hwrite⟩ := exists_write_of_save h
  obtain ⟨place', hplace', hne, hnot, rfl⟩ := Files.exists_put_of_write hwrite
  have hput := Files.stays_put hne hnot (.file (Glyph.ofString r.storedText))
  refine ⟨⟨fun p hp => hput.directories p (hgrows.stays.directories p hp),
    hgrows.workingPlace⟩, fun place e he hother => ?_⟩
  have hplace : place' ≠ place := by
    rintro rfl
    exact hother (Files.locate_mono hput hplace')
  rw [Files.get?_put made hne, if_neg hplace]
  exact hgrows.entries place e he

/-- A registration with a name that a flow may have is saved, or the file system fails. -/
theorem fileSystem_of_save (hname : FlowName.IsValid r.flowName) {e : Error} {fs' : Files}
    (h : s.save fs r = (.error e, fs')) : ∃ fault, e = .fileSystem fault := by
  unfold save at h
  simp only [s.pathFor_of_valid hname] at h
  split at h
  · next fault _ _ =>
    cases h
    exact ⟨fault, rfl⟩
  · split at h
    · next fault _ =>
      cases h
      exact ⟨fault, rfl⟩
    · cases h

end Flowline.Store
