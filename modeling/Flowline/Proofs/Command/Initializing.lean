import Flowline.Command.Perform
import Flowline.Proofs.Files.Places

/-!
# Making a deployment

What can become of making a deployment is listed in `Initialized`: it is refused after directories
have been made at most, or it ends with the settings, or the example flow is written too. Each way
leaves all that was there, but the example flow may be written over a file (`Initialized.get?_eq`).
-/

namespace Flowline.Command

open Text

/-! ## Steps that change files -/

section Steps

variable {α β : Type} {fs fs' : Files}

/-- A step after another one is taken where the first one has left the files. -/
theorem run_bind {x : FileStep α} {f : α → FileStep β} {result : Except Failure β}
    (h : (x >>= f).run.run fs = (result, fs')) :
    (∃ e, x.run.run fs = (.error e, fs') ∧ result = .error e) ∨
      ∃ a mid, x.run.run fs = (.ok a, mid) ∧ (f a).run.run mid = (result, fs') := by
  change (ExceptT.bind x f).run.run fs = _ at h
  simp only [ExceptT.bind, ExceptT.mk, ExceptT.run, ExceptT.bindCont, bind, StateT.bind,
    StateT.run] at h ⊢
  cases hx : x fs with
  | mk first mid =>
    rw [hx] at h
    cases first with
    | error e =>
      cases h
      exact .inl ⟨e, rfl, rfl⟩
    | ok a => exact .inr ⟨a, mid, rfl, h⟩

theorem run_makeDirectories {path : String} {result : Except Failure PUnit}
    (h : (makeDirectories path).run.run fs = (result, fs')) :
    fs' = (fs.makeDirectories path).2 := by
  unfold makeDirectories at h
  rcases run_bind h with ⟨e, hget, -⟩ | ⟨tree, mid, hget, hrest⟩
  · cases hget
  · cases hget
    split at hrest
    · next hmade =>
      cases hrest
      rw [hmade]
    · next hmade =>
      cases hrest
      rw [hmade]

theorem run_writeText {path text : String} {result : Except Failure PUnit}
    (h : (writeText path text).run.run fs = (result, fs')) :
    (result = .ok () ∧ fs.write path (Glyph.ofString text) = .ok fs') ∨
      (∃ e, result = .error e) ∧ fs' = fs := by
  unfold writeText at h
  rcases run_bind h with ⟨e, hget, -⟩ | ⟨tree, mid, hget, hrest⟩
  · cases hget
  · cases hget
    split at hrest
    · cases hrest
      exact .inr ⟨⟨_, rfl⟩, rfl⟩
    · next hwritten =>
      cases hrest
      exact .inl ⟨rfl, hwritten⟩

/-- The name of the directory is looked up and nothing is changed. -/
theorem run_directoryName? {path : String} {result : Except Failure (Option String)}
    (h : (directoryName? path).run.run fs = (result, fs')) :
    fs' = fs ∧ ∀ name, result = .ok name →
      ∃ place e, fs.locate path = .ok place ∧ fs.get? place = some e ∧ name = place.getLast? := by
  unfold directoryName? at h
  rcases run_bind h with ⟨e, hget, -⟩ | ⟨tree, mid, hget, hrest⟩
  · cases hget
  · cases hget
    split at hrest
    · next e place hlookUp hlocate =>
      cases hrest
      obtain ⟨p, hp, he⟩ := Files.lookUp_eq_ok_iff.1 hlookUp
      cases hlocate.symm.trans hp
      refine ⟨rfl, ?_⟩
      rintro _ ⟨⟩
      exact ⟨place, e, hlocate, he, rfl⟩
    · cases hrest
      exact ⟨rfl, by rintro _ ⟨⟩⟩
    · cases hrest
      exact ⟨rfl, by rintro _ ⟨⟩⟩

/-- A new deployment has the name that is given, or that of its directory. -/
theorem run_deploymentName {path : String} {name : Option String} {result : Except Failure String}
    (h : (deploymentName path name).run.run fs = (result, fs')) :
    fs' = fs ∧ ∀ n, result = .ok n →
      ∃ place e, fs.locate path = .ok place ∧ fs.get? place = some e ∧
        name.or place.getLast? = some n := by
  unfold deploymentName at h
  rcases run_bind h with ⟨e, hfirst, rfl⟩ | ⟨found, mid, hfirst, hrest⟩
  · exact ⟨(run_directoryName? hfirst).1, fun _ hn => nomatch hn⟩
  · obtain ⟨rfl, hplace⟩ := run_directoryName? hfirst
    obtain ⟨place, e, hlocate, he, rfl⟩ := hplace found rfl
    split at hrest
    · cases hrest
      exact ⟨rfl, by rintro _ ⟨⟩; exact ⟨place, e, hlocate, he, rfl⟩⟩
    · next n hn =>
      cases hrest
      exact ⟨rfl, by rintro _ ⟨⟩; exact ⟨place, e, hlocate, he, hn⟩⟩
    · cases hrest
      exact ⟨rfl, fun _ hn => nomatch hn⟩

end Steps

/-! ## What can become of it -/

/-- The path of the settings in a directory. -/
def settingsPath (path : String) : String := Path.join path Deployment.settingsFile

/-- The directories of a deployment have been made where they were missing. Where the directory
itself was there, this is the one of the flows, unless there were settings. -/
structure Prepares (fs : Files) (path : String) (made : Files) : Prop where
  grows : fs.Grows made
  inDirectory : fs.isDirectory path = true → made = fs ∨
    fs.pathExists (settingsPath path) = false ∧
      made = (fs.makeDirectories (Path.join path "configs")).2

/-- The directories are there, and the deployment has a name but no settings yet. -/
structure Prepared (fs : Files) (path : String) (name : Option String) (made : Files) (n : String) :
    Prop extends Prepares fs path made where
  named : ∃ place, made.locate path = .ok place ∧ name.or place.getLast? = some n
  noSettings : ∀ p, made.locate (settingsPath path) = .ok p → fs.get? p = none

/-- What can become of a new deployment: whether it is made, and the files after it. -/
inductive Initialized (fs : Files) (path : String) (name : Option String) : Bool → Files → Prop
  | refused {made : Files} : Prepares fs path made → Initialized fs path name false made
  | unfinished {made fs' : Files} {n : String} : Prepared fs path name made n →
      made.write (settingsPath path) (Glyph.ofString (newSettings n)) = .ok fs' →
      Initialized fs path name false fs'
  | done {made written fs' : Files} {n : String} : Prepared fs path name made n →
      made.write (settingsPath path) (Glyph.ofString (newSettings n)) = .ok written →
      written.write (Path.join path exampleFile) (Glyph.ofString exampleFlow) = .ok fs' →
      Initialized fs path name true fs'

section Init

variable {fs fs' : Files} {path : String} {name : Option String}

theorem isPlain_settingsFile : Files.IsPlain Deployment.settingsFile := by
  constructor <;> decide

theorem isPlain_configs : Files.IsPlain "configs" := by
  constructor <;> decide

/-- No settings stand where there were none when directories have been made. -/
theorem get?_settings_of_grows {made : Files} (hgrows : fs.Grows made) {place : List String}
    {e : Entry} (hlocate : fs.locate path = .ok place) (he : fs.get? place = some e)
    (hnone : fs.pathExists (settingsPath path) = false) {p : List String}
    (hp : made.locate (settingsPath path) = .ok p) : fs.get? p = none := by
  have hpath := Files.ne_empty_of_locate hlocate
  obtain ⟨hfits, place', hlocate', hdirectory, rfl⟩ :=
    (Files.locate_join_eq_ok_iff hpath isPlain_settingsFile).1 hp
  cases (Files.locate_mono hgrows.stays hlocate).symm.trans hlocate'
  have hhere : fs.get? place = some .directory := by
    rw [← hdirectory, he]
    exact (hgrows.entries place e he).symm
  refine Option.eq_none_iff_forall_ne_some.2 fun e' he' => ?_
  have hlookUp := (Files.lookUp_join hlocate hhere isPlain_settingsFile).2 ⟨hfits, he'⟩
  have hexists := Files.pathExists_iff.2 ⟨_, hlookUp⟩
  rw [settingsPath] at hnone
  rw [hnone] at hexists
  cases hexists

theorem pathExists_of_isDirectory (h : fs.isDirectory path = true) : fs.pathExists path = true := by
  obtain ⟨p, hp, hget⟩ := Files.isDirectory_iff.1 h
  exact Files.pathExists_iff.2 ⟨_, Files.lookUp_eq_ok_iff.2 ⟨p, hp, hget⟩⟩

/-- The directory is made only where nothing is. -/
theorem run_ensureDirectory {result : Except Failure PUnit}
    (h : (ensureDirectory path).run.run fs = (result, fs')) :
    fs.Grows fs' ∧ (fs.isDirectory path = true → fs' = fs) := by
  unfold ensureDirectory at h
  rcases run_bind h with ⟨e, hget, -⟩ | ⟨tree, mid, hget, hrest⟩
  · cases hget
  · cases hget
    split at hrest
    · next hmissing =>
      obtain rfl := run_makeDirectories hrest
      refine ⟨Files.grows_makeDirectories fs path, fun hdirectory => ?_⟩
      rw [pathExists_of_isDirectory hdirectory] at hmissing
      cases hmissing
    · cases hrest
      exact ⟨.refl fs, fun _ => rfl⟩

theorem run_refuseSettings {result : Except Failure PUnit}
    (h : (refuseSettings path).run.run fs = (result, fs')) :
    fs' = fs ∧ ∀ a, result = .ok a → fs.pathExists (settingsPath path) = false := by
  unfold refuseSettings at h
  rcases run_bind h with ⟨e, hget, -⟩ | ⟨tree, mid, hget, hrest⟩
  · cases hget
  · cases hget
    split at hrest
    · cases hrest
      exact ⟨rfl, fun _ hresult => nomatch hresult⟩
    · next hmissing =>
      cases hrest
      exact ⟨rfl, fun _ _ => by simpa [settingsPath] using hmissing⟩

theorem run_prepareDirectories {result : Except Failure String}
    (h : (prepareDirectories path name).run.run fs = (result, fs')) :
    Prepares fs path fs' ∧ ∀ n, result = .ok n → Prepared fs path name fs' n := by
  unfold prepareDirectories at h
  rcases run_bind h with ⟨e, hensure, rfl⟩ | ⟨_, fs₁, hensure, hname⟩
  · obtain ⟨hgrows, hsame⟩ := run_ensureDirectory hensure
    exact ⟨⟨hgrows, fun hdirectory => .inl (hsame hdirectory)⟩, fun _ hn => nomatch hn⟩
  obtain ⟨hgrows, hsame⟩ := run_ensureDirectory hensure
  have hprepares : Prepares fs path fs₁ := ⟨hgrows, fun hdirectory => .inl (hsame hdirectory)⟩
  rcases run_bind hname with ⟨e, hfind, rfl⟩ | ⟨n, fs₂, hfind, hrefuse⟩
  · obtain ⟨rfl, -⟩ := run_deploymentName hfind
    exact ⟨hprepares, fun _ hn => nomatch hn⟩
  obtain ⟨rfl, hnamed⟩ := run_deploymentName hfind
  obtain ⟨place, e, hlocate, he, hn⟩ := hnamed n rfl
  rcases run_bind hrefuse with ⟨e, hcheck, rfl⟩ | ⟨a, fs₃, hcheck, hconfigs⟩
  · obtain ⟨rfl, -⟩ := run_refuseSettings hcheck
    exact ⟨hprepares, fun _ hn => nomatch hn⟩
  obtain ⟨rfl, hsettings⟩ := run_refuseSettings hcheck
  have hnone := hsettings a rfl
  have hmade : ∀ {first mid}, (makeDirectories (Path.join path "configs")).run.run fs₃ =
      (first, mid) → fs₃.Grows mid ∧ Prepares fs path mid := by
    intro first mid hrun
    obtain rfl := run_makeDirectories hrun
    have hmore := Files.grows_makeDirectories fs₃ (Path.join path "configs")
    refine ⟨hmore, hgrows.trans hmore, fun hdirectory => .inr ?_⟩
    rw [← hsame hdirectory]
    exact ⟨hnone, rfl⟩
  rcases run_bind hconfigs with ⟨e, hrun, rfl⟩ | ⟨_, fs₄, hrun, hlast⟩
  · exact ⟨(hmade hrun).2, fun _ hn => nomatch hn⟩
  · obtain ⟨hmore, hprepares'⟩ := hmade hrun
    cases hlast
    refine ⟨hprepares', ?_⟩
    rintro n' ⟨⟩
    refine ⟨hprepares', ⟨place, Files.locate_mono hmore.stays hlocate, hn⟩, fun p hp => ?_⟩
    have hbefore := get?_settings_of_grows hmore hlocate he hnone hp
    refine Option.eq_none_iff_forall_ne_some.2 fun e' he' => ?_
    rw [hgrows.entries p e' he'] at hbefore
    cases hbefore

/-- What becomes of a new deployment. -/
theorem initialized (fs : Files) (path : String) (name : Option String) :
    Initialized fs path name (init fs path name).1.failure.isNone (init fs path name).2 := by
  cases hrun : (makeDeployment path name).run.run fs with
  | mk result fs' =>
    have hinit : (init fs path name).1.failure.isNone = result.isOk ∧
        (init fs path name).2 = fs' := by
      rw [init, hrun]
      cases result <;> exact ⟨rfl, rfl⟩
    rw [hinit.1, hinit.2]
    unfold makeDeployment at hrun
    rcases run_bind hrun with ⟨e, hprepare, rfl⟩ | ⟨n, made, hprepare, hsettings⟩
    · exact .refused (run_prepareDirectories hprepare).1
    obtain ⟨hprepares, hprepared⟩ := run_prepareDirectories hprepare
    rcases run_bind hsettings with ⟨e, hwrite, rfl⟩ | ⟨_, written, hwrite, hexample⟩
    · rcases run_writeText hwrite with ⟨⟨⟩, -⟩ | ⟨-, rfl⟩
      exact .refused hprepares
    rcases run_writeText hwrite with ⟨-, hwritten⟩ | ⟨⟨e, ⟨⟩⟩, -⟩
    rcases run_writeText hexample with ⟨rfl, hdone⟩ | ⟨⟨e, rfl⟩, rfl⟩
    · exact .done (hprepared n rfl) hwritten hdone
    · exact .unfinished (hprepared n rfl) hwritten

theorem Prepared.path_ne_empty (h : Prepared fs path name made n) : path ≠ "" := by
  obtain ⟨place, hlocate, -⟩ := h.named
  exact Files.ne_empty_of_locate hlocate

theorem Prepared.pathExists_settings (h : Prepared fs path name made n) :
    fs.pathExists (settingsPath path) = false := by
  rw [← Bool.not_eq_true, Files.pathExists_iff]
  rintro ⟨e, he⟩
  obtain ⟨p, hp, hget⟩ := Files.lookUp_eq_ok_iff.1 he
  rw [h.noSettings p (Files.locate_mono h.grows.stays hp)] at hget
  cases hget

/-- Nothing has to be made for flows that are there. -/
theorem Prepares.eq_of_located (h : Prepares fs path made) (hdirectory : fs.isDirectory path = true)
    {dir : List String} (hlocate : fs.locate (Path.join path "configs") = .ok dir)
    (hdir : fs.get? dir = some .directory) : made = fs := by
  rcases h.inDirectory hdirectory with hsame | ⟨-, rfl⟩
  · exact hsame
  · rw [Files.makeDirectories_of_located hlocate hdir]

/-! ## What it leaves alone -/

/-- The settings are written where nothing was. -/
theorem Prepared.grows_write {made : Files} {n : String} (h : Prepared fs path name made n)
    {content : List Glyph} (hwrite : made.write (settingsPath path) content = .ok fs') :
    fs.Grows fs' := by
  obtain ⟨p, hp, hne, -, rfl⟩ := Files.exists_put_of_write hwrite
  refine ⟨fun q e he => ?_, h.grows.workingPlace⟩
  rw [Files.get?_put made hne]
  split
  · next heq =>
    rw [← heq, h.noSettings p hp] at he
    cases he
  · exact h.grows.entries q e he

/-- All that was there stays, but the example flow may be written over a file. -/
theorem Initialized.get?_eq {made : Bool} (h : Initialized fs path name made fs')
    {p : List String} {e : Entry} (he : fs.get? p = some e) : fs'.get? p = some e ∨
      made = true ∧ fs'.locate (Path.join path exampleFile) = .ok p ∧
        fs'.get? p = some (.file (Glyph.ofString exampleFlow)) := by
  cases h with
  | refused hprepares => exact .inl (hprepares.grows.entries p e he)
  | unfinished hprepared hwrite => exact .inl ((hprepared.grows_write hwrite).entries p e he)
  | done hprepared hwrite hdone =>
    have hstays := (hprepared.grows_write hwrite).entries p e he
    obtain ⟨q, hq, hne, hnot, rfl⟩ := Files.exists_put_of_write hdone
    rw [Files.get?_put _ hne]
    split
    · next heq =>
      subst heq
      exact .inr ⟨rfl, Files.locate_mono (Files.stays_put hne hnot _) hq, rfl⟩
    · exact .inl hstays

/-- After a deployment has been made, the example flow stands in its file. -/
theorem Initialized.get?_example (h : Initialized fs path name true fs') {p : List String}
    (hp : fs'.locate (Path.join path exampleFile) = .ok p) :
    fs'.get? p = some (.file (Glyph.ofString exampleFlow)) := by
  cases h with
  | done hprepared hwrite hdone =>
    obtain ⟨q, hq, hget⟩ := Files.lookUp_eq_ok_iff.1 (Files.lookUp_of_write hdone)
    cases hp.symm.trans hq
    exact hget

end Init

end Flowline.Command
