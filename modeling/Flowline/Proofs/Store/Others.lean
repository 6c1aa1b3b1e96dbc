import Flowline.Proofs.Store.Keeps
import Mathlib.Data.List.Sort

/-!
# Flows that another file does not declare

A file that is written anew, and declares a flow neither before nor after, leaves the registrations
of that flow as they are read (`readsAlike_put`). So the registration that counts for the flow, the
last one that is read (`Store.Tells`), stays the same (`ReadsAlike.tells`).
-/

namespace Flowline

open Text

/-- Nothing that is read out of the content is a registration of the flow. -/
def Registration.Omits (name : String) (content : List Glyph) : Prop :=
  ∀ r, ofGlyphs content = .ok r → r.flowName ≠ name

namespace Store

variable {s : Store} {fs : Files} {name : String}

/-- A registration is the last one of its flow among all that can be read. -/
def Tells (s : Store) (fs : Files) (r : Registration) : Prop :=
  ∃ before after, s.loadAll fs = .ok (before ++ r :: after) ∧
    ∀ r' ∈ after, r'.flowName ≠ r.flowName

/-- The registrations of a flow are read alike before and after a change of the files. -/
def ReadsAlike (s : Store) (fs fs' : Files) (name : String) : Prop :=
  ∃ rs rs', s.loadAll fs = .ok rs ∧ s.loadAll fs' = .ok rs' ∧
    (rs'.filter fun r => r.flowName = name) = rs.filter fun r => r.flowName = name

theorem Tells.readsAlike {r : Registration} (h : s.Tells fs r) (name : String) :
    s.ReadsAlike fs fs name := by
  obtain ⟨before, after, hall, -⟩ := h
  exact ⟨_, _, hall, hall, rfl⟩

theorem ReadsAlike.trans {fs₁ fs₂ : Files} (h : s.ReadsAlike fs fs₁ name)
    (h' : s.ReadsAlike fs₁ fs₂ name) : s.ReadsAlike fs fs₂ name := by
  obtain ⟨rs, rs₁, hall, hall₁, hfilter⟩ := h
  obtain ⟨rs₁', rs₂, hall₁', hall₂, hfilter'⟩ := h'
  cases hall₁.symm.trans hall₁'
  exact ⟨rs, rs₂, hall, hall₂, hfilter'.trans hfilter⟩

/-- Only the registrations of a flow say which of them counts. -/
theorem ReadsAlike.tells {fs' : Files} {r : Registration} (halike : s.ReadsAlike fs fs' r.flowName)
    (h : s.Tells fs r) : s.Tells fs' r := by
  obtain ⟨rs, rs', hall, hall', hfilter⟩ := halike
  obtain ⟨before, after, hsplit, hafter⟩ := h
  cases hall.symm.trans hsplit
  have hnone : (after.filter fun r' => r'.flowName = r.flowName) = [] :=
    List.filter_eq_nil_iff.2 fun r' hr' => by simpa using hafter r' hr'
  rw [List.filter_append, List.filter_cons_of_pos (by simp), hnone] at hfilter
  obtain ⟨l₁, l₂, rfl, -, hl₂⟩ := List.filter_eq_append_iff.1 hfilter
  obtain ⟨m₁, m₂, rfl, -, -, hm₂⟩ := List.filter_eq_cons_iff.1 hl₂
  refine ⟨l₁ ++ m₁, m₂, by rw [hall', List.append_assoc], fun r' hr' => ?_⟩
  simpa using List.filter_eq_nil_iff.1 hm₂ r' hr'

/-- What is read out of a directory is read where there is one. -/
theorem exists_place_of_tells {r : Registration} (h : s.Tells fs r) :
    ∃ dir, fs.locate s.dir = .ok dir ∧ fs.get? dir = some .directory := by
  obtain ⟨before, after, hall, -⟩ := h
  obtain ⟨files, hfiles, hrs⟩ := bind_eq_ok hall
  rcases list_cases hfiles with rfl | ⟨dir, hlocate, hdir, -⟩
  · have hnil : [] = before ++ r :: after := Except.ok.inj hrs
    simp at hnil
  · exact ⟨dir, hlocate, hdir⟩

/-- The files are listed in order. -/
theorem pairwise_of_list {files : List String} (h : s.list fs = .ok files) :
    files.Pairwise (· ≤ ·) := by
  rcases list_cases h with rfl | ⟨place, -, -, rfl⟩
  · exact List.Pairwise.nil
  · exact List.pairwise_mergeSort' (· ≤ ·) _

section Put

variable {p : List String} {content : List Glyph}

/-- The registration of a flow is read out of a file if it was read out of it before, or the file
declares it now. -/
theorem load_put_iff (hp : p ≠ []) (hnot : fs.get? p ≠ some .directory)
    (homits : Registration.Omits name content)
    (hbefore : ∀ old, fs.get? p = some (.file old) → Registration.Omits name old)
    {path : String} {r : Registration} (hr : r.flowName = name) :
    Registration.load (fs.put p (.file content)) path = .ok r ↔
      Registration.load fs path = .ok r := by
  rw [Registration.load_eq_ok_iff, Registration.load_eq_ok_iff]
  refine exists_congr fun text => and_congr_left fun hread => ?_
  rw [Files.lookUp_put_file_iff hp hnot, Files.lookUp_eq_ok_iff]
  refine exists_congr fun q => and_congr_right fun _ => ?_
  split
  · next heq =>
    subst heq
    constructor
    · rintro ⟨⟩
      exact absurd hr (homits r hread)
    · exact fun hold => absurd hr (hbefore text hold r hread)
  · exact Iff.rfl

/-- The registrations of a flow are read as before when a file is written that does not declare
it. -/
theorem readsAlike_put {dir : List String} (hlocate : fs.locate s.dir = .ok dir)
    (hdir : fs.get? dir = some .directory) (hp : p ≠ []) (hnot : fs.get? p ≠ some .directory)
    (hplain : ∀ file, p = dir ++ [file] → Files.IsPlain file)
    (homits : Registration.Omits name content)
    (hbefore : ∀ old, fs.get? p = some (.file old) → Registration.Omits name old) :
    s.ReadsAlike fs (fs.put p (.file content)) name := by
  have hstays := Files.stays_put hp hnot (.file content)
  obtain ⟨files, hfiles, hmem⟩ := mem_list_iff hlocate hdir
  obtain ⟨files', hfiles', hmem'⟩ := mem_list_iff (s := s)
    (Files.locate_mono hstays hlocate) (hstays.directories _ hdir)
  -- The files that were there before are those that are there now, without a new one.
  have hsame : files = files'.filter fun file => (fs.get? (dir ++ [file])).isSome := by
    refine List.Perm.eq_of_pairwise (fun _ _ _ _ => String.le_antisymm) (pairwise_of_list hfiles)
      ((pairwise_of_list hfiles').filter _) ?_
    refine (List.perm_ext_iff_of_nodup (nodup_of_list hfiles)
      ((nodup_of_list hfiles').filter _)).2 fun file => ?_
    rw [List.mem_filter, hmem, hmem', Files.get?_put fs hp]
    split <;> simp [and_comm]
  refine ⟨_, _, loadAll_of_list hfiles, loadAll_of_list hfiles', ?_⟩
  rw [hsame, List.filterMap_filter, List.filter_filterMap, List.filter_filterMap]
  refine List.filterMap_congr fun file hfile => ?_
  refine Option.ext fun r => ?_
  rw [Option.filter_eq_some_iff, Option.filter_eq_some_iff, toOption_eq_some_iff]
  refine and_congr_left fun hr => ?_
  rw [load_put_iff hp hnot homits hbefore (by simpa using hr)]
  by_cases hold : (fs.get? (dir ++ [file])).isSome = true
  · rw [if_pos hold, toOption_eq_some_iff]
  · -- Nothing was read out of a file that was not there.
    have hnew : p = dir ++ [file] := by
      by_contra hne
      have hget := ((hmem' file).1 hfile).1
      rw [Files.get?_put fs hp, if_neg hne] at hget
      exact hold hget
    rw [if_neg hold]
    refine iff_of_false (fun hload => ?_) (by simp)
    obtain ⟨text, hlookUp, -⟩ := Registration.load_eq_ok_iff.1 hload
    obtain ⟨-, hget⟩ := (Files.lookUp_join hlocate hdir (hplain file hnew)).1 hlookUp
    exact hold (by rw [hget]; rfl)

/-- The same for a file that is written in some directory. -/
theorem readsAlike_write {fs' : Files} {base file : String} {dir : List String} (hbase : base ≠ "")
    (hfile : Files.IsPlain file) (hwrite : fs.write (Path.join base file) content = .ok fs')
    (hlocate : fs.locate s.dir = .ok dir) (hdir : fs.get? dir = some .directory)
    (homits : Registration.Omits name content)
    (hbefore : ∀ old, fs.lookUp (Path.join base file) = .ok (.file old) →
      Registration.Omits name old) : s.ReadsAlike fs fs' name := by
  obtain ⟨p, hp, hne, hnot, rfl⟩ := Files.exists_put_of_write hwrite
  obtain ⟨-, place, -, -, rfl⟩ := (Files.locate_join_eq_ok_iff hbase hfile).1 hp
  refine readsAlike_put hlocate hdir hne hnot (fun file' heq => ?_) homits fun old hold =>
    hbefore old (Files.lookUp_eq_ok_iff.2 ⟨_, hp, hold⟩)
  obtain ⟨-, hlast⟩ := List.append_inj' heq rfl
  exact List.singleton_inj.1 hlast ▸ hfile

end Put

end Store

end Flowline
