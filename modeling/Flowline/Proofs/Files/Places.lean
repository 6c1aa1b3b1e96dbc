import Flowline.Files.Basic
import Flowline.Proofs.Except
import Flowline.Proofs.Text.Blank

/-!
# Files in a directory

The path of a file in a directory leads to the place below that of the directory
(`locate_join_eq_ok_iff`), as long as the file system takes its length (`Files.Fits`); if there is
no such directory, nothing stands at the path (`lookUp_join_ne_ok`). A path keeps its place as long
as directories stay (`locate_mono`).
-/

namespace Flowline

open Text

/-! ## Paths -/

theorem Path.join_ne_empty {base name : String} (hbase : base ≠ "") : join base name ≠ "" := by
  unfold join
  split
  · next h =>
    have habsolute : isAbsolute name = true := by simpa [hbase] using h
    rintro rfl
    exact absurd habsolute (by decide)
  · split <;> simp [hbase]

namespace Files

/-- A name that can only be that of a file, not a step to somewhere else. -/
structure IsPlain (file : String) : Prop where
  stroke : '/' ∉ file.toList
  zero : '\x00' ∉ file.toList
  ne_empty : file ≠ ""
  ne_point : file ≠ "."
  ne_points : file ≠ ".."

/-- The file system takes the name of the file and its path. -/
def Fits (dir file : String) : Prop :=
  file.utf8ByteSize ≤ maxNameBytes ∧ (Path.join dir file).utf8ByteSize ≤ maxPathBytes

instance (dir file : String) : Decidable (Fits dir file) := inferInstanceAs (Decidable (_ ∧ _))

section Join

variable {dir file : String} (hdir : dir ≠ "") (hfile : IsPlain file)

include hdir hfile

theorem join_eq : Path.join dir file =
    if dir.toList.getLast? = some '/' then dir ++ file else dir ++ "/" ++ file := by
  have habsolute : Path.isAbsolute file = false := by
    rw [Path.isAbsolute, beq_eq_false_iff_ne]
    exact fun h => hfile.stroke (List.mem_of_mem_head? h)
  simp only [Path.join, habsolute, hdir, decide_false, Bool.or_self, Bool.false_eq_true, if_false]

theorem toList_join : (Path.join dir file).toList =
    if dir.toList.getLast? = some '/' then dir.toList ++ file.toList
    else dir.toList ++ '/' :: file.toList := by
  rw [join_eq hdir hfile]
  split <;> simp

theorem utf8ByteSize_le_join : dir.utf8ByteSize ≤ (Path.join dir file).utf8ByteSize := by
  rw [join_eq hdir hfile]
  split
  · rw [String.utf8ByteSize_append]
    exact Nat.le_add_right _ _
  · rw [String.utf8ByteSize_append, String.utf8ByteSize_append, Nat.add_assoc]
    exact Nat.le_add_right _ _

theorem isAbsolute_join : Path.isAbsolute (Path.join dir file) = Path.isAbsolute dir := by
  obtain ⟨c, cs, hc⟩ := List.exists_cons_of_ne_nil (mt String.toList_eq_nil_iff.1 hdir)
  rw [Path.isAbsolute, Path.isAbsolute, toList_join hdir hfile, hc]
  split <;> rfl

/-- The names on the path are those of the directory and then the file. A stroke at the end of the
directory is followed by no name. -/
theorem exists_parts_join : ∃ names, Path.parts (Path.join dir file) = names ++ [file] ∧
    (Path.parts dir = names ∨ Path.parts dir = names ++ [""]) := by
  have hsplit : file.toList.splitOn '/' = [file.toList] := List.splitOn_eq_singleton hfile.stroke
  have hself : String.ofList file.toList = file := String.ofList_toList
  unfold Path.parts
  rw [toList_join hdir hfile]
  split
  · next hlast =>
    obtain ⟨s, hs⟩ := List.getLast?_eq_some_iff.1 hlast
    refine ⟨(s.splitOn '/').map String.ofList, ?_, .inr ?_⟩
    · rw [hs, List.append_assoc, List.singleton_append, List.splitOn_append_cons_self, hsplit,
        List.map_append, List.map_singleton, hself]
    · rw [hs, List.splitOn_append_cons_self, List.map_append]
      rfl
  · refine ⟨(dir.toList.splitOn '/').map String.ofList, ?_, .inl rfl⟩
    rw [List.splitOn_append_cons_self, hsplit, List.map_append, List.map_singleton, hself]

theorem mem_zero_join : '\x00' ∈ (Path.join dir file).toList ↔ '\x00' ∈ dir.toList := by
  rw [toList_join hdir hfile]
  split <;> simp [hfile.zero]

theorem startOf_join (fs : Files) : fs.startOf (Path.join dir file) = fs.startOf dir := by
  rw [startOf, isAbsolute_join hdir hfile, startOf]

end Join

/-! ## Following names -/

theorem follow_append (fs : Files) (place : List String) (names names' : List String) :
    fs.follow place (names ++ names') = fs.follow place names >>= fun p => fs.follow p names' := by
  induction names generalizing place with
  | nil => rfl
  | cons name names ih =>
    simp only [List.cons_append, follow]
    cases fs.get? place with
    | none => rfl
    | some e =>
      cases e with
      | file content => rfl
      | directory =>
        by_cases h : maxNameBytes < name.utf8ByteSize
        · simp only [h, if_true]
          rfl
        · simp only [h, if_false]
          exact ih (step place name)

/-- All directories of a tree are in another one, which starts its paths at the same place. -/
structure Stays (fs fs' : Files) : Prop where
  directories : ∀ place, fs.get? place = some .directory → fs'.get? place = some .directory
  workingPlace : fs'.workingPlace = fs.workingPlace

theorem follow_mono {fs fs' : Files} (h : fs.Stays fs') {names : List String}
    {place place' : List String} (hfollow : fs.follow place names = .ok place') :
    fs'.follow place names = .ok place' := by
  induction names generalizing place with
  | nil => exact hfollow
  | cons name names ih =>
    rw [follow] at hfollow ⊢
    split at hfollow
    · cases hfollow
    · cases hfollow
    · next hplace =>
      rw [h.directories place hplace]
      split at hfollow
      · cases hfollow
      · next hlong =>
        simp only [hlong, if_false]
        exact ih hfollow

theorem locate_mono {fs fs' : Files} (h : fs.Stays fs') {path : String} {place : List String}
    (hlocate : fs.locate path = .ok place) : fs'.locate path = .ok place := by
  unfold locate startOf at hlocate ⊢
  rw [h.workingPlace]
  split at hlocate
  · cases hlocate
  · next hpath =>
    rw [if_neg hpath]
    split at hlocate
    · cases hlocate
    · exact follow_mono h hlocate

theorem stays_put {fs : Files} {place : List String} (hplace : place ≠ [])
    (h : fs.get? place ≠ some .directory) (e : Entry) : fs.Stays (fs.put place e) where
  directories p hp := by
    rw [get?_put fs hplace]
    split
    · next heq => exact absurd (heq ▸ hp) h
    · exact hp
  workingPlace := rfl

theorem stays_drop {fs : Files} {place : List String} (hplace : place ≠ [])
    (h : fs.get? place ≠ some .directory) : fs.Stays (fs.drop place) where
  directories p hp := by
    rw [get?_drop fs hplace]
    split
    · next heq => exact absurd (heq ▸ hp) h
    · exact hp
  workingPlace := rfl

/-! ## Files in a directory -/

theorem pathFault?_eq_none_iff {path : String} :
    pathFault? path = none ↔ '\x00' ∉ path.toList ∧ path.utf8ByteSize ≤ maxPathBytes := by
  unfold pathFault?
  split
  · next h => simp [List.contains_iff_mem.1 h]
  · next h =>
    have hzero : '\x00' ∉ path.toList := fun hmem => h (List.contains_iff_mem.2 hmem)
    split
    · next hlong => simp [hzero, Nat.not_le.2 hlong]
    · next hshort => simp [hzero, Nat.not_lt.1 hshort]

theorem ne_empty_of_locate {fs : Files} {path : String} {place : List String}
    (h : fs.locate path = .ok place) : path ≠ "" := by
  rintro rfl
  cases h

theorem locate_eq_ok_iff {fs : Files} {path : String} {place : List String} :
    fs.locate path = .ok place ↔ path ≠ "" ∧ pathFault? path = none ∧
      fs.follow (fs.startOf path) (Path.parts path) = .ok place := by
  unfold locate
  by_cases hpath : path = ""
  · simp [hpath]
  · cases pathFault? path with
    | none => simp [hpath]
    | some fault => simp [hpath]

theorem step_plain {file : String} (hfile : IsPlain file) (place : List String) :
    step place file = place ++ [file] := by
  rw [step, if_neg (not_or.2 ⟨hfile.ne_empty, hfile.ne_point⟩), if_neg hfile.ne_points]

/-- Where the name of a file leads. -/
theorem follow_plain {fs : Files} {place place' : List String} {file : String}
    (hfile : IsPlain file) : fs.follow place [file] = .ok place' ↔
      fs.get? place = some .directory ∧ file.utf8ByteSize ≤ maxNameBytes ∧
        place ++ [file] = place' := by
  rw [follow]
  cases fs.get? place with
  | none => simp
  | some e =>
    cases e with
    | file content => simp
    | directory =>
      by_cases hlong : maxNameBytes < file.utf8ByteSize
      · simp [hlong, Nat.not_le.2 hlong]
      · simp [hlong, follow, step_plain hfile, Nat.not_lt.1 hlong]

/-- A stroke at the end of a path asks only whether a directory stands there. -/
theorem follow_empty {fs : Files} {place place' : List String} :
    fs.follow place [""] = .ok place' ↔ fs.get? place = some .directory ∧ place = place' := by
  rw [follow]
  cases fs.get? place with
  | none => simp
  | some e =>
    cases e with
    | file content => simp
    | directory => simp [follow, step, maxNameBytes]

section Located

variable {fs : Files} {dir file : String} {place : List String}

theorem follow_append_eq_ok_iff {names names' : List String} {start place' : List String} :
    fs.follow start (names ++ names') = .ok place' ↔
      ∃ p, fs.follow start names = .ok p ∧ fs.follow p names' = .ok place' := by
  rw [follow_append]
  cases fs.follow start names with
  | error e => simp [bind, Except.bind]
  | ok p => simp [bind, Except.bind]

/-- A stroke at the end of the path of a directory does not matter. -/
theorem follow_parts_iff {names start p : List String}
    (hnames : Path.parts dir = names ∨ Path.parts dir = names ++ [""])
    (hp : fs.get? p = some .directory) :
    fs.follow start (Path.parts dir) = .ok p ↔ fs.follow start names = .ok p := by
  rcases hnames with h | h
  · rw [h]
  · rw [h, follow_append_eq_ok_iff]
    constructor
    · rintro ⟨q, hq, hempty⟩
      obtain ⟨-, rfl⟩ := follow_empty.1 hempty
      exact hq
    · exact fun hq => ⟨p, hq, follow_empty.2 ⟨hp, rfl⟩⟩

theorem lookUp_eq_ok_iff {path : String} {e : Entry} :
    fs.lookUp path = .ok e ↔ ∃ p, fs.locate path = .ok p ∧ fs.get? p = some e := by
  unfold lookUp
  cases fs.locate path with
  | error fault => simp [bind, Except.bind]
  | ok p =>
    cases h : fs.get? p with
    | none => simp [bind, Except.bind, h, throw, throwThe, MonadExceptOf.throw]
    | some e' => simp [bind, Except.bind, h, pure, Except.pure]

theorem pathFault?_join (hdir : dir ≠ "") (hfile : IsPlain file) :
    pathFault? (Path.join dir file) = none ↔
      pathFault? dir = none ∧ (Path.join dir file).utf8ByteSize ≤ maxPathBytes := by
  rw [pathFault?_eq_none_iff, pathFault?_eq_none_iff]
  have hsize := utf8ByteSize_le_join hdir hfile
  rw [mem_zero_join hdir hfile]
  exact ⟨fun h => ⟨⟨h.1, Nat.le_trans hsize h.2⟩, h.2⟩, fun h => ⟨h.1.1, h.2⟩⟩

/-- What stands at the path of a file in a directory stands below the place of the directory. -/
theorem locate_join_eq_ok_iff (hdir : dir ≠ "") (hfile : IsPlain file) {place' : List String} :
    fs.locate (Path.join dir file) = .ok place' ↔
      Fits dir file ∧ ∃ place, fs.locate dir = .ok place ∧ fs.get? place = some .directory ∧
        place ++ [file] = place' := by
  have hjoin : Path.join dir file ≠ "" := Path.join_ne_empty hdir
  have hstart := startOf_join hdir hfile fs
  obtain ⟨names, hnames, hdirNames⟩ := exists_parts_join hdir hfile
  rw [locate_eq_ok_iff, pathFault?_join hdir hfile, hstart, hnames, follow_append_eq_ok_iff]
  constructor
  · rintro ⟨-, ⟨hfault, hpath⟩, p, hp, hlast⟩
    obtain ⟨hplace, hname, rfl⟩ := (follow_plain hfile).1 hlast
    have hlocate : fs.locate dir = .ok p :=
      locate_eq_ok_iff.2 ⟨hdir, hfault, (follow_parts_iff hdirNames hplace).2 hp⟩
    exact ⟨⟨hname, hpath⟩, p, hlocate, hplace, rfl⟩
  · rintro ⟨⟨hname, hpath⟩, p, hlocate, hplace, rfl⟩
    obtain ⟨-, hfault, hp⟩ := locate_eq_ok_iff.1 hlocate
    exact ⟨hjoin, ⟨hfault, hpath⟩, p, (follow_parts_iff hdirNames hplace).1 hp,
      (follow_plain hfile).2 ⟨hplace, hname, rfl⟩⟩

/-- A path that is too long, or the name of a file that is. -/
theorem locate_join_of_not_fits (hlocate : fs.locate dir = .ok place)
    (hplace : fs.get? place = some .directory) (hfile : IsPlain file) (hfits : ¬ Fits dir file) :
    fs.locate (Path.join dir file) = .error .nameTooLong := by
  obtain ⟨hdir, hfault, hfollow⟩ := locate_eq_ok_iff.1 hlocate
  unfold locate
  rw [if_neg (Path.join_ne_empty hdir)]
  by_cases hlong : (Path.join dir file).utf8ByteSize ≤ maxPathBytes
  · obtain ⟨names, hnames, hdirNames⟩ := exists_parts_join hdir hfile
    have hname : maxNameBytes < file.utf8ByteSize := Nat.not_le.1 fun h => hfits ⟨h, hlong⟩
    have hlast : fs.follow place [file] = .error .nameTooLong := by
      simp only [follow, hplace, hname, if_true]
    rw [(pathFault?_join hdir hfile).2 ⟨hfault, hlong⟩, startOf_join hdir hfile, hnames,
      follow_append, (follow_parts_iff hdirNames hplace).1 hfollow]
    exact hlast
  · have hzero : '\x00' ∉ (Path.join dir file).toList := by
      rw [mem_zero_join hdir hfile]
      exact (pathFault?_eq_none_iff.1 hfault).1
    have hnot : (Path.join dir file).toList.contains '\x00' = false := by simpa using hzero
    rw [pathFault?, hnot, if_pos (Nat.not_le.1 hlong)]
    rfl

/-- What is looked up in a directory stands below it. -/
theorem lookUp_join (hlocate : fs.locate dir = .ok place)
    (hplace : fs.get? place = some .directory) (hfile : IsPlain file) {e : Entry} :
    fs.lookUp (Path.join dir file) = .ok e ↔
      Fits dir file ∧ fs.get? (place ++ [file]) = some e := by
  rw [lookUp_eq_ok_iff]
  constructor
  · rintro ⟨p, hp, he⟩
    obtain ⟨hfits, place', hlocate', -, rfl⟩ :=
      (locate_join_eq_ok_iff (ne_empty_of_locate hlocate) hfile).1 hp
    cases hlocate.symm.trans hlocate'
    exact ⟨hfits, he⟩
  · rintro ⟨hfits, he⟩
    exact ⟨_, (locate_join_eq_ok_iff (ne_empty_of_locate hlocate) hfile).2
      ⟨hfits, place, hlocate, hplace, rfl⟩, he⟩

/-- Where there is no directory, there is nothing in it. -/
theorem lookUp_join_ne_ok (hdir : dir ≠ "") (hlookUp : fs.lookUp dir ≠ .ok .directory)
    (hfile : IsPlain file) (e : Entry) : fs.lookUp (Path.join dir file) ≠ .ok e := by
  intro h
  obtain ⟨p, hp, -⟩ := lookUp_eq_ok_iff.1 h
  obtain ⟨-, place, hlocate, hplace, -⟩ := (locate_join_eq_ok_iff hdir hfile).1 hp
  exact hlookUp (lookUp_eq_ok_iff.2 ⟨place, hlocate, hplace⟩)

theorem pathExists_iff {path : String} :
    fs.pathExists path = true ↔ ∃ e, fs.lookUp path = .ok e := by
  unfold pathExists
  cases fs.lookUp path with
  | error fault => simp [Except.isOk, Except.toBool]
  | ok e => simp [Except.isOk, Except.toBool]

theorem isDirectory_iff {path : String} : fs.isDirectory path = true ↔
    ∃ p, fs.locate path = .ok p ∧ fs.get? p = some .directory := by
  rw [← lookUp_eq_ok_iff, isDirectory]
  cases fs.lookUp path with
  | error fault => simp
  | ok e => cases e <;> simp

/-- What is written stands at one place, and there was no directory. -/
theorem exists_put_of_write {path : String} {content : List Glyph} {fs' : Files}
    (h : fs.write path content = .ok fs') : ∃ place, fs.locate path = .ok place ∧ place ≠ [] ∧
      fs.get? place ≠ some .directory ∧ fs' = fs.put place (.file content) := by
  obtain ⟨place, hplace, hput⟩ := bind_eq_ok h
  have hnot : fs.get? place ≠ some .directory := by
    intro hdirectory
    rw [hdirectory] at hput
    cases hput
  refine ⟨place, hplace, ?_, hnot, ?_⟩
  · rintro rfl
    exact hnot rfl
  · split at hput
    · next hdirectory => exact absurd hdirectory hnot
    · cases hput
      rfl

/-- What is written in a directory stands below it. -/
theorem exists_put_of_write_join (hdir : dir ≠ "") (hfile : IsPlain file) {content : List Glyph}
    {fs' : Files} (h : fs.write (Path.join dir file) content = .ok fs') :
    ∃ place, fs.locate dir = .ok place ∧ fs.get? place = some .directory ∧
      fs.get? (place ++ [file]) ≠ some .directory ∧
      fs' = fs.put (place ++ [file]) (.file content) := by
  obtain ⟨p, hp, -, hnot, hput⟩ := exists_put_of_write h
  obtain ⟨-, place, hlocate, hplace, rfl⟩ := (locate_join_eq_ok_iff hdir hfile).1 hp
  exact ⟨place, hlocate, hplace, hnot, hput⟩

theorem stays_of_write {path : String} {content : List Glyph} {fs' : Files}
    (h : fs.write path content = .ok fs') : fs.Stays fs' := by
  obtain ⟨place, -, hne, hnot, rfl⟩ := exists_put_of_write h
  exact stays_put hne hnot _

/-- What has been written is looked up. -/
theorem lookUp_of_write {path : String} {content : List Glyph} {fs' : Files}
    (h : fs.write path content = .ok fs') : fs'.lookUp path = .ok (.file content) := by
  obtain ⟨place, hplace, hne, hnot, rfl⟩ := exists_put_of_write h
  refine lookUp_eq_ok_iff.2 ⟨place, locate_mono (stays_put hne hnot _) hplace, ?_⟩
  rw [get?_put fs hne, if_pos rfl]

/-- Where a path leads does not depend on what is in a file. -/
theorem locate_put_file_iff {p : List String} (hp : p ≠ []) (hnot : fs.get? p ≠ some .directory)
    {content : List Glyph} {path : String} :
    (fs.put p (.file content)).locate path = .ok place ↔ fs.locate path = .ok place := by
  have hback : (fs.put p (.file content)).Stays fs := by
    refine ⟨fun q hq => ?_, rfl⟩
    rw [get?_put fs hp] at hq
    split at hq
    · cases hq
    · exact hq
  exact ⟨locate_mono hback, locate_mono (stays_put hp hnot _)⟩

theorem lookUp_put_file_iff {p : List String} (hp : p ≠ []) (hnot : fs.get? p ≠ some .directory)
    {content : List Glyph} {path : String} {e : Entry} :
    (fs.put p (.file content)).lookUp path = .ok e ↔ ∃ q, fs.locate path = .ok q ∧
      (if p = q then some (.file content) else fs.get? q) = some e := by
  rw [lookUp_eq_ok_iff]
  refine exists_congr fun q => ?_
  rw [locate_put_file_iff hp hnot, get?_put fs hp]

/-- Writing a file changes nothing that is looked up under another name. -/
theorem lookUp_join_of_write {base base' file' : String} (hbase : base ≠ "") (hbase' : base' ≠ "")
    (hfile : IsPlain file) (hfile' : IsPlain file') (hne : file ≠ file') {content : List Glyph}
    {fs' : Files} (h : fs.write (Path.join base file) content = .ok fs') {e : Entry} :
    fs'.lookUp (Path.join base' file') = .ok e ↔ fs.lookUp (Path.join base' file') = .ok e := by
  obtain ⟨place, -, -, hnot, rfl⟩ := exists_put_of_write_join hbase hfile h
  rw [lookUp_put_file_iff (by simp) hnot, lookUp_eq_ok_iff]
  refine exists_congr fun q => and_congr_right fun hq => ?_
  obtain ⟨-, place', -, -, rfl⟩ := (locate_join_eq_ok_iff hbase' hfile').1 hq
  have hother : place ++ [file] ≠ place' ++ [file'] := fun heq =>
    hne (List.singleton_inj.1 (List.append_inj' heq rfl).2)
  rw [if_neg hother]

theorem get?_put_child (fs : Files) (place : List String) (file file' : String) (e : Entry) :
    (fs.put (place ++ [file]) e).get? (place ++ [file']) =
      if file = file' then some e else fs.get? (place ++ [file']) := by
  rw [get?_put fs (by simp)]
  simp only [List.append_cancel_left_eq, List.cons.injEq, and_true]

theorem get?_drop_child (fs : Files) (place : List String) (file file' : String) :
    (fs.drop (place ++ [file])).get? (place ++ [file']) =
      if file = file' then none else fs.get? (place ++ [file']) := by
  rw [get?_drop fs (by simp)]
  simp only [List.append_cancel_left_eq, List.cons.injEq, and_true]

/-! ## Directories that are there -/

theorem makeAlong_of_follow {start : List String} {names : List String}
    (h : fs.follow start names = .ok place) (hplace : fs.get? place = some .directory) :
    fs.makeAlong start names = (.ok (), fs) := by
  induction names generalizing start with
  | nil => rfl
  | cons name names ih =>
    rw [follow] at h
    split at h
    · cases h
    · cases h
    · split at h
      · cases h
      · next hshort =>
        -- Where the name leads there is a directory, be it on the way or at the end.
        have hstep : fs.get? (step start name) = some .directory := by
          cases names with
          | nil =>
            cases h
            exact hplace
          | cons name' names =>
            rw [follow] at h
            split at h
            · cases h
            · cases h
            · assumption
        simp only [makeAlong, hshort, if_false, hstep]
        exact ih h

/-- Nothing has to be made where there is a directory. -/
theorem makeDirectories_of_located (hlocate : fs.locate dir = .ok place)
    (hplace : fs.get? place = some .directory) : fs.makeDirectories dir = (.ok (), fs) := by
  obtain ⟨-, hfault, hfollow⟩ := locate_eq_ok_iff.1 hlocate
  rw [makeDirectories, hfault]
  exact makeAlong_of_follow hfollow hplace

/-! ## Directories that are made -/

/-- All that stands in a tree stands in another one, which starts its paths at the same place. -/
structure Grows (fs fs' : Files) : Prop where
  entries : ∀ place e, fs.get? place = some e → fs'.get? place = some e
  workingPlace : fs'.workingPlace = fs.workingPlace

theorem Grows.refl (fs : Files) : fs.Grows fs := ⟨fun _ _ h => h, rfl⟩

theorem Grows.trans {fs' fs'' : Files} (h : fs.Grows fs') (h' : fs'.Grows fs'') :
    fs.Grows fs'' where
  entries p e hp := h'.entries p e (h.entries p e hp)
  workingPlace := h'.workingPlace.trans h.workingPlace

theorem Grows.stays {fs' : Files} (h : fs.Grows fs') : fs.Stays fs' where
  directories p hp := h.entries p .directory hp
  workingPlace := h.workingPlace

theorem grows_put {p : List String} (h : fs.get? p = none) (e : Entry) :
    fs.Grows (fs.put p e) where
  entries p' e' hp' := by
    have hne : p ≠ [] := by
      rintro rfl
      cases h
    rw [get?_put fs hne]
    split
    · next heq =>
      rw [← heq, h] at hp'
      cases hp'
    · exact hp'
  workingPlace := rfl

theorem grows_makeAlong (fs : Files) (start names : List String) :
    fs.Grows (fs.makeAlong start names).2 := by
  induction names generalizing fs start with
  | nil => exact .refl fs
  | cons name names ih =>
    rw [makeAlong]
    split
    · exact .refl fs
    · split
      · exact ih fs _
      · exact .refl fs
      · next hnone => exact (grows_put hnone _).trans (ih _ _)

/-- Making directories takes nothing away, even where it fails. -/
theorem grows_makeDirectories (fs : Files) (path : String) :
    fs.Grows (fs.makeDirectories path).2 := by
  unfold makeDirectories
  split
  · exact .refl fs
  · exact grows_makeAlong fs _ _

/-! ## The names in a directory -/

/-- The names of what stands right below a place. -/
def childNames (fs : Files) (place : List String) : List String :=
  fs.entries.keys.filterMap (childName? place)

theorem names_eq_ok_iff {names : List String} : fs.names dir = .ok names ↔
    ∃ place, fs.locate dir = .ok place ∧ fs.get? place = some .directory ∧
      fs.childNames place = names := by
  unfold Files.names
  cases fs.locate dir with
  | error fault => simp [bind, Except.bind]
  | ok p =>
    cases h : fs.get? p with
    | none => simp [bind, Except.bind, h, throw, throwThe, MonadExceptOf.throw]
    | some e =>
      cases e with
      | file content => simp [bind, Except.bind, h, throw, throwThe, MonadExceptOf.throw]
      | directory => simp [bind, Except.bind, h, pure, Except.pure, childNames]

theorem childName?_eq_some_iff {child : List String} {name : String} :
    childName? place child = some name ↔ child = place ++ [name] := by
  unfold childName?
  constructor
  · intro h
    split at h
    · next hplace =>
      obtain ⟨rest, rfl⟩ := List.getLast?_eq_some_iff.1 h
      rw [List.dropLast_concat] at hplace
      rw [hplace]
    · cases h
  · rintro rfl
    simp

theorem mem_childNames {name : String} :
    name ∈ fs.childNames place ↔ (fs.get? (place ++ [name])).isSome = true := by
  have hne : place ++ [name] ≠ [] := by simp
  rw [childNames, List.mem_filterMap, get?, if_neg hne]
  constructor
  · rintro ⟨child, hchild, hname⟩
    rw [childName?_eq_some_iff.1 hname] at hchild
    exact (Table.contains_iff _ _).2 hchild
  · intro h
    exact ⟨_, (Table.contains_iff _ _).1 h, childName?_eq_some_iff.2 rfl⟩

theorem nodup_childNames (fs : Files) (place : List String) : (fs.childNames place).Nodup := by
  refine List.Pairwise.filterMap _ ?_ fs.entries.keys_nodup
  intro a b hab name ha name' hb hname
  rw [childName?_eq_some_iff.1 ha, childName?_eq_some_iff.1 hb, hname] at hab
  exact hab rfl

end Located

end Files

end Flowline
