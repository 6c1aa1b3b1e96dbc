import Flowline.Proofs.Files.Places
import Flowline.Proofs.Lists

/-!
# What is on the way

A path passes places on its way (`OnWay`) and leads to one place at most, whatever stands there
(`eq_target_of_locate`); the path of a file in a directory leads below that of the directory
(`target_join`). Making directories makes them on the way and nothing else (`get?_makeDirectories`).

Which places can be left, and which have to be made, depends on where there are directories and
where there are files on the way, and on no content: two trees that are alike there (`Alike`) are so
after directories have been made in both (`Alike.makeDirectories`).
-/

namespace Flowline.Files

open Text

/-! ## Where a path leads -/

/-- Where a path leads if all of its names can be followed. -/
def target (fs : Files) (path : String) : List String :=
  (Path.parts path).foldl step (fs.startOf path)

/-- A place that is passed on a path, where it starts and where it leads among them. -/
def OnWay (fs : Files) (path : String) (place : List String) : Prop :=
  ∃ names, names <+: Path.parts path ∧ names.foldl step (fs.startOf path) = place

variable {fs fs' : Files} {dir file path : String} {start names place : List String}

theorem eq_foldl_of_follow (h : fs.follow start names = .ok place) :
    place = names.foldl step start := by
  induction names generalizing start with
  | nil => exact (Except.ok.inj h).symm
  | cons name names ih =>
    rw [follow] at h
    split at h
    · cases h
    · cases h
    · split at h
      · cases h
      · exact ih h

theorem eq_target_of_locate (h : fs.locate path = .ok place) : place = fs.target path :=
  eq_foldl_of_follow (locate_eq_ok_iff.1 h).2.2

/-- The names on the path of a file are those of its directory and then the file, also if the
directory is where relative paths start. -/
theorem exists_names_join (fs : Files) (dir : String) (hfile : IsPlain file) :
    ∃ names, Path.parts (Path.join dir file) = names ++ [file] ∧
      (Path.parts dir = names ∨ Path.parts dir = names ++ [""]) ∧
      fs.startOf (Path.join dir file) = fs.startOf dir := by
  by_cases hdir : dir = ""
  · subst hdir
    have hjoin : Path.join "" file = file := by simp [Path.join]
    have habsolute : Path.isAbsolute file = false := by
      rw [Path.isAbsolute, beq_eq_false_iff_ne]
      exact fun h => hfile.stroke (List.mem_of_mem_head? h)
    refine ⟨[], ?_, .inr rfl, ?_⟩
    · rw [hjoin, Path.parts, List.splitOn_eq_singleton hfile.stroke, List.map_singleton,
        String.ofList_toList]
      rfl
    · rw [hjoin, startOf, habsolute]
      rfl
  · obtain ⟨names, hnames, hdirNames⟩ := exists_parts_join hdir hfile
    exact ⟨names, hnames, hdirNames, startOf_join hdir hfile fs⟩

theorem foldl_step_parts (hnames : Path.parts dir = names ∨ Path.parts dir = names ++ [""])
    (start : List String) : (Path.parts dir).foldl step start = names.foldl step start := by
  rcases hnames with h | h
  · rw [h]
  · rw [h, List.foldl_append, List.foldl_cons, List.foldl_nil]
    exact if_pos (Or.inl rfl)

theorem target_join (fs : Files) (dir : String) (hfile : IsPlain file) :
    fs.target (Path.join dir file) = fs.target dir ++ [file] := by
  obtain ⟨names, hnames, hdirNames, hstart⟩ := exists_names_join fs dir hfile
  rw [target, target, hnames, hstart, foldl_step_parts hdirNames, List.foldl_append]
  exact step_plain hfile _

theorem target_congr (h : fs'.workingPlace = fs.workingPlace) (path : String) :
    fs'.target path = fs.target path := by
  rw [target, target, startOf, startOf, h]

/-! ## Directories that are made -/

/-- Only directories are made, and only on the way. -/
theorem get?_makeAlong (fs : Files) (start names place : List String) :
    (fs.makeAlong start names).2.get? place = fs.get? place ∨
      (∃ names', names' <+: names ∧ names'.foldl step start = place) ∧ fs.get? place = none ∧
        (fs.makeAlong start names).2.get? place = some .directory := by
  induction names generalizing fs start with
  | nil => exact .inl rfl
  | cons name names ih =>
    have hlater : ∀ {names'}, names' <+: names → name :: names' <+: name :: names :=
      fun h => (List.prefix_cons_inj name).2 h
    rw [makeAlong]
    split
    · exact .inl rfl
    · split
      · rcases ih fs (step start name) with hsame | ⟨⟨names', hprefix, hplace⟩, hget⟩
        · exact .inl hsame
        · exact .inr ⟨⟨name :: names', hlater hprefix, hplace⟩, hget⟩
      · exact .inl rfl
      · next hnone =>
        have hne : step start name ≠ [] := by
          intro hnil
          rw [hnil] at hnone
          cases hnone
        -- A directory is made here. The names behind it may lead back, but find it then.
        rcases ih (fs.put (step start name) .directory) (step start name) with hsame |
          ⟨⟨names', hprefix, hplace⟩, habsent, hmade⟩
        · rw [hsame, get?_put fs hne]
          split
          · next heq =>
            exact .inr ⟨⟨[name], hlater (List.nil_prefix), heq⟩, heq ▸ hnone, rfl⟩
          · exact .inl rfl
        · refine .inr ⟨⟨name :: names', hlater hprefix, hplace⟩, ?_, hmade⟩
          rw [get?_put fs hne] at habsent
          split at habsent
          · cases habsent
          · exact habsent

theorem get?_makeDirectories (fs : Files) (path : String) (place : List String) :
    (fs.makeDirectories path).2.get? place = fs.get? place ∨
      fs.OnWay path place ∧ fs.get? place = none ∧
        (fs.makeDirectories path).2.get? place = some .directory := by
  unfold makeDirectories
  split
  · exact .inl rfl
  · exact get?_makeAlong fs _ _ place

/-- What is removed is the file that the path leads to. -/
theorem exists_drop_of_remove (h : fs.remove path = .ok fs') :
    ∃ place content, fs.locate path = .ok place ∧ fs.get? place = some (.file content) ∧
      fs' = fs.drop place := by
  obtain ⟨place, hplace, hdrop⟩ := bind_eq_ok h
  split at hdrop
  · cases hdrop
  · next content hget =>
    cases hdrop
    exact ⟨place, content, hplace, hget, rfl⟩
  · cases hdrop

/-! ## Trees that are alike -/

/-- There are directories at both places, or files, or nothing. -/
inductive SameKind : Option Entry → Option Entry → Prop
  | nothing : SameKind none none
  | file (content content' : List Glyph) :
      SameKind (some (.file content)) (some (.file content'))
  | directory : SameKind (some .directory) (some .directory)

theorem SameKind.refl (e : Option Entry) : SameKind e e := by
  cases e with
  | none => exact .nothing
  | some e =>
    cases e with
    | file content => exact .file content content
    | directory => exact .directory

/-- On the way of a path there is the same in both trees, apart from the contents of files, and at
another place the same altogether. -/
structure Alike (path : String) (child : List String) (fs fs' : Files) : Prop where
  workingPlace : fs'.workingPlace = fs.workingPlace
  kind : ∀ place, fs.OnWay path place → SameKind (fs.get? place) (fs'.get? place)
  child : fs'.get? child = fs.get? child

section Alike

variable {child : List String} (h : Alike path child fs fs')

include h

theorem Alike.startOf (path' : String) : fs'.startOf path' = fs.startOf path' := by
  rw [Files.startOf, Files.startOf, h.workingPlace]

/-- The same change in both trees. -/
theorem Alike.change {new new' : Files} (change : List String → Option (Option Entry))
    (hworking : new.workingPlace = fs.workingPlace)
    (hworking' : new'.workingPlace = fs'.workingPlace)
    (hnew : ∀ p, new.get? p = (change p).getD (fs.get? p))
    (hnew' : ∀ p, new'.get? p = (change p).getD (fs'.get? p)) : Alike path child new new' where
  workingPlace := by rw [hworking, hworking', h.workingPlace]
  kind place hplace := by
    rw [hnew, hnew']
    cases change place with
    | some e => exact .refl e
    | none =>
      refine h.kind place ?_
      unfold OnWay Files.startOf at hplace ⊢
      rwa [hworking] at hplace
  child := by rw [hnew, hnew', h.child]

theorem Alike.put (hplace : place ≠ []) (e : Entry) :
    Alike path child (fs.put place e) (fs'.put place e) := by
  refine h.change (fun p => if place = p then some (some e) else none) rfl rfl
    (fun p => ?_) fun p => ?_
  · rw [get?_put fs hplace]
    split <;> rfl
  · rw [get?_put fs' hplace]
    split <;> rfl

theorem Alike.drop (hplace : place ≠ []) :
    Alike path child (fs.drop place) (fs'.drop place) := by
  refine h.change (fun p => if place = p then some none else none) rfl rfl
    (fun p => ?_) fun p => ?_
  · rw [get?_drop fs hplace]
    split <;> rfl
  · rw [get?_drop fs' hplace]
    split <;> rfl

/-- The same places are left for the same places. -/
theorem Alike.follow (hway : ∀ before name after, names = before ++ name :: after →
      fs.OnWay path (before.foldl step start)) :
    fs'.follow start names = fs.follow start names := by
  induction names generalizing start with
  | nil => rfl
  | cons name names ih =>
    have hkind := h.kind start (hway [] name names rfl)
    have hnext : fs'.follow (step start name) names = fs.follow (step start name) names :=
      ih fun before name' after heq =>
        hway (name :: before) name' after (by rw [heq, List.cons_append])
    rw [Files.follow, Files.follow]
    generalize fs.get? start = e at hkind
    generalize fs'.get? start = e' at hkind
    cases hkind with
    | nothing => rfl
    | file content content' => rfl
    | directory => simp only [hnext]

/-- The same directories are made. -/
theorem Alike.makeAlong (hway : ∀ names', names' <+: names →
      fs.OnWay path (names'.foldl step start)) :
    (fs'.makeAlong start names).1 = (fs.makeAlong start names).1 ∧
      Alike path child (fs.makeAlong start names).2 (fs'.makeAlong start names).2 := by
  induction names generalizing fs fs' start with
  | nil => exact ⟨rfl, h⟩
  | cons name names ih =>
    have hkind := h.kind _ (hway [name] ((List.prefix_cons_inj name).2 List.nil_prefix))
    have hnext : ∀ names', names' <+: names →
        fs.OnWay path (names'.foldl step (step start name)) := fun names' hprefix =>
      hway (name :: names') ((List.prefix_cons_inj name).2 hprefix)
    rw [List.foldl_cons, List.foldl_nil] at hkind
    rw [Files.makeAlong, Files.makeAlong]
    by_cases hlong : maxNameBytes < name.utf8ByteSize
    · rw [if_pos hlong, if_pos hlong]
      exact ⟨rfl, h⟩
    · rw [if_neg hlong, if_neg hlong]
      generalize hget : fs.get? (step start name) = e at hkind
      generalize fs'.get? (step start name) = e' at hkind
      cases hkind with
      | nothing =>
        have hne : step start name ≠ [] := by
          intro hnil
          rw [hnil] at hget
          cases hget
        exact ih (h.put hne .directory) hnext
      | file content content' => exact ⟨rfl, h⟩
      | directory => exact ih h hnext

theorem Alike.makeDirectories :
    (fs'.makeDirectories path).1 = (fs.makeDirectories path).1 ∧
      Alike path child (fs.makeDirectories path).2 (fs'.makeDirectories path).2 := by
  unfold Files.makeDirectories
  split
  · exact ⟨rfl, h⟩
  · rw [h.startOf]
    exact h.makeAlong fun names' hprefix => ⟨names', hprefix, rfl⟩

end Alike

/-! ## A file in a directory -/

section Child

variable (h : Alike dir (fs.target dir ++ [file]) fs fs') (hfile : IsPlain file)

include h hfile

theorem Alike.locate : fs'.locate (Path.join dir file) = fs.locate (Path.join dir file) := by
  obtain ⟨names, hnames, hdirNames, hstart⟩ := exists_names_join fs dir hfile
  have hfollow : fs'.follow (fs.startOf dir) (names ++ [file]) =
      fs.follow (fs.startOf dir) (names ++ [file]) := by
    -- Every place that is left on the way to the file is on the way to the directory.
    refine h.follow fun before name after heq => ⟨before, ?_, rfl⟩
    have hbefore : before <+: names := by
      rcases concat_eq_append_cons heq with ⟨rfl, -, -⟩ | ⟨rest, -, rfl⟩
      · exact List.prefix_rfl
      · exact List.prefix_append before _
    rcases hdirNames with hdir | hdir
    · exact hdir ▸ hbefore
    · exact hdir ▸ hbefore.trans (List.prefix_append names _)
  unfold Files.locate
  rw [h.startOf, hstart, hnames, hfollow]

/-- Only there can a file in the directory stand, and it is the same in both trees. -/
theorem Alike.get? (hplace : fs.locate (Path.join dir file) = .ok place) :
    place = fs.target dir ++ [file] ∧ fs'.get? place = fs.get? place := by
  have htarget := eq_target_of_locate hplace
  rw [target_join fs dir hfile] at htarget
  subst htarget
  exact ⟨rfl, h.child⟩

theorem Alike.lookUp : fs'.lookUp (Path.join dir file) = fs.lookUp (Path.join dir file) := by
  unfold Files.lookUp
  rw [h.locate hfile]
  cases hplace : fs.locate (Path.join dir file) with
  | error fault => rfl
  | ok place => simp only [bind, Except.bind, (h.get? hfile hplace).2]

/-- A file is written in both trees, or in neither for the same reason. -/
theorem Alike.write (content : List Glyph) :
    (∃ fault, fs.write (Path.join dir file) content = .error fault ∧
      fs'.write (Path.join dir file) content = .error fault) ∨
    ∃ new new', fs.write (Path.join dir file) content = .ok new ∧
      fs'.write (Path.join dir file) content = .ok new' ∧
      Alike dir (fs.target dir ++ [file]) new new' := by
  unfold Files.write
  rw [h.locate hfile]
  cases hplace : fs.locate (Path.join dir file) with
  | error fault => exact .inl ⟨fault, rfl, rfl⟩
  | ok place =>
    obtain ⟨htarget, hget⟩ := h.get? hfile hplace
    have hne : place ≠ [] := by simp [htarget]
    simp only [bind, Except.bind, hget]
    split
    · exact .inl ⟨.isDirectory, rfl, rfl⟩
    · exact .inr ⟨_, _, rfl, rfl, h.put hne _⟩

/-- A file is removed from both trees, or from neither for the same reason. -/
theorem Alike.remove :
    (∃ fault, fs.remove (Path.join dir file) = .error fault ∧
      fs'.remove (Path.join dir file) = .error fault) ∨
    ∃ new new', fs.remove (Path.join dir file) = .ok new ∧
      fs'.remove (Path.join dir file) = .ok new' ∧
      Alike dir (fs.target dir ++ [file]) new new' := by
  unfold Files.remove
  rw [h.locate hfile]
  cases hplace : fs.locate (Path.join dir file) with
  | error fault => exact .inl ⟨fault, rfl, rfl⟩
  | ok place =>
    obtain ⟨htarget, hget⟩ := h.get? hfile hplace
    have hne : place ≠ [] := by simp [htarget]
    simp only [bind, Except.bind, hget]
    split
    · exact .inl ⟨.isDirectory, rfl, rfl⟩
    · exact .inr ⟨_, _, rfl, rfl, h.drop hne⟩
    · exact .inl ⟨.notFound, rfl, rfl⟩

end Child

end Flowline.Files
