import Flowline.Proofs.Store.Keeps
import Mathlib.Data.List.Sort

/-!
# A store is a finite map

Requests to a store are answered as by a finite map from flow names to registrations, a `Shelf`:
what is saved is kept under the name of its flow until it is saved again or deleted, and the files
are listed in the order of their own names. `Store.Holds` relates a tree of files to the shelf that
it stands for. One request keeps the relation and is answered alike (`represents_answer`), and so is
any sequence of them from an absent or empty directory on (`answers_eq_shelf`).

The file system refuses a name or a path that is too long, so a registration under such a name is
not saved, and the shelf refuses it too (`Files.Fits`).
-/

namespace Flowline

open Text

namespace Store

/-! ## Requests and answers -/

/-- What a store is asked for. -/
inductive Request where
  | save (r : Registration)
  | load (flowName : String)
  | delete (flowName : String)
  | list
  | loadAll

/-- What a store answers. -/
inductive Answer where
  | saved (result : Except Error String)
  | loaded (result : Except Error (Option Registration))
  | deleted (result : Except Error Bool)
  | listed (result : Except Error (List String))
  | loadedAll (result : Except Error (List Registration))

/-- Carries out a request: the answer and the files after it. -/
def answer (s : Store) (fs : Files) : Request → Answer × Files
  | .save r => (.saved (s.save fs r).1, (s.save fs r).2)
  | .load name => (.loaded (s.load fs name), fs)
  | .delete name => (.deleted (s.delete fs name).1, (s.delete fs name).2)
  | .list => (.listed (s.list fs), fs)
  | .loadAll => (.loadedAll (s.loadAll fs), fs)

/-- The answers to requests one after the other. -/
def answers (s : Store) : Files → List Request → List Answer
  | _, [] => []
  | fs, q :: qs => (s.answer fs q).1 :: s.answers (s.answer fs q).2 qs

/-- The flow name in a request. -/
def Request.name? : Request → Option String
  | .save r => some r.flowName
  | .load name | .delete name => some name
  | .list | .loadAll => none

/-- The answer that refuses a request. -/
def Request.refused (e : Error) : Request → Answer
  | .save _ => .saved (.error e)
  | .load _ => .loaded (.error e)
  | .delete _ => .deleted (.error e)
  | .list => .listed (.error e)
  | .loadAll => .loadedAll (.error e)

/-- A registration that is to be saved has been read from bytes, apart from its name, and holds no
float. -/
def Request.IsStorable : Request → Prop
  | .save r => ∃ bytes r', Registration.ofGlyphs (Glyph.ofBytes bytes) = .ok r' ∧ r'.FloatFree ∧
      r = { r' with flowName := r.flowName }
  | _ => True

end Store

/-! ## The finite map -/

/-- Registrations by the names of their flows. -/
abbrev Shelf := NameMap Registration

namespace Shelf

open Store

/-- The stored flows in the order of their file names. -/
def inFileOrder (m : Shelf) : List (String × Registration) :=
  m.entries.mergeSort fun a b => decide (FlowName.fileName a.1 ≤ FlowName.fileName b.1)

/-- Answers a request from a map. -/
def answer (dir : String) (m : Shelf) : Request → Answer × Shelf
  | .save r =>
    match FlowName.check r.flowName with
    | .error e => (.saved (.error e), m)
    | .ok () =>
      if Files.Fits dir (FlowName.fileName r.flowName) then
        (.saved (.ok (Path.join dir (FlowName.fileName r.flowName))), m.insert r.flowName r)
      else (.saved (.error (.fileSystem .nameTooLong)), m)
  | .load name =>
    match FlowName.check name with
    | .error e => (.loaded (.error e), m)
    | .ok () => (.loaded (.ok (m.get? name)), m)
  | .delete name =>
    match FlowName.check name with
    | .error e => (.deleted (.error e), m)
    | .ok () => (.deleted (.ok (m.contains name)), m.erase name)
  | .list => (.listed (.ok ((m.names.map FlowName.fileName).mergeSort (· ≤ ·))), m)
  | .loadAll => (.loadedAll (.ok (m.inFileOrder.map Prod.snd)), m)

/-- The answers to requests one after the other. -/
def answers (dir : String) : Shelf → List Request → List Answer
  | _, [] => []
  | m, q :: qs => (m.answer dir q).1 :: answers dir (m.answer dir q).2 qs

/-- The file names in order are those of the flows in file order. -/
theorem mergeSort_fileNames (m : Shelf) : (m.names.map FlowName.fileName).mergeSort (· ≤ ·) =
    m.inFileOrder.map fun e => FlowName.fileName e.1 := by
  rw [inFileOrder, NameMap.names, List.map_map]
  exact (List.map_mergeSort (f := FlowName.fileName ∘ Prod.fst) fun _ _ _ _ => rfl).symm

theorem erase_of_not_contains {m : Shelf} {name : String} (h : m.contains name = false) :
    m.erase name = m := by
  refine NameMap.ext_get? fun name' => ?_
  rw [NameMap.get?_erase]
  split
  · next heq =>
    subst heq
    exact (Option.isNone_iff_eq_none.1 (Option.isSome_eq_false_iff.1 h)).symm
  · rfl

end Shelf

/-- The order of names does not depend on the order in which they are found. -/
theorem mergeSort_eq_of_perm {names names' : List String} (h : names.Perm names') :
    names.mergeSort (· ≤ ·) = names'.mergeSort (· ≤ ·) := by
  refine List.Perm.eq_of_pairwise (fun _ _ _ _ => String.le_antisymm)
    (List.pairwise_mergeSort' (· ≤ ·) names) (List.pairwise_mergeSort' (· ≤ ·) names') ?_
  exact ((List.mergeSort_perm names _).trans h).trans (List.mergeSort_perm names' _).symm

namespace Store

/-! ## The files of a shelf -/

/-- The directory of the store holds the files of the shelf and no others. -/
structure Holds (s : Store) (m : Shelf) (place : List String) (fs : Files) : Prop where
  located : fs.locate s.dir = .ok place
  isDirectory : fs.get? place = some .directory
  acceptable : ∀ name r, m.get? name = some r → r.IsAcceptable ∧ r.FloatFree ∧ r.flowName = name ∧
    Files.Fits s.dir (FlowName.fileName name)
  content : ∀ name r, m.get? name = some r →
    fs.get? (place ++ [FlowName.fileName name]) = some (.file (Glyph.ofString r.storedText))
  only : ∀ file, (fs.get? (place ++ [file])).isSome = true →
    ∃ name r, m.get? name = some r ∧ file = FlowName.fileName name

section Holds

variable {s : Store} {m : Shelf} {place : List String} {fs : Files} (h : s.Holds m place fs)

include h

theorem Holds.get?_file (name : String) : fs.get? (place ++ [FlowName.fileName name]) =
    (m.get? name).map fun r => .file (Glyph.ofString r.storedText) := by
  cases hr : m.get? name with
  | some r => exact h.content name r hr
  | none =>
    rw [Option.map_none, ← Option.not_isSome_iff_eq_none]
    intro hsome
    obtain ⟨name', r, hr', heq⟩ := h.only _ hsome
    rw [FlowName.fileName_inj.1 heq, hr'] at hr
    cases hr

theorem Holds.lookUp_file {name : String} (hname : FlowName.IsValid name) {e : Entry} :
    fs.lookUp (Path.join s.dir (FlowName.fileName name)) = .ok e ↔
      ∃ r, m.get? name = some r ∧ e = .file (Glyph.ofString r.storedText) := by
  rw [Files.lookUp_join h.located h.isDirectory (FlowName.isPlain_fileName hname), h.get?_file,
    Option.map_eq_some_iff]
  constructor
  · rintro ⟨-, r, hr, rfl⟩
    exact ⟨r, hr, rfl⟩
  · rintro ⟨r, hr, rfl⟩
    exact ⟨(h.acceptable name r hr).2.2.2, r, hr, rfl⟩

theorem Holds.pathExists_file {name : String} (hname : FlowName.IsValid name) :
    fs.pathExists (Path.join s.dir (FlowName.fileName name)) = m.contains name := by
  rw [Bool.eq_iff_iff, Files.pathExists_iff, NameMap.contains, Option.isSome_iff_exists]
  constructor
  · rintro ⟨e, he⟩
    obtain ⟨r, hr, -⟩ := (h.lookUp_file hname).1 he
    exact ⟨r, hr⟩
  · rintro ⟨r, hr⟩
    exact ⟨_, (h.lookUp_file hname).2 ⟨r, hr, rfl⟩⟩

/-- A stored registration is read back. -/
theorem Holds.load_file {name : String} {r : Registration} (hr : m.get? name = some r) :
    Registration.load fs (Path.join s.dir (FlowName.fileName name)) = .ok r := by
  obtain ⟨hacceptable, hfloat, rfl, -⟩ := h.acceptable name r hr
  have hlookUp := (h.lookUp_file hacceptable.name).2 ⟨r, hr, rfl⟩
  have hself := Registration.reread_of_floatFree hacceptable hfloat
  have hstored : Registration.ofGlyphs (Glyph.ofString r.storedText) = .ok r :=
    (Registration.ofGlyphs_pretty hacceptable).trans (congrArg Except.ok hself)
  exact Registration.load_eq_ok_iff.2 ⟨_, hlookUp, hstored⟩

/-- The names in the directory are those of the files of the shelf. -/
theorem Holds.childNames_perm : (fs.childNames place).Perm (m.names.map FlowName.fileName) := by
  have hnodup : (m.names.map FlowName.fileName).Nodup := by
    refine List.pairwise_map.2 ((List.pairwise_map.2 m.sorted).imp fun hlt heq => ?_)
    exact String.lt_irrefl _ (FlowName.fileName_inj.1 heq ▸ hlt)
  refine (List.perm_ext_iff_of_nodup (Files.nodup_childNames fs place) hnodup).2 fun file => ?_
  rw [Files.mem_childNames, List.mem_map]
  constructor
  · intro hsome
    obtain ⟨name, r, hr, rfl⟩ := h.only file hsome
    exact ⟨name, (NameMap.isSome_get? m name).1 (by rw [hr]; rfl), rfl⟩
  · rintro ⟨name, hname, rfl⟩
    rw [h.get?_file, Option.isSome_map]
    exact (NameMap.isSome_get? m name).2 hname

theorem Holds.list_eq : s.list fs = .ok ((m.names.map FlowName.fileName).mergeSort (· ≤ ·)) := by
  -- Every file is one of the shelf, so it has the extension.
  have hfilter : (fs.childNames place).filter (Path.hasExtension extension) =
      fs.childNames place := by
    refine List.filter_eq_self.2 fun file hfile => ?_
    obtain ⟨name, r, hr, rfl⟩ := h.only file (Files.mem_childNames.1 hfile)
    obtain ⟨hacceptable, -, rfl, -⟩ := h.acceptable name r hr
    exact FlowName.hasExtension_fileName hacceptable.name
  rw [list_of_directory h.located h.isDirectory, hfilter, mergeSort_eq_of_perm h.childNames_perm]

theorem Holds.loadAll_eq : s.loadAll fs = .ok (m.inFileOrder.map Prod.snd) := by
  have hload : ∀ e ∈ m.inFileOrder,
      (Registration.load fs (Path.join s.dir (FlowName.fileName e.1))).toOption = some e.2 := by
    intro e he
    have hmem : e ∈ m.entries := (List.mergeSort_perm _ _).mem_iff.1 he
    rw [h.load_file (NameMap.get?_eq_some_iff.2 hmem)]
    rfl
  have hvalues : m.inFileOrder.filterMap (fun e =>
      (Registration.load fs (Path.join s.dir (FlowName.fileName e.1))).toOption) =
        m.inFileOrder.map Prod.snd := by
    rw [← List.filterMap_eq_map]
    exact List.filterMap_congr hload
  rw [loadAll_of_list h.list_eq, Shelf.mergeSort_fileNames, ← hvalues]
  exact congrArg Except.ok (List.filterMap_map ..)

theorem Holds.file_ne_directory (name : String) :
    fs.get? (place ++ [FlowName.fileName name]) ≠ some .directory := by
  rw [h.get?_file]
  cases m.get? name <;> simp

/-- A tree in which the file of one flow has changed holds the shelf that has changed alike. -/
theorem Holds.alter {fs' : Files} {m' : Shelf} {name : String} {stored : Option Registration}
    (hstays : fs.Stays fs')
    (hfiles : ∀ file, fs'.get? (place ++ [file]) = if FlowName.fileName name = file
      then stored.map fun r => .file (Glyph.ofString r.storedText) else fs.get? (place ++ [file]))
    (hshelf : ∀ name', m'.get? name' = if name = name' then stored else m.get? name')
    (hstored : ∀ r, stored = some r → r.IsAcceptable ∧ r.FloatFree ∧ r.flowName = name ∧
      Files.Fits s.dir (FlowName.fileName name)) : s.Holds m' place fs' := by
  refine ⟨Files.locate_mono hstays h.located, hstays.directories _ h.isDirectory, ?_, ?_, ?_⟩
  · intro name' r hr
    rw [hshelf] at hr
    split at hr
    · next heq => exact heq ▸ hstored r hr
    · exact h.acceptable name' r hr
  · intro name' r hr
    rw [hshelf] at hr
    simp only [hfiles, FlowName.fileName_inj]
    split at hr
    · next heq => rw [if_pos heq, hr, Option.map_some]
    · next hne =>
      rw [if_neg hne]
      exact h.content name' r hr
  · intro file hfile
    rw [hfiles] at hfile
    split at hfile
    · next heq =>
      rw [Option.isSome_map] at hfile
      obtain ⟨r, hr⟩ := Option.isSome_iff_exists.1 hfile
      exact ⟨name, r, by rw [hshelf, if_pos rfl, hr], heq.symm⟩
    · next hne =>
      obtain ⟨name', r, hr, rfl⟩ := h.only file hfile
      have hother : name ≠ name' := fun heq => hne (congrArg FlowName.fileName heq)
      exact ⟨name', r, by rw [hshelf, if_neg hother, hr], rfl⟩

/-- The tree with the file of a registration holds the shelf with the registration. -/
theorem Holds.put {r : Registration} (hr : r.IsAcceptable) (hfloat : r.FloatFree)
    (hfits : Files.Fits s.dir (FlowName.fileName r.flowName)) :
    s.Holds (m.insert r.flowName r) place
      (fs.put (place ++ [FlowName.fileName r.flowName]) (.file (Glyph.ofString r.storedText))) := by
  refine h.alter (Files.stays_put (by simp) (h.file_ne_directory r.flowName) _)
    (fun file => Files.get?_put_child ..) (fun name => NameMap.get?_insert m r.flowName name r) ?_
  rintro _ ⟨⟩
  exact ⟨hr, hfloat, rfl, hfits⟩

/-- The tree without the file of a flow holds the shelf without the flow. -/
theorem Holds.drop {name : String} :
    s.Holds (m.erase name) place (fs.drop (place ++ [FlowName.fileName name])) :=
  h.alter (Files.stays_drop (by simp) (h.file_ne_directory name))
    (fun file => Files.get?_drop_child ..) (fun name' => NameMap.get?_erase m name name') nofun

end Holds

/-! ## One request -/

section Answer

variable {s : Store} {m : Shelf} {place : List String} {fs : Files}

/-- Saving in a directory that holds a shelf, or in one that is made for it. -/
theorem Holds.save (h : s.Holds m place fs) {fs₀ : Files}
    (hmade : fs₀.makeDirectories s.dir = (.ok (), fs)) {r : Registration} (hr : r.IsAcceptable)
    (hfloat : r.FloatFree) :
    (s.answer fs₀ (.save r)).1 = (m.answer s.dir (.save r)).1 ∧
      s.Holds (m.answer s.dir (.save r)).2 place (s.answer fs₀ (.save r)).2 := by
  have hplain := FlowName.isPlain_fileName hr.name
  have hcheck := FlowName.check_eq_ok_iff.2 hr.name
  simp only [answer, Store.save, s.pathFor_of_valid hr.name, hmade, Shelf.answer, hcheck]
  by_cases hfits : Files.Fits s.dir (FlowName.fileName r.flowName)
  · have hwrite : fs.write (Path.join s.dir (FlowName.fileName r.flowName))
        (Glyph.ofString r.storedText) = .ok (fs.put (place ++ [FlowName.fileName r.flowName])
          (.file (Glyph.ofString r.storedText))) := by
      have hlocate := (Files.locate_join_eq_ok_iff (Files.ne_empty_of_locate h.located) hplain).2
        ⟨hfits, place, h.located, h.isDirectory, rfl⟩
      have hget := h.get?_file r.flowName
      cases hm : m.get? r.flowName <;>
        simp [Files.write, hlocate, hget, hm, bind, Except.bind, pure, Except.pure]
    simp only [hwrite, hfits, if_true]
    exact ⟨trivial, h.put hr hfloat hfits⟩
  · have hwrite : fs.write (Path.join s.dir (FlowName.fileName r.flowName))
        (Glyph.ofString r.storedText) = .error .nameTooLong := by
      have hlocate := Files.locate_join_of_not_fits h.located h.isDirectory hplain hfits
      simp [Files.write, hlocate, bind, Except.bind]
    simp only [hwrite, hfits, if_false]
    exact ⟨trivial, h⟩

theorem Holds.load (h : s.Holds m place fs) {name : String} (hname : FlowName.IsValid name) :
    s.load fs name = .ok (m.get? name) := by
  have hexists := h.pathExists_file hname
  simp only [Store.load, s.pathFor_of_valid hname, bind, Except.bind, hexists, NameMap.contains]
  cases hm : m.get? name with
  | none => rfl
  | some r =>
    simp only [Option.isSome_some, if_true, h.load_file hm]
    rfl

theorem Holds.delete (h : s.Holds m place fs) {name : String} (hname : FlowName.IsValid name) :
    (s.delete fs name).1 = .ok (m.contains name) ∧
      s.Holds (m.erase name) place (s.delete fs name).2 := by
  have hplain := FlowName.isPlain_fileName hname
  have hexists := h.pathExists_file hname
  simp only [Store.delete, s.pathFor_of_valid hname, hexists]
  cases hcontains : m.contains name with
  | false =>
    rw [Shelf.erase_of_not_contains hcontains]
    exact ⟨rfl, h⟩
  | true =>
    obtain ⟨r, hr⟩ := Option.isSome_iff_exists.1 hcontains
    have hlocate := (Files.locate_join_eq_ok_iff (Files.ne_empty_of_locate h.located) hplain).2
      ⟨(h.acceptable name r hr).2.2.2, place, h.located, h.isDirectory, rfl⟩
    have hremove : fs.remove (Path.join s.dir (FlowName.fileName name)) =
        .ok (fs.drop (place ++ [FlowName.fileName name])) := by
      simp [Files.remove, hlocate, h.content name r hr, bind, Except.bind, pure, Except.pure]
    simp only [if_true, hremove]
    exact ⟨trivial, h.drop⟩

/-! ## Where there is no directory yet -/

/-- There is no directory, and making it gives an empty one. -/
structure IsAbsent (s : Store) (fs : Files) : Prop where
  absent : fs.pathExists s.dir = false
  made : ∃ made, fs.makeDirectories s.dir = (.ok (), made) ∧ made.names s.dir = .ok []

theorem IsAbsent.pathExists_file (h : s.IsAbsent fs) {name : String}
    (hname : FlowName.IsValid name) :
    fs.pathExists (Path.join s.dir (FlowName.fileName name)) = false := by
  obtain ⟨made, -, hnames⟩ := h.made
  obtain ⟨place, hlocate, -⟩ := Files.names_eq_ok_iff.1 hnames
  rw [Bool.eq_false_iff]
  intro hexists
  obtain ⟨e, he⟩ := Files.pathExists_iff.1 hexists
  refine Files.lookUp_join_ne_ok (Files.ne_empty_of_locate hlocate) (fun hdir => ?_)
    (FlowName.isPlain_fileName hname) e he
  have habsent := h.absent
  rw [Files.pathExists_iff.2 ⟨_, hdir⟩] at habsent
  cases habsent

theorem IsAbsent.list_eq (h : s.IsAbsent fs) : s.list fs = .ok [] := by
  simp only [Store.list, h.absent, Bool.false_eq_true, if_false]

theorem exists_holds_empty (hnames : fs.names s.dir = .ok []) :
    ∃ place, s.Holds NameMap.empty place fs := by
  obtain ⟨place, hlocate, hplace, hchildren⟩ := Files.names_eq_ok_iff.1 hnames
  refine ⟨place, hlocate, hplace, fun _ _ h => (nomatch h), fun _ _ h => (nomatch h), ?_⟩
  intro file hfile
  have hmem := Files.mem_childNames.2 hfile
  rw [hchildren] at hmem
  cases hmem

/-! ## Any request -/

/-- The files stand for the shelf. An absent directory stands for the empty one. -/
def Represents (s : Store) (fs : Files) (m : Shelf) : Prop :=
  (∃ place, s.Holds m place fs) ∨ m = NameMap.empty ∧ s.IsAbsent fs

/-- A request with a name that no flow may have is refused and changes nothing. -/
theorem answer_of_not_valid (s : Store) (fs : Files) {q : Request} {name : String}
    (hq : q.name? = some name) (hname : ¬ FlowName.IsValid name) :
    ∃ e, (e = .blankFlowName ∨ e = .unsafeFlowName name) ∧ FlowName.check name = .error e ∧
      s.answer fs q = (q.refused e, fs) := by
  obtain ⟨e, he, hcheck, hpath⟩ := s.pathFor_of_not_valid hname
  refine ⟨e, he, hcheck, ?_⟩
  cases q with
  | save r =>
    cases hq
    simp only [answer, Store.save, hpath, Request.refused]
  | load name' =>
    cases hq
    simp only [answer, Store.load, hpath, Request.refused, bind, Except.bind]
  | delete name' =>
    cases hq
    simp only [answer, Store.delete, hpath, Request.refused]
  | list => cases hq
  | loadAll => cases hq

theorem shelf_answer_of_error {q : Request} {name : String} {e : Error} (hq : q.name? = some name)
    (hcheck : FlowName.check name = .error e) (dir : String) (m : Shelf) :
    m.answer dir q = (q.refused e, m) := by
  cases q with
  | save r =>
    cases hq
    simp only [Shelf.answer, hcheck, Request.refused]
  | load name' =>
    cases hq
    simp only [Shelf.answer, hcheck, Request.refused]
  | delete name' =>
    cases hq
    simp only [Shelf.answer, hcheck, Request.refused]
  | list => cases hq
  | loadAll => cases hq

/-- A registration that is saved under a name that a flow may have is acceptable. -/
theorem Request.IsStorable.acceptable {r : Registration} (h : (Request.save r).IsStorable)
    (hname : FlowName.IsValid r.flowName) : r.IsAcceptable ∧ r.FloatFree := by
  obtain ⟨bytes, r', hread, hfloat, heq⟩ := h
  have hacceptable := Registration.isAcceptable_of_ofGlyphs hread
  rw [heq]
  exact ⟨⟨hname, hacceptable.interval, hacceptable.databases, hacceptable.mappings⟩, hfloat⟩

section Named

variable {q : Request} (hq : q.IsStorable)
  (hname : ∀ name, q.name? = some name → FlowName.IsValid name)

include hq hname

/-- A directory that holds a shelf answers as the shelf does, and holds the shelf afterwards. -/
theorem Holds.answered (h : s.Holds m place fs) :
    (s.answer fs q).1 = (m.answer s.dir q).1 ∧
      s.Holds (m.answer s.dir q).2 place (s.answer fs q).2 := by
  cases q with
  | save r =>
    obtain ⟨hacceptable, hfloat⟩ := hq.acceptable (hname r.flowName rfl)
    exact h.save (Files.makeDirectories_of_located h.located h.isDirectory) hacceptable hfloat
  | load name =>
    have hvalid := hname name rfl
    simp only [answer, Shelf.answer, FlowName.check_eq_ok_iff.2 hvalid]
    exact ⟨congrArg Answer.loaded (h.load hvalid), h⟩
  | delete name =>
    have hvalid := hname name rfl
    simp only [answer, Shelf.answer, FlowName.check_eq_ok_iff.2 hvalid]
    exact (h.delete hvalid).imp_left (congrArg Answer.deleted)
  | list => exact ⟨congrArg Answer.listed h.list_eq, h⟩
  | loadAll => exact ⟨congrArg Answer.loadedAll h.loadAll_eq, h⟩

/-- Without a directory requests are answered as by the empty shelf, and saving makes one. -/
theorem IsAbsent.answered (h : s.IsAbsent fs) :
    (s.answer fs q).1 = (Shelf.answer s.dir NameMap.empty q).1 ∧
      s.Represents (s.answer fs q).2 (Shelf.answer s.dir NameMap.empty q).2 := by
  cases q with
  | save r =>
    obtain ⟨hacceptable, hfloat⟩ := hq.acceptable (hname r.flowName rfl)
    obtain ⟨made, hmade, hnames⟩ := h.made
    obtain ⟨place, hplace⟩ := exists_holds_empty hnames
    exact (hplace.save hmade hacceptable hfloat).imp_right fun hholds => .inl ⟨place, hholds⟩
  | load name =>
    have hvalid := hname name rfl
    simp only [answer, Shelf.answer, FlowName.check_eq_ok_iff.2 hvalid, Store.load,
      s.pathFor_of_valid hvalid, bind, Except.bind, h.pathExists_file hvalid]
    exact ⟨rfl, .inr ⟨rfl, h⟩⟩
  | delete name =>
    have hvalid := hname name rfl
    simp only [answer, Shelf.answer, FlowName.check_eq_ok_iff.2 hvalid, Store.delete,
      s.pathFor_of_valid hvalid, h.pathExists_file hvalid]
    exact ⟨rfl, .inr ⟨rfl, h⟩⟩
  | list =>
    refine ⟨congrArg Answer.listed ?_, .inr ⟨rfl, h⟩⟩
    rw [h.list_eq, NameMap.names, NameMap.empty, List.map_nil, List.map_nil, List.mergeSort_nil]
  | loadAll =>
    refine ⟨congrArg Answer.loadedAll ?_, .inr ⟨rfl, h⟩⟩
    rw [loadAll_of_list h.list_eq, Shelf.inFileOrder, NameMap.empty, List.mergeSort_nil]
    rfl

end Named

/-- One request is answered as the shelf answers it, and the files stand for the shelf again. -/
theorem represents_answer (h : s.Represents fs m) {q : Request} (hq : q.IsStorable) :
    (s.answer fs q).1 = (m.answer s.dir q).1 ∧
      s.Represents (s.answer fs q).2 (m.answer s.dir q).2 := by
  by_cases hname : ∀ name, q.name? = some name → FlowName.IsValid name
  · rcases h with ⟨place, h⟩ | ⟨rfl, h⟩
    · exact (h.answered hq hname).imp_right fun hholds => .inl ⟨place, hholds⟩
    · exact h.answered hq hname
  · obtain ⟨name, hnot⟩ := Classical.not_forall.1 hname
    obtain ⟨hq', hinvalid⟩ := Classical.not_imp.1 hnot
    obtain ⟨e, -, hcheck, hanswer⟩ := s.answer_of_not_valid fs hq' hinvalid
    rw [hanswer, shelf_answer_of_error hq' hcheck]
    exact ⟨rfl, h⟩

/-- Requests one after the other are answered as the shelf answers them. -/
theorem answers_of_represents (h : s.Represents fs m) {qs : List Request}
    (hqs : ∀ q ∈ qs, q.IsStorable) : s.answers fs qs = m.answers s.dir qs := by
  induction qs generalizing fs m with
  | nil => rfl
  | cons q qs ih =>
    obtain ⟨hq, hqs⟩ := List.forall_mem_cons.1 hqs
    obtain ⟨hanswer, hnext⟩ := represents_answer h hq
    rw [answers, Shelf.answers, hanswer, ih hnext hqs]

end Answer

/-- The directory of the store is empty, or there is none and making it gives an empty one. -/
def StartsEmpty (s : Store) (fs : Files) : Prop := fs.names s.dir = .ok [] ∨ s.IsAbsent fs

/-- From an absent or empty directory on, a store answers any requests as a finite map does that is
keyed by the names of the flows, and whatever files there are, a request with a name that no flow
may have is refused and changes nothing. -/
theorem answers_eq_shelf {s : Store} {fs : Files} (h : s.StartsEmpty fs) {qs : List Request}
    (hqs : ∀ q ∈ qs, q.IsStorable) :
    s.answers fs qs = Shelf.answers s.dir NameMap.empty qs ∧
      ∀ (fs' : Files) (q : Request) (name : String), q.name? = some name →
        ¬ FlowName.IsValid name →
          ∃ e, (e = .blankFlowName ∨ e = .unsafeFlowName name) ∧
            s.answer fs' q = (q.refused e, fs') := by
  refine ⟨answers_of_represents ?_ hqs, fun fs' q name hq hname => ?_⟩
  · rcases h with hnames | habsent
    · exact .inl (exists_holds_empty hnames)
    · exact .inr ⟨rfl, habsent⟩
  · obtain ⟨e, he, -, hanswer⟩ := s.answer_of_not_valid fs' hq hname
    exact ⟨e, he, hanswer⟩

/-- Two flows whose files have another order than their names, and a name that leads elsewhere. -/
theorem answers_eq_shelf_two_flows :
    let s : Store := ⟨"configs"⟩
    let r : Registration := ⟨"a", none, Table.empty, FlowDefinition.empty, default⟩
    let saves := [.save r, .save { r with flowName := "a-" }, .save { r with flowName := ".." }]
    let qs := Request.list :: saves ++ [.loadAll, .list, .delete "a", .load "a", .load "A", .list]
    s.StartsEmpty Files.empty ∧ (∀ q ∈ qs, q.IsStorable) ∧ ¬ FlowName.IsValid ".." ∧
      s.answers Files.empty qs = Shelf.answers s.dir NameMap.empty qs ∧
        ∃ e, (e = .blankFlowName ∨ e = .unsafeFlowName "..") ∧
          s.answer Files.empty (.delete "..") = (.deleted (.error e), Files.empty) := by
  intro s r saves qs
  have hmade : (Files.empty.makeDirectories s.dir).1 = .ok () :=
    toOption_eq_some_iff.1 (by decide +kernel)
  have hnames : (Files.empty.makeDirectories s.dir).2.names s.dir = .ok [] :=
    toOption_eq_some_iff.1 (by decide +kernel)
  have hstart : s.StartsEmpty Files.empty :=
    .inr ⟨by decide +kernel, _, Prod.ext hmade rfl, hnames⟩
  have hread : Registration.ofGlyphs (Glyph.ofBytes "\x7b\"flowName\":\"a\"\x7d".toUTF8.toList) =
      .ok r := by
    rw [Glyph.ofBytes_toUTF8, ← toOption_eq_some_iff]
    decide +kernel
  have hsave : ∀ name, (Request.save { r with flowName := name }).IsStorable := fun name =>
    ⟨_, r, hread, by decide, rfl⟩
  have hqs : ∀ q ∈ qs, q.IsStorable := by
    intro q hq
    simp only [qs, saves, List.cons_append, List.nil_append, List.mem_cons, List.not_mem_nil,
      or_false] at hq
    rcases hq with rfl | rfl | rfl | rfl | rfl | rfl | rfl | rfl | rfl | rfl
    all_goals first | exact hsave _ | trivial
  have hname : ¬ FlowName.IsValid ".." := by decide
  obtain ⟨hanswers, hrefused⟩ := answers_eq_shelf hstart hqs
  exact ⟨hstart, hqs, hname, hanswers, hrefused Files.empty (.delete "..") ".." rfl hname⟩

end Store

end Flowline
