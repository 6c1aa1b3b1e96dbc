import Flowline.Yaml.Token
import Mathlib.Data.List.TakeWhile

/-!
# Plain text on one line

`isPlainLine` tells the texts that mean themselves when they stand without quotes behind a key,
up to the end of the line: nothing in them ends the scalar, begins a comment or looks like another
kind of token. `plainScalar?_line` reads such a text in front of the lines that follow it.
-/

namespace Flowline.Yaml

/-! ## Places on a line -/

namespace Cursor

variable {c : Cursor}

@[simp]
theorem skip_zero (c : Cursor) : c.skip 0 = c := by
  simp [skip, bytesOf]

theorem bytesOf_add (c : Cursor) (m n : Nat) :
    c.bytesOf (m + n) = c.bytesOf m + (c.skip m).bytesOf n := by
  simp only [bytesOf, skip, List.take_add, List.map_append, ← List.sum_eq_foldr, List.sum_append]

theorem skip_skip (c : Cursor) (m n : Nat) : (c.skip m).skip n = c.skip (m + n) := by
  have hindex := c.bytesOf_add m n
  simp only [skip, List.drop_drop, Cursor.mk.injEq] at hindex ⊢
  exact ⟨trivial, by omega, trivial, by omega⟩

theorem rest_skip {u t : List Char} (h : c.rest = u ++ t) : (c.skip u.length).rest = t := by
  simp [skip, h]

theorem column_skip (c : Cursor) (n : Nat) : (c.skip n).column = c.column + n := rfl

/-- No document begins or ends in the middle of a line. -/
theorem isAtDocumentMarker_of_pos (h : 0 < c.column) : c.isAtDocumentMarker = false := by
  have hcolumn : (c.column == 0) = false := by simpa using Nat.ne_of_gt h
  simp [isAtDocumentMarker, isAtMarker, hcolumn]

end Cursor

/-! ## Gaps -/

/-- The column of what stands next, behind blanks and line feeds: nothing if another kind of blank
or line end comes first. -/
def gapColumn? : List Char → Nat → Option Nat
  | [], column => some column
  | d :: rest, column =>
    if d = ' ' then gapColumn? rest (column + 1)
    else if d = '\n' then gapColumn? rest 0
    else if isBlank d || isBreak d then none
    else some column

namespace Gap

variable {refuse : Char → Nat → Bool} {c : Cursor}

theorem read?_lineFeed {t : List Char} (h : c.rest = '\n' :: t) (fuel : Nat) (gap : Gap) :
    read? refuse (fuel + 1) gap c = read? refuse fuel (gap.addBreak '\n') c.skipBreak := by
  rw [read?, h]
  rfl

/-- The blanks up to the next word. -/
theorem read?_blanks {blanks t : List Char} (hblanks : ∀ d ∈ blanks, isBlank d = true)
    (hnext : ∀ d ∈ t.head?, isBlank d = false ∧ isBreak d = false) {fuel : Nat} {s : List Char}
    (hrest : c.rest = blanks ++ t) (hfuel : blanks.length < fuel) :
    read? refuse fuel (.blanks s) c = some (.blanks (s ++ blanks), c.skip blanks.length) := by
  induction blanks generalizing fuel s c with
  | nil =>
    obtain ⟨fuel, rfl⟩ := Nat.exists_eq_add_of_lt hfuel
    cases t with
    | nil => simp [read?, hrest]
    | cons d t =>
      obtain ⟨hblank, hbreak⟩ := hnext d rfl
      simp [read?, hrest, hblank, hbreak]
  | cons d blanks ih =>
    obtain ⟨fuel, rfl⟩ : ∃ n, fuel = n + 1 := ⟨fuel - 1, by omega⟩
    have hd : isBlank d = true := hblanks d List.mem_cons_self
    have hrest' : (c.skip 1).rest = blanks ++ t := Cursor.rest_skip (u := [d]) hrest
    have hread := ih (fun d hd => hblanks d (List.mem_cons_of_mem _ hd)) (s := s ++ [d]) hrest'
      (Nat.lt_of_succ_lt_succ hfuel)
    rw [Cursor.skip_skip, Nat.add_comm 1] at hread
    simp only [read?, hrest, List.cons_append, hd, hasBreak, addBlank, hread, if_true,
      Bool.false_and, Bool.false_eq_true, if_false, List.append_assoc, List.nil_append,
      List.length_cons]

end Gap

/-! ## Plain text -/

/-- What a word of plain text goes on with up to the end of the line: no line end, no colon at the
end of a word, no blank at the end of the line or in front of a comment sign. -/
def isPlainRest : List Char → Bool
  | [] => true
  | c :: rest =>
    !isBreak c && !(c == ':' && endsWord rest) &&
      !(isBlank c && (rest = [] || rest.head? = some '#')) && isPlainRest rest

/-- A text that means itself when it stands behind a key. Its first character decides what kind of
token it is. -/
def isPlainLine : List Char → Bool
  | [] => true
  | c :: rest =>
    Scanner.beginsPlain false c rest && !(c == '-' && endsWord rest) && isPlainRest (c :: rest) &&
      (c :: rest).all isAllowed

theorem isPlainRest_cons {c : Char} {rest : List Char} : isPlainRest (c :: rest) = true ↔
    isBreak c = false ∧ ¬ (c = ':' ∧ endsWord rest = true) ∧
      ¬ (isBlank c = true ∧ (rest = [] ∨ rest.head? = some '#')) ∧ isPlainRest rest = true := by
  simp only [isPlainRest, Bool.and_eq_true, Bool.not_eq_true', ← Bool.not_eq_true, Bool.or_eq_true,
    beq_iff_eq, decide_eq_true_eq, and_assoc]

theorem isPlainLine_cons {c : Char} {rest : List Char} : isPlainLine (c :: rest) = true ↔
    Scanner.beginsPlain false c rest = true ∧ ¬ (c = '-' ∧ endsWord rest = true) ∧
      isPlainRest (c :: rest) = true ∧ ∀ d ∈ c :: rest, isAllowed d = true := by
  simp only [isPlainLine, Bool.and_eq_true, Bool.not_eq_true', ← Bool.not_eq_true, beq_iff_eq,
    List.all_eq_true, and_assoc]

theorem isAllowed_of_isPlainLine {s : List Char} (h : isPlainLine s = true) :
    ∀ d ∈ s, isAllowed d = true := by
  cases s with
  | nil => exact List.forall_mem_nil _
  | cons c rest => exact (isPlainLine_cons.1 h).2.2.2

/-- What the first character decides is the same in front of the end of the line. -/
theorem beginsPlain_append_lineFeed (c : Char) (rest tail : List Char) :
    Scanner.beginsPlain false c (rest ++ '\n' :: tail) = Scanner.beginsPlain false c rest ∧
      endsWord (rest ++ '\n' :: tail) = endsWord rest := by
  cases rest <;> exact ⟨rfl, rfl⟩

theorem isBlank_of_beginsPlain {c : Char} {rest : List Char}
    (h : Scanner.beginsPlain false c rest = true) : isBlank c = false ∧ c ≠ '#' := by
  have hne : ∀ d, Scanner.beginsPlain false d rest = false → c ≠ d := by
    rintro d hd rfl
    rw [h] at hd
    cases hd
  exact ⟨by simp [isBlank, hne ' ' rfl, hne '\t' rfl], hne '#' rfl⟩

theorem isPlainRest_of_append {s t : List Char} (h : isPlainRest (s ++ t) = true) :
    isPlainRest t = true := by
  induction s with
  | nil => exact h
  | cons c s ih => exact ih (isPlainRest_cons.1 h).2.2.2

/-- The word in front of a blank. -/
theorem isPlainRest_word {word t : List Char} {d : Char}
    (hword : ∀ d ∈ word, isBlank d = false) (hblank : isBlank d = true)
    (h : isPlainRest (word ++ d :: t) = true) : isPlainRest word = true := by
  induction word with
  | nil => rfl
  | cons c word ih =>
    obtain ⟨hbreak, hcolon, -, hrest⟩ := isPlainRest_cons.1 h
    have hword' : ∀ d ∈ word, isBlank d = false := fun d hd => hword d (List.mem_cons_of_mem _ hd)
    have hends : endsWord word = true → endsWord (word ++ d :: t) = true := by
      cases word with
      | nil => simp [endsWord, hblank]
      | cons e word => exact id
    refine isPlainRest_cons.2 ⟨hbreak, fun hc => hcolon ⟨hc.1, hends hc.2⟩, fun hc => ?_,
      ih hword' hrest⟩
    rw [hword c List.mem_cons_self] at hc
    cases hc.1

/-- A word is read up to where it ends. -/
theorem plainWord?_append {word t : List Char} (hplain : isPlainRest word = true)
    (hword : ∀ d ∈ word, isBlank d = false) :
    plainWord? false (word ++ t) = (plainWord? false t).map (word ++ ·) := by
  induction word with
  | nil => simp
  | cons c word ih =>
    obtain ⟨hbreak, hcolon, -, hrest⟩ := isPlainRest_cons.1 hplain
    have hread := ih hrest fun d hd => hword d (List.mem_cons_of_mem _ hd)
    have hends : c = ':' → endsWord (word ++ t) = false := by
      intro hc
      have hfalse : endsWord word = false := by
        cases h : endsWord word
        · rfl
        · exact absurd ⟨hc, h⟩ hcolon
      cases word with
      | nil => cases hfalse
      | cons e word => exact hfalse
    rw [List.cons_append, plainWord?, hread, hword c List.mem_cons_self, hbreak]
    by_cases hc : c = ':'
    · simp [hc, hends hc, Function.comp_def]
    · simp [hc, Function.comp_def]

theorem plainWord?_of_endsWord {t : List Char} (h : endsWord t = true) :
    plainWord? false t = some [] := by
  cases t with
  | nil => rfl
  | cons c t =>
    have hc : (isBlank c || isBreak c) = true := h
    simp [plainWord?, hc]

/-- The longest start of a list with a property, and what follows it. -/
theorem exists_span {α : Type} (p : α → Bool) (s : List α) : ∃ u t, s = u ++ t ∧
    (∀ d ∈ u, p d = true) ∧ ∀ d ∈ t.head?, p d = false := by
  refine ⟨s.takeWhile p, s.dropWhile p, List.takeWhile_append_dropWhile.symm,
    fun d hd => List.mem_takeWhile_imp hd, fun d hd => ?_⟩
  have hnot := List.head?_dropWhile_not p s
  rw [Option.mem_def.1 hd] at hnot
  exact hnot

/-- Behind blanks another word stands. -/
theorem isPlainRest_blanks {blanks t : List Char} (hblanks : ∀ d ∈ blanks, isBlank d = true)
    (hne : blanks ≠ []) (h : isPlainRest (blanks ++ t) = true) :
    t ≠ [] ∧ t.head? ≠ some '#' := by
  induction blanks with
  | nil => exact absurd rfl hne
  | cons c blanks ih =>
    obtain ⟨-, -, hblank, hrest⟩ := isPlainRest_cons.1 h
    cases blanks with
    | nil =>
      have hc := hblanks c List.mem_cons_self
      exact ⟨fun ht => hblank ⟨hc, .inl ht⟩, fun ht => hblank ⟨hc, .inr ht⟩⟩
    | cons d blanks =>
      exact ih (fun d hd => hblanks d (List.mem_cons_of_mem _ hd)) (List.cons_ne_nil _ _) hrest

/-- A text that begins with a word is this word, or goes on with blanks and such a text. -/
theorem exists_words {s : List Char} (hplain : isPlainRest s = true)
    (hfirst : ∀ d ∈ s.head?, isBlank d = false) : (∀ d ∈ s, isBlank d = false) ∨
      ∃ word blanks more, s = word ++ (blanks ++ more) ∧
        isPlainRest word = true ∧ (∀ d ∈ word, isBlank d = false) ∧
        blanks ≠ [] ∧ (∀ d ∈ blanks, isBlank d = true) ∧
        isPlainRest more = true ∧ more ≠ [] ∧ ∀ d ∈ more.head?, isBlank d = false ∧ d ≠ '#' := by
  obtain ⟨word, t, hs, hword, ht⟩ := exists_span (fun d => !isBlank d) s
  simp only [Bool.not_eq_true', Bool.not_eq_false'] at hword ht
  obtain ⟨blanks, more, rfl, hblanks, hmore⟩ := exists_span isBlank t
  cases blanks with
  | nil =>
    cases more with
    | nil =>
      rw [hs, List.append_nil, List.append_nil]
      exact .inl hword
    | cons d more => exact absurd (ht d rfl) (by simp [hmore d rfl])
  | cons b blanks =>
    subst hs
    have hb : isBlank b = true := hblanks b List.mem_cons_self
    obtain ⟨hne, hsign⟩ :=
      isPlainRest_blanks hblanks (List.cons_ne_nil _ _) (isPlainRest_of_append hplain)
    refine .inr ⟨word, b :: blanks, more, rfl, isPlainRest_word hword hb hplain, hword,
      List.cons_ne_nil _ _, hblanks, isPlainRest_of_append (isPlainRest_of_append hplain), hne,
      fun d hd => ⟨hmore d hd, fun h => hsign ?_⟩⟩
    rw [Option.mem_def.1 hd, h]

/-- A word of a plain scalar, when another word, blanks or a line end may follow. -/
theorem plainScalar?_word {indent : Int} {word : List Char} {c : Cursor}
    (hpos : 0 < c.column) (hsign : c.rest.head? ≠ some '#')
    (hread : plainWord? false c.rest = some word) (hne : word ≠ [])
    (hafter : (c.skip word.length).rest ≠ []) (hends : endsWord (c.skip word.length).rest = true)
    {gap : Gap} {next : Cursor}
    (hgap : Gap.read? (fun d column => d == '\t' && column < indent)
      ((c.skip word.length).rest.length + 1) .none (c.skip word.length) = some (gap, next))
    (fuel : Nat) (s : List Char) :
    plainScalar? false indent (fuel + 1) (.blanks s) c =
      if next.column < indent then some (s ++ word, next, gap.hasBreak)
      else (plainScalar? false indent fuel gap next).map fun (more, next, broken) =>
        (s ++ word ++ more, next, broken) := by
  have hmarker := c.isAtDocumentMarker_of_pos hpos
  simp only [plainScalar?, hmarker, hsign, hread, hne, hafter, hends, hgap, Gap.text, bind,
    Option.bind, decide_false, Bool.or_self, Bool.false_eq_true, if_false, Bool.not_true,
    Bool.not_false, Bool.true_and, decide_eq_true_eq]
  split
  · rfl
  · cases plainScalar? false indent fuel gap next <;> rfl

/-- A word in front of a colon that ends it. -/
theorem plainScalar?_key {indent : Int} {word : List Char} {c : Cursor}
    (hmarker : c.isAtDocumentMarker = false) (hsign : c.rest.head? ≠ some '#')
    (hread : plainWord? false c.rest = some word) (hne : word ≠ [])
    (hends : endsWord (c.skip word.length).rest = false) (fuel : Nat) :
    plainScalar? false indent (fuel + 1) .none c = some (word, c.skip word.length, false) := by
  simp only [plainScalar?, hmarker, hsign, hread, hne, hends, Gap.none, Gap.text, Gap.hasBreak,
    bind, Option.bind, decide_false, Bool.or_self, Bool.false_eq_true, if_false, Bool.not_false,
    Bool.or_true, if_true]
  rfl

/-- A word of a plain scalar that blanks and another word follow. -/
theorem plainScalar?_blanks {indent : Int} {word blanks t : List Char} {c : Cursor}
    (hpos : 0 < c.column) (hcolumn : indent ≤ c.column) (hsign : c.rest.head? ≠ some '#')
    (hplain : isPlainRest word = true) (hword : ∀ d ∈ word, isBlank d = false) (hne : word ≠ [])
    (hblanks : ∀ d ∈ blanks, isBlank d = true) (hblanksNe : blanks ≠ [])
    (hnext : ∀ d ∈ t.head?, isBlank d = false ∧ isBreak d = false)
    (hrest : c.rest = word ++ (blanks ++ t)) (fuel : Nat) (s : List Char) :
    plainScalar? false indent (fuel + 1) (.blanks s) c =
      (plainScalar? false indent fuel (.blanks blanks) (c.skip (word ++ blanks).length)).map
        fun (more, next, broken) => (s ++ word ++ more, next, broken) := by
  have hends : endsWord (blanks ++ t) = true := by
    cases blanks with
    | nil => exact absurd rfl hblanksNe
    | cons b blanks => simp [endsWord, hblanks b]
  have hread : plainWord? false c.rest = some word := by
    rw [hrest, plainWord?_append hplain hword, plainWord?_of_endsWord hends]
    simp
  have hafter : (c.skip word.length).rest = blanks ++ t := Cursor.rest_skip hrest
  have henough : blanks.length < (c.skip word.length).rest.length + 1 := by
    rw [hafter, List.length_append]
    omega
  have hgap : Gap.read? (fun d column => d == '\t' && column < indent)
      ((c.skip word.length).rest.length + 1) .none (c.skip word.length) =
        some (.blanks blanks, c.skip (word ++ blanks).length) := by
    rw [List.length_append, ← Cursor.skip_skip]
    exact Gap.read?_blanks hblanks hnext hafter henough
  have hdeeper : ¬ (c.skip (word ++ blanks).length).column < indent := by
    rw [Cursor.column_skip]
    omega
  rw [plainScalar?_word hpos hsign hread hne (by simp [hafter, hblanksNe])
    (by rw [hafter]; exact hends) hgap fuel s, if_neg hdeeper]

/-- A text is read up to the end of its line. The later lines are looked at only to see that it
does not go on there. -/
theorem plainScalar?_line {indent : Int} {v tail : List Char} {c next : Cursor} {gap : Gap}
    (hplain : isPlainRest v = true) (hne : v ≠ [])
    (hfirst : ∀ d ∈ v.head?, isBlank d = false ∧ d ≠ '#')
    (hrest : c.rest = v ++ '\n' :: tail) (hcolumn : indent ≤ c.column) (hpos : 0 < c.column)
    (hgap : Gap.read? (fun d column => d == '\t' && column < indent) (tail.length + 2) .none
      (c.skip v.length) = some (gap, next))
    (hbreak : gap.hasBreak = true) (hnext : next.column < indent)
    {fuel : Nat} (hfuel : v.length < fuel) (s : List Char) :
    plainScalar? false indent fuel (.blanks s) c = some (s ++ v, next, true) := by
  induction fuel generalizing v c s with
  | zero => exact absurd hfuel (Nat.not_lt_zero _)
  | succ fuel ih =>
    have hsign : ∀ {d}, v.head? = some d → c.rest.head? ≠ some '#' := by
      intro d hd
      rw [hrest, List.head?_append, hd]
      exact fun h => (hfirst d hd).2 (Option.some.inj h)
    obtain ⟨d, hd⟩ : ∃ d, v.head? = some d := Option.isSome_iff_exists.1 (by simp [hne])
    rcases exists_words hplain fun d hd => (hfirst d hd).1 with hword | ⟨word, blanks, more, rfl,
      hplainWord, hword, hblanksNe, hblanks, hplainMore, hmoreNe, hmore⟩
    · -- The last word ends the line.
      have hread : plainWord? false c.rest = some v := by
        rw [hrest, plainWord?_append hplain hword, plainWord?_of_endsWord rfl]
        simp
      have hafter : (c.skip v.length).rest = '\n' :: tail := Cursor.rest_skip hrest
      rw [plainScalar?_word hpos (hsign hd) hread hne (by simp [hafter]) (by rw [hafter]; rfl)
        (by rw [hafter]; exact hgap) fuel s, if_pos hnext, hbreak]
    · have hwordNe : word ≠ [] := by
        rintro rfl
        cases blanks with
        | nil => exact hblanksNe rfl
        | cons b blanks => simp [hblanks b] at hfirst
      have hnextWord : ∀ e ∈ (more ++ '\n' :: tail).head?,
          isBlank e = false ∧ isBreak e = false := by
        cases more with
        | nil => exact absurd rfl hmoreNe
        | cons e more =>
          rintro _ ⟨⟩
          exact ⟨(hmore e rfl).1, (isPlainRest_cons.1 hplainMore).1⟩
      have hrestWord : c.rest = word ++ (blanks ++ (more ++ '\n' :: tail)) := by
        rw [hrest, List.append_assoc, List.append_assoc]
      have hafter : (c.skip (word ++ blanks).length).rest = more ++ '\n' :: tail :=
        Cursor.rest_skip (by rw [hrestWord, List.append_assoc])
      have hlength : (word ++ (blanks ++ more)).length = (word ++ blanks).length + more.length := by
        rw [← List.append_assoc, List.length_append]
      have hshorter : more.length < fuel := by
        have hlengthBlanks := List.length_pos_iff.2 hblanksNe
        simp only [List.length_append] at hfuel
        omega
      rw [hlength, ← Cursor.skip_skip] at hgap
      rw [plainScalar?_blanks hpos hcolumn (hsign hd) hplainWord hword hwordNe hblanks hblanksNe
        hnextWord hrestWord, ih hplainMore hmoreNe hmore hafter
        (by rw [Cursor.column_skip]; omega) (by rw [Cursor.column_skip]; omega) hgap hshorter,
        Option.map_some]
      simp only [List.append_assoc]

end Flowline.Yaml
