import Flowline.Proofs.Yaml.Plain

/-!
# What the scanner passes over

Between two tokens the scanner passes over blanks, notes and line ends (`Scanner.passGap`): spaces,
then a note, then a line feed, and what follows it (`passGap_space`, `passGap_note`,
`passGap_lineFeed`). A plain scalar reads the same gap before it ends, and tells only in which
column the next word stands (`exists_read?`).
-/

namespace Flowline.Yaml

namespace Cursor

variable {c : Cursor}

theorem length_rest_skip (c : Cursor) (n : Nat) : (c.skip n).rest.length ≤ c.rest.length := by
  simp [skip]

theorem length_rest_skipByteOrderMark (c : Cursor) :
    c.skipByteOrderMark.rest.length ≤ c.rest.length := by
  unfold skipByteOrderMark
  split
  · exact c.length_rest_skip 1
  · exact Nat.le_refl _

theorem length_rest_skipBreak (h : c.rest ≠ []) : c.skipBreak.rest.length < c.rest.length := by
  have hpos := List.length_pos_iff.2 h
  unfold skipBreak
  dsimp only
  rw [List.length_drop]
  split <;> omega

theorem skipByteOrderMark_of_head (h : c.rest.head? ≠ some '\ufeff') : c.skipByteOrderMark = c :=
  if_neg fun hc => h hc.2

theorem skipByteOrderMark_of_pos (h : 0 < c.column) : c.skipByteOrderMark = c :=
  if_neg fun hc => Nat.ne_of_gt h hc.1

theorem skipWhile_cons {p : Char → Bool} {d : Char} {rest : List Char} (hrest : c.rest = d :: rest)
    (hd : p d = true) : c.skipWhile p = (c.skip 1).skipWhile p := by
  have hrest' : (c.skip 1).rest = rest := rest_skip (u := [d]) hrest
  rw [skipWhile, skipWhile, hrest', hrest, skip_skip, List.takeWhile_cons_of_pos hd,
    List.length_cons, Nat.add_comm]

theorem skipWhile_eq_self {p : Char → Bool} (h : ∀ d ∈ c.rest.head?, p d = false) :
    c.skipWhile p = c := by
  have htake : c.rest.takeWhile p = [] := by
    cases hrest : c.rest with
    | nil => rfl
    | cons d rest => exact List.takeWhile_cons_of_neg (by simp [h d (by rw [hrest]; rfl)])
  rw [skipWhile, htake]
  exact c.skip_zero

/-- A line feed is a line end by itself. -/
theorem skipBreak_lineFeed {rest : List Char} (h : c.rest = '\n' :: rest) :
    c.skipBreak = ⟨rest, c.index + 1, c.line + 1, 0⟩ := by
  simp [skipBreak, h, bytesOf]
  rfl

end Cursor

namespace Scanner

variable {s s' : Scanner}

/-- The scanner behind all that stands in front of the next token. -/
def passGap (s : Scanner) : Scanner := skipGap (s.cursor.rest.length + 1) s

/-- The place behind the blanks and the comment in front of the end of the line or a token. -/
def gapEnd (s : Scanner) : Cursor :=
  let c := s.cursor.skipByteOrderMark.skipWhile fun d =>
    d == ' ' || ((s.inFlow || !s.keyAllowed) && d == '\t')
  if c.rest.head? = some '#' then c.skipToBreak else c

/-- The scanner at the start of the next line. -/
def passBreak (s : Scanner) : Scanner :=
  { s with cursor := s.gapEnd.skipBreak, keyAllowed := s.keyAllowed || !s.inFlow }

theorem skipGap_succ (fuel : Nat) (s : Scanner) : skipGap (fuel + 1) s =
    if s.gapEnd.rest.head?.any isBreak then skipGap fuel s.passBreak
    else { s with cursor := s.gapEnd } := rfl

theorem length_rest_gapEnd (s : Scanner) : s.gapEnd.rest.length ≤ s.cursor.rest.length := by
  have hmark := s.cursor.length_rest_skipByteOrderMark
  unfold gapEnd
  dsimp only
  split
  · exact (Cursor.length_rest_skip _ _).trans ((Cursor.length_rest_skip _ _).trans hmark)
  · exact (Cursor.length_rest_skip _ _).trans hmark

theorem length_rest_passBreak (h : s.gapEnd.rest.head?.any isBreak = true) :
    s.passBreak.cursor.rest.length < s.cursor.rest.length := by
  have hne : s.gapEnd.rest ≠ [] := by
    intro hnil
    rw [hnil] at h
    cases h
  exact Nat.lt_of_lt_of_le (Cursor.length_rest_skipBreak hne) s.length_rest_gapEnd

/-- The text that is left is fuel enough. -/
theorem skipGap_eq_passGap {fuel : Nat} (h : s.cursor.rest.length < fuel) :
    skipGap fuel s = s.passGap := by
  unfold passGap
  generalize hn : s.cursor.rest.length + 1 = n
  have hlength : s.cursor.rest.length < n := by omega
  clear hn
  induction fuel generalizing s n with
  | zero => exact absurd h (Nat.not_lt_zero _)
  | succ fuel ih =>
    obtain ⟨n, rfl⟩ : ∃ m, n = m + 1 := ⟨n - 1, by omega⟩
    rw [skipGap_succ, skipGap_succ]
    split
    · next hbreak =>
      have hless := length_rest_passBreak hbreak
      exact ih (by omega) n (by omega)
    · rfl

theorem passGap_eq (s : Scanner) : s.passGap =
    if s.gapEnd.rest.head?.any isBreak then s.passBreak.passGap
    else { s with cursor := s.gapEnd } := by
  unfold passGap
  rw [skipGap_succ]
  split
  · next hbreak => exact skipGap_eq_passGap (length_rest_passBreak hbreak)
  · rfl

/-- Where a gap ends is all that counts. -/
theorem passGap_congr {c : Cursor} (h : { s with cursor := c }.gapEnd = s.gapEnd) :
    { s with cursor := c }.passGap = s.passGap := by
  have hbreak : { s with cursor := c }.passBreak = s.passBreak := by
    unfold passBreak
    rw [h]
    rfl
  rw [passGap_eq, passGap_eq s, h, hbreak]

/-- No gap begins here. -/
theorem gapEnd_eq_cursor (hmark : s.cursor.skipByteOrderMark = s.cursor)
    (hhead : ∀ d ∈ s.cursor.rest.head?, isBlank d = false ∧ d ≠ '#') : s.gapEnd = s.cursor := by
  have hskip : (s.cursor.skipWhile fun d =>
      d == ' ' || ((s.inFlow || !s.keyAllowed) && d == '\t')) = s.cursor := by
    refine Cursor.skipWhile_eq_self fun d hd => ?_
    have hblank := (hhead d hd).1
    simp only [isBlank, Bool.or_eq_false_iff] at hblank
    rw [hblank.1, hblank.2, Bool.and_false, Bool.or_false]
  have hsign : s.cursor.rest.head? ≠ some '#' := fun h => (hhead '#' h).2 rfl
  unfold gapEnd
  dsimp only
  rw [hmark, hskip, if_neg hsign]

theorem passGap_eq_self (hmark : s.cursor.skipByteOrderMark = s.cursor)
    (hhead : ∀ d ∈ s.cursor.rest.head?, isBlank d = false ∧ d ≠ '#' ∧ isBreak d = false) :
    s.passGap = s := by
  have hend := gapEnd_eq_cursor hmark fun d hd => ⟨(hhead d hd).1, (hhead d hd).2.1⟩
  have hbreak : s.cursor.rest.head?.any isBreak = false := by
    cases hrest : s.cursor.rest.head? with
    | none => rfl
    | some d => exact (hhead d hrest).2.2
  rw [passGap_eq, hend, hbreak]
  rfl

theorem passGap_space {rest : List Char} (h : s.cursor.rest = ' ' :: rest) :
    (s.skip 1).passGap = s.passGap := by
  refine passGap_congr ?_
  have hmark : s.cursor.skipByteOrderMark = s.cursor :=
    Cursor.skipByteOrderMark_of_head (by simp [h])
  have hmark' : (s.cursor.skip 1).skipByteOrderMark = s.cursor.skip 1 :=
    Cursor.skipByteOrderMark_of_pos (Nat.succ_pos _)
  unfold gapEnd
  dsimp only
  rw [hmark, hmark', Cursor.skipWhile_cons h (by simp)]
  rfl

theorem rest_skip_spaces {n : Nat} {rest : List Char}
    (h : s.cursor.rest = List.replicate n ' ' ++ rest) : (s.skip n).cursor.rest = rest := by
  have hskip := Cursor.rest_skip h
  rwa [List.length_replicate] at hskip

theorem passGap_spaces {n : Nat} {rest : List Char}
    (h : s.cursor.rest = List.replicate n ' ' ++ rest) : (s.skip n).passGap = s.passGap := by
  induction n generalizing s with
  | zero => simp [skip]
  | succ n ih =>
    have hrest : (s.skip 1).cursor.rest = List.replicate n ' ' ++ rest :=
      Cursor.rest_skip (u := [' ']) h
    have hskip : (s.skip 1).skip n = s.skip (n + 1) := by
      simp only [skip, Cursor.skip_skip, Nat.add_comm]
    rw [← hskip, ih hrest, passGap_space h]

theorem passGap_note {text rest : List Char} (h : s.cursor.rest = ('#' :: text) ++ '\n' :: rest)
    (htext : ∀ d ∈ text, isBreak d = false) :
    (s.skip (text.length + 1)).passGap = s.passGap := by
  refine passGap_congr ?_
  have hmark : s.cursor.skipByteOrderMark = s.cursor :=
    Cursor.skipByteOrderMark_of_head (by simp [h])
  have hskip : (s.cursor.skipWhile fun d =>
      d == ' ' || ((s.inFlow || !s.keyAllowed) && d == '\t')) = s.cursor :=
    Cursor.skipWhile_eq_self (by simp [h])
  have hrest : (s.cursor.skip (text.length + 1)).rest = '\n' :: rest := Cursor.rest_skip h
  have hafter : { s with cursor := s.cursor.skip (text.length + 1) }.gapEnd =
      s.cursor.skip (text.length + 1) :=
    gapEnd_eq_cursor (Cursor.skipByteOrderMark_of_head (by simp [hrest]))
      (by simp [hrest, isBlank])
  have htake : ('#' :: text ++ '\n' :: rest).takeWhile (fun d => !isBreak d) = '#' :: text := by
    rw [List.takeWhile_append_of_pos]
    · rw [List.takeWhile_cons_of_neg (by decide), List.append_nil]
    · exact List.forall_mem_cons.2 ⟨by decide, fun d hd => by rw [htext d hd]; rfl⟩
  rw [hafter]
  unfold gapEnd
  dsimp only
  rw [hmark, hskip, if_pos (by simp [h]), Cursor.skipToBreak, Cursor.skipWhile, h, htake]
  rfl

theorem passGap_lineFeed {rest : List Char} (h : s.cursor.rest = '\n' :: rest)
    (hflow : s.inFlow = false) :
    { s with cursor := s.cursor.skipBreak, keyAllowed := true }.passGap = s.passGap := by
  have hend : s.gapEnd = s.cursor :=
    gapEnd_eq_cursor (Cursor.skipByteOrderMark_of_head (by simp [h])) (by simp [h, isBlank])
  have hbreak : s.cursor.rest.head?.any isBreak = true := by
    rw [h]
    rfl
  rw [passGap_eq s, hend, if_pos hbreak, passBreak, hend, hflow, Bool.not_false, Bool.or_true]

/-- What a scalar passes over behind its last word would be passed over in front of the next token
as well. -/
theorem exists_read? (refuse : Char → Nat → Bool) (hrefuse : ∀ column, refuse ' ' column = false)
    (hflow : s.inFlow = false) (hkey : s.keyAllowed = true) {c : Cursor} {column : Nat}
    (h : gapColumn? c.rest c.column = some column) {fuel : Nat} (hfuel : c.rest.length < fuel)
    (gap : Gap) : ∃ gap' c', Gap.read? refuse fuel gap c = some (gap', c') ∧ c'.column = column ∧
      (gap.hasBreak = true → gap'.hasBreak = true) ∧
      { s with cursor := c' }.passGap = { s with cursor := c }.passGap := by
  induction fuel generalizing c gap with
  | zero => exact absurd hfuel (Nat.not_lt_zero _)
  | succ fuel ih =>
    cases hrest : c.rest with
    | nil =>
      rw [hrest] at h
      exact ⟨gap, c, by simp [Gap.read?, hrest], Option.some.inj h, id, rfl⟩
    | cons d rest =>
      rw [hrest] at h hfuel
      have hfuel' : rest.length < fuel := Nat.lt_of_succ_lt_succ hfuel
      unfold gapColumn? at h
      split at h
      · next hspace =>
        subst hspace
        have hafter : (c.skip 1).rest = rest := Cursor.rest_skip (u := [' ']) hrest
        obtain ⟨gap', c', hread, hcolumn, hbreak, hpass⟩ :=
          ih (c := c.skip 1) (hafter ▸ h) (hafter ▸ hfuel') (gap.addBlank ' ')
        refine ⟨gap', c', ?_, hcolumn, fun hgap => hbreak ?_,
          hpass.trans (passGap_space (s := { s with cursor := c }) hrest)⟩
        · simp [Gap.read?, hrest, isBlank, hrefuse, hread]
        · cases gap with
          | blanks t => cases hgap
          | breaks first more => rfl
      · split at h
        · next hfeed =>
          subst hfeed
          have hafter := Cursor.skipBreak_lineFeed hrest
          obtain ⟨gap', c', hread, hcolumn, hbreak, hpass⟩ :=
            ih (c := c.skipBreak) (by rw [hafter]; exact h) (by rw [hafter]; exact hfuel')
              (gap.addBreak '\n')
          have hfeed := passGap_lineFeed (s := { s with cursor := c }) hrest hflow
          refine ⟨gap', c', ?_, hcolumn, fun _ => hbreak ?_, hpass.trans ?_⟩
          · simp [Gap.read?, hrest, isBlank, isBreak, hread]
          · cases gap <;> rfl
          · rw [← hfeed, ← hkey]
        · split at h
          · cases h
          · next hother =>
            simp only [Bool.not_eq_true, Bool.or_eq_false_iff] at hother
            exact ⟨gap, c, by simp [Gap.read?, hrest, hother], Option.some.inj h, id, rfl⟩

end Scanner

end Flowline.Yaml
