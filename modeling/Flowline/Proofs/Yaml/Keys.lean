import Flowline.Proofs.Yaml.Gaps

/-!
# Keys and plain values

The scanner reads one token after the other behind the gap between them (`Scanner.run?_token`). A
key with its colon ends and begins blocks by its column and gives at most three tokens
(`Scanner.readKey`, `run?_key`); a plain value gives one (`run?_value`).
-/

namespace Flowline.Yaml

namespace Scanner

variable {s s' : Scanner}

/-! ## One token after the other -/

theorem run?_succ (fuel : Nat) (s : Scanner) : run? (fuel + 1) s = (do
    let s ← s.passGap.dropStale?
    let s := s.unroll s.cursor.column
    match s.cursor.rest with
    | [] => s.finish?
    | c :: rest => run? fuel (← s.scanToken? c rest)) := rfl

theorem run?_congr (h : s'.passGap = s.passGap) (fuel : Nat) : run? fuel s' = run? fuel s := by
  cases fuel with
  | zero => rfl
  | succ fuel => rw [run?_succ, run?_succ, h]

/-- The scanner at another place, with all that it knows of the text before. -/
def place (s : Scanner) (c : Cursor) (keyAllowed : Bool) : Scanner :=
  { s with cursor := c, keyAllowed := keyAllowed }

/-- The scanner with the innermost block ended. -/
def closeBlock (s : Scanner) : Scanner :=
  { s.emit .blockEnd with indent := s.indents.headD (-1), indents := s.indents.drop 1 }

theorem closeBlocks_succ (column : Int) (fuel : Nat) (s : Scanner) :
    closeBlocks column (fuel + 1) s =
      if s.indent ≤ column then s else closeBlocks column fuel s.closeBlock := rfl

theorem closeBlocks_place (column : Int) (fuel : Nat) (s : Scanner) (c : Cursor) (allowed : Bool) :
    closeBlocks column fuel (s.place c allowed) = (closeBlocks column fuel s).place c allowed := by
  induction fuel generalizing s with
  | zero => rfl
  | succ fuel ih =>
    rw [closeBlocks_succ, closeBlocks_succ]
    by_cases h : s.indent ≤ column
    · rw [if_pos h]
      exact if_pos h
    · rw [if_neg h]
      exact (if_neg h).trans (ih s.closeBlock)

theorem unroll_place (s : Scanner) (column : Int) (c : Cursor) (allowed : Bool) :
    (s.place c allowed).unroll column = (s.unroll column).place c allowed := by
  unfold unroll
  by_cases h : s.inFlow = true
  · rw [if_pos h]
    exact if_pos h
  · rw [if_neg h]
    exact (if_neg h).trans (closeBlocks_place ..)

/-- Ending blocks changes neither the place nor what is known of keys. -/
theorem place_unroll (s : Scanner) (column : Int) :
    (s.unroll column).place s.cursor s.keyAllowed = s.unroll column :=
  (unroll_place s column s.cursor s.keyAllowed).symm

theorem candidates_closeBlocks (column : Int) (fuel : Nat) (s : Scanner) :
    (closeBlocks column fuel s).candidates = s.candidates := by
  induction fuel generalizing s with
  | zero => rfl
  | succ fuel ih =>
    rw [closeBlocks_succ]
    split
    · rfl
    · exact ih s.closeBlock

theorem candidates_unroll (s : Scanner) (column : Int) :
    (s.unroll column).candidates = s.candidates := by
  unfold unroll
  split
  · rfl
  · exact candidates_closeBlocks ..

theorem unroll_eq_self {column : Int} (h : s.indent ≤ column) : s.unroll column = s := by
  rw [unroll, closeBlocks_succ, if_pos h, ite_self]

/-- No deeper block is left. -/
theorem indent_unroll_le (hflow : s.inFlow = false) {column : Int} (h : -1 ≤ column) :
    (s.unroll column).indent ≤ column := by
  have hclose : ∀ fuel (s : Scanner), (s.indents.length < fuel ∨ s.indent ≤ column) →
      (closeBlocks column fuel s).indent ≤ column := by
    intro fuel
    induction fuel with
    | zero => exact fun s hs => hs.resolve_left (Nat.not_lt_zero _)
    | succ fuel ih =>
      intro s hs
      rw [closeBlocks_succ]
      split
      · next hindent => exact hindent
      · next hindent =>
        refine ih s.closeBlock ?_
        have hlength := hs.resolve_right hindent
        cases hindents : s.indents with
        | nil =>
          refine .inr (le_of_eq_of_le ?_ h)
          rw [closeBlock, hindents]
          rfl
        | cons i indents =>
          rw [hindents] at hlength
          rw [closeBlock, hindents]
          exact .inl (Nat.lt_of_succ_lt_succ hlength)
  unfold unroll
  rw [hflow]
  exact hclose _ s (.inl (Nat.lt_succ_self _))

/-- The scanner stands outside brackets, and no key can have begun on the line so far. -/
def IsSettled (s : Scanner) : Prop := s.candidates = [none]

theorem IsSettled.inFlow (h : s.IsSettled) : s.inFlow = false := by
  rw [Scanner.inFlow, h]
  rfl

theorem IsSettled.dropStale? (h : s.IsSettled) : s.dropStale? = some s := by
  obtain ⟨cursor, tokens, keyPlaces, indent, indents, keyAllowed, candidates⟩ := s
  cases h
  rfl

theorem IsSettled.saveCandidate? (h : s.IsSettled) (hallowed : s.keyAllowed = true) :
    s.saveCandidate? = some { s with candidates := [some ⟨s.tokens.length,
      s.indent == s.cursor.column, s.cursor.index, s.cursor.line, s.cursor.column⟩] } := by
  obtain ⟨cursor, tokens, keyPlaces, indent, indents, keyAllowed, candidates⟩ := s
  cases h
  cases hallowed
  rfl

/-- The token that stands here is scanned. -/
theorem run?_token {d : Char} {rest : List Char} (hpass : s.passGap = s)
    (hstale : s.dropStale? = some s) (hrest : s.cursor.rest = d :: rest)
    (hscan : (s.unroll s.cursor.column).scanToken? d rest = some s') (fuel : Nat) :
    run? (fuel + 1) s = run? fuel s' := by
  have hcursor : (s.unroll s.cursor.column).cursor.rest = d :: rest := by
    rw [← place_unroll]
    exact hrest
  rw [run?_succ, hpass, hstale]
  simp only [bind, Option.bind, hcursor, hscan]

theorem scanToken?_plain (hflow : s.inFlow = false) (hmarker : s.cursor.isAtDocumentMarker = false)
    {c : Char} {rest : List Char} (hbegins : beginsPlain false c rest = true)
    (hentry : ¬ (c = '-' ∧ endsWord rest = true)) : s.scanToken? c rest = s.scanPlain? := by
  have hne : ∀ d ∈ ['%', '[', '\x7b', ']', '\x7d', ',', '*', '&', '!', '|', '>', '\'', '"'],
      c ≠ d := by
    rintro d hd rfl
    have hfalse : beginsPlain false c rest = false := by
      revert hd
      simp only [List.mem_cons, List.not_mem_nil, or_false]
      rintro (rfl | rfl | rfl | rfl | rfl | rfl | rfl | rfl | rfl | rfl | rfl | rfl | rfl) <;> rfl
    rw [hfalse] at hbegins
    cases hbegins
  have hquestion : ¬ (c = '?' ∧ endsWord rest = true) := by
    rintro ⟨rfl, hrest⟩
    simp [beginsPlain, hrest, isIndicator] at hbegins
  have hcolon : ¬ (c = ':' ∧ endsWord rest = true) := by
    rintro ⟨rfl, hrest⟩
    simp [beginsPlain, hrest, isIndicator] at hbegins
  simp only [List.forall_mem_cons] at hne
  simp only [Cursor.isAtDocumentMarker, Bool.or_eq_false_iff] at hmarker
  unfold scanToken?
  simp [hflow, hmarker, hne, hentry, hquestion, hcolon, hbegins]

/-! ## Keys and values -/

/-- A character of the keys that settings have. -/
def isKeyChar (c : Char) : Bool := c.isAlphanum || c == '_'

/-- A key of settings. It is short enough to be recognised by the colon behind it. -/
def isKey (key : List Char) : Bool := key ≠ [] && key.length ≤ 256 && key.all isKeyChar

theorem isKey_iff {key : List Char} :
    isKey key = true ↔ key ≠ [] ∧ key.length ≤ 256 ∧ ∀ c ∈ key, isKeyChar c = true := by
  simp only [isKey, Bool.and_eq_true, decide_eq_true_eq, List.all_eq_true, and_assoc]

theorem isKeyChar_spec {c : Char} (h : isKeyChar c = true) :
    isBlank c = false ∧ isBreak c = false ∧ isIndicator c = false ∧ c ≠ '.' ∧ c ≠ '\ufeff' := by
  have hne : ∀ d, isKeyChar d = false → c ≠ d := by
    rintro d hd rfl
    rw [h] at hd
    cases hd
  refine ⟨?_, ?_, ?_, hne '.' rfl, hne '\ufeff' rfl⟩
  · simp [isBlank, hne ' ' rfl, hne '\t' rfl]
  · simp [isBreak, hne '\n' rfl, hne '\r' rfl, hne '\u0085' rfl, hne '\u2028' rfl,
      hne '\u2029' rfl]
  · have hindicators : ['-', '?', ':', ',', '[', ']', '\x7b', '\x7d', '#', '&', '*', '!', '|', '>',
        '\'', '"', '%', '@', '\x60'].all (fun d => !isKeyChar d) = true := by decide
    rw [isIndicator, ← Bool.not_eq_true, List.contains_iff_mem]
    exact fun hc => hne c (by simpa using List.all_eq_true.1 hindicators c hc) rfl

theorem isAllowed_of_isKeyChar {c : Char} (h : isKeyChar c = true) : isAllowed c = true := by
  have hrange : 0x20 ≤ c.toNat ∧ c.toNat ≤ 0x7E := by
    delta isKeyChar Char.isAlphanum Char.isAlpha Char.isUpper Char.isLower Char.isDigit at h
    simp only [Bool.or_eq_true, Bool.and_eq_true, decide_eq_true_eq, beq_iff_eq,
      UInt32.le_iff_toNat_le, ge_iff_le] at h
    rcases h with ((⟨hlow, hhigh⟩ | ⟨hlow, hhigh⟩) | ⟨hlow, hhigh⟩) | rfl
    · exact ⟨Nat.le_trans (by decide) hlow, Nat.le_trans hhigh (by decide)⟩
    · exact ⟨Nat.le_trans (by decide) hlow, Nat.le_trans hhigh (by decide)⟩
    · exact ⟨Nat.le_trans (by decide) hlow, Nat.le_trans hhigh (by decide)⟩
    · decide
  simp [isAllowed, hrange]

theorem isPlainRest_of_isKeyChar {key : List Char} (h : ∀ c ∈ key, isKeyChar c = true) :
    isPlainRest key = true := by
  induction key with
  | nil => rfl
  | cons c key ih =>
    obtain ⟨hblank, hbreak, hindicator, -⟩ := isKeyChar_spec (h c List.mem_cons_self)
    refine isPlainRest_cons.2 ⟨hbreak, ?_, by simp [hblank],
      ih fun d hd => h d (List.mem_cons_of_mem _ hd)⟩
    rintro ⟨rfl, -⟩
    cases hindicator

/-- What a key in a column does: it ends the blocks that are deeper, and begins one if it is the
first key of its own. -/
def readKey (s : Scanner) (column : Nat) (key : List Char) : Scanner :=
  let s := s.unroll column
  { ((s.indentTo column).emit (.scalar .plain key)).emit .value with
    keyPlaces := ⟨s.tokens.length, s.opensBlock column⟩ :: s.keyPlaces }

section Keys

variable {c : Cursor} {tokens : List Token} {places : List KeyPlace} {indent : Int}
  {indents : List Int} {allowed : Bool} {column : Nat}

/-- A key in the column of the current block. -/
theorem readKey_sibling (h : indent = column) (key : List Char) :
    readKey ⟨c, tokens, places, indent, indents, allowed, [none]⟩ column key =
      ⟨c, .value :: .scalar .plain key :: tokens, ⟨tokens.length, false⟩ :: places, indent, indents,
        allowed, [none]⟩ := by
  subst h
  unfold readKey
  rw [unroll_eq_self (Int.le_refl _)]
  simp [indentTo, opensBlock, emit]

/-- The first key of a block. -/
theorem readKey_nested (h : indent < column) (key : List Char) :
    readKey ⟨c, tokens, places, indent, indents, allowed, [none]⟩ column key =
      ⟨c, .value :: .scalar .plain key :: tokens, ⟨tokens.length, true⟩ :: places, column,
        indent :: indents, allowed, [none]⟩ := by
  unfold readKey
  rw [unroll_eq_self (Int.le_of_lt h)]
  simp [indentTo, opensBlock, Scanner.inFlow, emit, h]

/-- A key of the block around the current one. -/
theorem readKey_outer {outer : Int} (h : outer = column) (hinner : outer < indent)
    (key : List Char) :
    readKey ⟨c, tokens, places, indent, outer :: indents, allowed, [none]⟩ column key =
      ⟨c, .value :: .scalar .plain key :: .blockEnd :: tokens,
        ⟨tokens.length + 1, false⟩ :: places, outer, indents, allowed, [none]⟩ := by
  subst h
  have hunroll : unroll ⟨c, tokens, places, indent, column :: indents, allowed, [none]⟩ column =
      ⟨c, .blockEnd :: tokens, places, column, indents, allowed, [none]⟩ := by
    have hdeeper : ¬ indent ≤ column := Int.not_le.2 hinner
    simp [unroll, Scanner.inFlow, closeBlocks, emit, hdeeper]
  unfold readKey
  rw [hunroll]
  simp [indentTo, opensBlock, emit]

end Keys

theorem indentTo_place (s : Scanner) (column : Nat) (c : Cursor) (allowed : Bool) :
    (s.place c allowed).indentTo column = (s.indentTo column).place c allowed := by
  unfold indentTo
  by_cases h : s.opensBlock column = true
  · rw [if_pos h]
    exact if_pos h
  · rw [if_neg h]
    exact if_neg h

theorem place_indentTo (s : Scanner) (column : Nat) :
    (s.indentTo column).place s.cursor s.keyAllowed = s.indentTo column :=
  (indentTo_place s column s.cursor s.keyAllowed).symm

theorem readKey_place (s : Scanner) (column : Nat) (key : List Char) (c : Cursor) (allowed : Bool) :
    (s.place c allowed).readKey column key = (s.readKey column key).place c allowed := by
  unfold readKey
  rw [unroll_place]
  dsimp only
  rw [indentTo_place]
  rfl

/-- The key is a scalar at first, which may turn out to be a key. -/
theorem run?_keyScalar (hs : s.IsSettled) (hallowed : s.keyAllowed = true) {key rest : List Char}
    (hkey : isKey key = true) (hrest : s.cursor.rest = key ++ ':' :: rest)
    (hends : endsWord rest = true) (fuel : Nat) : ∃ required, run? (fuel + 1) s = run? fuel
      { ((s.unroll s.cursor.column).emit (.scalar .plain key)).place
          (s.cursor.skip key.length) false with
        candidates := [some ⟨(s.unroll s.cursor.column).tokens.length, required, s.cursor.index,
          s.cursor.line, s.cursor.column⟩] } := by
  obtain ⟨hne, -, hchars⟩ := isKey_iff.1 hkey
  have hword : ∀ d ∈ key, isBlank d = false := fun d hd => (isKeyChar_spec (hchars d hd)).1
  have hread : plainWord? false s.cursor.rest = some key := by
    rw [hrest, plainWord?_append (isPlainRest_of_isKeyChar hchars) hword]
    simp [plainWord?, hends, isBlank, isBreak]
  obtain ⟨d, key', rfl⟩ := List.exists_cons_of_ne_nil hne
  obtain ⟨hblank, hbreak, hindicator, hpoint, hmark⟩ := isKeyChar_spec (hchars d List.mem_cons_self)
  have hdash : d ≠ '-' := by
    rintro rfl
    cases hindicator
  have hsign : d ≠ '#' := by
    rintro rfl
    cases hindicator
  have hmarker : s.cursor.isAtDocumentMarker = false := by
    simp [Cursor.isAtDocumentMarker, Cursor.isAtMarker, hrest, hdash.symm, hpoint.symm]
  have hpass : s.passGap = s :=
    passGap_eq_self (Cursor.skipByteOrderMark_of_head (by simp [hrest, hmark]))
      (by simp [hrest, hblank, hsign, hbreak])
  have hbegins : beginsPlain false d (key' ++ ':' :: rest) = true := by
    simp [beginsPlain, hindicator, hblank, hbreak]
  have hafter : (s.cursor.skip (d :: key').length).rest = ':' :: rest := Cursor.rest_skip hrest
  have hscalar : ∀ indent, plainScalar? false indent (s.cursor.rest.length + 1) .none s.cursor =
      some (d :: key', s.cursor.skip (d :: key').length, false) := fun _ =>
    plainScalar?_key hmarker (by simp [hrest, hsign]) hread hne (by rw [hafter]; rfl) _
  have hunrolled : (s.unroll s.cursor.column).IsSettled := (candidates_unroll ..).trans hs
  have hcursor : (s.unroll s.cursor.column).cursor = s.cursor := by
    rw [← place_unroll]
    rfl
  have hkeyAllowed : (s.unroll s.cursor.column).keyAllowed = true := by
    rw [← place_unroll]
    exact hallowed
  have hmarkerUnrolled : (s.unroll s.cursor.column).cursor.isAtDocumentMarker = false := by
    rw [hcursor]
    exact hmarker
  have hscan : (s.unroll s.cursor.column).scanToken? d (key' ++ ':' :: rest) =
      (s.unroll s.cursor.column).scanPlain? :=
    scanToken?_plain hunrolled.inFlow hmarkerUnrolled hbegins fun h => hdash h.1
  refine ⟨(s.unroll s.cursor.column).indent == s.cursor.column,
    run?_token hpass hs.dropStale? hrest (hscan.trans ?_) fuel⟩
  rw [scanPlain?, hunrolled.saveCandidate? hkeyAllowed]
  simp only [bind, Option.bind, hcursor, Scanner.inFlow, List.length_singleton, Nat.lt_irrefl,
    decide_false, hscalar]
  rfl

theorem bytesOf_le (c : Cursor) (n : Nat) : c.bytesOf n ≤ 4 * n := by
  have hsum : ∀ l : List Char, ((l.map Char.utf8Size).foldr (· + ·) 0) ≤ 4 * l.length := by
    intro l
    induction l with
    | nil => exact Nat.le_refl _
    | cons d l ih =>
      have hd := d.utf8Size_le_four
      simp only [List.map_cons, List.foldr_cons, List.length_cons]
      omega
  exact (hsum _).trans (Nat.mul_le_mul_left 4 (List.length_take_le n c.rest))

/-- The colon makes a key of the scalar in front of it. -/
theorem run?_colon {k : Candidate} (hs : s.candidates = [some k]) (hline : k.line = s.cursor.line)
    (hindex : s.cursor.index ≤ k.index + 1024) (hindent : s.indent ≤ s.cursor.column)
    {rest : List Char} (hrest : s.cursor.rest = ':' :: rest) (hends : endsWord rest = true)
    (fuel : Nat) : run? (fuel + 1) s = run? fuel
      { ((s.indentTo k.column).emit .value).place (s.cursor.skip 1) false with
        keyPlaces := ⟨k.tokens, s.opensBlock k.column⟩ :: s.keyPlaces, candidates := [none] } := by
  have hpass : s.passGap = s :=
    passGap_eq_self (Cursor.skipByteOrderMark_of_head (by simp [hrest]))
      (by simp [hrest, isBlank, isBreak])
  have hstale : s.dropStale? = some s := by
    obtain ⟨cursor, tokens, keyPlaces, indent, indents, keyAllowed, candidates⟩ := s
    cases hs
    have hfresh : ¬ (k.line < cursor.line ∨ k.index + 1024 < cursor.index) := by
      simp only at hline hindex
      omega
    simp [Scanner.dropStale?, hfresh]
  have hscan : s.scanToken? ':' rest = s.scanValue? := by
    simp [scanToken?, hends, Cursor.isAtMarker, hrest]
  refine run?_token hpass hstale hrest ?_ fuel
  rw [unroll_eq_self hindent, hscan, scanValue?, hs]
  dsimp only
  rw [← place_indentTo]
  rfl

/-- A key is scanned in two turns: first it is a scalar, then the colon makes a key of it. -/
theorem run?_key (hs : s.IsSettled) (hallowed : s.keyAllowed = true) {key rest : List Char}
    (hkey : isKey key = true) (hrest : s.cursor.rest = key ++ ':' :: rest)
    (hends : endsWord rest = true) (fuel : Nat) :
    run? (fuel + 2) s = run? fuel ((s.readKey s.cursor.column key).place
      (s.cursor.skip (key.length + 1)) false) := by
  obtain ⟨required, hscalar⟩ := run?_keyScalar hs hallowed hkey hrest hends (fuel + 1)
  obtain ⟨-, hlength, -⟩ := isKey_iff.1 hkey
  have hbytes := bytesOf_le s.cursor key.length
  have hindex : (s.cursor.skip key.length).index ≤ s.cursor.index + 1024 := by
    simp only [Cursor.skip]
    omega
  have hindent : (s.unroll s.cursor.column).indent ≤ s.cursor.column :=
    indent_unroll_le hs.inFlow (by omega)
  have hdeeper : (s.unroll s.cursor.column).indent ≤ (s.cursor.skip key.length).column := by
    rw [Cursor.column_skip]
    omega
  have hunrolled : (s.unroll s.cursor.column).IsSettled := (candidates_unroll ..).trans hs
  rw [hscalar, run?_colon rfl rfl hindex hdeeper (Cursor.rest_skip hrest) hends fuel]
  have hskip : (s.cursor.skip key.length).skip 1 = s.cursor.skip (key.length + 1) :=
    Cursor.skip_skip ..
  unfold readKey
  generalize s.unroll s.cursor.column = t at hunrolled ⊢
  obtain ⟨cursor, tokens, keyPlaces, indent, indents, keyAllowed, candidates⟩ := t
  cases hunrolled
  congr 1
  unfold indentTo
  by_cases h : indent < s.cursor.column
  · simp [opensBlock, Scanner.inFlow, h, emit, place, hskip]
  · simp [opensBlock, Scanner.inFlow, h, emit, place, hskip]

/-- A value is a scalar up to the end of its line. The line ends behind it are passed over with it,
as they would be in front of the next token. -/
theorem exists_plainScalar?_value (hs : s.IsSettled) {v tail : List Char}
    (hv : isPlainLine v = true) (hne : v ≠ []) (hrest : s.cursor.rest = ' ' :: v ++ '\n' :: tail)
    (hindent : s.indent ≤ s.cursor.column) {column : Nat} (hnext : gapColumn? tail 0 = some column)
    (hcolumn : column ≤ s.indent) : ∃ next,
      plainScalar? false (s.indent + 1) ((s.cursor.skip 1).rest.length + 1) .none
        (s.cursor.skip 1) = some (v, next, true) ∧
      ∀ fuel, run? fuel ((s.emit (.scalar .plain v)).place next true) = run? fuel
        ((s.emit (.scalar .plain v)).place (s.cursor.skip (v.length + 1)).skipBreak true) := by
  have hrestValue : (s.cursor.skip 1).rest = v ++ '\n' :: tail :=
    Cursor.rest_skip (u := [' ']) hrest
  have hrestEnd : (s.cursor.skip (v.length + 1)).rest = '\n' :: tail := by
    rw [Nat.add_comm, ← Cursor.skip_skip]
    exact Cursor.rest_skip hrestValue
  have hfeed := Cursor.skipBreak_lineFeed hrestEnd
  let refuse : Char → Nat → Bool := fun d column => d == '\t' && column < s.indent + 1
  let done : Scanner :=
    (s.emit (.scalar .plain v)).place (s.cursor.skip (v.length + 1)).skipBreak true
  obtain ⟨gap, next, hgap, hnextColumn, hbreak, hpassed⟩ := done.exists_read? refuse (fun _ => rfl)
    hs.inFlow rfl (c := (s.cursor.skip (v.length + 1)).skipBreak) (by rw [hfeed]; exact hnext)
    (Nat.lt_succ_self _) (Gap.none.addBreak '\n')
  have hgapEnd : Gap.read? refuse (tail.length + 2) .none ((s.cursor.skip 1).skip v.length) =
      some (gap, next) := by
    rw [hfeed] at hgap
    rw [Cursor.skip_skip, Nat.add_comm 1, Gap.read?_lineFeed hrestEnd, hfeed]
    exact hgap
  have hcolumnHere : (s.cursor.skip 1).column = s.cursor.column + 1 := rfl
  refine ⟨next, ?_, fun fuel => run?_congr hpassed fuel⟩
  obtain ⟨d, v', rfl⟩ := List.exists_cons_of_ne_nil hne
  obtain ⟨hbegins, -, hplain, -⟩ := isPlainLine_cons.1 hv
  refine plainScalar?_line hplain hne (by simpa using isBlank_of_beginsPlain hbegins) hrestValue
    (by omega) (by omega) hgapEnd (hbreak rfl) (by omega) ?_ []
  rw [hrestValue, List.length_append]
  omega

/-- A value that is not empty is scanned in one turn, up to the end of its line. -/
theorem run?_value (hs : s.IsSettled) (hallowed : s.keyAllowed = false) {v tail : List Char}
    (hv : isPlainLine v = true) (hne : v ≠ []) (hrest : s.cursor.rest = ' ' :: v ++ '\n' :: tail)
    (hindent : s.indent ≤ s.cursor.column) {column : Nat} (hnext : gapColumn? tail 0 = some column)
    (hcolumn : column ≤ s.indent) (fuel : Nat) : run? (fuel + 1) s = run? fuel
      ((s.emit (.scalar .plain v)).place (s.cursor.skip (v.length + 1)).skipBreak true) := by
  obtain ⟨next, hscalar, hdone⟩ :=
    exists_plainScalar?_value hs hv hne hrest hindent hnext hcolumn
  have hrestValue : (s.skip 1).cursor.rest = v ++ '\n' :: tail :=
    Cursor.rest_skip (u := [' ']) hrest
  obtain ⟨d, v', rfl⟩ := List.exists_cons_of_ne_nil hne
  obtain ⟨hbegins, hentry, hplain, -⟩ := isPlainLine_cons.1 hv
  obtain ⟨hbeginsHere, hendsHere⟩ := beginsPlain_append_lineFeed d v' tail
  have hfirst := isBlank_of_beginsPlain hbegins
  have hflow : (s.skip 1).inFlow = false := hs.inFlow
  have hcursor : (s.skip 1).cursor = s.cursor.skip 1 := rfl
  have hindentHere : (s.skip 1).indent = s.indent := rfl
  have hcolumnHere : (s.skip 1).cursor.column = s.cursor.column + 1 := rfl
  have hpos : 0 < (s.skip 1).cursor.column := Nat.succ_pos _
  have hpass : (s.skip 1).passGap = s.skip 1 :=
    passGap_eq_self (Cursor.skipByteOrderMark_of_pos hpos)
      (by simp [hrestValue, hfirst, (isPlainRest_cons.1 hplain).1])
  have hscan : (s.skip 1).scanToken? d (v' ++ '\n' :: tail) = (s.skip 1).scanPlain? :=
    scanToken?_plain hflow (Cursor.isAtDocumentMarker_of_pos hpos) (hbeginsHere.trans hbegins)
      (hendsHere ▸ hentry)
  have hsave : (s.skip 1).saveCandidate? = some (s.skip 1) := by
    simp [Scanner.saveCandidate?, skip, hallowed]
  have hunroll : (s.skip 1).unroll (s.skip 1).cursor.column = s.skip 1 :=
    unroll_eq_self (by omega)
  rw [← run?_congr (passGap_space hrest), ← hdone]
  refine run?_token hpass (IsSettled.dropStale? hs) hrestValue ?_ fuel
  rw [hunroll]
  refine hscan.trans ?_
  rw [scanPlain?, hsave]
  simp only [bind, Option.bind, hflow, hcursor, hindentHere, hscalar]
  rfl

end Scanner

end Flowline.Yaml
