import Flowline.Proofs.Yaml.Keys

/-!
# Texts of simple lines

Many settings are written as lines of one of three kinds: empty lines, notes, and keys, each with a
plain value on its line or without one. `Line.scan` says what a line does to the scanner.
`Token.scan?_lines` says that the scanner does nothing else, if the lines fit.
-/

namespace Flowline.Yaml

/-! ## Lines -/

/-- A line of settings. -/
inductive Line where
  | empty
  /-- A comment that begins in a column. -/
  | note (column : Nat) (text : String)
  /-- A key that begins in a column. A value stands on its line, behind a space. -/
  | entry (column : Nat) (key : String) (value : Option String)

namespace Line

/-- What stands behind the key of an entry. -/
def valueChars (value : Option String) : List Char := value.elim [] fun v => ' ' :: v.toList

/-- The line without its end. -/
def body : Line → List Char
  | empty => []
  | note column text => List.replicate column ' ' ++ '#' :: text.toList
  | entry column key value => List.replicate column ' ' ++ (key.toList ++ ':' :: valueChars value)

/-- The text of lines. -/
def text (lines : List Line) : List Char := lines.flatMap fun l => l.body ++ ['\n']

/-- What a line tells the scanner. An empty value is no token. -/
def read (s : Scanner) : Line → Scanner
  | empty | note .. => s
  | entry column key value =>
    let s := s.readKey column key.toList
    if value.getD "" = "" then s else s.emit (.scalar .plain (value.getD "").toList)

/-- The scanner behind a line. -/
def scan (s : Scanner) (l : Line) : Scanner :=
  (l.read s).place (s.cursor.skip l.body.length).skipBreak true

/-- A line that is scanned as it is meant, in front of others: a value means itself, and what comes
next is not indented deeper, since the value would go on there. -/
def Fits (tail : List Char) : Line → Prop
  | empty => True
  | note _ text => ∀ d ∈ text.toList, isBreak d = false ∧ isAllowed d = true
  | entry column key value => Scanner.isKey key.toList = true ∧
      ∀ v ∈ value, isPlainLine v.toList = true ∧ ∃ next ∈ gapColumn? tail 0, next ≤ column

instance (tail : List Char) (l : Line) : Decidable (l.Fits tail) :=
  match l with
  | empty => inferInstanceAs (Decidable True)
  | note _ text => List.decidableBAll _ text.toList
  | entry .. => inferInstanceAs (Decidable (_ ∧ ∀ v ∈ _, _))

/-- Each line fits in front of those that follow. -/
def FitAll : List Line → Prop
  | [] => True
  | l :: lines => l.Fits (text lines) ∧ FitAll lines

instance decidableFitAll : (lines : List Line) → Decidable (FitAll lines)
  | [] => inferInstanceAs (Decidable True)
  | l :: lines =>
    have := decidableFitAll lines
    inferInstanceAs (Decidable (l.Fits (text lines) ∧ FitAll lines))

theorem length_entry (column : Nat) (key : String) (value : Option String) :
    (entry column key value).body.length =
      column + (key.toList.length + 1) + (valueChars value).length := by
  simp only [body, List.length_append, List.length_replicate, List.length_cons]
  omega

theorem length_valueChars_pos {value : Option String} (h : value.getD "" ≠ "") :
    0 < (valueChars value).length := by
  cases value with
  | none => exact absurd rfl h
  | some v => exact Nat.succ_pos v.toList.length

theorem Fits.isAllowed {tail : List Char} {l : Line} (h : l.Fits tail) :
    ∀ c ∈ l.body, isAllowed c = true := by
  have hspaces : ∀ n, ∀ c ∈ List.replicate n ' ', Yaml.isAllowed c = true := by
    intro n c hc
    rw [List.eq_of_mem_replicate hc]
    rfl
  cases l with
  | empty => exact List.forall_mem_nil _
  | note column text =>
    simp only [body, List.forall_mem_append, List.forall_mem_cons]
    exact ⟨hspaces column, rfl, fun c hc => (h c hc).2⟩
  | entry column key value =>
    obtain ⟨hkey, hvalue⟩ := h
    obtain ⟨-, -, hchars⟩ := Scanner.isKey_iff.1 hkey
    have hvalueChars : ∀ c ∈ valueChars value, Yaml.isAllowed c = true := by
      cases value with
      | none => exact List.forall_mem_nil _
      | some v => exact List.forall_mem_cons.2 ⟨rfl, isAllowed_of_isPlainLine (hvalue v rfl).1⟩
    simp only [body, List.forall_mem_append, List.forall_mem_cons]
    exact ⟨hspaces column, fun c hc => Scanner.isAllowed_of_isKeyChar (hchars c hc), rfl,
      hvalueChars⟩

theorem FitAll.isAllowed {lines : List Line} (h : FitAll lines) :
    ∀ c ∈ text lines, isAllowed c = true := by
  induction lines with
  | nil => exact fun c hc => nomatch hc
  | cons l lines ih =>
    simp only [text, List.flatMap_cons, List.forall_mem_append, List.forall_mem_singleton]
    exact ⟨⟨h.1.isAllowed, rfl⟩, ih h.2⟩

end Line

namespace Scanner

/-- The scanner stands at the start of a line. -/
structure AtLine (s : Scanner) (rest : List Char) : Prop where
  rest : s.cursor.rest = rest
  column : s.cursor.column = 0
  keyAllowed : s.keyAllowed = true
  settled : s.IsSettled

theorem candidates_readKey (s : Scanner) (column : Nat) (key : List Char) :
    (s.readKey column key).candidates = s.candidates := by
  rw [← candidates_unroll s column]
  unfold readKey indentTo
  dsimp only
  split <;> rfl

theorem read_place (s : Scanner) (l : Line) (c : Cursor) (allowed : Bool) :
    l.read (s.place c allowed) = (l.read s).place c allowed := by
  cases l with
  | empty => rfl
  | note column text => rfl
  | entry column key value =>
    unfold Line.read
    dsimp only
    rw [readKey_place]
    split <;> rfl

theorem candidates_read (s : Scanner) (l : Line) : (l.read s).candidates = s.candidates := by
  cases l with
  | empty => rfl
  | note column text => rfl
  | entry column key value =>
    unfold Line.read
    dsimp only
    split <;> exact candidates_readKey s column key.toList

/-- A key is in the column of its block. -/
theorem indent_readKey {s : Scanner} (hflow : s.inFlow = false) (column : Nat) (key : List Char) :
    (s.readKey column key).indent = column := by
  have hunroll : (s.unroll column).indent ≤ column := indent_unroll_le hflow (by omega)
  have hflowUnroll : (s.unroll column).inFlow = false := by
    rw [Scanner.inFlow, candidates_unroll]
    exact hflow
  unfold readKey indentTo opensBlock
  dsimp only
  rw [hflowUnroll]
  by_cases h : (s.unroll column).indent < column
  · simp [h, emit]
  · simpa [h, emit] using Int.le_antisymm hunroll (Int.not_lt.1 h)

theorem passGap_lineEnd {s : Scanner} (hs : s.IsSettled) {tail : List Char}
    (hrest : s.cursor.rest = '\n' :: tail) :
    (s.place s.cursor.skipBreak true).passGap = s.passGap := passGap_lineFeed hrest hs.inFlow

/-- A key with an empty value, or with none, is read in two turns. -/
theorem run?_emptyValue {s : Scanner} (hs : s.IsSettled) {value : Option String}
    (hvalue : value.getD "" = "") {tail : List Char}
    (hrest : s.cursor.rest = Line.valueChars value ++ '\n' :: tail) (fuel : Nat) :
    run? fuel s = run? fuel
      (s.place (s.cursor.skip (Line.valueChars value).length).skipBreak true) := by
  refine (run?_congr ?_ fuel).symm
  cases value with
  | none => exact s.cursor.skip_zero ▸ passGap_lineEnd hs hrest
  | some v =>
    cases hvalue
    exact (passGap_lineEnd (s := s.skip 1) hs (Cursor.rest_skip (u := [' ']) hrest)).trans
      (passGap_space hrest)

/-- The key of an entry takes two turns. The scanner then stands behind the colon. -/
theorem run?_entryKey {s : Scanner} {column : Nat} {key rest : List Char}
    (hkey : isKey key = true) (hs : s.AtLine (List.replicate column ' ' ++ (key ++ ':' :: rest)))
    (hends : endsWord rest = true) : (s.cursor.skip (column + (key.length + 1))).rest = rest ∧
      ∀ fuel, run? (fuel + 2) s = run? fuel
        ((s.readKey column key).place (s.cursor.skip (column + (key.length + 1))) false) := by
  have hrestKey : (s.skip column).cursor.rest = key ++ ':' :: rest := rest_skip_spaces hs.rest
  have hcolumn : (s.skip column).cursor.column = column := by
    show s.cursor.column + column = column
    rw [hs.column, Nat.zero_add]
  have hcursor : (s.skip column).cursor.skip (key.length + 1) =
      s.cursor.skip (column + (key.length + 1)) := Cursor.skip_skip ..
  have hplace : (s.skip column).readKey column key =
      (s.readKey column key).place (s.cursor.skip column) s.keyAllowed := readKey_place ..
  refine ⟨?_, fun fuel => ?_⟩
  · have hafter := Cursor.rest_skip (u := key ++ [':']) (t := rest) (hrestKey.trans (by simp))
    rwa [List.length_append, List.length_singleton, hcursor] at hafter
  · have hread := run?_key (s := s.skip column) hs.settled hs.keyAllowed hkey hrestKey hends fuel
    rw [hcolumn, hplace, hcursor] at hread
    rw [← run?_congr (passGap_spaces hs.rest), hread]
    rfl

theorem run?_note {s : Scanner} {column : Nat} {text : String} {tail : List Char}
    (hfits : (Line.note column text).Fits tail)
    (hs : s.AtLine ((Line.note column text).body ++ '\n' :: tail)) (fuel : Nat) :
    run? fuel s = run? fuel ((Line.note column text).scan s) := by
  have hrest := hs.rest
  rw [Line.body, List.append_assoc] at hrest
  have hrestNote : (s.skip column).cursor.rest = ('#' :: text.toList) ++ '\n' :: tail :=
    rest_skip_spaces hrest
  have hend := passGap_lineEnd (s := (s.skip column).skip (text.toList.length + 1)) hs.settled
    (Cursor.rest_skip hrestNote)
  have hbody : ((s.skip column).skip (text.toList.length + 1)).cursor =
      s.cursor.skip (Line.note column text).body.length := by
    simp [skip, Cursor.skip_skip, Line.body]
  rw [hbody, passGap_note hrestNote fun d hd => (hfits d hd).1, passGap_spaces hrest] at hend
  exact (run?_congr hend fuel).symm

/-- The key of an entry takes two turns, and its value one more if there is any. -/
theorem run?_entry {s : Scanner} {column : Nat} {key : String} {value : Option String}
    {tail : List Char} (hfits : (Line.entry column key value).Fits tail)
    (hs : s.AtLine ((Line.entry column key value).body ++ '\n' :: tail)) (fuel : Nat) :
    run? (fuel + if value.getD "" = "" then 2 else 3) s =
      run? fuel ((Line.entry column key value).scan s) := by
  obtain ⟨hkey, hvalue⟩ := hfits
  have hbody : (Line.entry column key value).body ++ '\n' :: tail = List.replicate column ' ' ++
      (key.toList ++ ':' :: (Line.valueChars value ++ '\n' :: tail)) := by
    simp [Line.body]
  have hends : endsWord (Line.valueChars value ++ '\n' :: tail) = true := by
    cases value <;> rfl
  obtain ⟨hrestValue, hkeyRead⟩ := run?_entryKey hkey (hbody ▸ hs) hends
  have hsettled : ((s.readKey column key.toList).place
      (s.cursor.skip (column + (key.toList.length + 1))) false).IsSettled :=
    (candidates_readKey s column key.toList).trans hs.settled
  have hskip : (s.cursor.skip (column + (key.toList.length + 1))).skip
      (Line.valueChars value).length = s.cursor.skip (Line.entry column key value).body.length := by
    rw [Line.length_entry]
    exact Cursor.skip_skip ..
  by_cases hempty : value.getD "" = ""
  · have hread : Line.read s (.entry column key value) = s.readKey column key.toList :=
      if_pos hempty
    rw [if_pos hempty, hkeyRead, run?_emptyValue hsettled hempty hrestValue, Line.scan, hread,
      ← hskip]
    rfl
  · obtain ⟨v, rfl⟩ : ∃ v, value = some v := by
      cases value with
      | none => exact absurd rfl hempty
      | some v => exact ⟨v, rfl⟩
    have hread : Line.read s (.entry column key (some v)) =
        (s.readKey column key.toList).emit (.scalar .plain v.toList) := if_neg hempty
    have hindent : (s.readKey column key.toList).indent = column :=
      indent_readKey hs.settled.inFlow column key.toList
    have hne : v.toList ≠ [] := fun h => hempty (String.toList_eq_nil_iff.1 h)
    obtain ⟨hplain, next, hgap, hnext⟩ := hvalue v rfl
    have hdeeper : (s.readKey column key.toList).indent ≤
        (s.cursor.skip (column + (key.toList.length + 1))).column := by
      rw [hindent, Cursor.column_skip]
      omega
    rw [if_neg hempty, hkeyRead (fuel + 1), run?_value hsettled rfl hplain hne hrestValue hdeeper
      hgap (hindent ▸ Int.ofNat_le.2 hnext), Line.scan, hread, ← hskip]
    rfl

/-- The scanner reads a line in at most as many turns as there are characters. -/
theorem run?_line {s : Scanner} {l : Line} {tail : List Char} (hfits : l.Fits tail)
    (hs : s.AtLine (l.body ++ '\n' :: tail)) : ∃ turns ≤ l.body.length, ∀ fuel,
      run? (fuel + turns) s = run? fuel (l.scan s) := by
  cases l with
  | empty =>
    refine ⟨0, Nat.zero_le _, fun fuel => (run?_congr ?_ fuel).symm⟩
    have hend := passGap_lineEnd hs.settled hs.rest
    rwa [← s.cursor.skip_zero] at hend
  | note column text => exact ⟨0, Nat.zero_le _, run?_note hfits hs⟩
  | entry column key value =>
    refine ⟨_, ?_, run?_entry hfits hs⟩
    have hkey := List.length_pos_iff.2 (isKey_iff.1 hfits.1).1
    rw [Line.length_entry]
    split
    · omega
    · next hempty =>
      have hvalue := Line.length_valueChars_pos hempty
      omega

theorem AtLine.scan {s : Scanner} {l : Line} {tail : List Char}
    (hs : s.AtLine (l.body ++ '\n' :: tail)) : (l.scan s).AtLine tail := by
  have hafter : (s.cursor.skip l.body.length).rest = '\n' :: tail := Cursor.rest_skip hs.rest
  have hfeed := Cursor.skipBreak_lineFeed hafter
  refine ⟨?_, ?_, rfl, (candidates_read s l).trans hs.settled⟩
  · show (s.cursor.skip l.body.length).skipBreak.rest = tail
    rw [hfeed]
  · show (s.cursor.skip l.body.length).skipBreak.column = 0
    rw [hfeed]

theorem run?_lines {lines : List Line} (hfits : Line.FitAll lines) {s : Scanner}
    (hs : s.AtLine (Line.text lines)) : (lines.foldl Line.scan s).AtLine [] ∧
      ∃ turns ≤ (Line.text lines).length, ∀ fuel,
        run? (fuel + turns) s = run? fuel (lines.foldl Line.scan s) := by
  induction lines generalizing s with
  | nil => exact ⟨hs, 0, Nat.le_refl _, fun _ => rfl⟩
  | cons l lines ih =>
    have htext : Line.text (l :: lines) = l.body ++ '\n' :: Line.text lines := by
      simp [Line.text]
    rw [htext] at hs ⊢
    obtain ⟨turns, hturns, hrun⟩ := run?_line hfits.1 hs
    obtain ⟨hend, turns', hturns', hrun'⟩ := ih hfits.2 hs.scan
    refine ⟨hend, turns' + turns, ?_, fun fuel => ?_⟩
    · simp only [List.length_append, List.length_cons]
      omega
    · rw [← Nat.add_assoc, hrun, hrun']
      rfl

/-- At the end of the text all blocks end. -/
theorem AtLine.run?_end {s : Scanner} (hs : s.AtLine []) (fuel : Nat) :
    run? (fuel + 1) s = some ((s.unroll 0).unroll (-1)) := by
  have hrest := hs.rest
  have hpass : s.passGap = s :=
    passGap_eq_self (Cursor.skipByteOrderMark_of_head (by simp [hrest])) (by simp [hrest])
  have hrestUnroll : (s.unroll 0).cursor.rest = [] := by
    rw [← place_unroll]
    exact hrest
  have hsettled : ((s.unroll 0).unroll (-1)).IsSettled :=
    (candidates_unroll ..).trans ((candidates_unroll ..).trans hs.settled)
  have hdrop : (s.unroll 0).finish? = some ((s.unroll 0).unroll (-1)) := by
    rw [finish?, dropCandidate?, hsettled]
  rw [run?_succ, hpass, hs.settled.dropStale?]
  have hcolumn : (s.cursor.column : Int) = 0 := by rw [hs.column]; rfl
  simp only [bind, Option.bind, hcolumn, hrestUnroll, hdrop]

end Scanner

namespace Line

/-- What lines tell the scanner, from the first to the last. All blocks end behind the last one. -/
def readAll (lines : List Line) : Scanner :=
  ((lines.foldl read (.start [])).unroll 0).unroll (-1)

theorem foldl_read_place (lines : List Line) (s : Scanner) (c : Cursor) (allowed : Bool) :
    lines.foldl read (s.place c allowed) = (lines.foldl read s).place c allowed := by
  induction lines generalizing s with
  | nil => rfl
  | cons l lines ih => rw [List.foldl_cons, List.foldl_cons, Scanner.read_place, ih]

/-- What the scanner is told does not depend on the places of the lines. -/
theorem exists_place (lines : List Line) (s : Scanner) : ∃ c allowed,
    lines.foldl scan s = (lines.foldl read s).place c allowed := by
  induction lines generalizing s with
  | nil => exact ⟨s.cursor, s.keyAllowed, rfl⟩
  | cons l lines ih =>
    obtain ⟨c, allowed, h⟩ := ih (l.scan s)
    refine ⟨c, allowed, ?_⟩
    rw [List.foldl_cons, h, scan, foldl_read_place]
    rfl

end Line

/-- A text of lines that fit has the tokens that the lines give. -/
theorem Token.scan?_lines {lines : List Line} (hfits : Line.FitAll lines) :
    Token.scan? (Line.text lines) = some
      (Scanner.weave (Line.readAll lines).keyPlaces 0 (Line.readAll lines).tokens.reverse) := by
  obtain ⟨hend, turns, hturns, hrun⟩ :=
    Scanner.run?_lines hfits (s := .start (Line.text lines)) ⟨rfl, rfl, rfl, rfl⟩
  obtain ⟨fuel, hfuel⟩ : ∃ n, (Line.text lines).length + 2 = n + 1 + turns :=
    ⟨(Line.text lines).length + 1 - turns, by omega⟩
  obtain ⟨c, allowed, hplace⟩ := Line.exists_place lines (.start (Line.text lines))
  have hstart : lines.foldl Line.read (.start (Line.text lines)) =
      (lines.foldl Line.read (.start [])).place (.start (Line.text lines)) true :=
    Line.foldl_read_place lines (.start []) ..
  have hfinish := hend.run?_end fuel
  rw [← hrun, ← hfuel, hplace, hstart, Scanner.unroll_place, Scanner.unroll_place,
    Scanner.unroll_place, Scanner.unroll_place] at hfinish
  have hall : (Line.text lines).all isAllowed = true := List.all_eq_true.2 hfits.isAllowed
  simp only [Token.scan?, hall, hfinish, bind, Option.bind, Bool.not_true]
  rfl

end Flowline.Yaml
