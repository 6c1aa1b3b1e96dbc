import Flowline.Json.Scan
import Flowline.Proofs.Json.Numbers
import Flowline.Proofs.Json.Numeral
import Flowline.Proofs.Json.StringToken

/-!
# Written values are scanned back

A value is written with some blanks between its parts: with none, or with a new line before each
item and member. `Spacing` says with which, and `Spacing.chars` is the one way of writing of which
`compactChars` and `prettyChars` are the two cases (`compactChars_eq`, `prettyChars_eq`).

Whatever the blanks are, the scanner finds the shape of the value again and stops where the value
stops (`scans_of_isReadable`), provided that each of its numbers can be read from its own text
(`Number.IsReadable`). A number read from its own text is `Number.reread`; an integer that 64 bits
hold is itself. The two ways of writing a whole text are `scan_compact` and `scan_pretty`.
-/

namespace Flowline

open Text

/-! ## Numbers that are read from their text -/

namespace Number

/-- The number that the text of a number reads as. -/
def reread (n : Number) : Number :=
  match (Json.scanNumeral ((Json.numeral n).map .char)).1.read with
  | .ok n' => n'
  | .error _ => n

/-- The text of the number is the text of a number, whatever ends it. -/
structure IsReadable (n : Number) : Prop where
  start : ∃ c cs, Json.numeral n = c :: cs ∧ (c = '-' ∨ c.isDigit = true)
  scan : ∀ rest, Json.EndsNumber rest →
    Json.scanNumeral ((Json.numeral n).map .char ++ rest) = (.good n.reread, some rest)

end Number

namespace Json

theorem exists_cons_chars {n : Numeral} (hn : n.IsProper) :
    ∃ c cs, n.chars = c :: cs ∧ (c = '-' ∨ c.isDigit = true) := by
  obtain ⟨negative, whole, fraction, exponent⟩ := n
  obtain ⟨c, cs, rfl⟩ : ∃ c cs, whole = c :: cs := List.exists_cons_of_ne_nil hn.whole.1
  cases negative with
  | true => exact ⟨'-', _, rfl, .inl rfl⟩
  | false => exact ⟨c, _, rfl, .inr (hn.whole.2 c List.mem_cons_self)⟩

/-- A number that is written with proper parts and stands for a number is readable. -/
theorem isReadable_of_chars {n x : Number} {parts : Numeral} (hn : numeral n = parts.chars)
    (hparts : parts.IsProper) (hx : parts.value? = some x) : n.IsReadable := by
  have hreread : n.reread = x := by
    have hscan := scanNumeral_chars hparts hx endsNumber_nil
    rw [List.append_nil] at hscan
    simp only [Number.reread, hn, hscan, Token.good]
  refine ⟨hn ▸ exists_cons_chars hparts, fun rest hrest => ?_⟩
  rw [hn, hreread]
  exact scanNumeral_chars hparts hx hrest

theorem isReadable_integer {n : Int} (h : IsInteger64 n) : (Number.integer n).IsReadable :=
  isReadable_of_chars (numeral_integer n) (Numeral.isProper_ofInt n) (value?_ofInt h)

theorem reread_integer {n : Int} (h : IsInteger64 n) :
    (Number.integer n).reread = .integer n := by
  have hscan := scanNumeral_integer h endsNumber_nil
  rw [List.append_nil] at hscan
  simp only [Number.reread, hscan, Token.good]

/-! ## Blanks -/

/-- The blanks between the parts of a value. -/
structure Spacing where
  /-- What stands before an item, a member or the end of a list or an object at a depth. -/
  newLine : Nat → List Char
  /-- What stands behind the colon of a key. -/
  afterColon : List Char
  isBlank_newLine : ∀ depth, ∀ c ∈ newLine depth, isJsonBlank (.char c) = true
  isBlank_afterColon : ∀ c ∈ afterColon, isJsonBlank (.char c) = true

/-- No blanks at all. -/
def Spacing.none : Spacing where
  newLine _ := []
  afterColon := []
  isBlank_newLine _ _ h := nomatch h
  isBlank_afterColon _ h := nomatch h

/-- A line for each part. -/
def Spacing.lines : Spacing where
  newLine := Json.newLine
  afterColon := [' ']
  isBlank_newLine depth c hc := by
    rcases List.mem_cons.1 hc with rfl | hc
    · rfl
    · rw [(List.mem_replicate.1 hc).2]
      rfl
  isBlank_afterColon c hc := by
    rw [List.mem_singleton.1 hc]
    rfl

theorem dropBlanks_append {blanks : List Char} (h : ∀ c ∈ blanks, isJsonBlank (.char c) = true)
    (rest : List Glyph) : dropBlanks (blanks.map .char ++ rest) = dropBlanks rest := by
  refine List.dropWhile_append_of_pos fun g hg => ?_
  obtain ⟨c, hc, rfl⟩ := List.mem_map.1 hg
  exact h c hc

theorem dropBlanks_cons {c : Char} (h : isJsonBlank (.char c) = false) (rest : List Glyph) :
    dropBlanks (.char c :: rest) = .char c :: rest := List.dropWhile_cons_of_neg (by simp [h])

/-- A blank ends a number, and so does what ends a number behind blanks. -/
theorem endsNumber_append {blanks : List Char} (h : ∀ c ∈ blanks, isJsonBlank (.char c) = true)
    {rest : List Glyph} (hrest : EndsNumber rest) : EndsNumber (blanks.map .char ++ rest) := by
  cases blanks with
  | nil => exact hrest
  | cons c cs =>
    have hc := h c List.mem_cons_self
    simp only [isJsonBlank, Bool.or_eq_true, beq_iff_eq] at hc
    refine endsNumber_cons ?_
    rcases hc with ((rfl | rfl) | rfl) | rfl <;> decide

section Leading

variable {blanks : List Char} (h : ∀ c ∈ blanks, isJsonBlank (.char c) = true)

include h

theorem scanValue_append (fuel : Nat) (s : List Glyph) :
    scanValue fuel (blanks.map .char ++ s) = scanValue fuel s := by
  cases fuel with
  | zero => rfl
  | succ fuel => simp only [scanValue, dropBlanks_append h]

theorem scanItems_append (fuel : Nat) (s : List Glyph) :
    scanItems fuel (blanks.map .char ++ s) = scanItems fuel s := by
  cases fuel with
  | zero => rfl
  | succ fuel => simp only [scanItems, scanValue_append h]

end Leading

/-! ## Writing with blanks -/

mutual

/-- The characters of a value whose first line begins at a depth. -/
def Spacing.chars (sp : Spacing) (depth : Nat) : Json → List Char
  | null => ['n', 'u', 'l', 'l']
  | bool true => ['t', 'r', 'u', 'e']
  | bool false => ['f', 'a', 'l', 's', 'e']
  | number n => numeral n
  | text s => quoted s
  | list [] => ['[', ']']
  | list (x :: xs) =>
    '[' :: sp.newLine (depth + 1) ++ sp.chars (depth + 1) x ++ sp.itemsChars depth xs
  | object [] => ['\x7b', '\x7d']
  | object ((k, x) :: xs) =>
    '\x7b' :: sp.newLine (depth + 1) ++ quoted k ++
      ':' :: (sp.afterColon ++ sp.chars (depth + 1) x) ++ sp.membersChars depth xs

/-- The items after the first, and the end of the list. -/
def Spacing.itemsChars (sp : Spacing) (depth : Nat) : List Json → List Char
  | [] => sp.newLine depth ++ [']']
  | x :: xs =>
    ',' :: sp.newLine (depth + 1) ++ sp.chars (depth + 1) x ++ sp.itemsChars depth xs

/-- The members after the first, and the end of the object. -/
def Spacing.membersChars (sp : Spacing) (depth : Nat) : List (String × Json) → List Char
  | [] => sp.newLine depth ++ ['\x7d']
  | (k, x) :: xs =>
    ',' :: sp.newLine (depth + 1) ++ quoted k ++
      ':' :: (sp.afterColon ++ sp.chars (depth + 1) x) ++ sp.membersChars depth xs

end

mutual

theorem compactChars_eq : ∀ (j : Json) (depth : Nat), j.compactChars = Spacing.none.chars depth j
  | null, _ => rfl
  | bool true, _ => rfl
  | bool false, _ => rfl
  | number _, _ => rfl
  | text _, _ => rfl
  | list [], _ => rfl
  | list (x :: xs), depth => by
    simp only [compactChars, Spacing.chars, compactChars_eq x (depth + 1),
      compactItems_eq xs depth]
    rfl
  | object [], _ => rfl
  | object ((k, x) :: xs), depth => by
    simp only [compactChars, Spacing.chars, compactChars_eq x (depth + 1),
      compactMembers_eq xs depth]
    rfl

theorem compactItems_eq : ∀ (xs : List Json) (depth : Nat),
    compactItems xs = Spacing.none.itemsChars depth xs
  | [], _ => rfl
  | x :: xs, depth => by
    simp only [compactItems, Spacing.itemsChars, compactChars_eq x (depth + 1),
      compactItems_eq xs depth]
    rfl

theorem compactMembers_eq : ∀ (xs : List (String × Json)) (depth : Nat),
    compactMembers xs = Spacing.none.membersChars depth xs
  | [], _ => rfl
  | (k, x) :: xs, depth => by
    simp only [compactMembers, Spacing.membersChars, compactChars_eq x (depth + 1),
      compactMembers_eq xs depth]
    rfl

end

mutual

theorem prettyChars_eq : ∀ (j : Json) (depth : Nat),
    j.prettyChars depth = Spacing.lines.chars depth j
  | null, _ => rfl
  | bool true, _ => rfl
  | bool false, _ => rfl
  | number _, _ => rfl
  | text _, _ => rfl
  | list [], _ => rfl
  | list (x :: xs), depth => by
    simp only [prettyChars, Spacing.chars, prettyChars_eq x, prettyItems_eq xs]
    rfl
  | object [], _ => rfl
  | object ((k, x) :: xs), depth => by
    simp only [prettyChars, Spacing.chars, prettyChars_eq x, prettyMembers_eq xs]
    rfl

theorem prettyItems_eq : ∀ (xs : List Json) (depth : Nat),
    prettyItems depth xs = Spacing.lines.itemsChars depth xs
  | [], _ => rfl
  | x :: xs, depth => by
    simp only [prettyItems, Spacing.itemsChars, prettyChars_eq x, prettyItems_eq xs]
    rfl

theorem prettyMembers_eq : ∀ (xs : List (String × Json)) (depth : Nat),
    prettyMembers depth xs = Spacing.lines.membersChars depth xs
  | [], _ => rfl
  | (k, x) :: xs, depth => by
    simp only [prettyMembers, Spacing.membersChars, prettyChars_eq x, prettyMembers_eq xs]
    rfl

end

/-! ## Scanning what is written -/

/-- The shape of a value as it is read back. -/
def Node.reread (j : Json) : Node := Node.ofJson (j.mapNumbers Number.reread)

/-- The value is scanned back from what is written at any depth. A step of the scanner for each
character is enough. -/
structure Spacing.Scans (sp : Spacing) (j : Json) : Prop where
  start : ∀ depth, ∃ c cs, sp.chars depth j = c :: cs ∧ isJsonBlank (.char c) = false ∧ c ≠ ']'
  scan : ∀ depth fuel rest, (sp.chars depth j).length ≤ fuel → EndsNumber rest →
    scanValue fuel ((sp.chars depth j).map .char ++ rest) = (Node.reread j, some rest)

section Scanning

variable (sp : Spacing) (depth : Nat)

theorem endsNumber_itemsChars (xs : List Json) (rest : List Glyph) :
    EndsNumber ((sp.itemsChars depth xs).map .char ++ rest) := by
  cases xs with
  | nil =>
    rw [Spacing.itemsChars, List.map_append, List.append_assoc]
    exact endsNumber_append (sp.isBlank_newLine depth) (endsNumber_cons (by decide))
  | cons x xs => exact endsNumber_cons (by decide)

theorem endsNumber_membersChars (xs : List (String × Json)) (rest : List Glyph) :
    EndsNumber ((sp.membersChars depth xs).map .char ++ rest) := by
  cases xs with
  | nil =>
    rw [Spacing.membersChars, List.map_append, List.append_assoc]
    exact endsNumber_append (sp.isBlank_newLine depth) (endsNumber_cons (by decide))
  | cons x xs => exact endsNumber_cons (by decide)

theorem length_itemsChars_pos (xs : List Json) : 0 < (sp.itemsChars depth xs).length := by
  cases xs with
  | nil => simp [Spacing.itemsChars]
  | cons x xs => simp [Spacing.itemsChars]

theorem dropBlanks_itemsChars_nil (rest : List Glyph) :
    dropBlanks ((sp.itemsChars depth []).map .char ++ rest) = .char ']' :: rest := by
  rw [Spacing.itemsChars, List.map_append, List.append_assoc,
    dropBlanks_append (sp.isBlank_newLine depth)]
  exact dropBlanks_cons (by decide) rest

theorem dropBlanks_itemsChars_cons (x : Json) (xs : List Json) (rest : List Glyph) :
    dropBlanks ((sp.itemsChars depth (x :: xs)).map .char ++ rest) =
      .char ',' :: ((sp.newLine (depth + 1)).map .char ++
        ((sp.chars (depth + 1) x ++ sp.itemsChars depth xs).map .char ++ rest)) := by
  simp only [Spacing.itemsChars, List.map_append, List.map_cons, List.cons_append,
    List.append_assoc]
  exact dropBlanks_cons (by decide) _

theorem dropBlanks_membersChars_nil (rest : List Glyph) :
    dropBlanks ((sp.membersChars depth []).map .char ++ rest) = .char '\x7d' :: rest := by
  rw [Spacing.membersChars, List.map_append, List.append_assoc,
    dropBlanks_append (sp.isBlank_newLine depth)]
  exact dropBlanks_cons (by decide) rest

/-- The characters of the members from the first key on, without its opening quote. -/
def Spacing.keyChars (sp : Spacing) (depth : Nat) (k : String) (x : Json)
    (xs : List (String × Json)) : List Char :=
  k.toList.flatMap escape ++ '"' :: ':' :: (sp.afterColon ++ sp.chars (depth + 1) x) ++
    sp.membersChars depth xs

theorem dropBlanks_membersChars_cons (k : String) (x : Json) (xs : List (String × Json))
    (rest : List Glyph) :
    dropBlanks ((sp.membersChars depth ((k, x) :: xs)).map .char ++ rest) =
      .char ',' :: ((sp.newLine (depth + 1)).map .char ++
        .char '"' :: ((sp.keyChars depth k x xs).map .char ++ rest)) := by
  simp only [Spacing.membersChars, Spacing.keyChars, quoted, List.map_append, List.map_cons,
    List.cons_append, List.nil_append, List.append_assoc]
  exact dropBlanks_cons (by decide) _

/-- The items of a list are scanned back one after the other. -/
theorem scanItems_chars {x : Json} {xs : List Json} (h : ∀ y ∈ x :: xs, sp.Scans y) {fuel : Nat}
    (hfuel : (sp.chars (depth + 1) x ++ sp.itemsChars depth xs).length ≤ fuel)
    (rest : List Glyph) :
    scanItems fuel ((sp.chars (depth + 1) x ++ sp.itemsChars depth xs).map .char ++ rest) =
      (Items.ofList ((x :: xs).map (mapNumbers Number.reread)), some rest) := by
  induction xs generalizing x fuel with
  | nil =>
    have hend := length_itemsChars_pos sp depth []
    rw [List.length_append] at hfuel
    obtain ⟨fuel, rfl⟩ : ∃ f, fuel = f + 1 := ⟨fuel - 1, by omega⟩
    have hx := (h x List.mem_cons_self).scan (depth + 1) fuel _ (by omega)
      (endsNumber_itemsChars sp depth [] rest)
    rw [List.map_append, List.append_assoc]
    simp only [scanItems, hx, dropBlanks_itemsChars_nil]
    rfl
  | cons y ys ih =>
    have hlength : (sp.itemsChars depth (y :: ys)).length =
        (sp.newLine (depth + 1)).length + 1 +
          (sp.chars (depth + 1) y ++ sp.itemsChars depth ys).length := by
      simp only [Spacing.itemsChars, List.length_append, List.length_cons]
      omega
    rw [List.length_append] at hfuel
    obtain ⟨fuel, rfl⟩ : ∃ f, fuel = f + 1 := ⟨fuel - 1, by omega⟩
    have hx := (h x List.mem_cons_self).scan (depth + 1) fuel _ (by omega)
      (endsNumber_itemsChars sp depth (y :: ys) rest)
    have hys := ih (fun z hz => h z (List.mem_cons_of_mem x hz))
      (show (sp.chars (depth + 1) y ++ sp.itemsChars depth ys).length ≤ fuel by omega)
    rw [List.map_append, List.append_assoc]
    simp only [scanItems, hx, dropBlanks_itemsChars_cons,
      scanItems_append (sp.isBlank_newLine (depth + 1)), hys]
    rfl

/-- The members of an object are scanned back one after the other. -/
theorem scanMember_chars {k : String} {x : Json} {xs : List (String × Json)} (hx : sp.Scans x)
    (h : ∀ e ∈ xs, sp.Scans e.2) {fuel : Nat} (hfuel : (sp.keyChars depth k x xs).length ≤ fuel)
    (rest : List Glyph) :
    scanMember fuel ((sp.keyChars depth k x xs).map .char ++ rest) =
      (Members.ofList (((k, x) :: xs).map (mapNumbersBeside Number.reread)), some rest) := by
  have hkey : ∀ k x xs, (sp.keyChars depth k x xs).map .char ++ rest =
      (k.toList.flatMap escape).map .char ++ .char '"' :: .char ':' ::
        (sp.afterColon.map .char ++ ((sp.chars (depth + 1) x).map .char ++
          ((sp.membersChars depth xs).map .char ++ rest))) := by
    intro k x xs
    simp [Spacing.keyChars]
  have hlength : ∀ k x xs, (sp.chars (depth + 1) x).length + (sp.membersChars depth xs).length + 2 ≤
      (sp.keyChars depth k x xs).length := by
    intro k x xs
    simp only [Spacing.keyChars, List.length_append, List.length_cons]
    omega
  induction xs generalizing k x fuel with
  | nil =>
    have hlength := hlength k x []
    obtain ⟨fuel, rfl⟩ : ∃ f, fuel = f + 1 := ⟨fuel - 1, by omega⟩
    have hx := hx.scan (depth + 1) fuel _ (by omega)
      (endsNumber_membersChars sp depth [] rest)
    rw [hkey]
    simp only [scanMember, scanString_quoted, dropBlanks_cons (c := ':') (by decide),
      scanValue_append sp.isBlank_afterColon, hx, dropBlanks_membersChars_nil]
    rfl
  | cons e es ih =>
    obtain ⟨l, y⟩ := e
    have hlength := hlength k x ((l, y) :: es)
    have hend : (sp.membersChars depth ((l, y) :: es)).length =
        (sp.newLine (depth + 1)).length + 2 + (sp.keyChars depth l y es).length := by
      simp only [Spacing.membersChars, Spacing.keyChars, quoted, List.length_append,
        List.length_cons, List.length_nil]
      omega
    obtain ⟨fuel, rfl⟩ : ∃ f, fuel = f + 1 := ⟨fuel - 1, by omega⟩
    have hx := hx.scan (depth + 1) fuel _ (by omega)
      (endsNumber_membersChars sp depth ((l, y) :: es) rest)
    have hes := ih (h (l, y) List.mem_cons_self) (fun z hz => h z (List.mem_cons_of_mem _ hz))
      (show (sp.keyChars depth l y es).length ≤ fuel by omega)
    rw [hkey]
    simp only [scanMember, scanString_quoted, dropBlanks_cons (c := ':') (by decide),
      scanValue_append sp.isBlank_afterColon, hx, dropBlanks_membersChars_cons,
      dropBlanks_append (sp.isBlank_newLine (depth + 1)), dropBlanks_cons (c := '"') (by decide),
      hes]
    rfl

variable {sp}

/-- A value is scanned back if it is from its first character on. -/
theorem Spacing.Scans.of_cons {j : Json} {c : Char} {cs : Nat → List Char}
    (hchars : ∀ depth, sp.chars depth j = c :: cs depth)
    (hblank : isJsonBlank (.char c) = false) (hend : c ≠ ']')
    (hscan : ∀ depth fuel rest, (cs depth).length ≤ fuel → EndsNumber rest →
      scanValue (fuel + 1) (.char c :: ((cs depth).map .char ++ rest)) =
        (Node.reread j, some rest)) : sp.Scans j where
  start depth := ⟨c, cs depth, hchars depth, hblank, hend⟩
  scan depth fuel rest hfuel hrest := by
    rw [hchars, List.length_cons] at hfuel
    obtain ⟨fuel, rfl⟩ : ∃ f, fuel = f + 1 := ⟨fuel - 1, by omega⟩
    rw [hchars]
    exact hscan depth fuel rest (by omega) hrest

theorem scans_null : sp.Scans null :=
  .of_cons (fun _ => rfl) rfl (by decide) fun _ _ _ _ _ => rfl

theorem scans_bool (b : Bool) : sp.Scans (bool b) := by
  cases b with
  | true => exact .of_cons (fun _ => rfl) rfl (by decide) fun _ _ _ _ _ => rfl
  | false => exact .of_cons (fun _ => rfl) rfl (by decide) fun _ _ _ _ _ => rfl

theorem scans_number {n : Number} (hn : n.IsReadable) : sp.Scans (number n) := by
  obtain ⟨c, cs, hc, hstart⟩ := hn.start
  have hne : isJsonBlank (.char c) = false ∧ c ≠ ']' ∧ c ≠ 'n' ∧ c ≠ 't' ∧ c ≠ 'f' ∧ c ≠ '"' := by
    rcases hstart with rfl | hdigit
    · decide
    · refine ⟨?_, ?_, ?_, ?_, ?_, ?_⟩
      · simp only [isJsonBlank, Bool.or_eq_false_iff, beq_eq_false_iff_ne]
        refine ⟨⟨⟨?_, ?_⟩, ?_⟩, ?_⟩ <;> rintro rfl <;> cases hdigit
      all_goals rintro rfl; cases hdigit
  obtain ⟨hblank, hend, h₁, h₂, h₃, h₄⟩ := hne
  refine .of_cons (fun _ => hc) hblank hend fun depth fuel rest _ hrest => ?_
  have hscan := hn.scan rest hrest
  rw [hc, List.map_cons, List.cons_append] at hscan
  simp only [scanValue, dropBlanks_cons hblank, h₁, h₂, h₃, h₄, hstart, hscan, if_false, if_true]
  rfl

theorem scans_text (s : String) : sp.Scans (text s) := by
  have hchars : ∀ depth, sp.chars depth (text s) = '"' :: (s.toList.flatMap escape ++ ['"']) :=
    fun _ => rfl
  refine .of_cons hchars rfl (by decide) fun depth fuel rest _ _ => ?_
  rw [List.map_append, List.append_assoc]
  simp only [scanValue, dropBlanks_cons (c := '"') (by decide), List.map_cons, List.map_nil,
    List.cons_append, List.nil_append, scanString_quoted]
  rfl

theorem scanValue_bracket {c : Char} {s s' : List Glyph} (hdrop : dropBlanks s = .char c :: s')
    (hend : c ≠ ']') (fuel : Nat) :
    scanValue (fuel + 1) (.char '[' :: s) =
      (.list (scanItems fuel (.char c :: s')).1, (scanItems fuel (.char c :: s')).2) := by
  simp [scanValue, dropBlanks_cons (c := '[') (by decide), hdrop, hend]

theorem scans_list {items : List Json} (h : ∀ x ∈ items, sp.Scans x) : sp.Scans (list items) := by
  cases items with
  | nil => exact .of_cons (fun _ => rfl) rfl (by decide) fun _ _ _ _ _ => rfl
  | cons x xs =>
    have hchars : ∀ depth, sp.chars depth (list (x :: xs)) =
        '[' :: (sp.newLine (depth + 1) ++ (sp.chars (depth + 1) x ++ sp.itemsChars depth xs)) := by
      intro depth
      simp [Spacing.chars]
    refine .of_cons hchars rfl (by decide) fun depth fuel rest hfuel _ => ?_
    rw [List.length_append] at hfuel
    have hitems := scanItems_chars sp depth h (Nat.le_of_add_left_le hfuel) rest
    obtain ⟨c, cs, hc, hblank, hend⟩ := (h x List.mem_cons_self).start (depth + 1)
    rw [hc, List.cons_append, List.map_cons, List.cons_append] at hitems
    have hdrop := dropBlanks_append (sp.isBlank_newLine (depth + 1))
      (.char c :: ((cs ++ sp.itemsChars depth xs).map .char ++ rest))
    rw [hc, List.map_append, List.append_assoc, List.cons_append, List.map_cons, List.cons_append,
      scanValue_bracket (hdrop.trans (dropBlanks_cons hblank _)) hend, hitems, Node.reread,
      mapNumbers_list]
    rfl

theorem scans_object {members : List (String × Json)} (h : ∀ e ∈ members, sp.Scans e.2) :
    sp.Scans (object members) := by
  cases members with
  | nil => exact .of_cons (fun _ => rfl) rfl (by decide) fun _ _ _ _ _ => rfl
  | cons e es =>
    obtain ⟨k, x⟩ := e
    have hchars : ∀ depth, sp.chars depth (object ((k, x) :: es)) =
        '\x7b' :: (sp.newLine (depth + 1) ++ '"' :: sp.keyChars depth k x es) := by
      intro depth
      simp [Spacing.chars, Spacing.keyChars, quoted]
    refine .of_cons hchars rfl (by decide) fun depth fuel rest hfuel _ => ?_
    rw [List.length_append, List.length_cons] at hfuel
    have hmembers := scanMember_chars sp depth (h (k, x) List.mem_cons_self)
      (fun e he => h e (List.mem_cons_of_mem _ he))
      (show (sp.keyChars depth k x es).length ≤ fuel by omega) rest
    simp only [scanValue, List.map_append, List.map_cons, List.append_assoc, List.cons_append,
      dropBlanks_cons (c := '\x7b') (by decide), dropBlanks_append (sp.isBlank_newLine (depth + 1)),
      dropBlanks_cons (c := '"') (by decide), hmembers]
    rw [Node.reread, mapNumbers_object]
    rfl

end Scanning

/-- A value whose numbers can all be read from their text is scanned back. -/
theorem scans_of_isReadable {j : Json} (h : ∀ n ∈ j.numbers, n.IsReadable) (sp : Spacing) :
    sp.Scans j := by
  induction j using Json.induction with
  | null => exact scans_null
  | bool b => exact scans_bool b
  | number n => exact scans_number (h n (by simp))
  | text s => exact scans_text s
  | list items ih =>
    refine scans_list fun x hx => ih x hx fun n hn => h n ?_
    exact numbers_list items ▸ List.mem_flatMap.2 ⟨x, hx, hn⟩
  | object members ih =>
    refine scans_object fun e he => ih e he fun n hn => h n ?_
    exact numbers_object members ▸ List.mem_flatMap.2 ⟨e, he, hn⟩

theorem scan_chars {j : Json} (h : ∀ n ∈ j.numbers, n.IsReadable) (sp : Spacing) :
    Document.scan ((sp.chars 0 j).map .char) = ⟨Node.reread j, false⟩ := by
  have hscan := (scans_of_isReadable h sp).scan 0 (2 * ((sp.chars 0 j).map Glyph.char).length + 2)
    [] (by rw [List.length_map]; omega) endsNumber_nil
  rw [List.append_nil] at hscan
  simp only [Document.scan, hscan]
  rfl

/-- What is written without blanks is scanned back. -/
theorem scan_compact {j : Json} (h : ∀ n ∈ j.numbers, n.IsReadable) :
    Document.scan (Glyph.ofString j.compact) = ⟨Node.reread j, false⟩ := by
  rw [Glyph.ofString, compact, String.toList_ofList, compactChars_eq j 0]
  exact scan_chars h Spacing.none

/-- What is written over lines is scanned back. -/
theorem scan_pretty {j : Json} (h : ∀ n ∈ j.numbers, n.IsReadable) :
    Document.scan (Glyph.ofString j.pretty) = ⟨Node.reread j, false⟩ := by
  rw [Glyph.ofString, pretty, String.toList_ofList, prettyChars_eq j 0]
  exact scan_chars h Spacing.lines

end Json

end Flowline
