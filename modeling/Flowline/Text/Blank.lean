/-!
# Blank characters and trimming

A character is blank when Unicode gives it the property White_Space. `trim` removes the
blank characters from both ends of a text; `IsTrimmed` says that there is nothing to
remove. Lines of a document are the pieces between line feeds (`lines`): whoever reads
them trims them, which also takes off a carriage return before the line feed.
-/

namespace Flowline.Text

/-- The property White_Space of Unicode. -/
def isBlank (c : Char) : Bool :=
  let n := c.toNat
  (9 ≤ n && n ≤ 13) || n == 0x20 || n == 0x85 || n == 0xA0 || n == 0x1680 ||
    (0x2000 ≤ n && n ≤ 0x200A) || n == 0x2028 || n == 0x2029 || n == 0x202F ||
    n == 0x205F || n == 0x3000

/-! ## Trimming -/

/-- The text without its leading blanks. -/
def trimLeft (s : List Char) : List Char := s.dropWhile isBlank

/-- The text without its trailing blanks. -/
def trimRight (s : List Char) : List Char := (s.reverse.dropWhile isBlank).reverse

/-- The text without blanks at either end. -/
def trim (s : List Char) : List Char := trimRight (trimLeft s)

/-- The string without blanks at either end. -/
def trimmed (s : String) : String := String.ofList (trim s.toList)

/-- A text with no blank at either end. -/
def IsTrimmed (s : List Char) : Prop :=
  (∀ c ∈ s.head?, isBlank c = false) ∧ ∀ c ∈ s.getLast?, isBlank c = false

instance (s : List Char) : Decidable (IsTrimmed s) :=
  @instDecidableAnd _ _ (Option.decidableForallMem s.head?)
    (Option.decidableForallMem s.getLast?)

/-- Whether nothing but blanks is there. -/
def isBlankText (s : List Char) : Bool := s.all isBlank

@[simp] theorem toList_trimmed (s : String) : (trimmed s).toList = trim s.toList :=
  String.toList_ofList

/-! ## Cutting a text -/

/-- What stands before and after the first occurrence of `c`, if there is one. -/
def cutAt (c : Char) : List Char → Option (List Char × List Char)
  | [] => none
  | d :: s => if d = c then some ([], s) else (cutAt c s).map fun (a, b) => (d :: a, b)

/-- The pieces between line feeds. -/
def lines (s : List Char) : List (List Char) := s.splitOn '\n'

/-- The text of some lines, each ended by a line feed. -/
def unlines (ls : List String) : String := String.join (ls.map (· ++ "\n"))

end Flowline.Text
