import Flowline.Category
import Flowline.Text.Blank

/-!
# Lines of a flow definition

`Line.classify` says what a line is, looking at nothing but the line: a section header, a
category token, a lone brace, a stage `name { content }`, or plain text. Headers are recognised
by how the line begins, in any case, so whatever follows on the line is part of the header.
-/

namespace Flowline.Definition

open Text

/-- What a line of a definition is. -/
inductive Line where
  | overallHeader
  | subStagesHeader
  | category (c : Category)
  | openBrace
  | closeBrace
  /-- A stage with the text in its braces, both trimmed. -/
  | stage (name content : String)
  | text
deriving DecidableEq

namespace Line

/-- Whether the text begins with `word`, letters compared without case. Only letters of ASCII
matter: no other character has a lower case that begins with a letter of a header. -/
def beginsWith (word s : List Char) : Bool := word.isPrefixOf (s.map Char.toLower)

def isOverallHeader (s : List Char) : Bool := beginsWith "overall flow".toList s

def isSubStagesHeader (s : List Char) : Bool := beginsWith "sub-stages".toList s

/-- A character that ends a name or a content. -/
def isBrace (c : Char) : Bool := c == '\x7b' || c == '\x7d'

/-- The parts of `name{content}`, if the text has exactly this form and the name is not empty. -/
def stageParts? (s : List Char) : Option (List Char × List Char) :=
  match cutAt '\x7b' s with
  | none => none
  | some (name, rest) =>
    let content := rest.dropLast
    if name ≠ [] ∧ !name.any isBrace ∧ rest.getLast? = some '\x7d' ∧ !content.any isBrace then
      some (name, content)
    else none

/-- What the line is. The tests are tried in the order of the constructors. -/
def classify (line : String) : Line :=
  let s := line.toList
  if isOverallHeader s then overallHeader
  else if isSubStagesHeader s then subStagesHeader
  else match Category.ofToken? line with
    | some c => category c
    | none =>
      if s = ['\x7b'] then openBrace
      else if s = ['\x7d'] then closeBrace
      else match stageParts? s with
        | none => text
        | some (name, content) =>
          if trim name = [] then text
          else stage (String.ofList (trim name)) (String.ofList (trim content))

end Line

end Flowline.Definition
