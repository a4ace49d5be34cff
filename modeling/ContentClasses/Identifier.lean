import ContentClasses.Error

/-!
# Identifiers

An identifier is made from the words of a text, which are its longest runs of ASCII letters and
digits. Each word starts with a capital. Where a text has several words, words in capitals are
lowered; a single word is not, so that an acronym alone survives and an identifier is made from
itself again.
-/

namespace ContentClasses

/-- The name of a class or property. -/
structure Identifier where
  text : String
deriving DecidableEq, Repr

namespace Identifier

/-- The words of a text: its longest runs of ASCII letters and digits. -/
def words : List Char → List (List Char)
  | [] => []
  | c :: cs =>
    if c.isAlphanum then
      -- The character joins the word behind it when nothing stands between them.
      match cs, words cs with
      | d :: _, word :: rest =>
        if d.isAlphanum then (c :: word) :: rest else [c] :: word :: rest
      | _, rest => [c] :: rest
    else words cs

/-- A word with a capital and without small letters. -/
def isScreaming (word : List Char) : Bool :=
  word.any Char.isUpper && !word.any Char.isLower

/-- The word with a capital in front. -/
def capitalize : List Char → List Char
  | [] => []
  | c :: cs => c.toUpper :: cs

/-- The word with a capital in front and no other. -/
def capitalizeOnly : List Char → List Char
  | [] => []
  | c :: cs => c.toUpper :: cs.map Char.toLower

/-- A word as it stands among several. -/
def caseAmongSeveral (word : List Char) : List Char :=
  if isScreaming word then capitalizeOnly word else capitalize word

/-- The words put together. -/
def joinWords : List (List Char) → List Char
  | [] => []
  | [word] => capitalize word
  | several => several.flatMap caseAmongSeveral

/-- The identifier that a text gives, if it starts with a letter. -/
def ofText? (text : String) : Option Identifier :=
  match joinWords (words text.toList) with
  | [] => none
  | c :: cs => if c.isAlpha then some ⟨String.ofList (c :: cs)⟩ else none

/-- The identifier that a text gives. -/
def ofText (text : String) : Except Error Identifier :=
  match ofText? text with
  | some identifier => .ok identifier
  | none => .error (.invalidIdentifier text)

/-- The text is an ASCII letter followed by ASCII letters and digits. -/
def isValid (text : String) : Bool :=
  match text.toList with
  | [] => false
  | c :: cs => c.isAlpha && cs.all Char.isAlphanum

/-- The identifier with more letters at its end. -/
def append (identifier : Identifier) (letters : String) : Identifier :=
  ⟨identifier.text ++ letters⟩

example : (ofText? "related_articles 2").map text = some "RelatedArticles2" := by decide

example : (ofText? "FAQ").map text = some "FAQ" := by decide

example : (ofText? "FAQ section").map text = some "FaqSection" := by decide

example : ofText? "1st" = none := by decide

end Identifier

end ContentClasses
