import ContentClasses.Error

/-!
# Expansion of snippets

A content type refers to a snippet by an element of its own. In its place stand the elements of the
snippet; guidelines are text for editors and stand for nothing.
-/

namespace ContentClasses

/-- What a snippet brings into a content type: its elements without the guidelines. -/
def Snippet.content (snippet : Snippet) : List Element :=
  snippet.elements.filter (·.kind ≠ .guidelines)

namespace Element

/-- What the snippet brings that an element refers to: the first one of the same codename. An
element of any other kind refers to none. -/
def expand? (element : Element) (snippets : List Snippet) :
    Except Error (Option (List Element)) :=
  if element.kind = .snippet then
    match snippets.find? (·.codename == element.codename) with
    | some snippet => .ok (some snippet.content)
    | none => .error (.missingSnippet element.codename)
  else .ok none

/-- The elements that stand in the place of an element. -/
def concrete (element : Element) (snippets : List Snippet) : Except Error (List Element) := do
  match ← element.expand? snippets with
  | some elements => return elements
  | none => return if element.kind = .guidelines then [] else [element]

end Element

/-- The elements of a content type once all its snippets are expanded. -/
def ContentType.concreteElements (type : ContentType) (snippets : List Snippet) :
    Except Error (List Element) := do
  let parts ← type.elements.mapM (·.concrete snippets)
  return parts.flatten

end ContentClasses
