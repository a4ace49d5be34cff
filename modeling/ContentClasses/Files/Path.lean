import ContentClasses.Text.Split

/-!
# Paths

A path is kept as it was written. A reader of a file tree follows its steps.
-/

namespace ContentClasses

/-- A path of a file or directory, relative or from the root. -/
structure Path where
  text : String
deriving DecidableEq, Repr

namespace Path

/-- The character between the steps of a path. -/
def separator : Char := '/'

/-- One step of a path: to the directory itself, to the one above, or to an entry. -/
inductive Step where
  | here
  | up
  | name (name : String)
deriving DecidableEq, Repr

/-- The step that a part of a path stands for. -/
def Step.ofPart (part : String) : Step :=
  if part = "" ∨ part = "." then .here
  else if part = ".." then .up
  else .name part

/-- The parts of a path between its separators. -/
def parts (p : Path) : List String :=
  Text.split separator p.text

/-- The steps of a path. A separator at the end asks for a directory, like a last dot. -/
def steps (p : Path) : List Step :=
  p.parts.map Step.ofPart

/-- The path starts at the root. -/
def isAbsolute (p : Path) : Bool :=
  p.text.toList.head? == some separator

/-- The path of `rest` seen from the directory `p`. -/
def join (p : Path) (rest : String) : Path :=
  if rest.toList.head? = some separator then ⟨rest⟩
  else if p.text = "" then ⟨rest⟩
  else if p.text.toList.getLast? = some separator then ⟨p.text ++ rest⟩
  else ⟨p.text ++ String.singleton separator ++ rest⟩

/-- There is a dot among the parts at the end that lead nowhere. -/
def endsInDot (p : Path) : Bool :=
  (p.parts.reverse.takeWhile fun part => part = "" ∨ part = ".").contains "."

/-- The parts that tell two paths apart: repeated separators, a separator at the end and dots
inside a path do not. -/
def significantParts (p : Path) : List String :=
  let rest := p.parts.tail.filter fun part => part ≠ "" ∧ part ≠ "."
  match p.parts.head? with
  | none => rest
  | some first => if first = "" then rest else first :: rest

/-- Two paths are written the same but for separators and dots that change nothing. -/
def same (p q : Path) : Bool :=
  p.isAbsolute == q.isAbsolute && p.significantParts == q.significantParts

/-- The extension of a name: what stands behind its last dot, unless the name starts with it. -/
def extension? (name : String) : Option String :=
  let reversed := name.toList.reverse
  let extension := reversed.takeWhile (· ≠ '.')
  match reversed.drop extension.length with
  | _ :: _ :: _ => some (String.ofList extension.reverse)
  | _ => none

/-- The last name of a path, if the path does not end with a step up. -/
def fileName? (p : Path) : Option String :=
  match (p.steps.filter (· ≠ .here)).getLast? with
  | some (.name n) => some n
  | _ => none

/-- The path without the separators and dots at its end. -/
def withoutEnd (p : Path) : Path :=
  ⟨[separator].intercalate
      ((p.parts.map String.toList).reverse.dropWhile fun part => part = [] ∨ part = ['.']).reverse
    |> String.ofList⟩

/-- The path with an extension more, if it ends with a name. -/
def addExtension? (p : Path) (extension : String) : Option Path :=
  p.fileName?.map fun _ => ⟨p.withoutEnd.text ++ "." ++ extension⟩

example : (Path.mk "out/").join "x" = ⟨"out/x"⟩ := by decide

example : (Path.mk "./").same ⟨"."⟩ = true := by decide

end Path

end ContentClasses
