import ContentClasses.Toml.Quoted
import ContentClasses.Toml.Scalar
import ContentClasses.Toml.Table

/-!
# Reading TOML

A text is a list of lines, each with at most one statement and a comment. A reader takes what it
reads from the front of a list of characters and leaves the rest.
-/

namespace ContentClasses.Toml

/-- The nesting of arrays and inline tables that is accepted, and the number of names in a key. -/
def maxNesting : Nat := 79

/-- The text with a line feed alone at the end of every line. A carriage return that ends no line is
an error. -/
def unifyLineEnds? : List Char → Option (List Char)
  | [] => some []
  | '\r' :: '\n' :: cs => ('\n' :: ·) <$> unifyLineEnds? cs
  | c :: cs => if c = '\r' then none else (c :: ·) <$> unifyLineEnds? cs

/-- What follows blanks and tabs. -/
def skipSpace (cs : List Char) : List Char :=
  cs.dropWhile isSpace

/-- What follows a comment, if there is one. -/
def skipComment : List Char → List Char
  | '#' :: cs => cs.dropWhile isLineChar
  | cs => cs

/-- What follows blanks, line ends and comments. -/
def skipBlanks (inComment : Bool) : List Char → List Char
  | [] => []
  | c :: cs =>
    if c = '\n' then skipBlanks false cs
    else if inComment && isLineChar c then skipBlanks true cs
    else if !inComment && isSpace c then skipBlanks false cs
    else if !inComment && c = '#' then skipBlanks true cs
    else c :: cs

/-- A character of a key without quotes. -/
def isKeyChar (c : Char) : Bool :=
  c.isAlphanum || c = '_' || c = '-'

/-- Reads a name of a key. -/
def name? (cs : List Char) : Option (String × List Char) :=
  match lineString? cs with
  | some (content, rest) => some (String.ofList content, rest)
  | none =>
    let name := cs.takeWhile isKeyChar
    if name.isEmpty then none else some (String.ofList name, cs.dropWhile isKeyChar)

/-- Reads the names of a key with the space around each. -/
def names? (cs : List Char) : Option (List String × List Char) := do
  let (name, rest) ← name? (skipSpace cs)
  match skipSpace rest with
  | '.' :: behind =>
    if behind.length < cs.length then
      let (names, rest) ← names? behind
      return (name :: names, rest)
    else none
  | rest => return ([name], rest)
termination_by cs.length

/-- Reads a key: the names of the tables on the way, and its last name. -/
def key? (cs : List Char) : Option ((List String × String) × List Char) := do
  let (names, rest) ← names? cs
  if maxNesting < names.length then none
  let last ← names.getLast?
  return ((names.dropLast, last), rest)

section Values

variable (value? : List Char → Option (Value × List Char))

/-- Reads a key and its value. -/
def assignment? (cs : List Char) : Option ((List String × String) × Value × List Char) := do
  let (key, rest) ← key? cs
  match rest with
  | '=' :: behind =>
    let (value, rest) ← value? (skipSpace behind)
    return (key, value, rest)
  | _ => none

/-- Reads the items of an array and the bracket at its end. There may be a comma behind the last
item. -/
def items? (cs : List Char) : Option (List Value × List Char) :=
  match skipBlanks false cs with
  | ']' :: rest => some ([], rest)
  | start => do
    let (item, rest) ← value? start
    match skipBlanks false rest with
    | ']' :: rest => return ([item], rest)
    | ',' :: behind =>
      if behind.length < cs.length then
        let (items, rest) ← items? behind
        return (item :: items, rest)
      else none
    | _ => none
termination_by cs.length

/-- Reads the entries of an inline table into a table, and the brace at its end. There is one entry
at least, and no comma behind the last. -/
def inlineEntries? (entries : Entries) (cs : List Char) : Option (Entries × List Char) := do
  let ((path, name), value, rest) ← assignment? value? cs
  let entries ← entries.insertAt path name value
  match skipSpace rest with
  | '\x7d' :: rest => return (entries, rest)
  | ',' :: behind =>
    if behind.length < cs.length then inlineEntries? entries behind else none
  | _ => none
termination_by cs.length

/-- Reads an inline table behind its first brace. -/
def inlineTable? (cs : List Char) : Option (Value × List Char) :=
  match skipSpace cs with
  | '\x7d' :: rest => some (.table [], rest)
  | _ => do
    let (entries, rest) ← inlineEntries? value? [] cs
    return (.table (valuesOf entries), rest)

end Values

/-- Reads a value in which arrays and inline tables are nested at most `room` times. -/
def value? : Nat → List Char → Option (Value × List Char)
  | 0, '[' :: _ => none
  | 0, '\x7b' :: _ => none
  | room + 1, '[' :: cs => do
    let (items, rest) ← items? (value? room) cs
    return (.list items, rest)
  | room + 1, '\x7b' :: cs => inlineTable? (value? room) cs
  | _, cs =>
    match string? cs with
    | some (content, rest) => some (.string (String.ofList content), rest)
    | none => scalar? cs

/-- Reads what is left of a line: space, a comment, and the line end or the end of the text. -/
def lineEnd? (cs : List Char) : Option (List Char) :=
  match skipComment (skipSpace cs) with
  | [] => some []
  | '\n' :: rest => some rest
  | _ => none

/-- Reads the statement of a line, if it has one. -/
def statement? (cs : List Char) : Option (Option Statement × List Char) :=
  match cs with
  | [] | '\n' :: _ | '#' :: _ => some (none, cs)
  | '[' :: '[' :: cs => do
    let ((path, name), rest) ← key? cs
    match rest with
    | ']' :: ']' :: rest => return (some (.nextTable path name), rest)
    | _ => none
  | '[' :: cs => do
    let ((path, name), rest) ← key? cs
    match rest with
    | ']' :: rest => return (some (.table path name), rest)
    | _ => none
  | _ => do
    let ((path, name), value, rest) ← assignment? (value? maxNesting) cs
    return (some (.assign path name value), rest)

/-- Reads the lines of a text and carries out their statements. -/
def lines? (document : Document) (cs : List Char) : Option Document :=
  if cs.isEmpty then some document
  else do
    let (statement, rest) ← statement? (skipSpace cs)
    let rest ← lineEnd? rest
    let document ←
      match statement with
      | some statement => document.run statement
      | none => some document
    if rest.length < cs.length then lines? document rest else none
termination_by cs.length

/-- The text without a byte order mark in front. -/
def withoutMark : List Char → List Char
  | '\ufeff' :: cs => cs
  | cs => cs

/-- The settings that a text gives. -/
def settings? (text : String) : Option Settings := do
  let cs ← unifyLineEnds? (withoutMark text.toList)
  let document ← lines? .empty cs
  document.settings?

end ContentClasses.Toml
