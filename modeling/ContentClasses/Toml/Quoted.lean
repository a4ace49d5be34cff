import ContentClasses.Decimal.Numeral

/-!
# Strings of TOML

A string is written in one of four forms: on one line or on several, with escapes or literally. A
string is read in two steps: first its body, up to the quote that ends it, then the characters that
the body stands for. The lines of the whole text end in a line feed alone.
-/

namespace ContentClasses.Toml

/-- A character that stands for itself on a line. -/
def isLineChar (c : Char) : Bool :=
  c = '\t' || (' ' ≤ c && c ≠ '\x7f')

/-- A blank or a tab. -/
def isSpace (c : Char) : Bool :=
  c = ' ' || c = '\t'

/-- The character that an escape of two characters stands for, by the second of them. -/
def escaped? : Char → Option Char
  | 'b' => some '\x08'
  | 't' => some '\t'
  | 'n' => some '\n'
  | 'f' => some '\x0c'
  | 'r' => some '\r'
  | '\x22' => some '\x22'
  | '\x5c' => some '\x5c'
  | _ => none

/-- The character whose code point the hexadecimal digits give. -/
def hexChar? (digits : List Char) : Option Char := do
  let n ← Numeral.ofBase? 16 digits
  if n.isValidChar then some (Char.ofNat n) else none

/-- What stands behind a backslash ends its line: a line end with nothing but space before it. -/
def endsLine (cs : List Char) : Bool :=
  (cs.dropWhile isSpace).head? == some '\n'

/-- A character that stands for itself in a string with escapes, on one line or on several. -/
def isPlain (several : Bool) (c : Char) : Bool :=
  (isLineChar c && c ≠ '\x5c') || (several && c = '\n')

/-- The characters that a body with escapes stands for. A body on several lines may have backslashes
at the ends of its lines; the blanks and line ends behind each of them are left out, which is what
happens while `skipping`. -/
def decode (several skipping : Bool) : List Char → Option (List Char)
  | [] => some []
  | '\x5c' :: 'u' :: a :: b :: c :: d :: cs => do
    let x ← hexChar? [a, b, c, d]
    (x :: ·) <$> decode several false cs
  | '\x5c' :: 'U' :: a :: b :: c :: d :: e :: f :: g :: h :: cs => do
    let x ← hexChar? [a, b, c, d, e, f, g, h]
    (x :: ·) <$> decode several false cs
  | '\x5c' :: c :: cs =>
    if several && endsLine (c :: cs) then decode several true (c :: cs)
    else do
      let x ← escaped? c
      (x :: ·) <$> decode several false cs
  | c :: cs =>
    if skipping && (isSpace c || c = '\n') then decode several true cs
    else if isPlain several c then (c :: ·) <$> decode several false cs
    else none

/-- The body of a string on one line with escapes, without the quote that ends it, and what follows
that quote. -/
def bodyToQuote : List Char → Option (List Char × List Char)
  | [] => none
  | '\x22' :: rest => some ([], rest)
  | '\x5c' :: c :: cs => (bodyToQuote cs).map fun (body, rest) => ('\x5c' :: c :: body, rest)
  | c :: cs => (bodyToQuote cs).map fun (body, rest) => (c :: body, rest)

/-- What stands behind three quotes that end a string on several lines: up to two quotes more
belong to the string. -/
def endOfLines (quote : Char) (rest : List Char) : List Char × List Char :=
  let more := (rest.takeWhile (· = quote)).take 2
  (more, rest.drop more.length)

/-- The body of a string on several lines with escapes, and what follows the quotes that end it. -/
def bodyToQuotes : List Char → Option (List Char × List Char)
  | [] => none
  | '\x22' :: '\x22' :: '\x22' :: rest => some (endOfLines '\x22' rest)
  | '\x5c' :: c :: cs => (bodyToQuotes cs).map fun (body, rest) => ('\x5c' :: c :: body, rest)
  | c :: cs => (bodyToQuotes cs).map fun (body, rest) => (c :: body, rest)

/-- The body of a literal string on several lines, and what follows the quotes that end it. -/
def bodyToApostrophes : List Char → Option (List Char × List Char)
  | [] => none
  | '\x27' :: '\x27' :: '\x27' :: rest => some (endOfLines '\x27' rest)
  | c :: cs => (bodyToApostrophes cs).map fun (body, rest) => (c :: body, rest)

/-- A line end right behind the quotes that start a string on several lines does not count. -/
def dropLineEnd : List Char → List Char
  | '\n' :: cs => cs
  | cs => cs

/-- A character of a literal string on several lines. -/
def isLiteralLinesChar (c : Char) : Bool :=
  isLineChar c || c = '\n'

/-- Reads a string on one line with escapes, behind its first quote. -/
def basic? (cs : List Char) : Option (List Char × List Char) := do
  let (body, rest) ← bodyToQuote cs
  let content ← decode false false body
  return (content, rest)

/-- Reads a literal string on one line, behind its first quote. -/
def literal? (cs : List Char) : Option (List Char × List Char) :=
  match cs.dropWhile (· ≠ '\x27') with
  | [] => none
  | _ :: rest =>
    let body := cs.takeWhile (· ≠ '\x27')
    if body.all isLineChar then some (body, rest) else none

/-- Reads a string on several lines with escapes, behind its first three quotes. -/
def basicLines? (cs : List Char) : Option (List Char × List Char) := do
  let (body, rest) ← bodyToQuotes (dropLineEnd cs)
  let content ← decode true false body
  return (content, rest)

/-- Reads a literal string on several lines, behind its first three quotes. -/
def literalLines? (cs : List Char) : Option (List Char × List Char) := do
  let (body, rest) ← bodyToApostrophes (dropLineEnd cs)
  if body.all isLiteralLinesChar then some (body, rest) else none

/-- Reads a string in any form. -/
def string? : List Char → Option (List Char × List Char)
  | '\x22' :: '\x22' :: '\x22' :: cs => basicLines? cs
  | '\x22' :: cs => basic? cs
  | '\x27' :: '\x27' :: '\x27' :: cs => literalLines? cs
  | '\x27' :: cs => literal? cs
  | _ => none

/-- Reads a string on one line. -/
def lineString? : List Char → Option (List Char × List Char)
  | '\x22' :: cs => basic? cs
  | '\x27' :: cs => literal? cs
  | _ => none

end ContentClasses.Toml
