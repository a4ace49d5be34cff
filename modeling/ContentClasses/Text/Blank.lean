/-!
# Blank characters

The characters with the Unicode property White_Space, and texts cut free of them at both ends.
-/

namespace ContentClasses.Text

/-- A character is blank when it has the Unicode property White_Space. -/
def isBlank (c : Char) : Bool :=
  let n := c.toNat
  (0x09 ≤ n && n ≤ 0x0D) || n == 0x20 || n == 0x85 || n == 0xA0 || n == 0x1680 ||
    (0x2000 ≤ n && n ≤ 0x200A) || n == 0x2028 || n == 0x2029 || n == 0x202F || n == 0x205F ||
    n == 0x3000

/-- The list without the blank characters at its front and at its end. -/
def trimChars (cs : List Char) : List Char :=
  ((cs.dropWhile isBlank).reverse.dropWhile isBlank).reverse

/-- The text without the blank characters at its front and at its end. -/
def trim (s : String) : String :=
  String.ofList (trimChars s.toList)

/-- A text that holds nothing but blank characters. -/
def isBlankText (s : String) : Bool :=
  s.toList.all isBlank

example : trim "\u3000 a b\t" = "a b" := by decide

end ContentClasses.Text
