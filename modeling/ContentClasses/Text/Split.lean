/-!
# Splitting texts

The parts of a text between the occurrences of a separator. There is always one part more than there
are separators, and joining the parts with the separator gives the text back.
-/

namespace ContentClasses.Text

/-- The parts of a text between the occurrences of `sep`. -/
def split (sep : Char) (s : String) : List String :=
  (s.toList.splitOn sep).map String.ofList

example : split '.' "A..b" = ["A", "", "b"] := by decide

end ContentClasses.Text
