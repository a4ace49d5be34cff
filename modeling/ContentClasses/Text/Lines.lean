import ContentClasses.Text.Split

/-!
# Lines

The text of some lines, each of which is ended by a line feed. Where no line holds a line feed, the
lines can be told from the text again.
-/

namespace ContentClasses.Text

/-- The characters of some lines. -/
def charsOfLines (lines : List String) : List Char :=
  lines.flatMap fun line => line.toList ++ ['\n']

/-- The text of some lines. -/
def ofLines (lines : List String) : String :=
  String.ofList (charsOfLines lines)

/-- Splitting a text of lines at line feeds gives the lines, and nothing behind the last. -/
theorem split_ofLines {lines : List String} (h : ∀ line ∈ lines, '\n' ∉ line.toList) :
    split '\n' (ofLines lines) = lines ++ [""] := by
  induction lines with
  | nil => rfl
  | cons line lines ih =>
    have hline : '\n' ∉ line.toList := h line (List.mem_cons_self ..)
    have ih := ih fun other hm => h other (List.mem_cons_of_mem _ hm)
    simp only [split, ofLines, String.toList_ofList] at ih ⊢
    rw [charsOfLines, List.flatMap_cons, List.append_assoc, List.singleton_append,
      List.splitOn_append_cons_self_of_not_mem hline]
    simpa [charsOfLines] using ih

end ContentClasses.Text
