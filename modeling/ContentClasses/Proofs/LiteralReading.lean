import ContentClasses.Proofs.Literals

/-!
# Reading a literal

A reader that starts behind the opening quote of a literal, decodes its escapes and stops at the
first quote that no backslash escapes. What it reads is what the text in front of that quote stands
for: `CSharp.readLiteral?_eq_some_iff`. So it reads every text out of its own literal and stops at
the end of that literal, whatever stands behind it: `CSharp.escape_delimits`.
-/

namespace ContentClasses.CSharp

/-- Reads what stands in front of the first unescaped quote, with its escapes decoded. The rest
behind that quote is left. -/
def readLiteral? : List Char → Option (List Char × List Char)
  | [] => none
  | '\x22' :: rest => some ([], rest)
  | ['\x5c'] => none
  | '\x5c' :: letter :: cs => do
    let c ← unescapeLetter? letter
    let (value, rest) ← readLiteral? cs
    return (c :: value, rest)
  | c :: cs => do
    let (value, rest) ← readLiteral? cs
    return (c :: value, rest)

section Reader
variable {c letter : Char} {cs body value rest : List Char}

/-- An escape in front of a literal is read as the character that it stands for. -/
lemma readLiteral?_escaped (stands : unescapeLetter? letter = some c)
    (read : readLiteral? cs = some (value, rest)) :
    readLiteral? ('\x5c' :: letter :: cs) = some (c :: value, rest) := by
  rw [readLiteral?, stands, read]
  rfl

/-- A plain character in front of a literal is read as itself. -/
lemma readLiteral?_plain (quote : c ≠ '\x22') (backslash : c ≠ '\x5c')
    (read : readLiteral? cs = some (value, rest)) :
    readLiteral? (c :: cs) = some (c :: value, rest) := by
  rw [readLiteral?, read]
  · rfl
  · exact quote
  · exact fun same => absurd same backslash
  · exact fun _ _ same => absurd same backslash

/-- A text in front of a quote is read for what it stands for, and the reader stops behind that
quote. -/
lemma readLiteral?_of_unescape? (decoded : unescape? body = some value) :
    readLiteral? (body ++ '\x22' :: rest) = some (value, rest) := by
  fun_induction unescape? body generalizing value with
  | case1 =>
    cases decoded
    rfl
  | case2 letter cs ih =>
    obtain ⟨c, stands, more⟩ := Option.bind_eq_some_iff.mp decoded
    obtain ⟨later, behind, same⟩ := Option.bind_eq_some_iff.mp more
    cases same
    exact readLiteral?_escaped stands (ih behind)
  | case3 => cases decoded
  | case4 c cs _ plain ih =>
    obtain ⟨later, behind, rfl⟩ := Option.map_eq_some_iff.mp decoded
    rw [List.mem_cons, List.mem_singleton, not_or] at plain
    exact readLiteral?_plain plain.2 plain.1 (ih behind)

/-- What is read stands in front of a quote, with nothing unescaped in it. -/
lemma exists_of_readLiteral? (read : readLiteral? cs = some (value, rest)) :
    ∃ body, cs = body ++ '\x22' :: rest ∧ unescape? body = some value := by
  fun_induction readLiteral? cs generalizing value with
  | case1 => cases read
  | case2 =>
    cases read
    exact ⟨[], rfl, rfl⟩
  | case3 => cases read
  | case4 letter cs ih =>
    obtain ⟨c, stands, more⟩ := Option.bind_eq_some_iff.mp read
    obtain ⟨⟨later, _⟩, behind, same⟩ := Option.bind_eq_some_iff.mp more
    cases same
    obtain ⟨body, rfl, decoded⟩ := ih behind
    refine ⟨'\x5c' :: letter :: body, rfl, ?_⟩
    rw [unescape?, stands, decoded]
    rfl
  | case5 c cs quote alone escapes ih =>
    -- The patterns in front of this one have caught every backslash.
    have backslash : c ≠ '\x5c' := by
      rintro rfl
      cases cs with
      | nil => exact alone rfl rfl
      | cons letter cs => exact escapes letter cs rfl rfl
    obtain ⟨⟨later, _⟩, behind, same⟩ := Option.bind_eq_some_iff.mp read
    cases same
    obtain ⟨body, rfl, decoded⟩ := ih behind
    refine ⟨c :: body, rfl, ?_⟩
    rw [unescape?_cons quote backslash, decoded]
    rfl

/-- The reader stops at the quote behind a text that has no unescaped quote in it, and reads what
this text stands for. -/
lemma readLiteral?_eq_some_iff :
    readLiteral? cs = some (value, rest) ↔
      ∃ body, cs = body ++ '\x22' :: rest ∧ unescape? body = some value := by
  refine ⟨exists_of_readLiteral?, ?_⟩
  rintro ⟨body, rfl, decoded⟩
  exact readLiteral?_of_unescape? decoded

end Reader

/-- The escaped text in front of a quote is read as the text, and all that is behind the quote is
left, whatever the two are. So the text and what is behind its literal can be told from the whole,
and escaping is injective. It goes piece by piece. -/
theorem escape_delimits :
    (∀ s t, readLiteral? (escape s ++ '\x22' :: t) = some (s, t)) ∧
    (∀ s t u v, escape s ++ '\x22' :: t = escape u ++ '\x22' :: v ↔ s = u ∧ t = v) ∧
    Function.Injective escape ∧
    ∀ s u, escape (s ++ u) = escape s ++ escape u := by
  have read (s t : List Char) : readLiteral? (escape s ++ '\x22' :: t) = some (s, t) :=
    readLiteral?_of_unescape? (unescape?_escape s)
  have apart (s t u v : List Char) :
      escape s ++ '\x22' :: t = escape u ++ '\x22' :: v ↔ s = u ∧ t = v := by
    constructor
    · intro same
      have both := read s t
      rw [same, read u v] at both
      cases both
      exact ⟨rfl, rfl⟩
    · rintro ⟨rfl, rfl⟩
      rfl
  refine ⟨read, apart, fun s u same => ?_, escape_append⟩
  have quoted : escape s ++ ['\x22'] = escape u ++ ['\x22'] := by rw [same]
  exact ((apart s [] u []).mp quoted).1

/-- A backslash at the end of a text does not escape the quote behind it, and neither does the one
in front of a quote of the text. -/
theorem backslash_delimited :
    let rest := "; Run(\x22\x5c\x22)".toList
    escape ['\x22', '\x5c'] = ['\x5c', '\x22', '\x5c', '\x5c'] ∧
      readLiteral? ('\x5c' :: '\x22' :: '\x5c' :: '\x5c' :: '\x22' :: rest) =
        some (['\x22', '\x5c'], rest) ∧
      ∀ u v, escape ['\x22', '\x5c'] ++ '\x22' :: rest = escape u ++ '\x22' :: v ↔
        ['\x22', '\x5c'] = u ∧ rest = v := by
  intro rest
  obtain ⟨read, apart, -, -⟩ := escape_delimits
  exact ⟨rfl, read ['\x22', '\x5c'] rest, apart ['\x22', '\x5c'] rest⟩

end ContentClasses.CSharp
