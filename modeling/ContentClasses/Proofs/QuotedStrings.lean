import ContentClasses.Proofs.Rows
import ContentClasses.Toml.Writer

/-!
# Strings of TOML that are written and read

A string is read back as it was written, whichever form it is written in: `string?_writeChars`. The
writer and the readers of the two forms with escapes meet at `Escaped`, which says piece by piece
how characters are written.
-/

namespace ContentClasses.Toml

variable {c : Char} {cs text rest : List Char} {several : Bool} {most run : Nat} {form : Form}

/-- Characters and how they are written in a form with escapes, behind `run` quotes. No more than
`most` quotes stand together, and no piece but an escape has a backslash. -/
inductive Escaped (several : Bool) (most : Nat) : Nat → List Char → List Char → Prop where
  | nil {run : Nat} : Escaped several most run [] []
  | quote {run : Nat} {cs text : List Char} (few : run < most)
    (rest : Escaped several most (run + 1) cs text) :
    Escaped several most run ('\x22' :: cs) ('\x22' :: text)
  | plain {run : Nat} {c : Char} {cs text : List Char} (other : c ≠ '\x22')
    (itself : isPlain several c) (rest : Escaped several most 0 cs text) :
    Escaped several most run (c :: cs) (c :: text)
  | letter {run : Nat} {c x : Char} {cs text : List Char} (stands : escaped? x = some c)
    (rest : Escaped several most 0 cs text) :
    Escaped several most run (c :: cs) ('\x5c' :: x :: text)
  | code {run : Nat} {c a b d e : Char} {cs text : List Char}
    (stands : hexChar? [a, b, d, e] = some c)
    (digits : ∀ x ∈ [a, b, d, e], x.isAlphanum)
    (rest : Escaped several most 0 cs text) :
    Escaped several most run (c :: cs) ('\x5c' :: 'u' :: a :: b :: d :: e :: text)

/-- A character that has a letter is read from it. -/
lemma escaped?_escapeLetter {x : Char} (letter : escapeLetter? c = some x) :
    escaped? x = some c := by
  unfold escapeLetter? at letter
  split at letter <;> cases letter <;> rfl

/-- A control character is a small one. -/
lemma toNat_of_isControl (control : isControl c) : c.toNat < 128 := by
  rw [isControl, Bool.or_eq_true, Bool.and_eq_true, Bool.and_eq_true, decide_eq_true_eq,
    decide_eq_true_eq] at control
  obtain ⟨⟨low, -⟩, -⟩ | delete := control
  · have below : c.toNat < ' '.toNat := low
    have blank : ' '.toNat = 32 := rfl
    omega
  · rw [of_decide_eq_true delete]
    decide

/-- A control character is read from its code. -/
lemma escapeCode_spec (control : isControl c) :
    ∃ a b d e, escapeCode c = ['\x5c', 'u', a, b, d, e] ∧ hexChar? [a, b, d, e] = some c ∧
      ∀ x ∈ [a, b, d, e], x.isAlphanum := by
  have all : ∀ n < 128,
      hexChar? ((escapeCode (Char.ofNat n)).drop 2) = some (Char.ofNat n) ∧
        ((escapeCode (Char.ofNat n)).drop 2).all Char.isAlphanum := by decide +kernel
  obtain ⟨stands, digits⟩ := all c.toNat (toNat_of_isControl control)
  rw [Char.ofNat_toNat] at stands digits
  exact ⟨_, _, _, _, rfl, stands, List.all_eq_true.mp digits⟩

/-- What is neither a control character nor a line feed stands for itself on a line. -/
lemma isLineChar_of_not_isControl (free : isControl c = false) (other : c ≠ '\n') :
    isLineChar c := by
  rw [isControl, Bool.or_eq_false_iff, decide_eq_false_iff_not] at free
  obtain ⟨low, delete⟩ := free
  by_cases tab : c = '\t'
  · rw [tab]
    rfl
  · have high : ¬ c < ' ' := by simpa [tab, other] using low
    have blank : ' ' ≤ c := Char.not_lt.mp high
    simp [isLineChar, tab, blank, delete]

/-- What the writer escapes is escaped as the reader asks for it, in every form. -/
lemma escape_escaped (form : Form) :
    Escaped form.hasLines form.maxRun run cs (escape form run cs) := by
  induction cs generalizing run with
  | nil => exact .nil
  | cons c cs ih =>
    -- A quote is escaped only where too many of them would stand in a row, so `run` is generalized.
    by_cases quote : c = '\x22'
    · subst quote
      rw [escape]
      split
      case isTrue few => exact .quote few ih
      case isFalse => exact .letter rfl ih
    · rw [escape]
      case x_1 => exact quote
      rw [escapeChar]
      split
      case isTrue lineEnd =>
        rw [Bool.and_eq_true, decide_eq_true_eq] at lineEnd
        refine .plain quote ?_ ih
        simp [isPlain, lineEnd]
      case isFalse =>
        cases letter : escapeLetter? c with
        | some x => exact .letter (escaped?_escapeLetter letter) ih
        | none =>
          cases control : isControl c with
          | true =>
            obtain ⟨a, b, d, e, written, stands, digits⟩ := escapeCode_spec control
            rw [written]
            exact .code stands digits ih
          | false =>
            have noLineEnd : c ≠ '\n' := by
              rintro rfl
              cases letter
            have noBackslash : c ≠ '\x5c' := by
              rintro rfl
              cases letter
            refine .plain quote ?_ ih
            simp [isPlain, isLineChar_of_not_isControl control noLineEnd, noBackslash]

lemma isPlain_ne_backslash (itself : isPlain several c) : c ≠ '\x5c' := by
  rintro rfl
  cases several <;> cases itself

lemma decode_plain (itself : isPlain several c) :
    decode several false (c :: text) = (c :: ·) <$> decode several false text := by
  have other := isPlain_ne_backslash itself
  rw [decode, if_pos itself]
  · rfl
  all_goals
    intros
    contradiction

lemma decode_letter {x : Char} (stands : escaped? x = some c) :
    decode several false ('\x5c' :: x :: text) = (c :: ·) <$> decode several false text := by
  have other (d : Char) (none : escaped? d = none) : x ≠ d := by
    rintro rfl
    cases none.symm.trans stands
  have inLine : endsLine (x :: text) = false := by
    have noSpace : ¬ isSpace x := by simp [isSpace, other ' ' rfl, other '\t' rfl]
    rw [endsLine, List.dropWhile_cons_of_neg noSpace]
    simpa using other '\n' rfl
  rw [decode, inLine, Bool.and_false, if_neg Bool.false_ne_true, stands]
  · rfl
  · exact fun _ _ _ _ _ same => absurd same (other 'u' rfl)
  · exact fun _ _ _ _ _ _ _ _ _ same => absurd same (other 'U' rfl)

/-- What is written with escapes stands for the characters. -/
lemma Escaped.decode (escaped : Escaped several most run cs text) :
    decode several false text = some cs := by
  induction escaped with
  | nil => rfl
  | quote few _ ih =>
    rw [decode_plain rfl, ih]
    rfl
  | plain other itself _ ih =>
    rw [decode_plain itself, ih]
    rfl
  | letter stands _ ih =>
    rw [decode_letter stands, ih]
    rfl
  | code stands _ _ ih =>
    rw [Toml.decode, stands, Option.bind_eq_bind, Option.bind_some, ih]
    rfl

/-- A digit of a code has no meaning of its own to one who looks for the end of a string. -/
lemma ne_of_isAlphanum (digit : c.isAlphanum) : c ≠ '\x22' ∧ c ≠ '\x5c' ∧ c ≠ '\r' := by
  refine ⟨?_, ?_, ?_⟩ <;>
  · rintro rfl
    cases digit

/-- A character that neither ends nor escapes anything belongs to the body. -/
lemma bodyToQuote_cons (quote : c ≠ '\x22') (backslash : c ≠ '\x5c') :
    bodyToQuote (c :: text) = (bodyToQuote text).map fun (body, rest) => (c :: body, rest) := by
  rw [bodyToQuote]
  · exact quote
  · exact fun _ _ same => absurd same backslash

section Bodies
variable {q : Char} {tail : List Char} {body? : List Char → Option (List Char × List Char)}

/-- What is written with escapes is a body for a reader that takes a backslash with the character
behind it and any other character by itself, where it takes the quotes inside. -/
lemma Escaped.body?_eq (ends : body? tail = some ([], rest))
    (plain : ∀ {c cs}, c ≠ '\x22' → c ≠ '\x5c' →
      body? (c :: cs) = (body? cs).map fun (body, rest) => (c :: body, rest))
    (escape : ∀ {x cs},
      body? ('\x5c' :: x :: cs) = (body? cs).map fun (body, rest) => ('\x5c' :: x :: body, rest))
    (quote : ∀ {run cs text}, run < most → Escaped several most (run + 1) cs text →
      body? (text ++ tail) = some (text, rest) →
      body? ('\x22' :: text ++ tail) = some ('\x22' :: text, rest))
    (escaped : Escaped several most run cs text) : body? (text ++ tail) = some (text, rest) := by
  induction escaped with
  | nil => exact ends
  | quote few behind ih => exact quote few behind ih
  | plain other itself _ ih =>
    rw [List.cons_append, plain other (isPlain_ne_backslash itself), ih]
    rfl
  | letter stands _ ih =>
    rw [List.cons_append, List.cons_append, escape, ih]
    rfl
  | code stands digits _ ih =>
    -- Behind the backslash and its letter the digits are characters like others.
    have digits := fun x mem => ne_of_isAlphanum (digits x mem)
    simp only [List.forall_mem_cons] at digits
    obtain ⟨⟨a, a', -⟩, ⟨b, b', -⟩, ⟨d, d', -⟩, ⟨e, e', -⟩, -⟩ := digits
    simp only [List.cons_append]
    rw [escape, plain a a', plain b b', plain d d', plain e e', ih]
    rfl

/-- The body of a string on one line ends with the first quote that is not escaped. -/
lemma Escaped.bodyToQuote (escaped : Escaped several 0 run cs text) :
    bodyToQuote (text ++ '\x22' :: rest) = some (text, rest) := by
  refine escaped.body?_eq rfl bodyToQuote_cons rfl ?_
  exact fun few _ _ => absurd few (Nat.not_lt_zero _)

/-- Where no further quote follows, up to two quotes in front of the closing ones belong to the
text. -/
lemma endOfLines_cons (next : rest.head? ≠ some q) :
    endOfLines q rest = ([], rest) ∧ endOfLines q (q :: rest) = ([q], rest) ∧
      endOfLines q (q :: q :: rest) = ([q, q], rest) := by
  have none : rest.takeWhile (· = q) = [] := by
    cases rest with
    | nil => rfl
    | cons c rest =>
      have other : c ≠ q := fun same => next (congrArg some same)
      exact List.takeWhile_cons_of_neg (by simpa using other)
  simp [endOfLines, none]

/-- A quote in front of the body of a string on several lines belongs to it, when no two others
follow it there. -/
lemma body?_quote (ends : ∀ rest, body? (q :: q :: q :: rest) = some (endOfLines q rest))
    (goes : ∀ cs, ¬ [q, q] <+: cs →
      body? (q :: cs) = (body? cs).map fun (body, rest) => (q :: body, rest))
    (next : rest.head? ≠ some q) (few : ¬ [q, q] <+: text)
    (behind : body? (text ++ q :: q :: q :: rest) = some (text, rest)) :
    body? (q :: text ++ q :: q :: q :: rest) = some (q :: text, rest) := by
  obtain ⟨-, one, two⟩ := endOfLines_cons next
  by_cases last : text = [] ∨ text = [q]
  · obtain rfl | rfl := last
    · exact (ends _).trans (congrArg some one)
    · exact (ends _).trans (congrArg some two)
  · have other : ¬ [q, q] <+: text ++ q :: q :: q :: rest := by
      intro two
      match text with
      | [] => exact last (.inl rfl)
      | [c] => exact last (.inr (by rw [(List.cons_prefix_cons.mp two).1]))
      | c :: d :: text =>
        exact few (List.prefix_of_prefix_length_le two (List.prefix_append _ _) (by simp))
    rw [List.cons_append, goes _ other, behind]
    rfl

/-- On several lines a character belongs to the body unless three quotes or an escape start
there. -/
lemma bodyToQuotes_cons (quotes : ¬ ['\x22', '\x22', '\x22'] <+: c :: text)
    (backslash : c ≠ '\x5c') :
    bodyToQuotes (c :: text) = (bodyToQuotes text).map fun (body, rest) => (c :: body, rest) := by
  rw [bodyToQuotes]
  · rintro more rfl rfl
    exact quotes ⟨more, rfl⟩
  · exact fun _ _ same => absurd same backslash

lemma not_prefix_quotes_of_ne {n : Nat} (other : c ≠ q) :
    ¬ List.replicate (n + 1) q <+: c :: text := by
  rintro ⟨more, split⟩
  rw [List.replicate_succ, List.cons_append] at split
  exact other (List.cons_eq_cons.mp split).1.symm

/-- No more quotes stand together than there may be. -/
lemma Escaped.not_prefix_quotes (escaped : Escaped several most run cs text) {n : Nat}
    (many : most ≤ run + n) : ¬ List.replicate (n + 1) '\x22' <+: text := by
  induction escaped generalizing n with
  | nil => exact fun quotes => absurd quotes.length_le (by simp)
  | quote few _ ih =>
    cases n with
    | zero => omega
    | succ n =>
      rw [List.replicate_succ]
      exact fun quotes => ih (by omega) (List.cons_prefix_cons.mp quotes).2
  | plain other _ _ _ => exact not_prefix_quotes_of_ne other
  | letter _ _ _ => exact not_prefix_quotes_of_ne (by decide)
  | code _ _ _ _ => exact not_prefix_quotes_of_ne (by decide)

/-- The body of a string on several lines ends with the first three quotes that are not escaped, or
up to two quotes behind them. -/
lemma Escaped.bodyToQuotes (escaped : Escaped several 2 run cs text)
    (next : rest.head? ≠ some '\x22') :
    bodyToQuotes (text ++ '\x22' :: '\x22' :: '\x22' :: rest) = some (text, rest) := by
  refine escaped.body?_eq (congrArg some (endOfLines_cons next).1) ?_ rfl ?_
  · exact fun quote => bodyToQuotes_cons (not_prefix_quotes_of_ne (n := 2) quote)
  · intro run cs text few behind ih
    refine body?_quote (fun _ => rfl) ?_ next ?_ ih
    · exact fun cs short =>
        bodyToQuotes_cons (mt (fun all => (List.cons_prefix_cons.mp all).2) short) (by decide)
    · exact behind.not_prefix_quotes (n := 1) (Nat.le_add_left 2 _)

lemma le_longestRun (q : Char) (run : Nat) (cs : List Char) : run ≤ longestRun q run cs := by
  induction cs generalizing run with
  | nil => exact Nat.le_refl _
  | cons c cs ih =>
    rw [longestRun]
    split
    case isTrue => exact Nat.le_trans (Nat.le_succ run) (ih (run + 1))
    case isFalse => exact Nat.le_max_left _ _

/-- The body of a literal string on several lines ends with the first three quotes, or up to two
quotes behind them. -/
lemma bodyToApostrophes_of_longestRun (short : longestRun '\x27' run cs ≤ 2)
    (next : rest.head? ≠ some '\x27') :
    bodyToApostrophes (cs ++ '\x27' :: '\x27' :: '\x27' :: rest) = some (cs, rest) := by
  have goes {c : Char} {cs : List Char} (quotes : ¬ ['\x27', '\x27', '\x27'] <+: c :: cs) :
      bodyToApostrophes (c :: cs) =
        (bodyToApostrophes cs).map fun (body, rest) => (c :: body, rest) := by
    rw [bodyToApostrophes]
    rintro more rfl rfl
    exact quotes ⟨more, rfl⟩
  induction cs generalizing run with
  | nil => exact congrArg some (endOfLines_cons next).1
  | cons c cs ih =>
    by_cases quote : c = '\x27'
    · subst quote
      rw [longestRun, if_pos rfl] at short
      refine body?_quote (fun _ => rfl) ?_ next ?_ (ih short)
      · exact fun cs few => goes (mt (fun all => (List.cons_prefix_cons.mp all).2) few)
      · rintro ⟨more, rfl⟩
        have long := le_longestRun '\x27' (run + 1 + 1 + 1) more
        have same : longestRun '\x27' (run + 1) (['\x27', '\x27'] ++ more) =
            longestRun '\x27' (run + 1 + 1 + 1) more := rfl
        omega
    · rw [longestRun, if_neg quote] at short
      rw [List.cons_append, goes (not_prefix_quotes_of_ne (n := 2) quote),
        ih (Nat.le_trans (Nat.le_max_right _ _) short)]
      rfl

end Bodies

/-- A string is written in a form with escapes, or in one that holds it without any. -/
lemma Form.of_spec (cs : List Char) : (Form.of cs).hasEscapes ∨ (Form.of cs).holds cs := by
  rw [Form.of]
  split
  case h_1 form found =>
    have holds := List.find?_some found
    exact .inr holds
  case h_2 =>
    left
    split <;> rfl

/-- A form holds a text without control characters, with short runs of its quote, and with lines and
backslashes only where the form has them. -/
lemma Form.holds_iff :
    form.holds cs ↔
      (∀ c ∈ cs, isControl c = false) ∧ longestRun form.quote 0 cs ≤ form.maxRun ∧
        (form.hasLines ∨ '\n' ∉ cs) ∧ (form.hasEscapes = false ∨ '\x5c' ∉ cs) := by
  simp [Form.holds, and_assoc]

/-- A text without a run of a character does not hold it. -/
lemma notMem_of_longestRun {q : Char} (none : longestRun q 0 cs ≤ 0) : q ∉ cs := by
  induction cs with
  | nil => exact List.not_mem_nil
  | cons c cs ih =>
    rw [longestRun] at none
    split at none
    case isTrue => exact absurd (Nat.le_trans (le_longestRun q 1 cs) none) (by decide)
    case isFalse other =>
      rw [List.mem_cons, not_or]
      exact ⟨Ne.symm other, ih (Nat.le_trans (Nat.le_max_right _ _) none)⟩

/-- The quote that starts a string on one line is no start of one on several lines. -/
lemma not_two_quotes {q : Char} (first : ¬ [q] <+: text) (next : rest.head? ≠ some q) :
    ¬ [q, q] <+: text ++ q :: rest := by
  intro two
  cases text with
  | nil =>
    obtain ⟨more, rfl⟩ := (List.cons_prefix_cons.mp two).2
    exact next rfl
  | cons c text =>
    rw [(List.cons_prefix_cons.mp two).1] at first
    exact first ⟨text, rfl⟩

/-- The line end in front of a string on several lines is left out. -/
lemma dropLineEnd_append {q : Char} (quote : q ≠ '\n')
    (starts : text.head? = some '\n' → '\n' ∈ cs) :
    dropLineEnd ((if cs.contains '\n' then ['\n'] else []) ++ (text ++ q :: rest)) =
      text ++ q :: rest := by
  by_cases lineEnd : '\n' ∈ cs
  · rw [if_pos (List.contains_iff_mem.mpr lineEnd)]
    rfl
  · rw [if_neg (mt List.contains_iff_mem.mp lineEnd), List.nil_append, dropLineEnd]
    intro more same
    cases text with
    | nil => exact quote (List.cons_eq_cons.mp same).1
    | cons c text => exact lineEnd (starts (congrArg some (List.cons_eq_cons.mp same).1))

/-- A line end at the start of what is written with escapes stands for itself. -/
lemma Escaped.starts (escaped : Escaped several most run cs text) :
    text.head? = some '\n' → '\n' ∈ cs := by
  intro first
  cases escaped with
  | plain =>
    cases first
    exact List.mem_cons_self
  | _ => cases first

section Forms
variable (basicNext : rest.head? ≠ some '\x22') (literalNext : rest.head? ≠ some '\x27')

include basicNext in
/-- A text between double quotes is read back from its escapes. -/
lemma string?_basic :
    string? ('\x22' :: (escape .basic 0 cs ++ '\x22' :: rest)) = some (cs, rest) := by
  have escaped : Escaped false 0 0 cs (escape .basic 0 cs) := escape_escaped .basic
  have one : ¬ ['\x22', '\x22'] <+: escape .basic 0 cs ++ '\x22' :: rest :=
    not_two_quotes (escaped.not_prefix_quotes (n := 0) (Nat.le_refl 0)) basicNext
  have read : basic? (escape .basic 0 cs ++ '\x22' :: rest) = some (cs, rest) := by
    simp only [basic?, escaped.bodyToQuote, escaped.decode, Option.bind_eq_bind, Option.bind_some]
    rfl
  rw [string?, read]
  rintro more same
  exact one ⟨more, same.symm⟩

include literalNext in
/-- A text between single quotes is read back as it stands. -/
lemma string?_literal (holds : Form.literal.holds cs) :
    string? ('\x27' :: (cs ++ '\x27' :: rest)) = some (cs, rest) := by
  obtain ⟨printed, none, line, -⟩ := Form.holds_iff.mp holds
  have noQuote : '\x27' ∉ cs := notMem_of_longestRun none
  have one : ¬ ['\x27', '\x27'] <+: cs ++ '\x27' :: rest :=
    not_two_quotes (fun first => noQuote (first.subset List.mem_cons_self)) literalNext
  have read : literal? (cs ++ '\x27' :: rest) = some (cs, rest) := by
    have inside : ∀ c ∈ cs, decide (c ≠ '\x27') = true :=
      fun c mem => decide_eq_true fun same => noQuote (same ▸ mem)
    have chars : cs.all isLineChar := by
      rw [List.all_eq_true]
      refine fun c mem => isLineChar_of_not_isControl (printed c mem) ?_
      rintro rfl
      exact line.elim nofun (absurd mem)
    rw [literal?, List.dropWhile_append_of_pos inside, List.takeWhile_append_of_pos inside]
    simp [chars]
  rw [string?, read]
  rintro more same
  exact one ⟨more, same.symm⟩

include basicNext in
/-- A text on several lines between double quotes is read back from its escapes. The line end in
front of it does not count. -/
lemma basicLines?_escape :
    basicLines? ((if cs.contains '\n' then ['\n'] else []) ++
      (escape .basicLines 0 cs ++ '\x22' :: '\x22' :: '\x22' :: rest)) = some (cs, rest) := by
  have escaped : Escaped true 2 0 cs (escape .basicLines 0 cs) := escape_escaped .basicLines
  have quote : '\x22' ≠ '\n' := by decide
  simp only [basicLines?, dropLineEnd_append quote escaped.starts, escaped.bodyToQuotes basicNext,
    escaped.decode, Option.bind_eq_bind, Option.bind_some]
  rfl

include literalNext in
/-- A text on several lines between single quotes is read back as it stands. -/
lemma literalLines?_of_holds (holds : Form.literalLines.holds cs) :
    literalLines? ((if cs.contains '\n' then ['\n'] else []) ++
      (cs ++ '\x27' :: '\x27' :: '\x27' :: rest)) = some (cs, rest) := by
  obtain ⟨printed, short, -, -⟩ := Form.holds_iff.mp holds
  have chars : cs.all isLiteralLinesChar := by
    rw [List.all_eq_true]
    intro c mem
    rw [isLiteralLinesChar, Bool.or_eq_true, decide_eq_true_eq, or_iff_not_imp_right]
    exact isLineChar_of_not_isControl (printed c mem)
  have starts : cs.head? = some '\n' → '\n' ∈ cs := List.mem_of_head?
  have quote : '\x27' ≠ '\n' := by decide
  simp only [literalLines?, dropLineEnd_append quote starts,
    bodyToApostrophes_of_longestRun short literalNext, chars, Option.bind_eq_bind, Option.bind_some]
  rfl

include basicNext literalNext in
/-- A string is read as it was written. -/
theorem string?_writeChars : string? (writeChars cs ++ rest) = some (cs, rest) := by
  have spec := Form.of_spec cs
  rw [writeChars]
  cases form : Form.of cs with
  | basic => simpa [Form.quotes, Form.hasLines, Form.hasEscapes, body] using string?_basic basicNext
  | literal =>
    have holds : Form.literal.holds cs := by simpa [form, Form.hasEscapes] using spec
    simpa [Form.quotes, Form.hasLines, Form.hasEscapes, body] using
      string?_literal literalNext holds
  | basicLines =>
    simpa [Form.quotes, Form.hasLines, Form.hasEscapes, body, string?] using
      basicLines?_escape basicNext
  | literalLines =>
    have holds : Form.literalLines.holds cs := by simpa [form, Form.hasEscapes] using spec
    simpa [Form.quotes, Form.hasLines, Form.hasEscapes, body, string?] using
      literalLines?_of_holds literalNext holds

end Forms

/-- No carriage return stands in an escaped text. -/
lemma Escaped.return_notMem (escaped : Escaped several most run cs text) : '\r' ∉ text := by
  induction escaped with
  | nil => exact List.not_mem_nil
  | quote few _ ih =>
    rw [List.mem_cons, not_or]
    exact ⟨by decide, ih⟩
  | plain other itself _ ih =>
    rw [List.mem_cons, not_or]
    refine ⟨?_, ih⟩
    rintro rfl
    cases several <;> cases itself
  | letter stands _ ih =>
    rw [List.mem_cons, List.mem_cons, not_or, not_or]
    refine ⟨by decide, ?_, ih⟩
    rintro rfl
    cases stands
  | @code _ _ a b d e _ text stands digits _ ih =>
    have own : '\r' ∉ [a, b, d, e] := fun mem => (ne_of_isAlphanum (digits _ mem)).2.2 rfl
    have whole : '\r' ∉ ['\x5c', 'u'] ++ ([a, b, d, e] ++ text) := by
      rw [List.mem_append, List.mem_append, not_or, not_or]
      exact ⟨by decide, own, ih⟩
    exact whole

/-- No carriage return is written. -/
lemma return_notMem_writeChars (cs : List Char) : '\r' ∉ writeChars cs := by
  have quotes (form : Form) : '\r' ∉ form.quotes := by cases form <;> decide
  have lineEnd (b : Bool) : '\r' ∉ if b then ['\n'] else [] := by cases b <;> decide
  have inside : '\r' ∉ body (Form.of cs) cs := by
    rw [body]
    split
    case isTrue => exact (escape_escaped _).return_notMem
    case isFalse literal =>
      obtain ⟨printed, -⟩ := Form.holds_iff.mp ((Form.of_spec cs).resolve_left literal)
      exact fun mem => absurd (printed _ mem) (by decide)
  simp only [writeChars, List.mem_append, not_or]
  exact ⟨⟨⟨quotes _, lineEnd _⟩, inside⟩, quotes _⟩

end ContentClasses.Toml
