import ContentClasses.Identifier
import Mathlib.Data.List.Basic
import Mathlib.Data.List.TakeWhile
import Mathlib.Tactic.Conv
import Mathlib.Tactic.Lemma

/-!
# Words

The words of a text are its longest runs of ASCII letters and digits: `Identifier.runs_iff`. Where
no word goes across a cut, the words of a text are those of its two parts, from which everything
else about them follows.
-/

namespace ContentClasses

namespace Identifier

/-- A word with what stands in front of it and behind it in a text: letters and digits that no
others join. -/
structure IsRun (front word back : List Char) : Prop where
  full : word ≠ []
  alphanum : ∀ c ∈ word, c.isAlphanum
  before : ∀ c ∈ front.getLast?, ¬ c.isAlphanum
  behind : ∀ c ∈ back.head?, ¬ c.isAlphanum

/-- The longest runs of letters and digits in a text, in order. -/
inductive Runs : List Char → List (List Char) → Prop where
  | none {gap : List Char} (other : ∀ c ∈ gap, ¬ c.isAlphanum) : Runs gap []
  | run {gap word back : List Char} {several : List (List Char)}
      (other : ∀ c ∈ gap, ¬ c.isAlphanum) (first : IsRun gap word back)
      (rest : Runs back several) : Runs (gap ++ word ++ back) (word :: several)

/-- The first of the letters and digits in a text. -/
def IsFirst (text : String) (c : Char) : Prop :=
  ∃ front back, text.toList = front ++ c :: back ∧ (∀ d ∈ front, ¬ d.isAlphanum) ∧ c.isAlphanum

variable {text : String} {word front back gap cs : List Char} {several : List (List Char)}
  {c d : Char}

/-- What is neither letter nor digit is passed over. -/
lemma words_cons_of_other (other : ¬ c.isAlphanum) (cs : List Char) :
    words (c :: cs) = words cs := by
  conv_lhs => unfold words
  exact if_neg other

/-- A letter or digit starts a word. -/
lemma words_cons_ne_nil (alphanum : c.isAlphanum) (cs : List Char) : words (c :: cs) ≠ [] := by
  unfold words
  rw [if_pos alphanum]
  split
  · split <;> exact List.cons_ne_nil _ _
  · exact List.cons_ne_nil _ _

/-- A letter or digit in front of another one joins its word. -/
lemma words_cons_cons (alphanum : c.isAlphanum) (joined : d.isAlphanum) (cs : List Char) :
    words (c :: d :: cs) = (words (d :: cs)).modifyHead (c :: ·) := by
  obtain ⟨word, rest, split⟩ := List.exists_cons_of_ne_nil (words_cons_ne_nil joined cs)
  conv_lhs => unfold words
  rw [if_pos alphanum, split]
  exact if_pos joined

/-- A letter or digit with none behind it is a word of its own. -/
lemma words_cons_of_last (alphanum : c.isAlphanum) (last : ∀ d ∈ cs.head?, ¬ d.isAlphanum) :
    words (c :: cs) = [c] :: words cs := by
  conv_lhs => unfold words
  rw [if_pos alphanum]
  split
  case h_1 d ds word rest split => rw [if_neg (last d rfl), split]
  case h_2 => rfl

/-- Where no word goes across a cut, the words are those of the two parts. -/
lemma words_append
    (apart : ∀ c ∈ front.getLast?, ∀ d ∈ back.head?, ¬ (c.isAlphanum ∧ d.isAlphanum)) :
    words (front ++ back) = words front ++ words back := by
  induction front with
  | nil => rfl
  | cons c cs ih =>
    -- What `words` does with a character depends on the one behind it, which may be over the cut.
    by_cases alphanum : c.isAlphanum
    case neg =>
      rw [List.cons_append, words_cons_of_other alphanum, words_cons_of_other alphanum, ih]
      exact fun last mem => apart last (List.mem_getLast?_cons mem)
    case pos =>
      cases cs with
      | nil =>
        have last : ∀ d ∈ back.head?, ¬ d.isAlphanum :=
          fun d first joined => apart c rfl d first ⟨alphanum, joined⟩
        rw [List.singleton_append, words_cons_of_last alphanum last,
          words_cons_of_last alphanum (by simp)]
        rfl
      | cons d ds =>
        have rest := ih fun last mem => apart last (List.mem_getLast?_cons mem)
        by_cases joined : d.isAlphanum
        case pos =>
          obtain ⟨word, words, split⟩ := List.exists_cons_of_ne_nil (words_cons_ne_nil joined ds)
          rw [List.cons_append, List.cons_append, words_cons_cons alphanum joined,
            words_cons_cons alphanum joined, ← List.cons_append, rest, split]
          rfl
        case neg =>
          have last : ∀ b ∈ (d :: ds ++ back).head?, ¬ b.isAlphanum := by
            rintro b ⟨⟩
            exact joined
          have alone : ∀ b ∈ (d :: ds).head?, ¬ b.isAlphanum := last
          rw [List.cons_append, words_cons_of_last alphanum last, rest,
            words_cons_of_last alphanum alone]
          rfl

lemma words_of_other (other : ∀ c ∈ gap, ¬ c.isAlphanum) : words gap = [] := by
  induction gap with
  | nil => rfl
  | cons c cs ih =>
    rw [List.forall_mem_cons] at other
    rw [words_cons_of_other other.1, ih other.2]

lemma words_of_alphanum (full : word ≠ []) (alphanum : ∀ c ∈ word, c.isAlphanum) :
    words word = [word] := by
  induction word with
  | nil => exact absurd rfl full
  | cons c cs ih =>
    rw [List.forall_mem_cons] at alphanum
    cases cs with
    | nil => exact words_cons_of_last alphanum.1 (by simp)
    | cons d ds =>
      rw [words_cons_cons alphanum.1 (alphanum.2 d List.mem_cons_self),
        ih (List.cons_ne_nil d ds) alphanum.2]
      rfl

/-- A run of a text is one of its words, between those in front of it and those behind it. -/
lemma IsRun.words_eq (run : IsRun front word back) :
    words (front ++ word ++ back) = words front ++ word :: words back := by
  have behind : words (word ++ back) = [word] ++ words back := by
    rw [words_append fun _ _ d mem both => run.behind d mem both.2,
      words_of_alphanum run.full run.alphanum]
  rw [List.append_assoc, words_append fun c mem _ _ both => run.before c mem both.1, behind]
  rfl

/-- Whatever the runs of a text are, they are its words. -/
lemma Runs.words_eq (runs : Runs cs several) : words cs = several := by
  induction runs with
  | none other => exact words_of_other other
  | run other first _ ih => rw [first.words_eq, words_of_other other, ih, List.nil_append]

/-- Every text has its runs: what is in front of the first letter or digit is passed over, and the
first run ends where the next other character stands. -/
lemma runs_words (cs : List Char) : Runs cs (words cs) := by
  induction length : cs.length using Nat.strongRecOn generalizing cs with
  | ind n ih =>
    -- Induction on the length, since the rest behind the first run is no tail of a `cons`.
    have passed : ∀ c ∈ cs.takeWhile (!·.isAlphanum), ¬ c.isAlphanum := by
      intro c mem
      simpa using List.mem_takeWhile_imp mem
    have whole := List.takeWhile_append_dropWhile (p := (!·.isAlphanum)) (l := cs)
    cases rest : cs.dropWhile (!·.isAlphanum) with
    | nil =>
      rw [rest, List.append_nil] at whole
      rw [whole] at passed
      rw [words_of_other passed]
      exact .none passed
    | cons c ds =>
      have alphanum : c.isAlphanum := by
        have first := List.head?_dropWhile_not (!·.isAlphanum) cs
        rw [rest] at first
        simpa using first
      have split := List.takeWhile_append_dropWhile (p := Char.isAlphanum) (l := c :: ds)
      have run : IsRun (cs.takeWhile (!·.isAlphanum)) ((c :: ds).takeWhile Char.isAlphanum)
          ((c :: ds).dropWhile Char.isAlphanum) := by
        refine ⟨?_, fun _ mem => List.mem_takeWhile_imp mem,
          fun b mem => passed b (List.mem_of_getLast? mem), fun b mem => ?_⟩
        · rw [List.takeWhile_cons_of_pos alphanum]
          exact List.cons_ne_nil _ _
        · have first := List.head?_dropWhile_not Char.isAlphanum (c :: ds)
          rw [mem] at first
          simpa using first
      have shorter : ((c :: ds).dropWhile Char.isAlphanum).length < n := by
        have total := congrArg List.length whole
        rw [rest, List.length_append, List.length_cons] at total
        have short := (List.dropWhile_suffix Char.isAlphanum (l := ds)).length_le
        rw [List.dropWhile_cons_of_pos alphanum]
        omega
      have runs := Runs.run passed run (ih _ shorter _ rfl)
      rw [List.append_assoc, split, ← rest, whole] at runs
      rwa [runs.words_eq]

/-- The words of a text are its longest runs of letters and digits, and there is no other row of
runs. -/
lemma runs_iff : Runs cs several ↔ several = words cs :=
  ⟨fun runs => runs.words_eq.symm, fun same => same ▸ runs_words cs⟩

/-- The words of a text put together are its letters and digits. -/
lemma Runs.flatten_eq (runs : Runs cs several) : several.flatten = cs.filter Char.isAlphanum := by
  induction runs with
  | none other => exact (List.filter_eq_nil_iff.mpr other).symm
  | run other first _ ih =>
    rw [List.flatten_cons, ih, List.filter_append, List.filter_append,
      List.filter_eq_nil_iff.mpr other, List.filter_eq_self.mpr first.alphanum, List.nil_append]

/-- The first letter or digit is the one that a search finds. -/
lemma isFirst_iff : IsFirst text c ↔ text.toList.find? Char.isAlphanum = some c := by
  rw [List.find?_eq_some_iff_append]
  constructor
  · rintro ⟨front, back, whole, other, alphanum⟩
    exact ⟨alphanum, front, back, whole, by simpa using other⟩
  · rintro ⟨alphanum, front, back, whole, other⟩
    exact ⟨front, back, whole, by simpa using other, alphanum⟩

/-- A run is not empty, and made of letters and digits. -/
lemma Runs.isAlphanum_of_mem (runs : Runs cs several) (mem : word ∈ several) :
    word ≠ [] ∧ ∀ c ∈ word, c.isAlphanum := by
  induction runs with
  | none => cases mem
  | run _ first _ ih =>
    obtain rfl | later := List.mem_cons.mp mem
    · exact ⟨first.full, first.alphanum⟩
    · exact ih later

/-- The words of a text are not empty, and made of letters and digits. -/
lemma isAlphanum_of_mem_words (mem : word ∈ words cs) : word ≠ [] ∧ ∀ c ∈ word, c.isAlphanum :=
  (runs_words cs).isAlphanum_of_mem mem

/-- The first run starts with the first letter or digit. -/
lemma Runs.head?_eq (runs : Runs cs several) :
    several.head?.bind List.head? = cs.find? Char.isAlphanum := by
  cases runs with
  | none other => exact (List.find?_eq_none.mpr other).symm
  | @run gap word back several other first rest =>
    obtain ⟨c, ds, rfl⟩ := List.exists_cons_of_ne_nil first.full
    rw [List.append_assoc, List.find?_append, List.find?_eq_none.mpr other, Option.none_or,
      List.cons_append, List.find?_cons_of_pos (first.alphanum c List.mem_cons_self)]
    rfl

/-- The first word starts with the first letter or digit of the text. -/
lemma words_head (cs : List Char) :
    (words cs).head?.bind List.head? = cs.find? Char.isAlphanum :=
  (runs_words cs).head?_eq

end Identifier

end ContentClasses
