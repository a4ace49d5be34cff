import ContentClasses.CSharp.Source
import Mathlib.Data.List.Nodup
import Mathlib.Tactic.Lemma

/-!
# What a source declares

The classes and members that the lines of a source declare, read back by their words. Where the
names and types of a class are words, `declarations_classSource` and `declarations_typedClassSource`
say what its sources declare, and `declarations_typeProviderSource` what the lookup does.
-/

namespace ContentClasses.CSharp

/-- What a line of a source declares. -/
inductive Declaration where
  | type (name : String)
  | constant (name : String)
  | property (typeName name : String)
  | entry (className : String)
deriving DecidableEq, Repr

/-- The words of a line: what stands between its spaces and is not empty. -/
def words (line : List Char) : List (List Char) :=
  (line.splitOn ' ').filter (· ≠ [])

/-- The class that a word of the lookup names. -/
def namedClass? (word : List Char) : Option String :=
  (word.dropPrefix? "\x7btypeof(".toList).map fun rest => String.ofList (rest.takeWhile (· ≠ ')'))

/-- What a line declares, if it declares anything. -/
def declaration? (line : String) : Option Declaration :=
  match (words line.toList).map String.ofList with
  | "public" :: "const" :: "string" :: name :: "=" :: _ => some (.constant name)
  | ["public", typeName, name, "\x7b", "get;", "set;", "\x7d"] => some (.property typeName name)
  | ["public", "partial", "class", name] => some (.type name)
  | "public" :: "class" :: name :: ":" :: _ => some (.type name)
  | first :: _ => (namedClass? first.toList).map .entry
  | [] => none

/-- What a source declares, in order. -/
def declarations (source : String) : List Declaration :=
  (Text.split '\n' source).filterMap declaration?

/-- The names of the classes that a source declares. -/
def declaredTypes (source : String) : List String :=
  (declarations source).filterMap fun
    | .type name => some name
    | _ => none

/-- The names of the members that a source declares. -/
def declaredMembers (source : String) : List String :=
  (declarations source).filterMap fun
    | .constant name | .property _ name => some name
    | _ => none

/-- The classes that a source looks up. -/
def lookedUp (source : String) : List String :=
  (declarations source).filterMap fun
    | .entry className => some className
    | _ => none

/-- A text that is not empty and holds no space and no line feed. -/
structure IsWord (s : String) : Prop where
  ne_nil : s.toList ≠ []
  space : ' ' ∉ s.toList
  lineFeed : '\n' ∉ s.toList

instance (s : String) : Decidable (IsWord s) :=
  decidable_of_iff (s.toList ≠ [] ∧ ' ' ∉ s.toList ∧ '\n' ∉ s.toList)
    ⟨fun ⟨full, space, lineFeed⟩ => ⟨full, space, lineFeed⟩,
      fun ⟨full, space, lineFeed⟩ => ⟨full, space, lineFeed⟩⟩

section Words
variable {s name typeName value : String} {cs front back : List Char} {c : Char} {n steps : Nat}

lemma decide_ne_of_mem (absent : c ∉ front) : ∀ d ∈ front, decide (d ≠ c) = true := by
  intro d hd
  rw [decide_eq_true_eq]
  rintro rfl
  exact absent hd

/-- A character that does not stand in front of its first occurrence. -/
lemma takeWhile_ne (absent : c ∉ front) : (front ++ c :: back).takeWhile (· ≠ c) = front := by
  rw [List.takeWhile_append_of_pos (decide_ne_of_mem absent)]
  simp

/-- A blank parts the words in front of it from those behind it. -/
lemma words_append : words (front ++ ' ' :: back) = words front ++ words back := by
  rw [words, List.splitOn_append_cons_self, List.filter_append]
  rfl

lemma words_of_isWord (word : IsWord s) : words s.toList = [s.toList] := by
  rw [words, List.splitOn_eq_singleton word.space,
    List.filter_cons_of_pos (by simpa using word.ne_nil)]
  rfl

/-- A word in front of a blank is the first one. -/
lemma words_cons (word : IsWord s) : words (s.toList ++ ' ' :: back) = s.toList :: words back := by
  rw [words_append, words_of_isWord word, List.singleton_append]

/-- Blanks in front of a text give no words. -/
lemma words_spaces : words (List.replicate n ' ' ++ cs) = words cs := by
  induction n with
  | zero => rfl
  | succ n ih =>
    rw [List.replicate_succ, List.cons_append]
    exact (@words_append [] _).trans ih

/-- An indented text has four blanks in front for each step. -/
lemma toList_indent : (indent steps s).toList = List.replicate (steps * 4) ' ' ++ s.toList := by
  have step : "    ".toList = List.replicate 4 ' ' := rfl
  rw [indent, String.toList_append, String.toList_join, List.flatMap_replicate, step,
    List.flatten_replicate_replicate]

lemma words_indent : words (indent steps s).toList = words s.toList := by
  rw [toList_indent, words_spaces]

/-- What a line starts with is the start of its first word. -/
lemma words_of_front (front : s.toList = c :: cs) (space : c ≠ ' ') :
    ∃ part rest, words s.toList = (c :: part) :: rest := by
  obtain ⟨part, parts, split⟩ := List.exists_cons_of_ne_nil (List.splitOn_ne_nil ' ' cs)
  refine ⟨part, parts.filter (· ≠ []), ?_⟩
  rw [words, front, List.splitOn_cons_eq_if_modifyHead, if_neg (by simpa using space), split]
  exact List.filter_cons_of_pos rfl

end Words

section Lines
variable {s name value : String} {cs : List Char} {c : Char} {p : Property} {steps : Nat}

/-- A word that does not start with a brace names no class. -/
lemma namedClass?_of_front (other : c ≠ '\x7b') : namedClass? (c :: cs) = none := by
  rw [namedClass?]
  cases found : (c :: cs).dropPrefix? "\x7btypeof(".toList with
  | none => rfl
  | some later =>
    obtain ⟨start, whole, same⟩ := List.dropPrefix?_eq_some_iff.mp found
    rw [eq_of_beq same] at whole
    exact absurd (List.cons_eq_cons.mp whole).1 other

/-- A line whose first word is not `public` declares what this word names. -/
lemma declaration?_of_word {first : List Char} {rest : List (List Char)}
    (whole : words s.toList = first :: rest) (other : first ≠ "public".toList) :
    declaration? s = (namedClass? first).map .entry := by
  have different : String.ofList first ≠ "public" := by
    rintro same
    apply other
    rw [← same, String.toList_ofList]
  rw [declaration?, whole, List.map_cons]
  split
  case h_1 same => exact absurd (List.cons_eq_cons.mp same).1 different
  case h_2 same => exact absurd (List.cons_eq_cons.mp same).1 different
  case h_3 same => exact absurd (List.cons_eq_cons.mp same).1 different
  case h_4 same => exact absurd (List.cons_eq_cons.mp same).1 different
  case h_5 same =>
    obtain ⟨rfl, -⟩ := List.cons_eq_cons.mp same
    rw [String.toList_ofList]
  case h_6 same => cases same

/-- A line that starts with neither a `p` nor a brace declares nothing. -/
lemma declaration?_of_front (front : s.toList = c :: cs) (space : c ≠ ' ') (letter : c ≠ 'p')
    (brace : c ≠ '\x7b') : declaration? s = none := by
  obtain ⟨part, rest, first⟩ := words_of_front front space
  have other : c :: part ≠ "public".toList := fun same => letter (List.cons_eq_cons.mp same).1
  rw [declaration?_of_word first other, namedClass?_of_front brace]
  rfl

/-- To indent a line does not change what it declares. -/
lemma declaration?_indent : declaration? (indent steps s) = declaration? s := by
  rw [declaration?, words_indent, declaration?]

/-- The line of a constant declares the constant, whatever its value. -/
lemma declaration?_constantLine (word : IsWord name) :
    declaration? (constantLine name value) = some (.constant name) := by
  have line : ("public const string " ++ name ++ " = " ++ literal value ++ ";").toList =
      "public".toList ++ ' ' :: ("const".toList ++ ' ' :: ("string".toList ++ ' ' ::
        (name.toList ++ ' ' :: ("=".toList ++ ' ' :: (literal value ++ ";").toList)))) := by
    simp
  rw [constantLine, declaration?_indent, declaration?, line,
    words_cons (by decide : IsWord "public"), words_cons (by decide : IsWord "const"),
    words_cons (by decide : IsWord "string"), words_cons word,
    words_cons (by decide : IsWord "=")]
  simp only [List.map_cons, String.ofList_toList]

/-- The line of a property declares the property with its type. -/
lemma declaration?_propertyLine (typed : IsWord p.typeName) (named : IsWord p.identifier.text) :
    declaration? (propertyLine p) = some (.property p.typeName p.identifier.text) := by
  have line : ("public " ++ p.typeName ++ " " ++ p.identifier.text ++
      " \x7b get; set; \x7d").toList =
      "public".toList ++ ' ' :: (p.typeName.toList ++ ' ' :: (p.identifier.text.toList ++ ' ' ::
        "\x7b get; set; \x7d".toList)) := by
    simp
  have rest : words "\x7b get; set; \x7d".toList =
      ["\x7b".toList, "get;".toList, "set;".toList, "\x7d".toList] := by decide
  rw [propertyLine, declaration?_indent, declaration?, line,
    words_cons (by decide : IsWord "public"), words_cons typed, words_cons named, rest]
  simp only [List.map_cons, List.map_nil, String.ofList_toList]

/-- The line of a class declares the class. -/
lemma declaration?_classLine (word : IsWord name) :
    declaration? ("public partial class " ++ name) = some (.type name) := by
  have line : ("public partial class " ++ name).toList =
      "public".toList ++ ' ' :: ("partial".toList ++ ' ' :: ("class".toList ++ ' ' ::
        name.toList)) := by
    simp
  rw [declaration?, line, words_cons (by decide : IsWord "public"),
    words_cons (by decide : IsWord "partial"), words_cons (by decide : IsWord "class"),
    words_of_isWord word]
  simp only [List.map_cons, List.map_nil, String.ofList_toList]

/-- The word of the lookup that names a class. -/
lemma namedClass?_typeof (closed : ')' ∉ name.toList) :
    namedClass? ("\x7btypeof(" ++ name ++ "),").toList = some name := by
  have start : ("\x7btypeof(" ++ name ++ "),").toList =
      "\x7btypeof(".toList ++ (name.toList ++ ')' :: [',']) := by
    simp
  rw [namedClass?, start, List.dropPrefix?_append_of_beq _ (beq_self_eq_true _), Option.map_some,
    takeWhile_ne closed, String.ofList_toList]

/-- A line of the lookup table declares the entry of its class. -/
lemma declaration?_lookupLine {compiled : CompiledContentType}
    (word : IsWord compiled.model.className.text)
    (closed : ')' ∉ compiled.model.className.text.toList) :
    declaration? (lookupLine compiled) = some (.entry compiled.model.className.text) := by
  have line : ("\x7btypeof(" ++ compiled.model.className.text ++ "), " ++
      literal compiled.model.sourceCodename ++ "\x7d,").toList =
      ("\x7btypeof(" ++ compiled.model.className.text ++ "),").toList ++
        ' ' :: (literal compiled.model.sourceCodename ++ "\x7d,").toList := by
    simp
  have whole : IsWord ("\x7btypeof(" ++ compiled.model.className.text ++ "),") := by
    constructor
    · simp
    · simpa using word.space
    · simpa using word.lineFeed
  have first := @words_cons _ (literal compiled.model.sourceCodename ++ "\x7d,").toList whole
  have other : ("\x7btypeof(" ++ compiled.model.className.text ++ "),").toList ≠
      "public".toList := by
    simp
  rw [← line] at first
  rw [lookupLine, declaration?_indent, declaration?_of_word first other, namedClass?_typeof closed]
  rfl

end Lines

/-- No line ends within an escaped character. -/
lemma lineFeed_notMem_escapeChar (c : Char) : '\n' ∉ escapeChar c := by
  unfold escapeChar
  split
  case h_1 letter escaped =>
    unfold escapeLetter? at escaped
    split at escaped <;> cases escaped <;> decide
  case h_2 plain =>
    intro mem
    rw [← List.mem_singleton.mp mem] at plain
    cases plain

/-- A literal stands on one line. -/
lemma lineFeed_notMem_literal (value : String) : '\n' ∉ (literal value).toList := by
  have escaped : '\n' ∉ escape value.toList := by
    intro mem
    obtain ⟨c, -, inside⟩ := List.mem_flatMap.mp mem
    exact lineFeed_notMem_escapeChar c inside
  simpa [literal] using escaped

/-- Each of these texts is one line, and together they declare this. -/
structure Declares (lines : List String) (found : List Declaration) : Prop where
  lineFeed : ∀ line ∈ lines, '\n' ∉ line.toList
  filterMap : lines.filterMap declaration? = found

namespace Declares
variable {lines more : List String} {found others : List Declaration} {line name value : String}
  {p : Property} {context : Context} {model : ClassModel}

lemma nil : Declares [] [] :=
  ⟨nofun, rfl⟩

lemma append (front : Declares lines found) (back : Declares more others) :
    Declares (lines ++ more) (found ++ others) where
  lineFeed := by
    intro line mem
    obtain mem | mem := List.mem_append.mp mem
    · exact front.lineFeed line mem
    · exact back.lineFeed line mem
  filterMap := by rw [List.filterMap_append, front.filterMap, back.filterMap]

/-- Lines behind others that declare nothing make no difference. -/
lemma append_silent (front : Declares lines found) (back : Declares more []) :
    Declares (lines ++ more) found := by
  have whole := front.append back
  rw [List.append_nil] at whole
  exact whole

lemma one {d : Declaration} (lineFeed : '\n' ∉ line.toList) (h : declaration? line = some d) :
    Declares [line] [d] where
  lineFeed := List.forall_mem_singleton.mpr lineFeed
  filterMap := by rw [List.filterMap_cons_some h, List.filterMap_nil]

lemma silent (lineFeed : '\n' ∉ line.toList) (h : declaration? line = none) :
    Declares [line] [] where
  lineFeed := List.forall_mem_singleton.mpr lineFeed
  filterMap := by rw [List.filterMap_cons_none h, List.filterMap_nil]

lemma flatMap {α : Type} {xs : List α} {f : α → List String} {g : α → Declaration}
    (h : ∀ x ∈ xs, Declares (f x) [g x]) : Declares (xs.flatMap f) (xs.map g) := by
  induction xs with
  | nil => exact nil
  | cons x xs ih =>
    rw [List.flatMap_cons, List.map_cons]
    exact (h x List.mem_cons_self).append (ih fun y hy => h y (List.mem_cons_of_mem _ hy))

lemma map {α : Type} {xs : List α} {f : α → String} {g : α → Declaration}
    (h : ∀ x ∈ xs, Declares [f x] [g x]) : Declares (xs.map f) (xs.map g) := by
  rw [@List.map_eq_flatMap _ _ f]
  exact flatMap h

/-- A blank line between groups of lines declares nothing. -/
lemma intercalate {α : Type} {xs : List α} {f : α → List String} {g : α → Declaration}
    (h : ∀ x ∈ xs, Declares (f x) [g x]) :
    Declares ([""].intercalate (xs.map f)) (xs.map g) := by
  induction xs with
  | nil => exact nil
  | cons x xs ih =>
    have first := h x List.mem_cons_self
    have rest := ih fun y hy => h y (List.mem_cons_of_mem _ hy)
    cases xs with
    | nil => simpa [List.intercalate] using first
    | cons y ys =>
      have blank : Declares [""] [] := silent (by decide) (by decide)
      rw [List.map_cons, List.map_cons, List.intercalate_cons_cons, ← List.map_cons]
      exact (first.append_silent blank).append rest

/-- Lines between braces declare what they do outside. -/
lemma braced (steps : Nat) (h : Declares lines found) :
    Declares (CSharp.braced steps lines) found := by
  have brace : ∀ text, '\n' ∉ text.toList → declaration? text = none →
      Declares [indent steps text] [] := by
    intro text flat quiet
    apply silent
    · rw [toList_indent]
      simpa using flat
    · rw [declaration?_indent]
      exact quiet
  have opening := brace "\x7b" (by decide) (by decide)
  have closing := brace "\x7d" (by decide) (by decide)
  exact (opening.append h).append_silent closing

/-- The text of some lines declares what they do. -/
lemma source (h : Declares lines found) : declarations (Text.ofLines lines) = found := by
  rw [declarations, Text.split_ofLines h.lineFeed, List.filterMap_append, h.filterMap]
  exact List.append_nil found

lemma constantLine (word : IsWord name) :
    Declares [CSharp.constantLine name value] [.constant name] := by
  refine one ?_ (declaration?_constantLine word)
  have literal := lineFeed_notMem_literal value
  have name := word.lineFeed
  simp [CSharp.constantLine, toList_indent, name, literal]

/-- An attribute declares nothing, even if its value looks like a declaration. -/
lemma attributeLine (lineFeed : '\n' ∉ name.toList) :
    Declares [CSharp.attributeLine name value] [] := by
  have literal := lineFeed_notMem_literal value
  refine silent ?_ ?_
  · simp [CSharp.attributeLine, toList_indent, lineFeed, literal]
  · have front : ∃ cs, ("[" ++ name ++ "(" ++ CSharp.literal value ++ ")]").toList = '[' :: cs := by
      simp
    obtain ⟨cs, front⟩ := front
    rw [CSharp.attributeLine, declaration?_indent]
    exact declaration?_of_front front (by decide) (by decide) (by decide)

/-- The attributes of a property declare nothing. -/
lemma attributeLines (dialect : Dialect) (p : Property) :
    Declares (CSharp.attributeLines dialect p) [] := by
  have optional : ∀ name (value? : Option String), '\n' ∉ name.toList →
      Declares (value?.map (CSharp.attributeLine name)).toList [] := by
    intro name value? flat
    cases value? with
    | none => exact nil
    | some value => exact attributeLine flat
  cases dialect with
  | delivery => exact nil
  | management =>
    have codename : Declares [CSharp.attributeLine "JsonProperty" p.codename] [] :=
      attributeLine (by decide)
    have id := optional "KontentElementId" p.id? (by decide)
    have externalId := optional "KontentElementExternalId" p.externalId? (by decide)
    exact (codename.append id).append externalId

/-- A property is declared once, below its attributes. -/
lemma propertyLines (typed : IsWord p.typeName) (named : IsWord p.identifier.text)
    (dialect : Dialect) :
    Declares (CSharp.propertyLines dialect p) [.property p.typeName p.identifier.text] := by
  refine (attributeLines dialect p).append (one ?_ (declaration?_propertyLine typed named))
  have type := typed.lineFeed
  have name := named.lineFeed
  simp [CSharp.propertyLine, toList_indent, type, name]

/-- The line of a namespace declares no class and no member. -/
lemma namespaceLine (flat : '\n' ∉ name.toList) : Declares ["namespace " ++ name] [] := by
  refine silent ?_ ?_
  · simpa using flat
  · have front : ∃ cs, ("namespace " ++ name).toList = 'n' :: cs := by simp
    obtain ⟨cs, front⟩ := front
    exact declaration?_of_front front (by decide) (by decide) (by decide)

/-- The lines in front of a namespace declare nothing. -/
lemma header : Declares CSharp.header [] :=
  ⟨by decide, by decide⟩

/-- The lines for used namespaces declare nothing. -/
lemma usingLines {names : List String} (flat : ∀ name ∈ names, '\n' ∉ name.toList) :
    Declares (names.map usingLine) [] := by
  induction names with
  | nil => exact nil
  | cons name names ih =>
    obtain ⟨flat, others⟩ := List.forall_mem_cons.mp flat
    have front : ∃ cs, (usingLine name).toList = 'u' :: cs := by simp [usingLine]
    obtain ⟨cs, front⟩ := front
    have first : Declares [usingLine name] [] := by
      refine silent ?_ (declaration?_of_front front (by decide) (by decide) (by decide))
      simpa [usingLine] using flat
    exact first.append (ih others)

/-- The lines of a class declare it, and what the lines of its members declare. -/
lemma classLines (word : IsWord model.className.text) (flat : '\n' ∉ context.namespaceName.toList)
    (members : Declares lines found) :
    Declares (CSharp.classLines context model lines) (.type model.className.text :: found) := by
  have blank : Declares [""] [] := silent (by decide) (by decide)
  have name : Declares [indent 1 ("public partial class " ++ model.className.text)]
      [.type model.className.text] := by
    refine one ?_ ?_
    · have flat := word.lineFeed
      simp [toList_indent, flat]
    · rw [declaration?_indent]
      exact declaration?_classLine word
  have body : Declares (CSharp.braced 0 (indent 1 ("public partial class " ++
      model.className.text) :: CSharp.braced 1 lines)) (.type model.className.text :: found) :=
    braced 0 (name.append (braced 1 members))
  unfold CSharp.classLines
  refine ((header.append (usingLines ?_)).append (blank.append (namespaceLine flat))).append body
  cases context.dialect with
  | delivery => decide
  | management => decide

/-- The constants of a class are declared in order, behind the one for the codename of the class. -/
lemma constantLines (words : ∀ c ∈ model.constants, IsWord (constantName model c)) :
    Declares (CSharp.constantLines model)
      (.constant "Codename" :: model.constants.map fun c => .constant (constantName model c)) := by
  have own : Declares [CSharp.constantLine "Codename" model.sourceCodename]
      [.constant "Codename"] :=
    constantLine (by decide)
  exact own.append (map fun c mem => constantLine (words c mem))

end Declares

/-- The names and types of a class are words. -/
structure Legible (model : ClassModel) : Prop where
  className : IsWord model.className.text
  typeNames : ∀ p ∈ model.properties, IsWord p.typeName
  identifiers : ∀ p ∈ model.properties, IsWord p.identifier.text
  constants : ∀ c ∈ model.constants, IsWord (constantName model c)

section Sources
variable {context : Context} {model : ClassModel} {compiled : List CompiledContentType}

/-- The lines of the source of a class. -/
lemma Declares.classSource (legible : Legible model) (flat : '\n' ∉ context.namespaceName.toList) :
    Declares (CSharp.classLines context model (CSharp.constantLines model ++
        model.properties.flatMap fun p => "" :: CSharp.propertyLines context.dialect p))
      (.type model.className.text :: .constant "Codename" ::
        (model.constants.map fun c => .constant (constantName model c)) ++
        model.properties.map fun p => .property p.typeName p.identifier.text) := by
  have blank : Declares [""] [] := .silent (by decide) (by decide)
  have each : ∀ p ∈ model.properties, Declares ("" :: CSharp.propertyLines context.dialect p)
      [.property p.typeName p.identifier.text] := fun p mem =>
    blank.append (.propertyLines (legible.typeNames p mem) (legible.identifiers p mem) _)
  have members := (Declares.constantLines legible.constants).append (.flatMap each)
  exact .classLines legible.className flat members

/-- The source of a class declares the class, a constant for its codename and one for each codename
of its constants, and its properties. -/
lemma declarations_classSource (legible : Legible model)
    (flat : '\n' ∉ context.namespaceName.toList) :
    declarations (classSource context model) =
      .type model.className.text :: .constant "Codename" ::
        (model.constants.map fun c => .constant (constantName model c)) ++
        model.properties.map fun p => .property p.typeName p.identifier.text :=
  (Declares.classSource legible flat).source

/-- The lines of the source of a class for typed links. -/
lemma Declares.typedClassSource (legible : Legible model)
    (flat : '\n' ∉ context.namespaceName.toList) :
    Declares (CSharp.classLines context model
        ([""].intercalate (model.properties.map (CSharp.propertyLines context.dialect))))
      (.type model.className.text ::
        model.properties.map fun p => .property p.typeName p.identifier.text) := by
  have each : ∀ p ∈ model.properties, Declares (CSharp.propertyLines context.dialect p)
      [.property p.typeName p.identifier.text] := fun p mem =>
    .propertyLines (legible.typeNames p mem) (legible.identifiers p mem) _
  exact .classLines legible.className flat (.intercalate each)

/-- The source of a class for typed links declares the class and its properties. -/
lemma declarations_typedClassSource (legible : Legible model)
    (flat : '\n' ∉ context.namespaceName.toList) :
    declarations (typedClassSource context model) =
      .type model.className.text ::
        model.properties.map fun p => .property p.typeName p.identifier.text :=
  (Declares.typedClassSource legible flat).source

/-- The lines that the source of the lookup is made of. -/
def typeProviderLines (context : Context) (compiled : List CompiledContentType) :
    { lines : List String // typeProviderSource context compiled = Text.ofLines lines } :=
  ⟨_, rfl⟩

/-- The lines of the source of the lookup. -/
lemma Declares.typeProviderSource (words : ∀ c ∈ compiled, IsWord c.model.className.text)
    (closed : ∀ c ∈ compiled, ')' ∉ c.model.className.text.toList)
    (flat : '\n' ∉ context.namespaceName.toList) :
    Declares (typeProviderLines context compiled).1
      (.type typeProviderName :: compiled.map fun c => .entry c.model.className.text) := by
  have usings : Declares (["System", "System.Collections.Generic", "System.Linq",
      abstractionsOf context.dialect].map usingLine) [] := by
    apply Declares.usingLines
    cases context.dialect with
    | delivery => decide
    | management => decide
  have blank : Declares [""] [] := .silent (by decide) (by decide)
  have each : ∀ c ∈ compiled, Declares [lookupLine c] [.entry c.model.className.text] := by
    intro c mem
    refine .one ?_ (declaration?_lookupLine (words c mem) (closed c mem))
    have name := (words c mem).lineFeed
    have literal := lineFeed_notMem_literal c.model.sourceCodename
    simp [lookupLine, toList_indent, name, literal]
  have own : Declares [indent 1 ("public class " ++ typeProviderName ++ " : ITypeProvider")]
      [.type typeProviderName] :=
    ⟨by decide, by decide⟩
  have front : Declares
      [indent 2 ("private static readonly Dictionary<Type, string> _codenames = " ++
        "new Dictionary<Type, string>"), indent 2 "\x7b"] [] :=
    ⟨by decide, by decide⟩
  have back : Declares [indent 2 "\x7d;", ""] [] := ⟨by decide, by decide⟩
  have getType : Declares (methodLines "public Type GetType(string contentType)"
      ("return _codenames.Keys.FirstOrDefault(type => " ++
        "GetCodename(type).Equals(contentType));")) [] :=
    ⟨by decide, by decide⟩
  have getCodename : Declares (methodLines "public string GetCodename(Type contentType)"
      ("return _codenames.TryGetValue(contentType, out var codename) ? " ++
        "codename : null;")) [] :=
    ⟨by decide, by decide⟩
  -- The lines are put together from the inside out, as they are written.
  have lookup := (front.append (.map each)).append_silent back
  have members := ((lookup.append_silent getType).append_silent blank).append_silent getCodename
  have top := (Declares.header.append usings).append (blank.append (.namespaceLine flat))
  exact top.append (.braced 0 (own.append (.braced 1 members)))

/-- The source of the lookup declares its own class, and has an entry for each compiled class. -/
lemma declarations_typeProviderSource
    (words : ∀ c ∈ compiled, IsWord c.model.className.text)
    (closed : ∀ c ∈ compiled, ')' ∉ c.model.className.text.toList)
    (flat : '\n' ∉ context.namespaceName.toList) :
    declarations (typeProviderSource context compiled) =
      .type typeProviderName :: compiled.map fun c => .entry c.model.className.text :=
  (Declares.typeProviderSource words closed flat).source

end Sources

end ContentClasses.CSharp
