import ContentClasses.Proofs.Literals
import ContentClasses.Proofs.Names

/-!
# The marks of a source

A line of a source is marked with what it says and with the text between its quotes. Most lines,
such as braces and comments, have neither. `marks_classSource`, `marks_typedClassSource` and
`marks_typeProviderSource` give the marks of the sources of classes whose names and types are words
without quotes: whatever the codenames and ids of a class hold, they do not add a mark, and change
the text of their own mark only.
-/

namespace ContentClasses.CSharp

/-- What a line of a source says: that the types of a namespace are known, that what follows is in a
namespace, that what follows has an attribute, or what it declares. -/
inductive Role where
  | uses (name : String)
  | inside (namespaceName : String)
  | attribute (name : String)
  | declares (declaration : Declaration)
deriving DecidableEq, Repr

/-- What a line of a source says, and the text between its quotes. -/
structure Mark where
  role? : Option Role
  text? : Option (List Char)
deriving DecidableEq, Repr

namespace Mark

/-- A line that says something and has no quotes. -/
def plain (role : Role) : Mark :=
  ⟨some role, none⟩

/-- A line that says something about a value. -/
def valued (role : Role) (value : String) : Mark :=
  ⟨some role, some (escape value.toList)⟩

end Mark

/-- What follows on a line that starts like this. -/
def behind? (front line : String) : Option (List Char) :=
  line.toList.dropPrefix? front.toList

/-- What stands in front of a character. -/
def upTo (c : Char) (cs : List Char) : String :=
  String.ofList (cs.takeWhile (· ≠ c))

/-- What a line says, if it says anything. -/
def role? (line : String) : Option Role :=
  ((declaration? line).map .declares).or <|
    ((behind? "using " line).map fun rest => .uses (upTo ';' rest)).or <|
      ((behind? "namespace " line).map fun rest => .inside (String.ofList rest)).or <|
        (behind? (indent 2 "[") line).map fun rest => .attribute (upTo '(' rest)

/-- The mark of a line, if it says anything or has quotes. -/
def mark? (line : String) : Option Mark :=
  if (role? line).isNone ∧ (quoted? line).isNone then none else some ⟨role? line, quoted? line⟩

/-- The marks of the lines of a source, in order. -/
def marks (source : String) : List Mark :=
  (Text.split '\n' source).filterMap mark?

/-- The names and types of a class are words without quotes. -/
structure Readable (model : ClassModel) : Prop extends Legible model where
  className_unquoted : '\x22' ∉ model.className.text.toList
  typeNames_unquoted : ∀ p ∈ model.properties, '\x22' ∉ p.typeName.toList
  identifiers_unquoted : ∀ p ∈ model.properties, '\x22' ∉ p.identifier.text.toList
  constants_unquoted : ∀ c ∈ model.constants, '\x22' ∉ (constantName model c).toList

/-- A namespace is on one line and has no quotes. -/
structure Context.Plain (context : Context) : Prop where
  lineFeed : '\n' ∉ context.namespaceName.toList
  quote : '\x22' ∉ context.namespaceName.toList

/-- The attributes of a property and their values. -/
def attributes : Dialect → Property → List (String × String)
  | .delivery, _ => []
  | .management, p =>
    ("JsonProperty", p.codename) :: (p.id?.map (("KontentElementId", ·))).toList ++
      (p.externalId?.map (("KontentElementExternalId", ·))).toList

/-- The marks of a property: one for each attribute, and its own. -/
def propertyMarks (dialect : Dialect) (p : Property) : List Mark :=
  (attributes dialect p).map (fun a => .valued (.attribute a.1) a.2) ++
    [.plain (.declares (.property p.typeName p.identifier.text))]

/-- The marks of the constants of a class. -/
def constantMarks (model : ClassModel) : List Mark :=
  .valued (.declares (.constant "Codename")) model.sourceCodename ::
    model.constants.map fun c => .valued (.declares (.constant (constantName model c))) c

/-- The marks in front of a class: the namespaces that are used, and the one that it is in. -/
def frameMarks (used : List String) (namespaceName : String) : List Mark :=
  used.map (fun name => .plain (.uses name)) ++ [.plain (.inside namespaceName)]

/-- The namespaces that the source of a class uses. -/
def usedByClass (dialect : Dialect) : List String :=
  ["System", "System.Collections.Generic", abstractionsOf dialect] ++
    match dialect with
    | .delivery => []
    | .management => ["Newtonsoft.Json"]

/-- The namespaces that the source of the lookup uses. -/
def usedByTypeProvider (dialect : Dialect) : List String :=
  ["System", "System.Collections.Generic", "System.Linq", abstractionsOf dialect]

/-- The literals of a source are the texts of its marks. -/
lemma literals_eq (source : String) : literals source = (marks source).filterMap (·.text?) := by
  have each : ∀ line, quoted? line = (mark? line).bind (·.text?) := by
    intro line
    rw [mark?]
    split
    case isTrue unmarked =>
      rw [Option.isNone_iff_eq_none.mp unmarked.2]
      rfl
    case isFalse => rfl
  rw [literals, marks, List.filterMap_filterMap]
  exact List.filterMap_congr fun line _ => each line

section Lines
variable {line name value front : String} {p : Property} {c : Char} {cs : List Char}
  {dialect : Dialect} {d : Declaration} {role : Role}

/-- What stands behind a known front is the rest of the line. -/
lemma behind?_append (rest : List Char) (whole : line.toList = front.toList ++ rest) :
    behind? front line = some rest := by
  rw [behind?, whole]
  exact List.dropPrefix?_append_of_beq _ (beq_self_eq_true _)

/-- A line does not start with a text that starts with another character. -/
lemma behind?_eq_none (starts : line.toList = c :: cs) (other : front.toList.head? ≠ some c)
    (nonempty : front.toList ≠ []) : behind? front line = none := by
  obtain ⟨e, es, whole⟩ := List.exists_cons_of_ne_nil nonempty
  have different : c ≠ e := by
    rintro rfl
    exact other (congrArg List.head? whole)
  rw [behind?, whole, starts, List.dropPrefix?, if_neg (by simpa using different)]

/-- A name ends in front of the first character that it does not hold. -/
lemma upTo_append (absent : c ∉ name.toList) : upTo c (name.toList ++ c :: cs) = name := by
  rw [upTo, takeWhile_ne absent, String.ofList_toList]

/-- A line with a role is a mark, with the literal on it. -/
lemma mark?_of_role (said : role? line = some role) :
    mark? line = some ⟨some role, quoted? line⟩ := by
  rw [mark?, said]
  exact if_neg fun unmarked => nomatch unmarked.1

lemma role?_of_declaration (declared : declaration? line = some d) :
    role? line = some (.declares d) := by
  rw [role?, declared]
  rfl

/-- The line of a constant is read back with its name and its value. -/
lemma mark?_constantLine (word : IsWord name) (absent : '\x22' ∉ name.toList) :
    mark? (constantLine name value) = some (.valued (.declares (.constant name)) value) := by
  rw [mark?_of_role (role?_of_declaration (declaration?_constantLine word)),
    (Holds.constantLine absent).quoted?_eq]
  rfl

/-- The line of a property is read back with its type and its name. -/
lemma mark?_propertyLine (typed : IsWord p.typeName) (named : IsWord p.identifier.text)
    (type : '\x22' ∉ p.typeName.toList) (identifier : '\x22' ∉ p.identifier.text.toList) :
    mark? (propertyLine p) =
      some (.plain (.declares (.property p.typeName p.identifier.text))) := by
  rw [mark?_of_role (role?_of_declaration (declaration?_propertyLine typed named)),
    quoted?_eq_none (quote_notMem_propertyLine type identifier)]
  rfl

lemma mark?_classLine (word : IsWord name) (absent : '\x22' ∉ name.toList) :
    mark? (indent 1 ("public partial class " ++ name)) =
      some (.plain (.declares (.type name))) := by
  have declared := declaration?_classLine word
  rw [← @declaration?_indent _ 1] at declared
  rw [mark?_of_role (role?_of_declaration declared), quoted?_eq_none]
  · rfl
  · simpa [toList_indent] using absent

/-- A line of the lookup table is read back with its class and its codename. -/
lemma mark?_lookupLine {compiled : CompiledContentType}
    (pascal : compiled.model.className.IsPascal) :
    mark? (lookupLine compiled) =
      some (.valued (.declares (.entry compiled.model.className.text))
        compiled.model.sourceCodename) := by
  have declared := declaration?_lookupLine pascal.isWord (pascal.notMem (by decide))
  rw [mark?_of_role (role?_of_declaration declared),
    (Holds.lookupLine (pascal.notMem (by decide))).quoted?_eq]
  rfl

lemma mark?_usingLine (ended : ';' ∉ name.toList) (absent : '\x22' ∉ name.toList) :
    mark? (usingLine name) = some (.plain (.uses name)) := by
  have starts : (usingLine name).toList = 'u' :: ("sing ".toList ++ (name.toList ++ [';'])) := by
    simp [usingLine]
  have silent : declaration? (usingLine name) = none :=
    declaration?_of_front starts (by decide) (by decide) (by decide)
  have said : role? (usingLine name) = some (.uses name) := by
    rw [role?, silent, behind?_append (name.toList ++ [';']) starts, Option.map_some,
      upTo_append ended]
    rfl
  rw [mark?_of_role said, quoted?_eq_none]
  · rfl
  · simpa [usingLine] using absent

lemma mark?_namespaceLine (absent : '\x22' ∉ name.toList) :
    mark? ("namespace " ++ name) = some (.plain (.inside name)) := by
  have starts : ("namespace " ++ name).toList = 'n' :: ("amespace ".toList ++ name.toList) := by
    simp
  have silent : declaration? ("namespace " ++ name) = none :=
    declaration?_of_front starts (by decide) (by decide) (by decide)
  have unused : behind? "using " ("namespace " ++ name) = none :=
    behind?_eq_none starts (by decide) (by decide)
  have said : role? ("namespace " ++ name) = some (.inside name) := by
    rw [role?, silent, unused, behind?_append name.toList starts,
      Option.map_some (a := name.toList), String.ofList_toList]
    rfl
  rw [mark?_of_role said, quoted?_eq_none]
  · rfl
  · simpa using absent

/-- An attribute is read back with its name and its value. -/
lemma mark?_attributeLine (closed : '(' ∉ name.toList) (absent : '\x22' ∉ name.toList) :
    mark? (attributeLine name value) = some (.valued (.attribute name) value) := by
  have inner : (attributeLine name value).toList =
      (indent 2 "[").toList ++ (name.toList ++ '(' :: (literal value ++ ")]").toList) := by
    simp [attributeLine, toList_indent]
  have front : ∃ cs, ("[" ++ name ++ "(" ++ literal value ++ ")]").toList = '[' :: cs := by simp
  obtain ⟨cs, front⟩ := front
  -- An attribute is no declaration, whatever its value looks like: it starts with a bracket.
  have silent : declaration? (attributeLine name value) = none := by
    rw [attributeLine, declaration?_indent]
    exact declaration?_of_front front (by decide) (by decide) (by decide)
  have starts : ∃ cs, (attributeLine name value).toList = ' ' :: cs := by
    simp [attributeLine, toList_indent, List.replicate_succ]
  obtain ⟨cs, starts⟩ := starts
  have unused : behind? "using " (attributeLine name value) = none :=
    behind?_eq_none starts (by decide) (by decide)
  have outside : behind? "namespace " (attributeLine name value) = none :=
    behind?_eq_none starts (by decide) (by decide)
  have said : role? (attributeLine name value) = some (.attribute name) := by
    rw [role?, silent, unused, outside, behind?_append _ inner, Option.map_some _,
      upTo_append closed]
    rfl
  rw [mark?_of_role said, (Holds.attributeLine absent).quoted?_eq]
  rfl

end Lines

section Groups
variable {context : Context} {model : ClassModel} {compiled : List CompiledContentType}
  {lines : List String} {found : List Declaration} {p : Property} {dialect : Dialect} {steps : Nat}

/-- The marks of a text of lines are those of the lines. -/
lemma Declares.marks (h : Declares lines found) :
    CSharp.marks (Text.ofLines lines) = lines.filterMap mark? := by
  have blank : [""].filterMap mark? = [] := by decide
  rw [CSharp.marks, Text.split_ofLines h.lineFeed, List.filterMap_append, blank, List.append_nil]

/-- Braces have no marks. -/
lemma filterMap_braced (shallow : steps ∈ [0, 1, 2]) :
    (braced steps lines).filterMap mark? = lines.filterMap mark? := by
  have unmarked : ∀ steps ∈ [0, 1, 2],
      mark? (indent steps "\x7b") = none ∧ mark? (indent steps "\x7d") = none := by decide
  obtain ⟨opening, closing⟩ := unmarked steps shallow
  rw [braced, List.filterMap_append, List.filterMap_cons_none opening,
    List.filterMap_cons_none closing, List.filterMap_nil, List.append_nil]

/-- Lines that all have a mark. -/
lemma filterMap_map_mark? {α : Type} {f : α → String} {g : α → Mark} {xs : List α}
    (marked : ∀ x ∈ xs, mark? (f x) = some (g x)) : (xs.map f).filterMap mark? = xs.map g := by
  rw [List.filterMap_map, ← List.filterMap_eq_map]
  exact List.filterMap_congr marked

/-- Groups of lines with a blank line between them have the marks of the groups. -/
lemma filterMap_intercalate {α : Type} {f : α → List String} {xs : List α} :
    ([""].intercalate (xs.map f)).filterMap mark? = xs.flatMap fun x => (f x).filterMap mark? := by
  have blank : [""].filterMap mark? = [] := by decide
  induction xs with
  | nil => rfl
  | cons x xs ih =>
    cases xs with
    | nil => simp [List.intercalate]
    | cons y ys =>
      rw [List.flatMap_cons, ← ih, List.map_cons, List.map_cons, List.intercalate_cons_cons,
        List.filterMap_append, List.filterMap_append, blank, List.append_nil]

/-- The lines of the attributes come one for each, with a name and a value. -/
lemma attributeLines_eq :
    attributeLines dialect p = (attributes dialect p).map fun a => attributeLine a.1 a.2 := by
  obtain ⟨codename, identifier, typeName, id?, externalId?, ending?⟩ := p
  cases dialect with
  | delivery => rfl
  | management => cases id? <;> cases externalId? <;> rfl

/-- The names of the attributes hold neither brackets nor quotes. -/
lemma clean_attributes :
    ∀ a ∈ attributes dialect p, '(' ∉ a.1.toList ∧ '\x22' ∉ a.1.toList := by
  obtain ⟨codename, identifier, typeName, id?, externalId?, ending?⟩ := p
  cases dialect with
  | delivery => nofun
  | management => cases id? <;> cases externalId? <;> simp [attributes]

/-- The lines of a property are read back as the marks of its attributes and of itself. -/
lemma filterMap_propertyLines (readable : Readable model) (mem : p ∈ model.properties) :
    (propertyLines dialect p).filterMap mark? = propertyMarks dialect p := by
  have attributes : ((attributes dialect p).map fun a => attributeLine a.1 a.2).filterMap mark? =
      (attributes dialect p).map fun a => .valued (.attribute a.1) a.2 :=
    filterMap_map_mark? fun a ha =>
      mark?_attributeLine (clean_attributes a ha).1 (clean_attributes a ha).2
  have own := mark?_propertyLine (readable.typeNames p mem) (readable.identifiers p mem)
    (readable.typeNames_unquoted p mem) (readable.identifiers_unquoted p mem)
  rw [propertyLines, List.filterMap_append, attributeLines_eq, attributes,
    List.filterMap_cons_some own, List.filterMap_nil, propertyMarks]

/-- The lines of the constants are read back as their marks. -/
lemma filterMap_constantLines (readable : Readable model) :
    (constantLines model).filterMap mark? = constantMarks model := by
  have own : mark? (constantLine "Codename" model.sourceCodename) =
      some (.valued (.declares (.constant "Codename")) model.sourceCodename) :=
    mark?_constantLine (by decide) (by decide)
  have others : (model.constants.map fun c => constantLine (constantName model c) c).filterMap
      mark? = model.constants.map fun c =>
        .valued (.declares (.constant (constantName model c))) c :=
    filterMap_map_mark? fun c mem =>
      mark?_constantLine (readable.constants c mem) (readable.constants_unquoted c mem)
  rw [constantLines, List.filterMap_cons_some own, others, constantMarks]

/-- The head of a source is read back as the namespaces that it uses and the one that it is in. -/
lemma filterMap_frame {used : List String} {name : String}
    (clean : ∀ name ∈ used, ';' ∉ name.toList ∧ '\x22' ∉ name.toList)
    (absent : '\x22' ∉ name.toList) :
    (header ++ used.map usingLine ++ ["", "namespace " ++ name]).filterMap mark? =
      frameMarks used name := by
  have blank : mark? "" = none := by decide
  have header : header.filterMap mark? = [] := by decide
  have usings : (used.map usingLine).filterMap mark? = used.map fun name => .plain (.uses name) :=
    filterMap_map_mark? fun name mem => mark?_usingLine (clean name mem).1 (clean name mem).2
  rw [List.filterMap_append, List.filterMap_append, header, usings, List.nil_append,
    List.filterMap_cons_none blank, List.filterMap_cons_some (mark?_namespaceLine absent),
    List.filterMap_nil, frameMarks]

lemma clean_usedByClass :
    ∀ name ∈ usedByClass dialect, ';' ∉ name.toList ∧ '\x22' ∉ name.toList := by
  cases dialect with
  | delivery => decide
  | management => decide

lemma clean_usedByTypeProvider :
    ∀ name ∈ usedByTypeProvider dialect, ';' ∉ name.toList ∧ '\x22' ∉ name.toList := by
  cases dialect with
  | delivery => decide
  | management => decide

/-- The lines of a class have the marks in front of it, its own and those of its members. -/
lemma filterMap_classLines (readable : Readable model) (plain : context.Plain) :
    (classLines context model lines).filterMap mark? =
      frameMarks (usedByClass context.dialect) context.namespaceName ++
        .plain (.declares (.type model.className.text)) :: lines.filterMap mark? := by
  have own := mark?_classLine readable.className readable.className_unquoted
  rw [classLines, List.filterMap_append, filterMap_braced (by decide),
    List.filterMap_cons_some own, filterMap_braced (by decide)]
  exact congrArg (· ++ _) (filterMap_frame (@clean_usedByClass context.dialect) plain.quote)

/-- The marks of the source of a class. -/
lemma marks_classSource (readable : Readable model) (plain : context.Plain) :
    marks (classSource context model) =
      frameMarks (usedByClass context.dialect) context.namespaceName ++
        .plain (.declares (.type model.className.text)) ::
          (constantMarks model ++ model.properties.flatMap (propertyMarks context.dialect)) := by
  have blank : mark? "" = none := by decide
  have each : ∀ p ∈ model.properties,
      ("" :: propertyLines context.dialect p).filterMap mark? =
        propertyMarks context.dialect p := by
    intro p mem
    rw [List.filterMap_cons_none blank, filterMap_propertyLines readable mem]
  rw [classSource, (Declares.classSource readable.toLegible plain.lineFeed).marks,
    filterMap_classLines readable plain, List.filterMap_append,
    filterMap_constantLines readable, List.filterMap_flatMap, List.flatMap_congr each]

/-- The marks of the source of a class for typed links. -/
lemma marks_typedClassSource (readable : Readable model) (plain : context.Plain) :
    marks (typedClassSource context model) =
      frameMarks (usedByClass context.dialect) context.namespaceName ++
        .plain (.declares (.type model.className.text)) ::
          model.properties.flatMap (propertyMarks context.dialect) := by
  have each : ∀ p ∈ model.properties, (propertyLines context.dialect p).filterMap mark? =
      propertyMarks context.dialect p := fun p mem => filterMap_propertyLines readable mem
  rw [typedClassSource, (Declares.typedClassSource readable.toLegible plain.lineFeed).marks,
    filterMap_classLines readable plain, filterMap_intercalate, List.flatMap_congr each]

/-- The marks of the source of the lookup. -/
lemma marks_typeProviderSource (pascal : ∀ c ∈ compiled, c.model.className.IsPascal)
    (plain : context.Plain) :
    marks (typeProviderSource context compiled) =
      frameMarks (usedByTypeProvider context.dialect) context.namespaceName ++
        .plain (.declares (.type typeProviderName)) :: compiled.map fun c =>
          .valued (.declares (.entry c.model.className.text)) c.model.sourceCodename := by
  have own : mark? (indent 1 ("public class " ++ typeProviderName ++ " : ITypeProvider")) =
      some (.plain (.declares (.type typeProviderName))) := by decide
  have entries : (compiled.map lookupLine).filterMap mark? = compiled.map fun c =>
      .valued (.declares (.entry c.model.className.text)) c.model.sourceCodename :=
    filterMap_map_mark? fun c mem => mark?_lookupLine (pascal c mem)
  have front : [indent 2 ("private static readonly Dictionary<Type, string> _codenames = " ++
      "new Dictionary<Type, string>"), indent 2 "\x7b"].filterMap mark? = [] := by decide +kernel
  have back : [indent 2 "\x7d;", ""].filterMap mark? = [] := by decide
  have getType : (methodLines "public Type GetType(string contentType)"
      ("return _codenames.Keys.FirstOrDefault(type => " ++
        "GetCodename(type).Equals(contentType));")).filterMap mark? = [] := by decide +kernel
  have blank : [""].filterMap mark? = [] := by decide
  have getCodename : (methodLines "public string GetCodename(Type contentType)"
      ("return _codenames.TryGetValue(contentType, out var codename) ? " ++
        "codename : null;")).filterMap mark? = [] := by decide +kernel
  have declared := Declares.typeProviderSource (fun c mem => (pascal c mem).isWord)
    (fun c mem => (pascal c mem).notMem (by decide)) plain.lineFeed
  rw [(typeProviderLines context compiled).2, declared.marks, typeProviderLines]
  dsimp only
  have frame := filterMap_frame (@clean_usedByTypeProvider context.dialect) plain.quote
  rw [usedByTypeProvider] at frame
  rw [List.filterMap_append, filterMap_braced (by decide), List.filterMap_cons_some own,
    filterMap_braced (by decide), frame, usedByTypeProvider]
  simp only [List.filterMap_append, front, entries, back, getType, blank, getCodename,
    List.nil_append, List.append_nil]

end Groups

end ContentClasses.CSharp
