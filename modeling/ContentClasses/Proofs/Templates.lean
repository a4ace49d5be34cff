import ContentClasses.Proofs.Marks

/-!
# Sources without their literals

What is left of the lines of a source when nothing stands between quotes any more. It is made from
names and types alone: `template_classSource`, `template_typedClassSource` and
`template_typeProviderSource` say that a value is nowhere but between the two quotes of its line.
-/

namespace ContentClasses.CSharp

/-- A line with nothing between its first and its last quote. -/
def emptied (line : String) : String :=
  if '\x22' ∈ line.toList then
    String.ofList (line.toList.takeWhile (· ≠ '\x22') ++ '\x22' :: '\x22' ::
      (line.toList.reverse.takeWhile (· ≠ '\x22')).reverse)
  else line

/-- The lines of a source with nothing between their quotes. -/
def template (source : String) : List String :=
  (Text.split '\n' source).map emptied

/-- The lines of the constants of a class, with empty values. -/
def emptyConstantLines (model : ClassModel) : List String :=
  constantLine "Codename" "" :: model.constants.map fun c => constantLine (constantName model c) ""

/-- The lines of a property, with empty values. -/
def emptyPropertyLines (dialect : Dialect) (p : Property) : List String :=
  (attributes dialect p).map (fun a => attributeLine a.1 "") ++ [propertyLine p]

/-- A compiled content type with an empty codename. -/
def withoutCodename (c : CompiledContentType) : CompiledContentType :=
  { c with model := { c.model with sourceCodename := "" } }

section Lines
variable {line name value front back : String} {lines : List String}
  {found : List Declaration} {p : Property} {steps : Nat}

/-- Between the quotes of a line is its value. -/
lemma Holds.emptied_eq (holds : Holds line front value back) :
    emptied line = front ++ literal "" ++ back := by
  have whole := holds.toList_eq
  have there : '\x22' ∈ line.toList := by
    rw [whole]
    simp
  have last : line.toList.reverse =
      back.toList.reverse ++ '\x22' :: (front.toList ++ '\x22' :: escape value.toList).reverse := by
    rw [whole]
    simp
  rw [emptied, if_pos there, last, takeWhile_ne (by simpa using holds.back),
    List.reverse_reverse, whole, takeWhile_ne holds.front]
  apply String.toList_injective
  simp [literal, escape]

/-- The line with an empty value is the line with nothing between its quotes. -/
lemma Holds.emptied_line {empty : String} (holds : Holds line front value back)
    (other : Holds empty front "" back) : emptied line = empty := by
  rw [holds.emptied_eq, other.eq_append]

/-- The line of a constant is emptied of its value. -/
lemma emptied_constantLine (absent : '\x22' ∉ name.toList) :
    emptied (constantLine name value) = constantLine name "" :=
  (Holds.constantLine absent).emptied_line (.constantLine absent)

lemma emptied_attributeLine (absent : '\x22' ∉ name.toList) :
    emptied (attributeLine name value) = attributeLine name "" :=
  (Holds.attributeLine absent).emptied_line (.attributeLine absent)

lemma emptied_lookupLine {c : CompiledContentType}
    (absent : '\x22' ∉ c.model.className.text.toList) :
    emptied (lookupLine c) = lookupLine (withoutCodename c) := by
  have empty : Holds (lookupLine (withoutCodename c)) _ "" _ := .lookupLine absent
  exact (Holds.lookupLine absent).emptied_line empty

/-- A line without quotes is not changed. -/
lemma emptied_eq_self (absent : '\x22' ∉ line.toList) : emptied line = line :=
  if_neg absent

lemma map_map_emptied {α : Type} {f g : α → String} {xs : List α}
    (same : ∀ x ∈ xs, emptied (f x) = g x) : (xs.map f).map emptied = xs.map g := by
  rw [List.map_map]
  exact List.map_congr_left same

lemma map_emptied_eq_self (absent : ∀ line ∈ lines, '\x22' ∉ line.toList) :
    lines.map emptied = lines :=
  (List.map_congr_left fun line mem => emptied_eq_self (absent line mem)).trans (List.map_id lines)

/-- The template of a text of lines is that of the lines. -/
lemma Declares.template (h : Declares lines found) :
    CSharp.template (Text.ofLines lines) = lines.map emptied ++ [""] := by
  rw [CSharp.template, Text.split_ofLines h.lineFeed, List.map_append]
  rfl

/-- To empty lines leaves the braces around them. -/
lemma map_emptied_braced : (braced steps lines).map emptied = braced steps (lines.map emptied) := by
  have brace : ∀ text, '\x22' ∉ text.toList → emptied (indent steps text) = indent steps text := by
    intro text absent
    exact emptied_eq_self (by simpa [toList_indent] using absent)
  rw [braced, List.map_append, List.map_cons, brace _ (by decide), List.map_singleton,
    brace _ (by decide), braced]

/-- Blank lines between groups of lines have nothing to be emptied. -/
lemma map_emptied_intercalate {groups : List (List String)} :
    ([""].intercalate groups).map emptied = [""].intercalate (groups.map (List.map emptied)) := by
  have blank : [""].map emptied = [""] := by decide
  induction groups with
  | nil => rfl
  | cons group groups ih =>
    cases groups with
    | nil => simp [List.intercalate]
    | cons other groups =>
      rw [List.map_cons, List.map_cons, List.intercalate_cons_cons, List.intercalate_cons_cons,
        List.map_append, List.map_append, blank, ih, List.map_cons]

end Lines

section Sources
variable {context : Context} {model : ClassModel} {compiled : List CompiledContentType}
  {lines : List String} {p : Property} {dialect : Dialect}

/-- The lines of the constants are emptied of their values. -/
lemma map_emptied_constantLines (readable : Readable model) :
    (constantLines model).map emptied = emptyConstantLines model := by
  rw [constantLines, List.map_cons, emptied_constantLine (by decide), emptyConstantLines,
    map_map_emptied fun c mem => emptied_constantLine (readable.constants_unquoted c mem)]

/-- The lines of a property are emptied of the values of its attributes. -/
lemma map_emptied_propertyLines (readable : Readable model) (mem : p ∈ model.properties) :
    (propertyLines dialect p).map emptied = emptyPropertyLines dialect p := by
  have own := quote_notMem_propertyLine (readable.typeNames_unquoted p mem)
    (readable.identifiers_unquoted p mem)
  rw [propertyLines, attributeLines_eq, List.map_append, List.map_singleton, emptied_eq_self own,
    map_map_emptied fun a ha => emptied_attributeLine (clean_attributes a ha).2,
    emptyPropertyLines]

/-- The lines in front of a class have no quotes. -/
lemma map_emptied_frame {used : List String} {name : String}
    (clean : ∀ name ∈ used, ';' ∉ name.toList ∧ '\x22' ∉ name.toList)
    (absent : '\x22' ∉ name.toList) :
    (header ++ used.map usingLine ++ ["", "namespace " ++ name]).map emptied =
      header ++ used.map usingLine ++ ["", "namespace " ++ name] := by
  have header : ∀ line ∈ header, '\x22' ∉ line.toList := by decide +kernel
  have usings : ∀ line ∈ used.map usingLine, '\x22' ∉ line.toList := by
    rw [List.forall_mem_map]
    intro name mem
    simpa [usingLine] using (clean name mem).2
  have inside : ∀ line ∈ ["", "namespace " ++ name], '\x22' ∉ line.toList := by simpa using absent
  rw [List.map_append, List.map_append, map_emptied_eq_self header, map_emptied_eq_self usings,
    map_emptied_eq_self inside]

/-- The lines of a class around those of its members have no quotes. -/
lemma map_emptied_classLines (readable : Readable model) (plain : context.Plain) :
    (classLines context model lines).map emptied =
      classLines context model (lines.map emptied) := by
  have name : emptied (indent 1 ("public partial class " ++ model.className.text)) =
      indent 1 ("public partial class " ++ model.className.text) := by
    apply emptied_eq_self
    simpa [toList_indent] using readable.className_unquoted
  unfold classLines
  rw [List.map_append, map_emptied_braced, List.map_cons, map_emptied_braced, name]
  exact congrArg (· ++ _) (map_emptied_frame (@clean_usedByClass context.dialect) plain.quote)

/-- The template of the source of a class. -/
lemma template_classSource (readable : Readable model) (plain : context.Plain) :
    template (classSource context model) =
      classLines context model (emptyConstantLines model ++
        model.properties.flatMap fun p => "" :: emptyPropertyLines context.dialect p) ++ [""] := by
  have blank : emptied "" = "" := by decide
  have each : ∀ p ∈ model.properties, ("" :: propertyLines context.dialect p).map emptied =
      "" :: emptyPropertyLines context.dialect p := by
    intro p mem
    rw [List.map_cons, blank, map_emptied_propertyLines readable mem]
  rw [classSource, (Declares.classSource readable.toLegible plain.lineFeed).template,
    map_emptied_classLines readable plain, List.map_append, map_emptied_constantLines readable,
    List.map_flatMap, List.flatMap_congr each]

/-- The template of the source of a class for typed links. -/
lemma template_typedClassSource (readable : Readable model) (plain : context.Plain) :
    template (typedClassSource context model) =
      classLines context model
        ([""].intercalate (model.properties.map (emptyPropertyLines context.dialect))) ++ [""] := by
  have each : ∀ p ∈ model.properties, (propertyLines context.dialect p).map emptied =
      emptyPropertyLines context.dialect p := fun p mem => map_emptied_propertyLines readable mem
  rw [typedClassSource, (Declares.typedClassSource readable.toLegible plain.lineFeed).template,
    map_emptied_classLines readable plain, map_emptied_intercalate, List.map_map]
  exact congrArg (fun groups => classLines context model ([""].intercalate groups) ++ [""])
    (List.map_congr_left each)

/-- The template of the source of the lookup. -/
lemma template_typeProviderSource (pascal : ∀ c ∈ compiled, c.model.className.IsPascal)
    (plain : context.Plain) :
    template (typeProviderSource context compiled) =
      (typeProviderLines context (compiled.map withoutCodename)).1 ++ [""] := by
  have own : emptied (indent 1 ("public class " ++ typeProviderName ++ " : ITypeProvider")) =
      indent 1 ("public class " ++ typeProviderName ++ " : ITypeProvider") := by decide
  have entries : (compiled.map lookupLine).map emptied =
      (compiled.map withoutCodename).map lookupLine := by
    rw [map_map_emptied fun c mem => emptied_lookupLine ((pascal c mem).notMem (by decide)),
      List.map_map]
    rfl
  have front : ∀ line ∈
      [indent 2 ("private static readonly Dictionary<Type, string> _codenames = " ++
        "new Dictionary<Type, string>"), indent 2 "\x7b"],
      '\x22' ∉ line.toList := by decide +kernel
  have back : ∀ line ∈ [indent 2 "\x7d;", ""], '\x22' ∉ line.toList := by decide
  have blank : ∀ line ∈ [""], '\x22' ∉ line.toList := by decide
  have getType : ∀ line ∈ methodLines "public Type GetType(string contentType)"
      ("return _codenames.Keys.FirstOrDefault(type => " ++
        "GetCodename(type).Equals(contentType));"), '\x22' ∉ line.toList := by decide +kernel
  have getCodename : ∀ line ∈ methodLines "public string GetCodename(Type contentType)"
      ("return _codenames.TryGetValue(contentType, out var codename) ? " ++
        "codename : null;"), '\x22' ∉ line.toList := by decide +kernel
  have frame := map_emptied_frame (@clean_usedByTypeProvider context.dialect) plain.quote
  rw [usedByTypeProvider] at frame
  have declared := Declares.typeProviderSource (fun c mem => (pascal c mem).isWord)
    (fun c mem => (pascal c mem).notMem (by decide)) plain.lineFeed
  rw [(typeProviderLines context compiled).2, declared.template, typeProviderLines,
    typeProviderLines]
  dsimp only
  rw [List.map_append, map_emptied_braced, List.map_cons (f := emptied), map_emptied_braced, own,
    frame]
  simp only [List.map_append, map_emptied_eq_self front, entries, map_emptied_eq_self back,
    map_emptied_eq_self getType, map_emptied_eq_self blank, map_emptied_eq_self getCodename]

end Sources

end ContentClasses.CSharp
