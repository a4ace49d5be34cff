import ContentClasses.Generation
import ContentClasses.Proofs.Names

/-!
# Names of files

Which files of a run have one name: `Generation.file_names_clash_iff`. All files but that of the
lookup end in the same mark, whatever the suffix is, so that names can be compared in front of it.
There is no dot in a class name, and so a name with a part behind it is never like one without.
-/

namespace ContentClasses

namespace Output
variable {output : Output} {name other : String}

/-- What the names of the files of classes end in: the suffix, where there is one, and the
extension. -/
def mark (output : Output) : String :=
  (if output.suffix = "" then "" else "." ++ output.suffix) ++ ("." ++ output.extension)

/-- The file of a class is named after it, with the mark of models behind. -/
lemma modelFileName_eq (output : Output) (name : String) :
    output.modelFileName name = name ++ output.mark := by
  rw [modelFileName, fileName, mark]
  split <;> simp [String.intercalate_cons_cons, String.append_assoc]

/-- The file of a class for typed links is named like that of a class with a part more. -/
lemma typedFileName_eq (output : Output) (name : String) :
    output.typedFileName name = output.modelFileName (name ++ "." ++ "Typed") := by
  rw [typedFileName, modelFileName, fileName, fileName, List.append_assoc, List.append_assoc,
    List.cons_append, List.singleton_append,
    String.intercalate_cons_of_ne_nil (List.cons_ne_nil _ _), List.singleton_append,
    String.intercalate_cons_append]

lemma supportFileName_eq (output : Output) (name : String) :
    output.supportFileName name = name ++ ("." ++ output.extension) :=
  String.append_assoc

/-- Classes with different names are written to different files. -/
lemma modelFileName_inj :
    output.modelFileName name = output.modelFileName other ↔ name = other := by
  rw [modelFileName_eq, modelFileName_eq, String.append_left_inj]

lemma typedFileName_inj :
    output.typedFileName name = output.typedFileName other ↔ name = other := by
  rw [typedFileName_eq, typedFileName_eq, modelFileName_inj, String.append_left_inj,
    String.append_left_inj]

/-- A name without a dot has no part behind one. -/
lemma ne_of_plain (plain : '.' ∉ name.toList) (front back : String) :
    front ++ "." ++ back ≠ name := by
  rintro rfl
  simp at plain

/-- The file of a class for typed links is that of no class whose name is without dots. -/
lemma typedFileName_ne_modelFileName (plain : '.' ∉ other.toList) :
    output.typedFileName name ≠ output.modelFileName other := by
  rw [typedFileName_eq, Ne, modelFileName_inj]
  exact ne_of_plain plain name "Typed"

/-- The file of a class has the name of one that never has a suffix only where there is none. -/
lemma modelFileName_eq_supportFileName (plain : '.' ∉ other.toList) :
    output.modelFileName name = output.supportFileName other ↔
      output.suffix = "" ∧ name = other := by
  rw [modelFileName_eq, supportFileName_eq, mark, ← String.append_assoc, String.append_left_inj]
  split
  case isTrue none => simp [none]
  case isFalse some =>
    rw [← String.append_assoc]
    exact iff_of_false (ne_of_plain plain name output.suffix) fun both => some both.1

/-- The file of a class for typed links is no file beside the models whose name is without dots. -/
lemma typedFileName_ne_supportFileName (plain : '.' ∉ other.toList) :
    output.typedFileName name ≠ output.supportFileName other := by
  rw [typedFileName_eq, Ne, modelFileName_eq_supportFileName plain]
  exact fun both => ne_of_plain plain name "Typed" both.2

end Output

/-- What is in a file of a run: the class of a content type, its class for typed links, or the
lookup. -/
inductive Subject where
  | model (c : CompiledContentType)
  | typed (c : CompiledContentType) (typed : ClassModel)
  | provider

namespace Generation
variable {g : Generation} {compiled : List CompiledContentType} {a b : Subject} {i j : Nat}
  {c d : CompiledContentType}

/-- What is in the files of the content types. -/
def classSubjects (compiled : List CompiledContentType) : List Subject :=
  compiled.flatMap fun c => .model c :: (c.typed?.map (.typed c)).toList

/-- What is in the files of a run, in their order. -/
def subjects (g : Generation) (compiled : List CompiledContentType) : List Subject :=
  if compiled.isEmpty then []
  else classSubjects compiled ++ if g.config.withTypeProvider then [.provider] else []

/-- The file that something is in. -/
def fileOf (g : Generation) (compiled : List CompiledContentType) : Subject → SourceFile
  | .model c =>
    { name := g.output.modelFileName c.model.className.text
      content := CSharp.classSource ⟨g.config.namespaceName, g.config.dialect⟩ c.model }
  | .typed c typed =>
    { name := g.output.typedFileName c.model.className.text
      content := CSharp.typedClassSource ⟨g.config.namespaceName, g.config.dialect⟩ typed }
  | .provider =>
    { name := g.output.supportFileName CSharp.typeProviderName
      content :=
        CSharp.typeProviderSource ⟨g.config.namespaceName, g.config.dialect⟩ compiled }

/-- The files of two things have one name: two classes of content types, or two for typed links,
where the class names of the content types are equal, and, where there is no suffix, the lookup and
a class that is called like it. -/
inductive Clash (g : Generation) : Subject → Subject → Prop where
  | models {c d : CompiledContentType} (same : c.model.className = d.model.className) :
      Clash g (.model c) (.model d)
  | typed {c d : CompiledContentType} {typed typed' : ClassModel}
      (same : c.model.className = d.model.className) :
      Clash g (.typed c typed) (.typed d typed')
  | modelProvider {c : CompiledContentType} (bare : g.config.fileNameSuffix = "")
      (same : c.model.className.text = CSharp.typeProviderName) :
      Clash g (.model c) .provider
  | providerModel {c : CompiledContentType} (bare : g.config.fileNameSuffix = "")
      (same : c.model.className.text = CSharp.typeProviderName) :
      Clash g .provider (.model c)

/-- There is a file for each subject, in their order. -/
lemma files_eq_map (g : Generation) (compiled : List CompiledContentType) :
    g.files compiled = (g.subjects compiled).map (g.fileOf compiled) := by
  rw [files, subjects, providerFiles]
  split
  case isTrue => rfl
  case isFalse =>
    have each (c : CompiledContentType) : g.filesOf c =
        (Subject.model c :: (c.typed?.map (.typed c)).toList).map (g.fileOf compiled) := by
      rw [filesOf]
      cases c.typed? <;> rfl
    rw [List.map_append, classSubjects, List.map_flatMap, List.flatMap_congr fun c _ => each c]
    split <;> rfl

/-- The subjects of the classes are the classes and their classes for typed links. -/
lemma mem_classSubjects :
    a ∈ classSubjects compiled ↔
      ∃ c ∈ compiled, a = .model c ∨ ∃ typed, c.typed? = some typed ∧ a = .typed c typed := by
  simp [classSubjects, eq_comm]

lemma mem_of_mem_subjects (mem : a ∈ g.subjects compiled) :
    a ∈ classSubjects compiled ∨ a = .provider := by
  rw [subjects] at mem
  split at mem
  case isTrue => cases mem
  case isFalse =>
    refine (List.mem_append.mp mem).imp_right fun last => ?_
    split at last
    · exact List.mem_singleton.mp last
    · cases last

/-- The lookup is in the last file only. -/
lemma place_of_provider (there : (g.subjects compiled)[i]? = some .provider) :
    i = (classSubjects compiled).length := by
  rw [subjects] at there
  split at there
  case isTrue => cases there
  case isFalse =>
    rw [List.getElem?_append] at there
    split at there
    case isTrue =>
      obtain ⟨c, -, none | ⟨typed, -, none⟩⟩ := mem_classSubjects.mp (List.mem_of_getElem? there)
      · cases none
      · cases none
    case isFalse behind =>
      split at there
      case isFalse => cases there
      case isTrue =>
        have first := (List.getElem?_eq_some_iff.mp there).1
        rw [List.length_singleton] at first
        omega

/-- The lookup is called like no name with a dot. -/
lemma plain_provider : '.' ∉ CSharp.typeProviderName.toList := by
  decide

/-- Two files have one name exactly where what is in them clashes. -/
lemma name_eq_iff (pascal : ∀ c ∈ compiled, c.model.className.IsPascal) (different : i ≠ j)
    (first : (g.subjects compiled)[i]? = some a) (second : (g.subjects compiled)[j]? = some b) :
    (g.fileOf compiled a).name = (g.fileOf compiled b).name ↔ g.Clash a b := by
  have plain {c : CompiledContentType} (mem : c ∈ compiled) :
      '.' ∉ c.model.className.text.toList := (pascal c mem).notMem (by decide)
  -- A class name has no dot, so that each kind of file can be told from the others by its ending.
  obtain inside | rfl := mem_of_mem_subjects (List.mem_of_getElem? first) <;>
    obtain inside' | rfl := mem_of_mem_subjects (List.mem_of_getElem? second)
  · obtain ⟨c, mem, rfl | ⟨typed, -, rfl⟩⟩ := mem_classSubjects.mp inside <;>
      obtain ⟨d, mem', rfl | ⟨typed', -, rfl⟩⟩ := mem_classSubjects.mp inside' <;>
      simp only [fileOf]
    · rw [Output.modelFileName_inj, Identifier.text_injective.eq_iff]
      exact ⟨.models, fun | .models same => same⟩
    · exact iff_of_false (Output.typedFileName_ne_modelFileName (plain mem)).symm nofun
    · exact iff_of_false (Output.typedFileName_ne_modelFileName (plain mem')) nofun
    · rw [Output.typedFileName_inj, Identifier.text_injective.eq_iff]
      exact ⟨.typed, fun | .typed same => same⟩
  · obtain ⟨c, -, rfl | ⟨typed, -, rfl⟩⟩ := mem_classSubjects.mp inside <;> simp only [fileOf]
    · rw [Output.modelFileName_eq_supportFileName plain_provider]
      exact ⟨fun ⟨bare, same⟩ => .modelProvider bare same,
        fun | .modelProvider bare same => ⟨bare, same⟩⟩
    · exact iff_of_false (Output.typedFileName_ne_supportFileName plain_provider) nofun
  · obtain ⟨d, -, rfl | ⟨typed, -, rfl⟩⟩ := mem_classSubjects.mp inside' <;> simp only [fileOf]
    · rw [eq_comm, Output.modelFileName_eq_supportFileName plain_provider]
      exact ⟨fun ⟨bare, same⟩ => .providerModel bare same,
        fun | .providerModel bare same => ⟨bare, same⟩⟩
    · exact iff_of_false (Output.typedFileName_ne_supportFileName plain_provider).symm nofun
  · exact absurd ((place_of_provider first).trans (place_of_provider second).symm) different

/-- The files of a run are those of its content types and of the lookup, and two of them have one
name exactly where what is in them clashes, whatever the suffix is. In particular the file of a
class for typed links never has the name of that of a content type or of the lookup. -/
theorem file_names_clash_iff (g : Generation)
    (pascal : ∀ c ∈ compiled, c.model.className.IsPascal) :
    g.files compiled = (g.subjects compiled).map (g.fileOf compiled) ∧
    (∀ (i j : Nat) a b, i ≠ j → (g.subjects compiled)[i]? = some a →
      (g.subjects compiled)[j]? = some b →
      ((g.fileOf compiled a).name = (g.fileOf compiled b).name ↔ g.Clash a b)) ∧
    (∀ c ∈ compiled, ∀ d ∈ compiled, g.output.modelFileName c.model.className.text ≠
      g.output.typedFileName d.model.className.text) ∧
    ∀ c ∈ compiled, g.output.typedFileName c.model.className.text ≠
      g.output.supportFileName CSharp.typeProviderName := by
  refine ⟨g.files_eq_map compiled, fun _ _ _ _ => name_eq_iff pascal, fun c mem d _ => ?_,
    fun c _ => Output.typedFileName_ne_supportFileName plain_provider⟩
  exact (Output.typedFileName_ne_modelFileName ((pascal c mem).notMem (by decide))).symm

/-- The classes of a portal: one is called like the lookup, the other has one for typed links. -/
def portal : List CompiledContentType :=
  let topic : Property :=
    { codename := "faq", identifier := ⟨"Faq"⟩, typeName := "Faq" }
  [{ model := { sourceCodename := "custom_type_provider", className := ⟨"CustomTypeProvider"⟩ }
     typed? := none },
    { model := { sourceCodename := "faq", className := ⟨"Faq"⟩ }
      typed? := some
        { sourceCodename := "faq", className := ⟨"FaqTyped"⟩, properties := [topic] } }]

/-- Without a suffix the first file of the portal has the name of the last. With the suffix `Typed`
it has not, and neither has the file of a class that of the class for typed links. -/
theorem portal_file_names :
    let bare : Generation :=
      ⟨{ fileNameSuffix := "", withTypeProvider := true }, .given ⟨[], []⟩, false⟩
    let marked : Generation :=
      ⟨{ fileNameSuffix := "Typed", withTypeProvider := true }, .given ⟨[], []⟩, false⟩
    (∀ c ∈ portal, c.model.className.IsPascal) ∧
      (bare.files portal)[0]?.map (·.name) = (bare.files portal)[3]?.map (·.name) ∧
      (marked.files portal)[0]?.map (·.name) ≠ (marked.files portal)[3]?.map (·.name) ∧
      marked.output.modelFileName "Faq" ≠ marked.output.typedFileName "Faq" := by
  intro bare marked
  have pascal : ∀ c ∈ portal, c.model.className.IsPascal := by
    have lookup : Identifier.ofText? "custom_type_provider" = some ⟨"CustomTypeProvider"⟩ := by
      decide
    have faq : Identifier.ofText? "faq" = some ⟨"Faq"⟩ := by decide
    simp only [portal, List.forall_mem_cons]
    exact ⟨Identifier.isPascal_of_ofText? lookup, Identifier.isPascal_of_ofText? faq,
      List.forall_mem_nil _⟩
  obtain ⟨files, clash, -, -⟩ := file_names_clash_iff bare pascal
  obtain ⟨files', clash', typed, -⟩ := file_names_clash_iff marked pascal
  refine ⟨pascal, ?_, ?_, ?_⟩
  · rw [files]
    exact congrArg some ((clash 0 3 (.model portal[0]) .provider (by decide) rfl rfl).mpr
      (.modelProvider rfl rfl))
  · rw [files']
    intro same
    have both := (clash' 0 3 (.model portal[0]) .provider (by decide) rfl rfl).mp
      (Option.some.inj same)
    cases both with
    | modelProvider bare => exact absurd bare (by decide)
  · exact typed portal[1] (by simp [portal]) portal[1] (by simp [portal])

end Generation

end ContentClasses
