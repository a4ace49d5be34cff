import ContentClasses.Proofs.Builder
import Mathlib.Data.List.Infix

/-!
# Histories of a class

A class is built by calls one after another. Whatever the calls are, its properties stay a map from
codenames in the order of their insertion, in which only `system` can be written again, and its
constants stay a set in order. `ClassModel.Effect` says what a single call does, and
`ClassModel.built_by_calls` what holds at every point of every history.
-/

namespace ContentClasses

namespace ClassModel

/-- A call that adds to a class. -/
inductive Call where
  | property (p : Property)
  | system (typeName : String)
  | constant (codename : String)
deriving DecidableEq, Repr

/-- The answer to a call: the class with what it adds, or an error. -/
def answer (model : ClassModel) : Call → Except Error ClassModel
  | .property p => model.addProperty p
  | .system typeName => .ok (model.addSystemIfAbsent typeName)
  | .constant codename => model.addConstant codename

/-- The class after a call. An error leaves it as it is. -/
def next (model : ClassModel) (call : Call) : ClassModel :=
  match model.answer call with
  | .ok grown => grown
  | .error _ => model

/-- The class after calls one after another. -/
def afterCalls (model : ClassModel) (calls : List Call) : ClassModel :=
  calls.foldl next model

/-- The property that a call adds, if it adds one. -/
def addition? (model : ClassModel) : Call → Option Property
  | .property p =>
    match model.addProperty p with
    | .ok _ => some p
    | .error _ => none
  | .system typeName =>
    if (model.property? Property.systemCodename).isNone then some (Property.system typeName)
    else none
  | .constant _ => none

/-- The properties that calls add one after another. -/
def additions (model : ClassModel) : List Call → List Property
  | [] => []
  | call :: calls => (model.addition? call).toList ++ additions (model.next call) calls

/-- A class refuses a call where the codename is taken, unless it is that of a property `system`. -/
def Refuses (model : ClassModel) : Call → Prop
  | .property p =>
    p.codename ∈ model.properties.map (·.codename) ∧ p.codename ≠ Property.systemCodename
  | .system _ => False
  | .constant codename => codename ∈ model.constants

/-- What a class answers to a call, by what it holds. -/
inductive Effect (model : ClassModel) : Call → Except Error ClassModel → Prop where
  | new {p : Property} (free : p.codename ∉ model.properties.map (·.codename)) :
    Effect model (.property p) (.ok { model with properties := model.properties ++ [p] })
  | replaced {front back : List Property} {old p : Property}
      (split : model.properties = front ++ old :: back) (same : old.codename = p.codename)
      (system : p.isSystem) :
    Effect model (.property p) (.ok { model with properties := front ++ p :: back })
  | taken {p : Property} (there : p.codename ∈ model.properties.map (·.codename))
      (other : ¬ p.isSystem) :
    Effect model (.property p) (.error (.duplicateProperty p.codename model.className.text))
  | absent {typeName : String}
      (free : Property.systemCodename ∉ model.properties.map (·.codename)) :
    Effect model (.system typeName)
      (.ok { model with properties := model.properties ++ [Property.system typeName] })
  | present {typeName : String}
      (there : Property.systemCodename ∈ model.properties.map (·.codename)) :
    Effect model (.system typeName) (.ok model)
  | constant {codename : String} (free : codename ∉ model.constants) :
    Effect model (.constant codename)
      (.ok { model with constants := model.constants ++ [codename] })
  | named {codename : String} (there : codename ∈ model.constants) :
    Effect model (.constant codename)
      (.error (.duplicateConstant codename model.className.text))

variable {model grown : ClassModel} {call : Call} {p : Property} {codename c : String}
  {className : Identifier}

/-- To replace a property is to put another one in its place between the others. -/
lemma replaceFirst_split {ps : List Property} (taken : p.codename ∈ ps.map (·.codename)) :
    ∃ front old back, ps = front ++ old :: back ∧ old.codename = p.codename ∧
      replaceFirst p ps = front ++ p :: back := by
  induction ps with
  | nil => cases taken
  | cons q ps ih =>
    rw [replaceFirst]
    split
    case isTrue same => exact ⟨[], q, ps, rfl, same, rfl⟩
    case isFalse other =>
      have later : p.codename ∈ ps.map (·.codename) := by
        rw [List.map_cons, List.mem_cons] at taken
        exact taken.resolve_left fun eq => other eq.symm
      obtain ⟨front, old, back, rfl, same, replaced⟩ := ih later
      refine ⟨q :: front, old, back, rfl, same, ?_⟩
      rw [replaced, List.cons_append]

/-- A call has the effect that the class gives it. -/
lemma effect (model : ClassModel) (call : Call) : model.Effect call (model.answer call) := by
  cases call with
  | property p =>
    rw [answer]
    by_cases taken : p.codename ∈ model.properties.map (·.codename)
    · -- A taken codename is refused, but for the implicit property, which replaces the old one.
      by_cases system : p.isSystem
      · obtain ⟨front, old, back, split, same, replaced⟩ := replaceFirst_split taken
        rw [addProperty_of_system taken system, replaced]
        exact .replaced split same system
      · rw [addProperty_of_taken taken system]
        exact .taken taken system
    · rw [addProperty_of_free taken]
      exact .new taken
  | system typeName =>
    rw [answer, addSystemIfAbsent]
    split
    case isTrue absent => exact .absent (property?_isNone.mp absent)
    case isFalse present =>
      exact .present (not_not.mp fun free => present (property?_isNone.mpr free))
  | constant codename =>
    rw [answer]
    by_cases taken : codename ∈ model.constants
    · rw [addConstant_of_taken taken]
      exact .named taken
    · rw [addConstant_of_free taken]
      exact .constant taken

/-- A call fails exactly when the class refuses it. -/
lemma answer_fails_iff : (∃ e, model.answer call = .error e) ↔ model.Refuses call := by
  have effect := model.effect call
  generalize model.answer call = result at effect
  cases effect with
  | new free => simp [Refuses, free]
  | replaced split same system => simp [Refuses, eq_of_beq system]
  | taken there other =>
    refine ⟨fun _ => ⟨there, fun same => other (beq_iff_eq.mpr same)⟩, fun _ => ⟨_, rfl⟩⟩
  | absent free => simp [Refuses]
  | present there => simp [Refuses]
  | constant free => simp [Refuses, free]
  | named there => exact ⟨fun _ => there, fun _ => ⟨_, rfl⟩⟩

lemma next_of_refuses (refused : model.Refuses call) : model.next call = model := by
  obtain ⟨e, failed⟩ := answer_fails_iff.mpr refused
  rw [next, failed]

/-- A class with these names, in which no codename has two properties or two constants. -/
structure Built (codename : String) (className : Identifier) (model : ClassModel) : Prop where
  sourceCodename : model.sourceCodename = codename
  className : model.className = className
  properties : (model.properties.map (·.codename)).Nodup
  constants : model.constants.Nodup

lemma nodup_append_singleton {α : Type} {as : List α} {a : α} (nodup : as.Nodup)
    (free : a ∉ as) : (as ++ [a]).Nodup := by
  rw [← List.concat_eq_append]
  exact nodup.concat free

/-- A class keeps its names and stays without repetitions, whatever a call adds. -/
lemma Built.effect (built : Built codename className model)
    (effect : model.Effect call (.ok grown)) : Built codename className grown := by
  cases effect with
  | new free =>
    refine ⟨built.sourceCodename, built.className, ?_, built.constants⟩
    rw [List.map_append]
    exact nodup_append_singleton built.properties free
  | replaced split same system =>
    refine ⟨built.sourceCodename, built.className, ?_, built.constants⟩
    have before := built.properties
    rw [split, List.map_append, List.map_cons, same] at before
    rw [List.map_append, List.map_cons]
    exact before
  | absent free =>
    refine ⟨built.sourceCodename, built.className, ?_, built.constants⟩
    rw [List.map_append]
    exact nodup_append_singleton built.properties free
  | present there => exact built
  | constant free =>
    exact ⟨built.sourceCodename, built.className, built.properties,
      nodup_append_singleton built.constants free⟩

/-- One more call keeps what holds of classes that are built by calls. -/
lemma Built.next (built : Built codename className model) (call : Call) :
    Built codename className (model.next call) := by
  have effect := model.effect call
  rw [ClassModel.next]
  cases answered : model.answer call with
  | ok grown =>
    rw [answered] at effect
    exact built.effect effect
  | error e => exact built

/-- So does any row of calls. -/
lemma Built.afterCalls (built : Built codename className model) (calls : List Call) :
    Built codename className (model.afterCalls calls) := by
  induction calls generalizing model with
  | nil => exact built
  | cons call calls ih => exact ih (built.next call)

/-- No call touches the other list: constants leave properties alone, and the other way round. -/
lemma next_frame (model : ClassModel) (call : Call) :
    match call with
    | .constant _ => (model.next call).properties = model.properties
    | _ => (model.next call).constants = model.constants := by
  have effect := model.effect call
  rw [next]
  generalize model.answer call = result at effect
  cases effect <;> rfl

/-- A call leaves the codenames that are there in their places, and adds at most one behind them. -/
lemma codenames_prefix_next (model : ClassModel) (call : Call) :
    model.properties.map (·.codename) <+: (model.next call).properties.map (·.codename) := by
  have effect := model.effect call
  rw [next]
  generalize model.answer call = result at effect
  cases effect with
  | new free =>
    rw [List.map_append]
    exact List.prefix_append _ _
  | replaced split same system =>
    rw [split, List.map_append, List.map_append, List.map_cons, List.map_cons, same]
  | absent free =>
    rw [List.map_append]
    exact List.prefix_append _ _
  | taken | present | constant | named => exact List.prefix_refl _

/-- A property that is added behind the others is found under its codename. -/
lemma property?_append (free : p.codename ∉ model.properties.map (·.codename)) :
    { model with properties := model.properties ++ [p] }.property? c =
      if p.codename = c then some p else model.property? c := by
  show (model.properties ++ [p]).find? (·.codename == c) = _
  rw [List.find?_append, List.find?_singleton]
  by_cases same : p.codename = c
  · have absent : model.properties.find? (·.codename == c) = none := by
      rw [List.find?_eq_none]
      intro q mem there
      exact free (List.mem_map.mpr ⟨q, mem, (eq_of_beq there).trans same.symm⟩)
    rw [absent, Option.none_or, if_pos (beq_iff_eq.mpr same), if_pos same]
  · rw [if_neg (mt beq_iff_eq.mp same), Option.or_none, if_neg same]
    rfl

/-- So is one that is put in the place of another. -/
lemma property?_replaceFirst (taken : p.codename ∈ model.properties.map (·.codename)) :
    { model with properties := replaceFirst p model.properties }.property? c =
      if p.codename = c then some p else model.property? c := by
  split
  case isTrue same =>
    subst same
    exact find?_replaceFirst_self taken
  case isFalse other => exact find?_replaceFirst_of_ne (Ne.symm other)

/-- The last of the given properties with a codename, or else the one that the class has. -/
def latest? (model : ClassModel) (added : List Property) (codename : String) : Option Property :=
  (added.findRev? (·.codename == codename)).or (model.property? codename)

/-- The last property of a codename is the one that was added last, if it has the codename. -/
lemma latest?_singleton :
    model.latest? [p] c = if p.codename = c then some p else model.property? c := by
  rw [latest?, List.findRev?_eq_find?_reverse, List.reverse_singleton, List.find?_singleton]
  by_cases same : p.codename = c
  · rw [if_pos (beq_iff_eq.mpr same), if_pos same, Option.some_or]
  · rw [if_neg (mt beq_iff_eq.mp same), if_neg same, Option.none_or]

/-- Under a codename stands what a call adds there, or else what stood there before. -/
lemma property?_next (model : ClassModel) (call : Call) :
    (model.next call).property? c = model.latest? (model.addition? call).toList c := by
  cases call with
  | property p =>
    rw [next, answer, addition?]
    by_cases taken : p.codename ∈ model.properties.map (·.codename)
    · by_cases system : p.isSystem
      · rw [addProperty_of_system taken system]
        exact (property?_replaceFirst taken).trans latest?_singleton.symm
      · rw [addProperty_of_taken taken system]
        rfl
    · rw [addProperty_of_free taken]
      exact (property?_append taken).trans latest?_singleton.symm
  | system typeName =>
    by_cases absent : (model.property? Property.systemCodename).isNone
    · have free : (Property.system typeName).codename ∉ model.properties.map (·.codename) :=
        property?_isNone.mp absent
      rw [next, answer, addition?, addSystemIfAbsent, if_pos absent, if_pos absent]
      exact (property?_append free).trans latest?_singleton.symm
    · rw [next, answer, addition?, addSystemIfAbsent, if_neg absent, if_neg absent]
      rfl
  | constant codename =>
    have same : (model.next (.constant codename)).properties = model.properties :=
      next_frame model (.constant codename)
    rw [property?, same]
    rfl

/-- After calls, what the last of them added under a codename stands there. -/
lemma property?_afterCalls (calls : List Call) :
    (model.afterCalls calls).property? c = model.latest? (model.additions calls) c := by
  induction calls generalizing model with
  | nil => rfl
  | cons call calls ih =>
    have rest : ((model.next call).afterCalls calls).property? c = _ := ih
    rw [latest?, property?_next, latest?, ← Option.or_assoc] at rest
    rw [latest?, additions, List.findRev?_eq_find?_reverse, List.reverse_append, List.find?_append,
      ← List.findRev?_eq_find?_reverse, ← List.findRev?_eq_find?_reverse]
    exact rest

/-- At every point of every history of a new class, its properties have different codenames and so
do its constants, and each codename has the property that was added last under it. A further call
has its `Effect`: it fails exactly where the class refuses it, and then changes nothing; it never
touches the list that it is not about, nor the codenames that are there. -/
theorem built_by_calls (codename : String) (className : Identifier) (calls : List Call) :
    let start : ClassModel := { sourceCodename := codename, className }
    let model := start.afterCalls calls
    Built codename className model ∧
      (∀ c, model.property? c = (start.additions calls).findRev? (·.codename == c)) ∧
      ∀ call,
        model.Effect call (model.answer call) ∧
        ((∃ e, model.answer call = .error e) ↔ model.Refuses call) ∧
        (model.Refuses call → model.next call = model) ∧
        Built codename className (model.next call) ∧
        (match call with
          | .constant _ => (model.next call).properties = model.properties
          | _ => (model.next call).constants = model.constants) ∧
        model.properties.map (·.codename) <+: (model.next call).properties.map (·.codename) := by
  intro start model
  have fresh : Built codename className start := ⟨rfl, rfl, List.nodup_nil, List.nodup_nil⟩
  have built : Built codename className model := fresh.afterCalls calls
  refine ⟨built, fun c => ?_, fun call => ?_⟩
  · have last : model.property? c = start.latest? (start.additions calls) c :=
      property?_afterCalls calls
    rw [last, latest?]
    exact Option.or_none
  · exact ⟨model.effect call, answer_fails_iff, next_of_refuses, built.next call,
      model.next_frame call, model.codenames_prefix_next call⟩

/-- The title stays the first one, while the `system` of an element takes the place of the implicit
one. -/
example :
    let start : ClassModel := { sourceCodename := "article", className := ⟨"Article"⟩ }
    let model := start.afterCalls [
      .property { codename := "title", identifier := ⟨"Title"⟩, typeName := "string" },
      .system "IContentItemSystemAttributes",
      .property { codename := "title", identifier := ⟨"Title"⟩, typeName := "decimal?" },
      .property { codename := "system", identifier := ⟨"System"⟩, typeName := "string" },
      .constant "system", .constant "title", .constant "system", .system "string"]
    model.properties.map (fun p => (p.codename, p.typeName)) =
        [("title", "string"), ("system", "string")] ∧
      model.constants = ["system", "title"] := by decide

end ClassModel

end ContentClasses
