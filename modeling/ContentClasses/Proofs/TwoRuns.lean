import ContentClasses.Reporting
import Mathlib.Data.List.Forall2
import Mathlib.Tactic.Lemma

/-!
# Two runs side by side

Two computations end alike when they fail with the same error or give values that are related, and
they run alike when they report the same as well. Both carry over from the parts of a computation
to the whole.
-/

namespace ContentClasses

/-- Two computations end with the same error, or with values that are related. -/
inductive EndAlike {ε α β : Type} (R : α → β → Prop) : Except ε α → Except ε β → Prop where
  | ok {a : α} {b : β} (related : R a b) : EndAlike R (.ok a) (.ok b)
  | error {e : ε} : EndAlike R (.error e) (.error e)

namespace EndAlike
variable {ε α β γ δ : Type} {R : α → β → Prop} {S : γ → δ → Prop} {x : Except ε α} {y : Except ε β}

lemma refl (x : Except ε α) : EndAlike Eq x x := by
  cases x with
  | ok => exact .ok rfl
  | error => exact .error

/-- Two runs that end alike go on to end alike, if they do from related results. -/
lemma bind {f : α → Except ε γ} {g : β → Except ε δ} (first : EndAlike R x y)
    (second : ∀ a b, R a b → EndAlike S (f a) (g b)) : EndAlike S (x >>= f) (y >>= g) := by
  cases first with
  | ok related => exact second _ _ related
  | error => exact .error

/-- Two rows end alike if their elements do, in pairs. -/
lemma mapM {f : α → Except ε γ} {g : β → Except ε δ} {as : List α} {bs : List β}
    (rows : List.Forall₂ (fun a b => EndAlike S (f a) (g b)) as bs) :
    EndAlike (List.Forall₂ S) (as.mapM f) (bs.mapM g) := by
  induction rows with
  | nil => exact .ok .nil
  | cons head _ ih =>
    rw [List.mapM_cons, List.mapM_cons]
    exact head.bind fun c d hcd => ih.bind fun cs ds tail => .ok (.cons hcd tail)

/-- The values that are related are those with which the computations end. -/
lemma results (alike : EndAlike R x y) :
    EndAlike (fun a b => x = .ok a ∧ y = .ok b ∧ R a b) x y := by
  cases alike with
  | ok related => exact .ok ⟨rfl, rfl, related⟩
  | error => exact .error

lemma imp {R' : α → β → Prop} (alike : EndAlike R x y) (weaker : ∀ a b, R a b → R' a b) :
    EndAlike R' x y := by
  cases alike with
  | ok related => exact .ok (weaker _ _ related)
  | error => exact .error

lemma eq {y : Except ε α} (alike : EndAlike Eq x y) : x = y := by
  cases alike with
  | ok related => rw [related]
  | error => rfl

end EndAlike

namespace Reporting
variable {α β γ δ σ τ : Type}

/-- Two computations report the same and end alike. -/
structure Alike (R : α → β → Prop) (x : Reporting α) (y : Reporting β) : Prop where
  reported : x.reported = y.reported
  result : EndAlike R x.result y.result

namespace Alike
variable {R : α → β → Prop} {S : γ → δ → Prop} {x : Reporting α} {y : Reporting β}

lemma pure {a : α} {b : β} (related : R a b) :
    Alike R (Pure.pure a : Reporting α) (Pure.pure b) :=
  ⟨rfl, .ok related⟩

lemma refl (x : Reporting α) : Alike Eq x x :=
  ⟨rfl, .refl x.result⟩

lemma imp {R' : α → β → Prop} (alike : Alike R x y) (weaker : ∀ a b, R a b → R' a b) :
    Alike R' x y :=
  ⟨alike.reported, alike.result.imp weaker⟩

lemma eq {y : Reporting α} (alike : Alike Eq x y) : x = y := by
  obtain ⟨ds, r⟩ := x
  obtain ⟨es, s⟩ := y
  exact congrArg₂ Reporting.mk alike.reported alike.result.eq

/-- Two runs that are alike go on alike, if they do from related results. -/
lemma bind {f : α → Reporting γ} {g : β → Reporting δ} (first : Alike R x y)
    (second : ∀ a b, R a b → Alike S (f a) (g b)) : Alike S (x >>= f) (y >>= g) := by
  obtain ⟨ds, r⟩ := x
  obtain ⟨es, s⟩ := y
  obtain ⟨reported, result⟩ := first
  cases reported
  cases result with
  | ok related =>
    obtain ⟨later, ends⟩ := second _ _ related
    exact ⟨congrArg (ds ++ ·) later, ends⟩
  | error => exact ⟨rfl, .error⟩

/-- Two rows of runs are alike if their elements are, in pairs. -/
lemma mapM {f : α → Reporting γ} {g : β → Reporting δ} {as : List α} {bs : List β}
    (rows : List.Forall₂ (fun a b => Alike S (f a) (g b)) as bs) :
    Alike (List.Forall₂ S) (as.mapM f) (bs.mapM g) := by
  induction rows with
  | nil => exact pure .nil
  | cons head _ ih =>
    rw [List.mapM_cons, List.mapM_cons]
    exact head.bind fun c d hcd => ih.bind fun cs ds tail => pure (.cons hcd tail)

/-- Two folds over a list run alike when each step does. The relation of the states may speak of
the part of the list that lies behind. -/
lemma foldlM {R : List α → σ → τ → Prop} {f : σ → α → Reporting σ} {g : τ → α → Reporting τ}
    (step : ∀ front s t a, R front s t → Alike (R (front ++ [a])) (f s a) (g t a))
    {front as : List α} {s : σ} {t : τ} (start : R front s t) :
    Alike (R (front ++ as)) (as.foldlM f s) (as.foldlM g t) := by
  -- The front grows along with the states that it relates.
  induction as generalizing front s t with
  | nil =>
    rw [List.append_nil]
    exact pure start
  | cons a as ih =>
    rw [List.foldlM_cons, List.foldlM_cons]
    refine (step front s t a start).bind fun s' t' next => ?_
    have rest := ih next
    rw [List.append_assoc, List.singleton_append] at rest
    exact rest

end Alike

end Reporting

end ContentClasses
