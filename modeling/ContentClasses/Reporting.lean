import ContentClasses.Diagnostic
import ContentClasses.Error

/-!
# Computations that report

A computation that reports diagnostics on its way and may fail. The diagnostics of two computations
in a row are those of the first followed by those of the second; a failure ends the row, and what
was reported before it stays.
-/

namespace ContentClasses

/-- What a computation reported, and how it ended. -/
structure Reporting (α : Type) where
  reported : List Diagnostic
  result : Except Error α

namespace Reporting

variable {α β γ : Type}

/-- A computation that reports one diagnostic. -/
def report (d : Diagnostic) : Reporting Unit :=
  ⟨[d], .ok ()⟩

/-- A computation that reports nothing. -/
def ofExcept (result : Except Error α) : Reporting α :=
  ⟨[], result⟩

/-- Two computations in a row, of which the second depends on the value of the first. -/
def andThen (x : Reporting α) (f : α → Reporting β) : Reporting β :=
  match x.result with
  | .ok a => ⟨x.reported ++ (f a).reported, (f a).result⟩
  | .error e => ⟨x.reported, .error e⟩

instance : Monad Reporting where
  pure a := ⟨[], .ok a⟩
  bind := andThen

/-- A value reports nothing. -/
@[simp] theorem reported_pure (a : α) : (pure a : Reporting α).reported = [] := rfl

/-- A value is the result of its run. -/
@[simp] theorem result_pure (a : α) : (pure a : Reporting α).result = .ok a := rfl

/-- Behind a success the report goes on. -/
@[simp] theorem ok_bind (ds : List Diagnostic) (a : α) (f : α → Reporting β) :
    (⟨ds, .ok a⟩ >>= f : Reporting β) = ⟨ds ++ (f a).reported, (f a).result⟩ := rfl

/-- Behind an error nothing is run. -/
@[simp] theorem error_bind (ds : List Diagnostic) (e : Error) (f : α → Reporting β) :
    (⟨ds, .error e⟩ >>= f : Reporting β) = ⟨ds, .error e⟩ := rfl

theorem map_id (x : Reporting α) : id <$> x = x := by
  obtain ⟨ds, _ | a⟩ := x
  · rfl
  · simp [Functor.map, andThen]

/-- Reports are put together in the order of the steps, however these are grouped. -/
theorem bind_assoc (x : Reporting α) (f : α → Reporting β) (g : β → Reporting γ) :
    x >>= f >>= g = x >>= fun a => f a >>= g := by
  obtain ⟨ds, e | a⟩ := x
  · rfl
  · rw [ok_bind, ok_bind]
    obtain ⟨es, e | b⟩ := f a
    · rfl
    · rw [ok_bind, ok_bind, List.append_assoc]

instance : LawfulMonad Reporting :=
  .mk' Reporting map_id (fun _ _ => rfl) bind_assoc

end Reporting

end ContentClasses
