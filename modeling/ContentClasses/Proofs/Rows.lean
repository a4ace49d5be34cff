import ContentClasses.Reporting
import Mathlib.Data.List.Forall2
import Mathlib.Data.List.Nodup
import Mathlib.Data.List.ReduceOption
import Mathlib.Tactic.Lemma

/-!
# Rows of computations

A row of computations that may fail ends with the first failure. Where they report as well, what
is reported is what each of them reports, up to and with the one that fails.
-/

namespace ContentClasses

/-- Where a list can be split at an element, with something that holds of the element and of what
is in front of it, there is a first such place. -/
lemma exists_first_split {α : Type} {P : List α → α → Prop} {as : List α}
    (h : ∃ front a back, as = front ++ a :: back ∧ P front a) :
    ∃ front a back, as = front ++ a :: back ∧
      (∀ seen b later, front = seen ++ b :: later → ¬ P seen b) ∧ P front a := by
  obtain ⟨front, a, back, split, holds⟩ := h
  induction length : front.length using Nat.strongRecOn generalizing front a back with
  | ind n ih =>
    by_cases earlier : ∃ seen b later, front = seen ++ b :: later ∧ P seen b
    · obtain ⟨seen, b, later, rfl, before⟩ := earlier
      have shorter : seen.length < n := by
        rw [List.length_append, List.length_cons] at length
        omega
      refine ih _ shorter seen b (later ++ a :: back) ?_ before rfl
      rw [split, List.append_assoc, List.cons_append]
    · refine ⟨front, a, back, split, fun seen b later eq before => ?_, holds⟩
      exact earlier ⟨seen, b, later, eq, before⟩

/-- A list with an element of some kind has a first one. -/
lemma exists_first {α : Type} {P : α → Prop} {as : List α} (h : ∃ a ∈ as, P a) :
    ∃ front a back, as = front ++ a :: back ∧ (∀ b ∈ front, ¬ P b) ∧ P a := by
  obtain ⟨a, mem, holds⟩ := h
  obtain ⟨front, back, split⟩ := List.append_of_mem mem
  obtain ⟨front, a, back, split, before, holds⟩ :=
    exists_first_split (P := fun _ => P) ⟨front, a, back, split, holds⟩
  refine ⟨front, a, back, split, fun b hb => ?_, holds⟩
  obtain ⟨seen, later, eq⟩ := List.append_of_mem hb
  exact before seen b later eq

/-- A list is cut apart at the last separator. -/
lemma append_last_inj {α : Type} {sep : α} {front front' back back' : List α}
    (last : sep ∉ back) (last' : sep ∉ back') :
    front ++ sep :: back = front' ++ sep :: back' ↔ front = front' ∧ back = back' := by
  constructor
  · intro same
    induction front generalizing front' with
    | nil =>
      cases front' with
      | nil => exact ⟨rfl, (List.cons.inj same).2⟩
      | cons c cs =>
        -- The first separator would stand in front of another one.
        obtain ⟨-, rfl⟩ := List.cons.inj same
        exact absurd (List.mem_append_right cs List.mem_cons_self) last
    | cons c cs ih =>
      cases front' with
      | nil =>
        obtain ⟨-, rfl⟩ := List.cons.inj same
        exact absurd (List.mem_append_right cs List.mem_cons_self) last'
      | cons d ds =>
        obtain ⟨rfl, rest⟩ := List.cons.inj same
        obtain ⟨rfl, rfl⟩ := ih rest
        exact ⟨rfl, rfl⟩
  · rintro ⟨rfl, rfl⟩
    rfl

/-- Where keys are not repeated, the element that is found by a key is the one that has it. -/
lemma find?_key_eq_some {α : Type} {key : α → String} {as : List α} {a : α} {k : String}
    (nodup : (as.map key).Nodup) :
    as.find? (key · == k) = some a ↔ a ∈ as ∧ key a = k := by
  constructor
  · intro found
    have has := List.find?_some found
    exact ⟨List.mem_of_find?_eq_some found, eq_of_beq has⟩
  · rintro ⟨mem, rfl⟩
    cases found : as.find? (key · == key a) with
    | none =>
      have other := List.find?_eq_none.mp found a mem
      rw [beq_self_eq_true] at other
      exact absurd rfl other
    | some b =>
      have has := List.find?_some found
      rw [List.inj_on_of_nodup_map nodup (List.mem_of_find?_eq_some found) mem (eq_of_beq has)]

/-- A computation that gives something has succeeded. -/
lemma exists_eq_ok {ε α : Type} {r : Except ε α} {P : α → Prop} (h : ∃ a ∈ r.toOption, P a) :
    ∃ a, r = .ok a ∧ P a := by
  obtain ⟨a, given, holds⟩ := h
  cases r with
  | error err => cases given
  | ok =>
    cases given
    exact ⟨a, rfl, holds⟩

/-- In two rows in step, what is in the first has a partner. -/
lemma exists_of_forall₂ {α β : Type} {R : α → β → Prop} {as : List α} {bs : List β}
    (rows : List.Forall₂ R as bs) : ∀ a ∈ as, ∃ b, R a b := by
  have partners := rows.imp fun a b related => And.intro (Exists.intro b related) related
  exact ((List.forall₂_and_left as bs).mp partners).1

/-- Two rows stay in step where one leaves out what the other has nothing for. -/
lemma forall₂_reduceOption {α β : Type} {R : α → Option β → Prop} {p : α → Bool} {as : List α}
    {bs : List (Option β)} (rows : List.Forall₂ R as bs) (hp : ∀ a b?, R a b? → b?.isSome = p a) :
    List.Forall₂ (fun a b => R a (some b)) (as.filter p) bs.reduceOption := by
  induction rows with
  | nil => exact .nil
  | @cons a b? as bs hab _ ih =>
    have kept := hp a b? hab
    cases b? with
    | none =>
      rw [List.filter_cons_of_neg (by rw [← kept]; exact Bool.false_ne_true),
        List.reduceOption_cons_of_none]
      exact ih
    | some b =>
      rw [List.filter_cons_of_pos (by rw [← kept]; rfl), List.reduceOption_cons_of_some]
      exact .cons hab ih

section Except
variable {ε α β : Type} {f : α → Except ε β}

/-- Two steps succeed when the first gives something from which the second succeeds. -/
lemma bind_eq_ok {x : Except ε α} {g : α → Except ε β} {b : β} :
    x >>= g = .ok b ↔ ∃ a, x = .ok a ∧ g a = .ok b := by
  cases x <;> simp [bind, Except.bind]

/-- Two computations in a row fail with the failure of the first, or with that of the second behind
the first. -/
lemma bind_eq_error {x : Except ε α} {g : α → Except ε β} {e : ε} :
    x >>= g = .error e ↔ x = .error e ∨ ∃ a, x = .ok a ∧ g a = .error e := by
  cases x <;> simp [bind, Except.bind]

/-- A row ends with the error of its first element. -/
lemma mapM_cons_error {a : α} {as : List α} {e : ε} (ha : f a = .error e) :
    (a :: as).mapM f = .error e := by
  rw [List.mapM_cons, ha]
  rfl

/-- Where the first element gives something, it stands in front of what the others give. -/
lemma mapM_cons_ok {a : α} {as : List α} {b : β} (ha : f a = .ok b) :
    (a :: as).mapM f = (as.mapM f).map (b :: ·) := by
  rw [List.mapM_cons, ha]
  cases as.mapM f <;> rfl

/-- A row succeeds with the results of its elements, one for each and in their order. -/
lemma mapM_eq_ok {as : List α} {bs : List β} :
    as.mapM f = .ok bs ↔ List.Forall₂ (fun a b => f a = .ok b) as bs := by
  induction as generalizing bs with
  | nil => cases bs <;> simp [pure, Except.pure]
  | cons a as ih =>
    cases ha : f a with
    | error e =>
      rw [mapM_cons_error ha]
      cases bs <;> simp [ha]
    | ok b =>
      rw [mapM_cons_ok ha]
      cases has : as.mapM f with
      | error e => cases bs <;> simp [Except.map, ← ih, has]
      | ok cs => cases bs <;> simp [Except.map, ← ih, has, ha]

/-- A row fails exactly when one of its computations fails behind others that succeed. -/
lemma mapM_eq_error {as : List α} {e : ε} :
    as.mapM f = .error e ↔
      ∃ front a back, as = front ++ a :: back ∧ (∀ b ∈ front, ∃ c, f b = .ok c) ∧
        f a = .error e := by
  induction as with
  | nil => simp [pure, Except.pure]
  | cons a as ih =>
    constructor
    · intro h
      cases ha : f a with
      | error e' =>
        rw [mapM_cons_error ha] at h
        cases h
        exact ⟨[], a, as, rfl, by simp, ha⟩
      | ok b =>
        rw [mapM_cons_ok ha] at h
        cases has : as.mapM f with
        | ok cs => simp [has, Except.map] at h
        | error e' =>
          rw [has] at h
          cases h
          obtain ⟨front, c, back, rfl, fine, bad⟩ := ih.mp has
          exact ⟨a :: front, c, back, rfl, by simpa [ha] using fine, bad⟩
    · rintro ⟨front, c, back, eq, fine, bad⟩
      cases front with
      | nil =>
        cases eq
        exact mapM_cons_error bad
      | cons d front =>
        rw [List.cons_append] at eq
        obtain ⟨rfl, rfl⟩ := List.cons_eq_cons.mp eq
        obtain ⟨b, hb⟩ := fine a (by simp)
        have rest : (front ++ c :: back).mapM f = .error e :=
          ih.mpr ⟨front, c, back, rfl, fun x hx => fine x (by simp [hx]), bad⟩
        rw [mapM_cons_ok hb, rest]
        rfl

/-- A row in which every element succeeds does so as a whole. -/
lemma mapM_of_ok {as : List α} (fine : ∀ a ∈ as, ∃ b, f a = .ok b) :
    ∃ bs, as.mapM f = .ok bs := by
  cases row : as.mapM f with
  | ok bs => exact ⟨bs, rfl⟩
  | error e =>
    obtain ⟨front, a, back, rfl, -, bad⟩ := mapM_eq_error.mp row
    obtain ⟨b, good⟩ := fine a (List.mem_append_right front List.mem_cons_self)
    rw [good] at bad
    cases bad

end Except

namespace Reporting
variable {α β σ : Type}

/-- The result of two steps is that of their results: what they report has no influence. -/
lemma result_bind (x : Reporting α) (f : α → Reporting β) :
    (x >>= f).result = x.result >>= fun a => (f a).result := by
  obtain ⟨ds, _ | a⟩ := x <;> rfl

/-- Behind a step that succeeds, the next one goes on reporting. -/
lemma bind_of_ok {x : Reporting α} {a : α} (h : x.result = .ok a) (f : α → Reporting β) :
    x >>= f = ⟨x.reported ++ (f a).reported, (f a).result⟩ := by
  obtain ⟨ds, r⟩ := x
  cases h
  rfl

/-- Two reporting steps succeed when the first gives something from which the second succeeds. -/
lemma result_bind_eq_ok {x : Reporting α} {f : α → Reporting β} {b : β} :
    (x >>= f).result = .ok b ↔ ∃ a, x.result = .ok a ∧ (f a).result = .ok b := by
  obtain ⟨ds, e | a⟩ := x
  · rw [error_bind]
    constructor
    · intro h
      cases h
    · rintro ⟨a, h, -⟩
      cases h
  · rw [ok_bind]
    constructor
    · exact fun h => ⟨a, rfl, h⟩
    · rintro ⟨_, ⟨⟩, h⟩
      exact h

lemma bind_of_error {x : Reporting α} {e : Error} (h : x.result = .error e)
    (f : α → Reporting β) : x >>= f = ⟨x.reported, .error e⟩ := by
  obtain ⟨ds, r⟩ := x
  cases h
  rfl

lemma result_mapM (f : α → Reporting β) (as : List α) :
    (as.mapM f).result = as.mapM fun a => (f a).result := by
  induction as with
  | nil => rfl
  | cons a as ih =>
    rw [List.mapM_cons, List.mapM_cons, result_bind]
    congr 1
    funext b
    rw [result_bind, ih]
    rfl

/-- A row that succeeds reports all that its computations report. -/
lemma reported_mapM {f : α → Reporting β} {as : List α} {bs : List β}
    (h : (as.mapM f).result = .ok bs) :
    (as.mapM f).reported = as.flatMap fun a => (f a).reported := by
  induction as generalizing bs with
  | nil => rfl
  | cons a as ih =>
    rw [List.mapM_cons] at h ⊢
    obtain ⟨b, hb, h⟩ := result_bind_eq_ok.mp h
    obtain ⟨cs, hcs, -⟩ := result_bind_eq_ok.mp h
    rw [bind_of_ok hb, bind_of_ok hcs, List.flatMap_cons, ← ih hcs, reported_pure, List.append_nil]

/-- A row that fails reports what its computations report, up to and with the one that fails. -/
lemma mapM_of_error {f : α → Reporting β} {front back : List α} {a : α} {e : Error}
    (fine : ∀ b ∈ front, ∃ c, (f b).result = .ok c) (bad : (f a).result = .error e) :
    (front ++ a :: back).mapM f =
      ⟨(front.flatMap fun b => (f b).reported) ++ (f a).reported, .error e⟩ := by
  induction front with
  | nil =>
    rw [List.nil_append, List.mapM_cons, bind_of_error bad, List.flatMap_nil, List.nil_append]
  | cons b front ih =>
    obtain ⟨c, hc⟩ := fine b (by simp)
    have rest := ih fun d hd => fine d (by simp [hd])
    rw [List.cons_append, List.mapM_cons, bind_of_ok hc, rest, error_bind, List.flatMap_cons,
      List.append_assoc]

end Reporting

end ContentClasses
