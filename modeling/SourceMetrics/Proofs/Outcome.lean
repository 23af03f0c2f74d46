import Mathlib.Data.List.Perm.Basic
import SourceMetrics.Failure

/-! # Outcomes of computations that may fail

A sequence of steps succeeds if each of its steps does, and fails as the first step that does. For a
row of items the results stand in the order of the items, so a row in another order gives the same
results in another order (`mapM_eq_ok_of_perm`).

Two computations end alike if both succeed, with results that are as good as equal, or both fail for
the same reason (`Alike`).
-/

namespace SourceMetrics

variable {ε α β : Type}

theorem ok_bind (a : α) (f : α → Except ε β) : (Except.ok a >>= f) = f a := rfl

/-- A last step that cannot fail changes the result only. -/
theorem bind_ok (x : Except ε α) (f : α → β) : (x >>= fun a => .ok (f a)) = x.map f := by
  cases x <;> rfl

/-- A sequence of two steps succeeds if the first one does and the second one does after it. -/
theorem bind_eq_ok {x : Except ε α} {f : α → Except ε β} {b : β} :
    (x >>= f) = .ok b ↔ ∃ a, x = .ok a ∧ f a = .ok b := by
  cases x with
  | error failure =>
    constructor
    · intro impossible
      cases impossible
    · rintro ⟨a, impossible, -⟩
      cases impossible
  | ok a =>
    constructor
    · intro done
      exact ⟨a, rfl, done⟩
    · rintro ⟨a, ⟨⟩, done⟩
      exact done

/-- A sequence of two steps fails if the first one does, or the second one does after it. -/
theorem bind_eq_error {x : Except ε α} {f : α → Except ε β} {failure : ε} :
    (x >>= f) = .error failure ↔
      x = .error failure ∨ ∃ a, x = .ok a ∧ f a = .error failure := by
  cases x with
  | error cause =>
    constructor
    · rintro ⟨⟩
      exact .inl rfl
    · rintro (⟨⟨⟩⟩ | ⟨a, impossible, -⟩)
      · rfl
      · cases impossible
  | ok a =>
    constructor
    · intro failed
      exact .inr ⟨a, rfl, failed⟩
    · rintro (impossible | ⟨a, ⟨⟩, failed⟩)
      · cases impossible
      · exact failed

/-- A computation whose result is changed fails as before. -/
theorem map_eq_error {f : α → β} {x : Except ε α} {failure : ε} :
    x.map f = .error failure ↔ x = .error failure := by
  cases x <;> simp [Except.map]

/-- Changing the failure leaves a success alone. -/
theorem mapError_eq_ok {δ : Type} {f : ε → δ} {x : Except ε α} {a : α} :
    x.mapError f = .ok a ↔ x = .ok a := by
  cases x with
  | error failure =>
    constructor
    · intro impossible
      cases impossible
    · intro impossible
      cases impossible
  | ok b =>
    constructor
    · rintro ⟨⟩
      rfl
    · rintro ⟨⟩
      rfl

/-- A computation that may only meet faults succeeds among others as it does alone. -/
theorem liftM_eq_ok {R : Type} {x : Except Fault α} {a : α} :
    (liftM x : Except (Failure R) α) = .ok a ↔ x = .ok a :=
  mapError_eq_ok

/-- A computation whose failure is changed fails exactly if it failed before. -/
theorem mapError_eq_error {δ : Type} {f : ε → δ} {x : Except ε α} {failure : δ} :
    x.mapError f = .error failure ↔ ∃ cause, x = .error cause ∧ f cause = failure := by
  cases x with
  | error cause =>
    constructor
    · rintro ⟨⟩
      exact ⟨cause, rfl, rfl⟩
    · rintro ⟨cause, ⟨⟩, rfl⟩
      rfl
  | ok a =>
    constructor
    · intro impossible
      cases impossible
    · rintro ⟨cause, impossible, -⟩
      cases impossible

/-- A fault is lifted to a failure with this fault, and nothing else is. -/
theorem liftM_eq_fault {R : Type} {x : Except Fault α} {fault : Fault} :
    (liftM x : Except (Failure R) α) = .error (.fault fault) ↔ x = .error fault := by
  refine mapError_eq_error.trans ?_
  constructor
  · rintro ⟨cause, failed, ⟨⟩⟩
    exact failed
  · intro failed
    exact ⟨fault, failed, rfl⟩

/-- Both computations succeed with related results, or both fail in the same way. -/
def Alike (related : α → α → Prop) : Except ε α → Except ε α → Prop
  | .ok a, .ok b => related a b
  | .error failure, .error other => failure = other
  | _, _ => False

/-- Alike computations both succeed, with related results, or fail in the same way. -/
theorem alike_iff {related : α → α → Prop} {x y : Except ε α} :
    Alike related x y ↔ (∃ a b, x = .ok a ∧ y = .ok b ∧ related a b) ∨
      ∃ failure, x = .error failure ∧ y = .error failure := by
  cases x <;> cases y <;> simp [Alike, eq_comm]

/-- After steps that end alike, steps that end alike on related results do so on the whole. -/
theorem Alike.bind {related : α → α → Prop} {alike : β → β → Prop} {x y : Except ε α}
    {f g : α → Except ε β} (first : Alike related x y)
    (second : ∀ a b, related a b → Alike alike (f a) (g b)) : Alike alike (x >>= f) (y >>= g) := by
  cases x with
  | error failure =>
    cases y with
    | error other => exact first
    | ok b => exact first.elim
  | ok a =>
    cases y with
    | error other => exact first.elim
    | ok b => exact second a b first

/-- A row succeeds if each of its items does, and each result is that of its item. -/
theorem mapM_eq_ok_iff {f : α → Except ε β} {items : List α} {results : List β} :
    items.mapM f = .ok results ↔
      List.Forall₂ (fun item result => f item = .ok result) items results := by
  induction items generalizing results with
  | nil =>
    rw [List.mapM_nil, List.forall₂_nil_left_iff]
    constructor
    · rintro ⟨⟩
      rfl
    · rintro rfl
      rfl
  | cons item rest ih =>
    simp only [List.mapM_cons, bind_eq_ok, List.forall₂_cons_left_iff]
    constructor
    · rintro ⟨first, done, others, onward, ⟨⟩⟩
      exact ⟨first, others, done, ih.mp onward, rfl⟩
    · rintro ⟨first, others, done, onward, rfl⟩
      exact ⟨first, done, others, ih.mpr onward, rfl⟩

/-- A row in another order succeeds too, with the same results in another order. -/
theorem mapM_eq_ok_of_perm {f : α → Except ε β} {items others : List α} {results : List β}
    (perm : items.Perm others) (done : items.mapM f = .ok results) :
    ∃ again, others.mapM f = .ok again ∧ results.Perm again := by
  obtain ⟨again, each, same⟩ := List.perm_comp_forall₂ perm.symm (mapM_eq_ok_iff.mp done)
  exact ⟨again, mapM_eq_ok_iff.mpr each, same.symm⟩

/-- A row succeeds if each of its items does. -/
theorem exists_mapM_eq_ok {f : α → Except ε β} {items : List α}
    (each : ∀ item ∈ items, ∃ result, f item = .ok result) :
    ∃ results, items.mapM f = .ok results := by
  induction items with
  | nil => exact ⟨[], rfl⟩
  | cons item rest ih =>
    obtain ⟨first, done⟩ := each item List.mem_cons_self
    obtain ⟨others, onward⟩ := ih fun other member => each other (List.mem_cons_of_mem _ member)
    exact ⟨first :: others, mapM_eq_ok_iff.mpr (.cons done (mapM_eq_ok_iff.mp onward))⟩

/-- A row fails as the first of its items that does. -/
theorem mapM_eq_error_of_mem {f : α → Except ε β} {items : List α} {item : α} {failure : ε}
    (member : item ∈ items) (failed : f item = .error failure) :
    ∃ earlier first cause later, items = earlier ++ first :: later ∧
      (∀ other ∈ earlier, ∃ result, f other = .ok result) ∧
      f first = .error cause ∧ items.mapM f = .error cause := by
  induction items with
  | nil => cases member
  | cons head rest ih =>
    cases outcome : f head with
    | error cause =>
      refine ⟨[], head, cause, rest, rfl, nofun, outcome, ?_⟩
      rw [List.mapM_cons]
      exact bind_eq_error.mpr (.inl outcome)
    | ok result =>
      have onward : item ∈ rest := by
        rcases List.mem_cons.mp member with rfl | onward
        · rw [failed] at outcome
          cases outcome
        · exact onward
      obtain ⟨earlier, first, cause, later, split, calm, broke, whole⟩ := ih onward
      refine ⟨head :: earlier, first, cause, later, by rw [split]; rfl, ?_, broke, ?_⟩
      · intro other inside
        rcases List.mem_cons.mp inside with rfl | inside
        · exact ⟨result, outcome⟩
        · exact calm other inside
      · rw [List.mapM_cons]
        exact bind_eq_error.mpr (.inr ⟨result, outcome, bind_eq_error.mpr (.inl whole)⟩)

/-- A row fails for one of its items. -/
theorem exists_mem_of_mapM_eq_error {f : α → Except ε β} {items : List α} {failure : ε}
    (failed : items.mapM f = .error failure) : ∃ item ∈ items, f item = .error failure := by
  induction items with
  | nil => cases failed
  | cons item rest ih =>
    rw [List.mapM_cons] at failed
    rcases bind_eq_error.mp failed with failed | ⟨_, -, onward⟩
    · exact ⟨item, List.mem_cons_self, failed⟩
    · rcases bind_eq_error.mp onward with failed | ⟨_, -, ⟨⟩⟩
      obtain ⟨other, member, broke⟩ := ih failed
      exact ⟨other, List.mem_cons_of_mem _ member, broke⟩

/-- Checking a row succeeds if each of its items passes. -/
theorem forM_eq_ok_iff {f : α → Except ε Unit} {items : List α} :
    items.forM f = .ok () ↔ ∀ item ∈ items, f item = .ok () := by
  induction items with
  | nil =>
    simp only [List.not_mem_nil, false_implies, implies_true, iff_true]
    rfl
  | cons item rest ih =>
    rw [List.forall_mem_cons, ← ih]
    refine bind_eq_ok.trans ?_
    constructor
    · rintro ⟨⟨⟩, first, others⟩
      exact ⟨first, others⟩
    · rintro ⟨first, others⟩
      exact ⟨(), first, others⟩

/-- Adding up succeeds if each single addition does. -/
theorem exists_foldlM_eq_ok {f : β → α → Except ε β} {items : List α}
    (each : ∀ item ∈ items, ∀ sum, ∃ next, f sum item = .ok next) (start : β) :
    ∃ sum, items.foldlM f start = .ok sum := by
  induction items generalizing start with
  | nil => exact ⟨start, rfl⟩
  | cons item rest ih =>
    obtain ⟨next, added⟩ := each item List.mem_cons_self start
    obtain ⟨sum, done⟩ := ih (fun other member => each other (List.mem_cons_of_mem _ member)) next
    exact ⟨sum, by rw [List.foldlM_cons]; exact bind_eq_ok.mpr ⟨next, added, done⟩⟩

end SourceMetrics
