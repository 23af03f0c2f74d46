import SourceMetrics.Failure

/-!
# Traces

What a walker does to a report, and what a syntax rule contributes, is laid out before it is carried
out: as a row of items, ended by a failure if there was one. Carrying out a row stops at the first
item that fails and keeps what was done before it.
-/

namespace SourceMetrics

/-- Items in order, and the failure after the last of them, if any. -/
structure Trace (R α : Type) where
  items : List α := []
  failure : Option (Failure R) := none

namespace Trace

variable {R α : Type}

/-- One item. -/
def item (a : α) : Trace R α :=
  { items := [a] }

/-- A failure before any item. -/
def fail (failure : Failure R) : Trace R α :=
  { failure := some failure }

/-- A second trace after a first one, which it follows only if that did not fail. -/
def append (first second : Trace R α) : Trace R α :=
  match first.failure with
  | some _ => first
  | none => { items := first.items ++ second.items, failure := second.failure }

instance : Append (Trace R α) := ⟨append⟩

/-- Traces one after another. -/
def concat : List (Trace R α) → Trace R α
  | [] => {}
  | first :: rest => first ++ concat rest

/-- The trace of a computation that gives an item, gives none, or fails. -/
def ofExcept (run : Except (Failure R) (Option α)) : Trace R α :=
  match run with
  | .ok (some a) => item a
  | .ok none => {}
  | .error failure => fail failure

end Trace

/-- A state, and the failure that stopped its change, if any. -/
structure Progress (R σ : Type) where
  state : σ
  failure : Option (Failure R) := none

namespace Progress

variable {R σ α : Type}

/-- Carry out items one by one. The first failure stops the run, and what was done stays. -/
def foldl (step : σ → α → Progress R σ) : σ → List α → Progress R σ
  | s, [] => { state := s }
  | s, a :: rest =>
    let next := step s a
    match next.failure with
    | none => foldl step next.state rest
    | some _ => next

/-- Carrying out two rows of items is carrying out the second after the first, unless the first was
stopped. -/
theorem foldl_append (step : σ → α → Progress R σ) (s : σ) (first second : List α) :
    foldl step s (first ++ second) =
      match (foldl step s first).failure with
      | none => foldl step (foldl step s first).state second
      | some _ => foldl step s first := by
  induction first generalizing s with
  | nil => rfl
  | cons a rest ih =>
    cases outcome : (step s a).failure with
    | none => simp only [List.cons_append, foldl, outcome, ih]
    | some failure => simp only [List.cons_append, foldl, outcome]

/-- Carry out a trace. -/
def run (step : σ → α → Progress R σ) (s : σ) (trace : Trace R α) : Progress R σ :=
  let done := foldl step s trace.items
  match done.failure with
  | none => { done with failure := trace.failure }
  | some _ => done

end Progress

end SourceMetrics
