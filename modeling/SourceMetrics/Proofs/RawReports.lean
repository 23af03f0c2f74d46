import SourceMetrics.Proofs.Exact
import SourceMetrics.Proofs.FullDerivation

/-! # What derivation reads and what it leaves

A report has raw fields, which a traversal fills in, and fields that are derived from them.
Derivation reads the raw fields only: two reports with the same raw fields have the same outcome, a
derived report or a failure, whatever their other fields hold (`ModuleReport.derive_of_raw`). And it
leaves the raw fields as they are (`ModuleReport.raw_of_derive`). So a report that has been derived
is derived from the same fields again, with the same result
(`ModuleReport.derivation_determined_by_raw`).
-/

namespace SourceMetrics

variable {R : Type}

namespace FunctionReport

/-- The raw fields of a function: all but its density and its Halstead measures. -/
structure Raw (R : Type) where
  name : Value R
  line : Value R
  logical : Value R
  physical : Value R
  cyclomatic : Value R
  params : Value R
  operators : Tally R
  operands : Tally R

/-- The raw fields of a report. -/
def raw (f : FunctionReport R) : Raw R where
  name := f.name
  line := f.line
  logical := f.logical
  physical := f.physical
  cyclomatic := f.cyclomatic
  params := f.params
  operators := f.halstead.operators
  operands := f.halstead.operands

variable [Arithmetic R] {f g : FunctionReport R}

/-- The density and the measures that a function had before do not enter its derivation. -/
theorem derive_of_raw (same : f.raw = g.raw) : f.derive = g.derive := by
  obtain ⟨name, line, logical, physical, cyclomatic, ⟨operators, operands, _⟩, params, _⟩ := f
  obtain ⟨_, _, _, _, _, ⟨_, _, _⟩, _, _⟩ := g
  simp only [raw, Raw.mk.injEq] at same
  obtain ⟨rfl, rfl, rfl, rfl, rfl, rfl, rfl, rfl⟩ := same
  rfl

private theorem raw_of_derive (done : f.derive = .ok g) : g.raw = f.raw := by
  simp only [derive, Halstead.derive, bind_eq_ok] at done
  obtain ⟨density, -, _, ⟨measures, -, ⟨⟩⟩, ⟨⟩⟩ := done
  rfl

private theorem deriveAll_of_raw {functions others : List (FunctionReport R)}
    (same : functions.map raw = others.map raw) (start : Totals R) :
    deriveAll functions start = deriveAll others start := by
  induction functions generalizing others start with
  | nil =>
    rw [List.map_nil, eq_comm, List.map_eq_nil_iff] at same
    rw [same]
  | cons f rest ih =>
    cases others with
    | nil => cases same
    | cons g more =>
      obtain ⟨first, onward⟩ := List.cons.inj same
      simp only [deriveAll, derive_of_raw first, ih onward]

private theorem raw_of_deriveAll {functions derived : List (FunctionReport R)}
    {start sums : Totals R} (done : deriveAll functions start = .ok (derived, sums)) :
    derived.map raw = functions.map raw := by
  induction functions generalizing start derived with
  | nil =>
    cases done
    rfl
  | cons f rest ih =>
    simp only [deriveAll, bind_eq_ok] at done
    obtain ⟨g, first, next, -, ⟨others, total⟩, onward, ⟨⟩⟩ := done
    rw [List.map_cons, List.map_cons, raw_of_derive first, ih onward]

end FunctionReport

namespace ModuleReport

/-- The raw fields of a module: those of the module as a whole and of its functions in their order,
its dependencies and its path. -/
structure Raw (R : Type) where
  aggregate : FunctionReport.Raw R
  functions : List (FunctionReport.Raw R)
  dependencies : List (Value R)
  path : Value R

/-- The raw fields of a report. -/
def raw (m : ModuleReport R) : Raw R where
  aggregate := m.aggregate.raw
  functions := m.functions.map FunctionReport.raw
  dependencies := m.dependencies
  path := m.path

variable [Arithmetic R] {m derived : ModuleReport R}

/-- What a report holds beside its raw fields does not enter its derivation. -/
theorem derive_of_raw {other : ModuleReport R} (same : m.raw = other.raw) (rescaled : Bool) :
    m.derive rescaled = other.derive rescaled := by
  simp only [raw, Raw.mk.injEq] at same
  obtain ⟨aggregate, functions, dependencies, path⟩ := same
  simp only [derive, FunctionReport.deriveAll_of_raw functions,
    FunctionReport.derive_of_raw aggregate, dependencies, path]

/-- A derivation leaves the raw fields of a module as they are. -/
theorem raw_of_derive {rescaled : Bool} (done : m.derive rescaled = .ok derived) :
    derived.raw = m.raw := by
  obtain ⟨functions, sums, aggregate, totals, index, each, whole, -, -, rfl⟩ := derive_eq_ok.mp done
  simp only [raw, FunctionReport.raw_of_deriveAll each, FunctionReport.raw_of_derive whole]

/-- **Derivation is determined by the raw fields.** Where a module can be derived, deriving the
result again with the same settings changes nothing. The raw fields of the module as a whole and of
all functions, the order of the functions, the dependencies and the path are what they were. The
density and the measures of every function and of the module as a whole are those of its counters,
and every report with the same raw fields, whatever its derived fields hold, gives the same result
under all settings that agree on the scale of the index. -/
theorem derivation_determined_by_raw (settings : Settings R)
    (done : m.derive (settings.flags .newmi) = .ok derived) :
    derived.derive (settings.flags .newmi) = .ok derived ∧
    derived.raw = m.raw ∧
    (∀ f ∈ derived.aggregate :: derived.functions, f.IsDerived) ∧
    ∀ (other : ModuleReport R) (again : Settings R), other.raw = m.raw →
      again.flags .newmi = settings.flags .newmi →
      other.derive (again.flags .newmi) = .ok derived := by
  have complete := isFullyDerived_of_derive done
  refine ⟨complete.settled, raw_of_derive done, ?_, ?_⟩
  · exact List.forall_mem_cons.mpr ⟨complete.aggregate, complete.functions⟩
  · intro other again same scale
    rw [scale, derive_of_raw same, done]

/-- A function with three logical lines, an operator that occurs twice and an operand. -/
def countedFunction : FunctionReport (Exact ℚ .lines) where
  name := .text "f"
  line := .int 4
  logical := .int 3
  physical := .int 5
  cyclomatic := .int 2
  params := .int 1
  halstead := {
    operators := { distinct := .int 1, total := .int 2 }
    operands := { distinct := .int 1, total := .int 1 }
    measures := .none (.int 0) }

/-- A module that has just been traversed. -/
def traversed : ModuleReport (Exact ℚ .lines) where
  aggregate := { countedFunction with name := .null, line := .int 1 }
  functions := [countedFunction]
  dependencies := [.text "./g"]
  path := .text "/f.js"

/-- Values that do not belong to any counters. -/
def stray : Measures (Exact ℚ .lines) where
  length := .int 7
  vocabulary := .text "seven"
  difficulty := .nan
  volume := .infinite
  effort := .finite 7
  bugs := .nan
  time := .negInfinite

/-- The same module with stray values in every derived field. -/
def overgrown : ModuleReport (Exact ℚ .lines) :=
  { traversed with
    aggregate := { traversed.aggregate with
      density := .text "dense"
      halstead := { traversed.aggregate.halstead with measures := stray } }
    functions := [{ countedFunction with
      density := .real .nan
      halstead := { countedFunction.halstead with measures := stray } }]
    maintainability := .int 1000
    loc := .bool true
    cyclomatic := .int 0
    effort := .real .nan
    params := .text "many" }

/-- The stray values have no part in the result, which is settled. -/
theorem derivation_determined_by_raw_overgrown :
    ∃ derived : ModuleReport (Exact ℚ .lines),
      overgrown.derive true = .ok derived ∧ derived.derive true = .ok derived ∧
      derived.raw = overgrown.raw ∧ traversed.derive true = .ok derived := by
  have accepted : (overgrown.derive true).isOk = true := by
    decide +kernel
  cases done : overgrown.derive true with
  | error failure =>
    rw [done] at accepted
    cases accepted
  | ok derived =>
    obtain ⟨settled, kept, -, other⟩ :=
      derivation_determined_by_raw { flags := fun _ => true } done
    exact ⟨derived, rfl, settled, kept, other traversed { flags := fun _ => true } rfl rfl⟩

end ModuleReport

end SourceMetrics
