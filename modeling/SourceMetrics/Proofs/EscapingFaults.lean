import SourceMetrics.Proofs.BuilderSteps
import SourceMetrics.Proofs.ProjectRun
import SourceMetrics.Real.Binary64

/-! # Faults that leave an analysis as they are

A fault that a walk or the derivation after it meets becomes a diagnostic, and a diagnostic that
stems from a module of a project names the module. Not every fault is met there. The location of a
tree is read before the walk, so lines without an extent end the analysis with a plain fault
(`ModuleReport.Escapes.location`), while the same lines of a function end it with a diagnostic.
Settings that are refused for a value too long to be written do so as well, and an order to stop
passes by design (`ModuleReport.Escapes.order`). There are no other ways
(`ModuleReport.failure_is_diagnostic_unless_escapes`).
-/

namespace SourceMetrics

variable {R : Type}

/-- A tree or a walker that is not usable is refused with a diagnostic. -/
theorem ModuleReport.requireWalk_ne_fault (tree : Value R) (walker : Walker R) (fault : Fault) :
    requireWalk tree walker ≠ .error (.fault fault) := by
  unfold requireWalk
  split
  · cases walker <;> simp [Failure.invalidInput]
  · simp [Failure.invalidInput]

variable [Arithmetic R]

namespace Failure

private theorem invalidConfig_eq_fault {key reason : String} {value : Value R} {fault : Fault} :
    invalidConfig key value reason = .fault fault ↔
      value.isWritable = false ∧ fault = .longInteger := by
  unfold invalidConfig
  cases value.isWritable with
  | true => simp
  | false => simp [eq_comm]

/-- Only an order to stop leaves an analysis as a fault. -/
theorem leaving_eq_fault {failure : Failure R} {fault : Fault} :
    leaving failure = .fault fault ↔ failure = .fault fault ∧ fault.isExit = true := by
  cases failure with
  | diagnostic d => simp [leaving]
  | fault other =>
    cases exit : other.isExit with
    | true =>
      simp only [leaving, exit, ↓reduceIte, Failure.fault.injEq]
      constructor
      · rintro rfl
        exact ⟨rfl, exit⟩
      · rintro ⟨same, -⟩
        exact same
    | false =>
      simp only [leaving, exit, Bool.false_eq_true, ↓reduceIte, reduceCtorEq, Failure.fault.injEq,
        false_iff, not_and]
      rintro rfl
      simp [exit]

end Failure

namespace Settings

/-- What is refused of a flag: a value that is no truth value, with its key and the reason. -/
def refusedFlag? (values : Entries (Value R)) (flag : Flag) : Option (String × Value R × String) :=
  match values.lookup flag.name with
  | none => none
  | some (.bool _) => none
  | some value => some (flag.name, value, "expected a boolean")

/-- What is refused first in place of settings or among them, with its key and the reason. -/
def refused? : Value R → Option (String × Value R × String)
  | .null | .record .settings _ => none
  | .dict entries => Flag.all.findSome? (refusedFlag? entries)
  | value => some ("settings", value, "expected AnalysisSettings or a mapping")

/-- An outcome is what a refusal says: a failure about the refused value, and no failure if nothing
is refused. -/
def Decides {α : Type} (refused : Option (String × Value R × String))
    (outcome : Except (Failure R) α) : Prop :=
  match refused with
  | none => ∃ accepted, outcome = .ok accepted
  | some (key, value, reason) => outcome = .error (.invalidConfig key value reason)

/-- What follows and cannot fail changes no decision. -/
theorem Decides.bind {α β : Type} {refused : Option (String × Value R × String)}
    {outcome : Except (Failure R) α} (decides : Decides refused outcome)
    {next : α → Except (Failure R) β} (calm : ∀ a, ∃ b, next a = .ok b) :
    Decides refused (outcome >>= next) := by
  cases refused with
  | none =>
    obtain ⟨a, rfl⟩ := decides
    exact calm a
  | some refusal =>
    have refusedHere : outcome = .error _ := decides
    rw [refusedHere]
    exact rfl

private theorem decides_readBoolean (values : Entries (Value R)) (flag : Flag) (default : Bool) :
    Decides (refusedFlag? values flag) (readBoolean values flag.name default) := by
  unfold refusedFlag? readBoolean
  cases values.lookup flag.name with
  | none => exact ⟨_, rfl⟩
  | some value =>
    cases value with
    | bool b => exact ⟨b, rfl⟩
    | _ => exact rfl

/-- One flag after another is read, up to the first one that is refused. -/
theorem decides_cons {α : Type} {values : Entries (Value R)} {flag : Flag} {default : Bool}
    {rest : List Flag} {next : Bool → Except (Failure R) α}
    (onward : ∀ b, Decides (rest.findSome? (refusedFlag? values)) (next b)) :
    Decides ((flag :: rest).findSome? (refusedFlag? values))
      (readBoolean values flag.name default >>= next) := by
  have read := decides_readBoolean values flag default
  rw [List.findSome?_cons]
  cases refused : refusedFlag? values flag with
  | none =>
    rw [refused] at read
    obtain ⟨b, read⟩ := read
    rw [read]
    exact onward b
  | some refusal =>
    rw [refused] at read
    change readBoolean values flag.name default = _ at read
    rw [read]
    exact rfl

private theorem decides_readFlags (values : Entries (Value R)) (default : Flag → Bool) :
    Decides (Flag.all.findSome? (refusedFlag? values)) (readFlags values default) := by
  unfold readFlags Flag.all
  exact decides_cons fun _ => decides_cons fun _ => decides_cons fun _ => decides_cons fun _ =>
    decides_cons fun _ => ⟨_, rfl⟩

private theorem decides_resolve (settings : Value R) :
    Decides (refused? settings) (resolve settings) := by
  cases settings with
  | null => exact ⟨_, rfl⟩
  | dict entries =>
    exact (decides_readFlags entries fun _ => false).bind fun flags => ⟨_, rfl⟩
  | record kind fields =>
    cases kind with
    | settings => exact ⟨_, rfl⟩
    | _ => exact rfl
  | _ => exact rfl

/-- Settings are refused with a plain fault if the value they are refused for cannot be written. -/
theorem resolve_eq_fault {settings : Value R} {fault : Fault} :
    resolve settings = .error (.fault fault) ↔
      ∃ key value reason, refused? settings = some (key, value, reason) ∧
        value.isWritable = false ∧ fault = .longInteger := by
  have decided := decides_resolve settings
  cases refused : refused? settings with
  | none =>
    rw [refused] at decided
    obtain ⟨accepted, decided⟩ := decided
    simp [decided]
  | some refusal =>
    obtain ⟨key, value, reason⟩ := refusal
    rw [refused] at decided
    change resolve settings = _ at decided
    rw [decided, Except.error.injEq, Failure.invalidConfig_eq_fault]
    constructor
    · intro unwritable
      exact ⟨key, value, reason, rfl, unwritable⟩
    · rintro ⟨key, value, reason, ⟨⟩, unwritable⟩
      exact unwritable

end Settings

namespace ModuleReport

/-- The faults that leave the analysis of a tree as they are, once its settings are accepted. -/
inductive Escapes (tree : Value R) (walk : Value R → Settings R → Walk R) (accepted : Settings R) :
    Fault → Prop where
  /-- The location of the tree tells lines whose number cannot be computed. -/
  | location {first last : Value R} {fault : Fault}
      (told : Location.lines? (tree.field "loc") = some (first, last))
      (noExtent : Location.extent first last = .error fault) : Escapes tree walk accepted fault
  /-- The walk or the derivation is ended by an order to stop. -/
  | order {b : Builder R} {fault : Fault} (started : Builder.start (tree.field "loc") = .ok b)
      (ended : build (walk tree accepted) b (accepted.flags .newmi) = .error (.fault fault))
      (exit : fault.isExit = true) : Escapes tree walk accepted fault

/-- The ways in which a plain fault ends the analysis of a tree. -/
theorem ofTree_eq_fault {tree : Value R} {walker : Walker R}
    {settings : Except (Failure R) (Settings R)} {fault : Fault} :
    ofTree tree walker settings = .error (.fault fault) ↔
      ∃ walk, requireWalk tree walker = .ok walk ∧
        (settings = .error (.fault fault) ∨
          ∃ accepted, settings = .ok accepted ∧ Escapes tree walk accepted fault) := by
  simp only [ofTree, bind_eq_error, mapError_eq_error, Failure.leaving_eq_fault, liftM_eq_fault,
    liftM_eq_ok]
  constructor
  · rintro (refused | ⟨walk, found, refused | ⟨accepted, rfl, unread |
      ⟨b, started, _, ended, rfl, exit⟩⟩⟩)
    · exact absurd refused (requireWalk_ne_fault tree walker fault)
    · exact ⟨walk, found, .inl refused⟩
    · obtain ⟨first, last, told, noExtent⟩ := Builder.start_eq_error.mp unread
      exact ⟨walk, found, .inr ⟨accepted, rfl, .location told noExtent⟩⟩
    · exact ⟨walk, found, .inr ⟨accepted, rfl, .order started ended exit⟩⟩
  · rintro ⟨walk, found, refused | ⟨accepted, rfl, escapes⟩⟩
    · exact .inr ⟨walk, found, .inl refused⟩
    · refine .inr ⟨walk, found, .inr ⟨accepted, rfl, ?_⟩⟩
      cases escapes with
      | location told noExtent =>
        exact .inl (Builder.start_eq_error.mpr ⟨_, _, told, noExtent⟩)
      | order started ended exit => exact .inr ⟨_, started, _, ended, rfl, exit⟩

/-- A failure of the walk or of the derivation leaves the analysis: a diagnostic as it is, and a
fault that is no order to stop as the diagnostic of a traversal, which says what the fault says. -/
theorem ofTree_of_build {tree : Value R} {walker : Walker R} {accepted : Settings R}
    {walk : Value R → Settings R → Walk R} {b : Builder R} {failure : Failure R}
    (found : requireWalk tree walker = .ok walk)
    (started : Builder.start (tree.field "loc") = .ok b)
    (ended : build (walk tree accepted) b (accepted.flags .newmi) = .error failure) :
    ofTree tree walker (.ok accepted) = .error failure.leaving := by
  have lifted : (liftM (Builder.start (tree.field "loc")) : Except (Failure R) (Builder R)) =
      .ok b :=
    liftM_eq_ok.mpr started
  simp only [ofTree, found, lifted, ok_bind, ended]
  rfl

end ModuleReport

namespace ProjectReport

/-- If a module of a project cannot be analysed, the analysis of the project fails as one of the
modules that cannot, and the failure is attributed to that module. -/
theorem analyze_eq_error (working : String) {modules options : Value R} {walker : Walker R}
    {resolved : Options R} {listed : List (ProjectModule R)}
    (accepted : Options.resolve options = .ok resolved)
    (read : ProjectModule.listOf modules = .ok listed) {m : ProjectModule R} {own : Failure R}
    (member : m ∈ listed)
    (failed : ModuleReport.ofTree m.tree walker (.ok resolved.settings) = .error own) :
    ∃ first ∈ listed, ∃ cause,
      ModuleReport.ofTree first.tree walker (.ok resolved.settings) = .error cause ∧
      (analyze working modules walker options).result =
        .error (ProjectModule.attributed first.path cause) := by
  have broke : (m.analyze walker resolved.settings).result =
      .error (ProjectModule.attributed m.path own) := by
    rw [ProjectModule.analyze_result, failed]
    rfl
  obtain ⟨earlier, first, failure, later, split, -, broken, whole⟩ :=
    mapM_eq_error_of_mem (f := fun m => (m.analyze walker resolved.settings).result) member broke
  rw [ProjectModule.analyze_result] at broken
  cases outcome : ModuleReport.ofTree first.tree walker (.ok resolved.settings) with
  | ok report =>
    rw [outcome] at broken
    cases broken
  | error cause =>
    rw [outcome] at broken
    obtain rfl : ProjectModule.attributed first.path cause = failure := Except.error.inj broken
    refine ⟨first, by simp [split], cause, outcome, ?_⟩
    rw [analyze_result working walker accepted read]
    exact bind_eq_error.mpr (.inl whole)

end ProjectReport

namespace ModuleReport

/-- The analysis of a tree gives a report or fails with a diagnostic, except that a plain fault
leaves it through one of the gaps: settings that are refused for a value that cannot be written, a
location of the tree without an extent, an order to stop. A failure of the walk or of the derivation
leaves it as a diagnostic: one of the library's as it is, any other as that of a traversal, which
says what the failure says, or its kind if it says nothing, and names its kind.

The analysis of a project of which some module fails, fails as a failing module does. A diagnostic
then starts with the path of the module and names it in a detail; a plain fault does not, and comes
through the gaps that are left once the settings are accepted. -/
theorem failure_is_diagnostic_unless_escapes :
    (∀ (tree settings : Value R) (walker : Walker R),
      (∀ fault, (analyze tree walker (Settings.resolve settings)).result = .error (.fault fault) ↔
        ∃ walk, requireWalk tree walker = .ok walk ∧
          ((∃ key value reason, Settings.refused? settings = some (key, value, reason) ∧
              value.isWritable = false ∧ fault = .longInteger) ∨
            ∃ accepted, Settings.resolve settings = .ok accepted ∧
              Escapes tree walk accepted fault)) ∧
      ∀ walk accepted b failure, requireWalk tree walker = .ok walk →
        Settings.resolve settings = .ok accepted → Builder.start (tree.field "loc") = .ok b →
        build (walk tree accepted) b (accepted.flags .newmi) = .error failure →
        match failure with
        | .diagnostic d =>
          (analyze tree walker (Settings.resolve settings)).result = .error (.diagnostic d)
        | .fault fault => fault.isExit = false → ∃ d : Diagnostic R,
          (analyze tree walker (Settings.resolve settings)).result = .error (.diagnostic d) ∧
            d.kind = .traversal ∧
            d.message = .text (if fault.text.isEmpty then fault.kindName else fault.text) ∧
            d.details = [("error_type", .text fault.kindName)]) ∧
    ∀ (working : String) (modules options : Value R) (walker : Walker R) (resolved : Options R)
      (listed : List (ProjectModule R)), Options.resolve options = .ok resolved →
      ProjectModule.listOf modules = .ok listed →
      (∃ m ∈ listed, ∃ own,
        (analyze m.tree walker (.ok resolved.settings)).result = .error own) →
      ∃ m ∈ listed, ∃ own, (analyze m.tree walker (.ok resolved.settings)).result = .error own ∧
        match own with
        | .diagnostic d => ∃ named : Diagnostic R,
          (ProjectReport.analyze working modules walker options).result =
              .error (.diagnostic named) ∧
            named.kind = d.kind ∧
            named.message = .text (m.path ++ ": " ++ d.message.message) ∧
            named.details.lookup "module" = some (.text m.path)
        | .fault fault =>
          (ProjectReport.analyze working modules walker options).result = .error (.fault fault) ∧
            ∃ walk, requireWalk m.tree walker = .ok walk ∧
              Escapes m.tree walk resolved.settings fault := by
  simp only [analyze_result]
  refine ⟨fun tree settings walker => ⟨fun fault => ?_, ?_⟩, ?_⟩
  · rw [ofTree_eq_fault]
    simp only [Settings.resolve_eq_fault]
  · intro walk accepted b failure found resolved started ended
    have left := ofTree_of_build found started ended
    rw [resolved]
    cases failure with
    | diagnostic d => exact left
    | fault fault =>
      intro stays
      refine ⟨Failure.traversal (.fault fault), ?_, rfl, rfl, rfl⟩
      simpa only [Failure.leaving, stays, Bool.false_eq_true, ↓reduceIte] using left
  · rintro working modules options walker resolved listed accepted read ⟨m, member, own, failed⟩
    obtain ⟨first, inside, cause, broke, whole⟩ :=
      ProjectReport.analyze_eq_error working accepted read member failed
    refine ⟨first, inside, cause, broke, ?_⟩
    cases cause with
    | diagnostic d =>
      exact ⟨d.attributeTo (.text first.path), whole, rfl, rfl, Entries.lookup_insert_self _ _ _⟩
    | fault fault =>
      obtain ⟨walk, found, refused | ⟨settings, same, escapes⟩⟩ := ofTree_eq_fault.mp broke
      · cases refused
      · cases same
        exact ⟨whole, walk, found, escapes⟩

/-- A location that starts at a line without a number. -/
def textLine : Value Binary64 :=
  .dict [("start", .dict [("line", .text "a")]), ("end", .dict [("line", .int 2)])]

/-- A walker that opens one scope, at a place that the tree names. -/
def scopeWalker : Walker Binary64 :=
  .walks fun tree _ =>
    { call := fun _ _ _ => .ok .null
      trace := { items := [.openScope .null (tree.field "scope") (.int 0)] } }

/-- As the location of a tree such a location leaves the analysis as a plain fault, also that of a
project; as the location of a scope it becomes a diagnostic. -/
theorem failure_is_diagnostic_unless_escapes_textLine :
    (analyze (.dict [("loc", textLine)]) scopeWalker (Settings.resolve .null)).result =
        .error (.fault (.operands "-" "int" "str")) ∧
      (ProjectReport.analyze "/" (.list [.dict [("path", .text "a.js"),
          ("tree", .dict [("loc", textLine)])]]) scopeWalker .null).result =
        .error (.fault (.operands "-" "int" "str")) ∧
      ∃ d, (analyze (.dict [("scope", textLine)]) scopeWalker (Settings.resolve .null)).result =
          .error (.diagnostic d) ∧
        d.kind = .traversal ∧
        d.message = .text "unsupported operand type(s) for -: 'int' and 'str'" := by
  obtain ⟨single, project⟩ := failure_is_diagnostic_unless_escapes (R := Binary64)
  have plain : (analyze (.dict [("loc", textLine)]) scopeWalker (Settings.resolve .null)).result =
      .error (.fault (.operands "-" "int" "str")) :=
    ((single _ _ _).1 _).mpr ⟨_, rfl, .inr ⟨{}, rfl, .location rfl rfl⟩⟩
  refine ⟨plain, ?_, ?_⟩
  · obtain ⟨m, member, own, failed, whole⟩ := project "/" (.list [.dict [("path", .text "a.js"),
      ("tree", .dict [("loc", textLine)])]]) .null scopeWalker {}
      [⟨"a.js", .dict [("loc", textLine)]⟩] rfl rfl ⟨_, List.mem_singleton_self _, _, plain⟩
    cases List.mem_singleton.mp member
    cases Except.error.inj (failed.symm.trans plain)
    exact whole.1
  · obtain ⟨d, left, kind, message, -⟩ := (single (.dict [("scope", textLine)]) .null scopeWalker).2
      _ {} _ (.fault (.operands "-" "int" "str")) rfl rfl rfl rfl rfl
    exact ⟨d, left, kind, message⟩

end ModuleReport

end SourceMetrics
