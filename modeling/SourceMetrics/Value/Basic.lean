import SourceMetrics.Value.Moment

/-!
# Dynamic values

Syntax trees, syntax rules, locations, dependency records and configuration tables come from
outside and have no fixed shape. `Value` is what they are made of. It is also the form in which a
report is handed out.

A mapping keeps the order of its entries and holds each key once. A function is known by a handle
only: what a handle does is said by whoever supplied the value, so values stay plain data.
-/

namespace SourceMetrics

/-- The kinds of record, which differ from mappings in that their fields are attributes. -/
inductive RecordKind where
  /-- Any object of the caller, known by its identity. One without an identity is made anew wherever
  it is mentioned. -/
  | object (identity : Option Nat)
  /-- A location, with `start_line` and `end_line`. -/
  | location
  /-- A dependency record, with `type`, `path` and `line`. -/
  | dependency
  /-- A syntax rule. -/
  | rule
  /-- An operator or operand of a syntax rule. -/
  | token
  /-- A module of a project, with `path` and `tree`. -/
  | projectModule
  | settings
  | options
  /-- The tally of a token class. -/
  | tally
  /-- The tallies of a function with the measures derived from them. -/
  | halstead
  /-- Logical and physical lines. -/
  | lineCounts
  | functionReport
  | moduleReport
  | projectReport
deriving DecidableEq, Repr

/-- A value with fraction numbers in the model `R`. -/
inductive Value (R : Type) where
  | null
  | bool (b : Bool)
  | int (i : Int)
  | real (x : R)
  | text (s : String)
  | bytes (bs : List UInt8)
  | moment (m : Moment)
  | list (items : List (Value R))
  | tuple (items : List (Value R))
  | dict (entries : List (String × Value R))
  | record (kind : RecordKind) (fields : List (String × Value R))
  | function (handle : Nat)
deriving Inhabited

/-- Entries of a mapping, in the order in which their keys were first set. -/
abbrev Entries (α : Type) := List (String × α)

namespace Entries

variable {α : Type}

/-- Set a key: a known key keeps its place, a new one goes to the end. -/
def insert (key : String) (value : α) : Entries α → Entries α
  | [] => [(key, value)]
  | (k, v) :: rest => if k = key then (key, value) :: rest else (k, v) :: insert key value rest

/-- Set all keys of a second mapping, in its order. -/
def update (entries more : Entries α) : Entries α :=
  more.foldl (fun acc entry => insert entry.1 entry.2 acc) entries

/-- The mapping that a row of pairs gives; of two values for a key the later one counts. -/
def ofPairs (pairs : List (String × α)) : Entries α :=
  update [] pairs

theorem lookup_insert_self (key : String) (value : α) (entries : Entries α) :
    (insert key value entries).lookup key = some value := by
  induction entries with
  | nil => simp [insert]
  | cons entry rest ih =>
    obtain ⟨k, v⟩ := entry
    by_cases same : k = key
    · simp [insert, same]
    · have other : (key == k) = false := by simpa using Ne.symm same
      simp [insert, same, List.lookup_cons, other, ih]

/-- Writing under one name leaves the other names as they are. -/
theorem lookup_insert_of_ne {key other : String} (different : other ≠ key) (value : α)
    (entries : Entries α) : (insert key value entries).lookup other = entries.lookup other := by
  have apart : (other == key) = false := by simpa using different
  induction entries with
  | nil => simp [insert, List.lookup_cons, apart]
  | cons entry rest ih =>
    obtain ⟨k, v⟩ := entry
    by_cases same : k = key
    · simp [insert, same, List.lookup_cons, apart]
    · simp [insert, same, List.lookup_cons, ih]

/-- After an update, a key has the last value that the second mapping gives it, and otherwise the
value that it had. -/
theorem lookup_update (entries more : Entries α) (key : String) :
    (update entries more).lookup key = (more.reverse.lookup key).or (entries.lookup key) := by
  induction more generalizing entries with
  | nil => simp [update]
  | cons entry rest ih =>
    obtain ⟨k, v⟩ := entry
    have step : update entries ((k, v) :: rest) = update (insert k v entries) rest := rfl
    rw [step, ih, List.reverse_cons, List.lookup_append]
    by_cases same : key = k
    · subst same
      simp [lookup_insert_self]
    · have apart : (key == k) = false := by simpa using same
      simp [lookup_insert_of_ne same, List.lookup_cons, apart]

end Entries

/-- The name of a record's type. -/
def RecordKind.typeName : RecordKind → String
  | .object _ => "Obj"
  | .location => "SourceLocation"
  | .dependency => "Dependency"
  | .rule => "SyntaxRule"
  | .token => "HalsteadToken"
  | .projectModule => "ProjectModule"
  | .settings => "AnalysisSettings"
  | .options => "ProjectOptions"
  | .tally => "HalsteadItemState"
  | .halstead => "HalsteadState"
  | .lineCounts => "Sloc"
  | .functionReport => "FunctionReport"
  | .moduleReport => "ModuleReport"
  | .projectReport => "ProjectReport"

namespace Value

variable {R : Type}

/-- The name of a value's type. -/
def typeName : Value R → String
  | .null => "NoneType"
  | .bool _ => "bool"
  | .int _ => "int"
  | .real _ => "float"
  | .text _ => "str"
  | .bytes _ => "bytes"
  | .moment m => m.typeName
  | .list _ => "list"
  | .tuple _ => "tuple"
  | .dict _ => "dict"
  | .record kind _ => kind.typeName
  | .function _ => "function"

/-- Whether a value is the absent one. -/
def isNull : Value R → Bool
  | .null => true
  | _ => false

/-- The field of that name, if the value has one: an entry of a mapping or an attribute of a
record. -/
def field? (value : Value R) (name : String) : Option (Value R) :=
  match value with
  | .dict entries => entries.lookup name
  | .record _ fields => fields.lookup name
  | _ => none

/-- The field of that name, absent if there is none. -/
def field (value : Value R) (name : String) : Value R :=
  (value.field? name).getD .null

/-- The attribute of that name, absent if there is none. Entries of a mapping are no attributes. -/
def attr (value : Value R) (name : String) : Value R :=
  match value with
  | .record _ fields => (fields.lookup name).getD .null
  | _ => .null

/-- The items of a list or a tuple. -/
def items? : Value R → Option (List (Value R))
  | .list items => some items
  | .tuple items => some items
  | _ => none

end Value

end SourceMetrics
