import SourceMetrics.Proofs.NestedSettings
import SourceMetrics.Proofs.SettingMapping
import SourceMetrics.Proofs.SourcePriority

/-! # The order of the keys of options

Options are read from a mapping by looking up names, with one exception: of two spellings of an
option the later one counts. So a mapping with its keys in another order is read as the same
options, or refused for the same reason, as long as the spellings of each option keep their order
(`Options.alike_ofMapping_of_perm`). In particular the place of the nested settings does not matter:
what stands beside them wins over what they say.
-/

namespace SourceMetrics

variable {R : Type} [Arithmetic R]

namespace Settings

private theorem readBoolean_congr {values others : Entries (Value R)} {key : String}
    (same : values.lookup key = others.lookup key) (default : Bool) :
    readBoolean values key default = readBoolean others key default := by
  rw [readBoolean, readBoolean, same]

/-- Flags are read from what stands under their names. -/
theorem readFlags_congr {values others : Entries (Value R)}
    (same : ∀ flag : Flag, values.lookup flag.name = others.lookup flag.name)
    (default : Flag → Bool) : readFlags values default = readFlags others default := by
  simp only [readFlags, fun flag => readBoolean_congr (same flag)]

/-- Mappings that agree on all keys but those of a project run are read as the same settings. -/
theorem alike_ofMapping {values others : Entries (Value R)}
    (same : ∀ key, key ∉ projectKeys → values.lookup key = others.lookup key) :
    Alike Same (ofMapping values) (ofMapping others) := by
  have flags := readFlags_congr (fun flag => same _ flag.name_not_mem_projectKeys) fun _ => false
  rw [ofMapping, ofMapping, flags]
  cases readFlags others fun _ => false with
  | error failure => exact rfl
  | ok read =>
    refine ⟨rfl, fun key => ?_⟩
    rw [Entries.lookup_filter, Entries.lookup_filter]
    by_cases walkers : isExtra key = true
    · rw [if_pos walkers, if_pos walkers, same key (isExtra_iff.mp walkers).2]
    · rw [if_neg walkers, if_neg walkers]

/-- Where a mapping names every flag, a setting has the value that the mapping gives it. -/
theorem get_of_ofMapping {values : Entries (Value R)} {settings : Settings R}
    (read : ofMapping values = .ok settings)
    (complete : ∀ flag : Flag, values.lookup flag.name ≠ none) {key : String}
    (isSetting : Options.isSetting key = true) (default : Value R) :
    settings.get key default = (values.lookup key).getD default := by
  unfold get
  cases found : Flag.ofName? key with
  | some flag =>
    obtain rfl := Flag.name_of_ofName found
    obtain ⟨value, given⟩ := Option.ne_none_iff_exists'.mp (complete flag)
    simp only [flag_of_ofMapping read, given, Option.getD_some]
  | none =>
    have walkers : isExtra key = true :=
      isExtra_iff.mpr ⟨Flag.ofName_eq_none_iff.mp found, (Options.isSetting_iff.mp isSetting).2⟩
    simp only [lookup_extra_of_ofMapping read, walkers, if_true]

end Settings

namespace Options

/-- Options are the same if they say the same about the run and have the same settings. -/
structure Same (left right : Options R) : Prop where
  skipCalculation : left.skipCalculation = right.skipCalculation
  noCoreSize : left.noCoreSize = right.noCoreSize
  workers : left.workers = right.workers
  settings : left.settings.Same right.settings

private theorem readWorkers_congr {values others : Entries (Value R)}
    (same : values.lookup "workers" = others.lookup "workers") :
    readWorkers values = readWorkers others := by
  rw [readWorkers, readWorkers, same]

/-- Option values that agree on the three options are read as the same options. -/
theorem alike_ofValues {values others : Entries (Value R)} {left right : Settings R}
    (same : ∀ o : ProjectOption, values.lookup o.name = others.lookup o.name)
    (settings : left.Same right) : Alike Same (ofValues values left) (ofValues others right) := by
  have skip := Settings.readBoolean_congr (same .skipCalculation) false
  have core := Settings.readBoolean_congr (same .noCoreSize) false
  have workers := readWorkers_congr (same .workers)
  simp only [ProjectOption.name] at skip core
  rw [ofValues, ofValues, skip, core, workers]
  cases Settings.readBoolean others "skip_calculation" false with
  | error failure => exact rfl
  | ok skips =>
    cases Settings.readBoolean others "no_core_size" false with
    | error failure => exact rfl
    | ok leaves =>
      cases readWorkers others with
      | error failure => exact rfl
      | ok count => exact ⟨rfl, rfl, rfl, settings⟩

/-- What two mappings nest may differ, if they give the same options and settings in the end. -/
theorem alike_ofMapping {values others inner more : Entries (Value R)}
    (nests : nested values = .ok inner) (nestsMore : nested others = .ok more)
    (options : ∀ o : ProjectOption,
      (optionValues values).lookup o.name = (optionValues others).lookup o.name)
    (settings : ∀ key, key ∉ projectKeys →
      (settingValues values inner).lookup key = (settingValues others more).lookup key) :
    Alike Same (ofMapping values) (ofMapping others) := by
  rw [ofMapping, ofMapping, nests, nestsMore]
  exact (Settings.alike_ofMapping settings).bind fun _ _ => alike_ofValues options

/-- The nested settings depend only on what stands under `settings`. -/
theorem nested_congr {values others : Entries (Value R)}
    (same : values.lookup "settings" = others.lookup "settings") :
    nested values = nested others := by
  rw [nested, nested, same]

/-- The spellings of an option that a mapping uses, in the order of its keys. -/
def spelledIn (o : ProjectOption) (values : Entries (Value R)) : List String :=
  (values.map Prod.fst).filter (· ∈ o.spellings)

/-- Reading does not depend on the order of the keys, apart from that of the spellings. -/
theorem alike_ofMapping_of_perm {values others : Entries (Value R)}
    (distinct : (values.map Prod.fst).Nodup) (reordered : values.Perm others)
    (spelled : ∀ o, spelledIn o values = spelledIn o others) :
    Alike Same (ofMapping values) (ofMapping others) := by
  have same := Entries.same_of_perm distinct reordered
  have still : (others.map Prod.fst).Nodup := (reordered.map _).nodup_iff.mp distinct
  have nests := nested_congr (same "settings")
  cases outcome : nested others with
  | error failure =>
    rw [ofMapping, ofMapping, nests, outcome]
    exact rfl
  | ok inner =>
    apply alike_ofMapping (nests.trans outcome) outcome
    · intro o
      have last := spelled o
      unfold spelledIn at last
      rw [Config.lookup_optionValues_name, Config.lookup_optionValues_name,
        Entries.getLast?_filter_eq_bind distinct (· ∈ o.spellings),
        Entries.getLast?_filter_eq_bind still (· ∈ o.spellings), last]
      exact congrArg _ (funext same)
    · intro key _
      rw [lookup_settingValues distinct, lookup_settingValues still, same key]

/-- What the nested settings of a mapping say about a key. They are a mapping themselves, or
settings that have been made before. -/
def nestedValue (values : Entries (Value R)) (key : String) : Option (Value R) :=
  match values.lookup "settings" with
  | some (.dict entries) => entries.lookup key
  | some (.record .settings fields) => (Settings.ofRecord fields).toMapping.lookup key
  | _ => none

/-- The nested settings have what is nested under a name. -/
theorem lookup_nested {values inner : Entries (Value R)} (nests : nested values = .ok inner)
    (key : String) : inner.lookup key = nestedValue values key := by
  unfold nested at nests
  unfold nestedValue
  cases found : values.lookup "settings" with
  | none =>
    rw [found] at nests
    cases nests
    rfl
  | some value =>
    rw [found] at nests
    cases value with
    | record kind fields => cases kind <;> cases nests; rfl
    | _ => cases nests <;> rfl

section

variable {values : Entries (Value R)} {options : Options R}
  (distinct : (values.map Prod.fst).Nodup) (read : ofMapping values = .ok options)

include distinct read

/-- A flag has the value beside the nested settings, or the one in them, or is off. -/
theorem flag_of_ofMapping (flag : Flag) : .bool (options.settings.flags flag) =
    ((values.lookup flag.name).or (nestedValue values flag.name)).getD (.bool false) := by
  obtain ⟨inner, nests, accepted, -⟩ := ofMapping_eq_ok read
  rw [Settings.flag_of_ofMapping accepted, lookup_settingValues distinct,
    if_pos (isSetting_flag flag), lookup_nested nests]

/-- A setting of the walker has the value beside the nested settings, or the one in them. -/
theorem extra_of_ofMapping {key : String} (walkers : Settings.isExtra key = true)
    (beside : key ≠ "settings") : options.settings.extra.lookup key =
      (values.lookup key).or (nestedValue values key) := by
  obtain ⟨inner, nests, accepted, -⟩ := ofMapping_eq_ok read
  rw [Settings.lookup_extra_of_ofMapping accepted, if_pos walkers, lookup_settingValues distinct,
    if_pos (isSetting_of_isExtra walkers beside), lookup_nested nests]

end

omit [Arithmetic R] in
/-- Where a mapping names every flag, its settings do. -/
theorem settingValues_complete {values : Entries (Value R)}
    (distinct : (values.map Prod.fst).Nodup)
    (complete : ∀ flag : Flag, values.lookup flag.name ≠ none) (inner : Entries (Value R))
    (flag : Flag) : (settingValues values inner).lookup flag.name ≠ none := by
  rw [lookup_settingValues distinct, if_pos (isSetting_flag flag)]
  obtain ⟨held, found⟩ := Option.ne_none_iff_exists'.mp (complete flag)
  simp [found]

/-- Where a mapping names every flag, a setting has the value beside the nested settings, or the one
in them. -/
theorem get_of_ofMapping {values : Entries (Value R)} {options : Options R}
    (distinct : (values.map Prod.fst).Nodup) (read : ofMapping values = .ok options)
    (complete : ∀ flag : Flag, values.lookup flag.name ≠ none) {key : String}
    (setting : isSetting key = true) (absent : Value R) :
    options.settings.get key absent =
      ((values.lookup key).or (nestedValue values key)).getD absent := by
  obtain ⟨inner, nests, accepted, -⟩ := ofMapping_eq_ok read
  rw [Settings.get_of_ofMapping accepted (settingValues_complete distinct complete inner) setting,
    lookup_settingValues distinct, if_pos setting, lookup_nested nests]

/-- **The order of the keys does not matter.** Let a mapping of options be given with its keys in
another order, in which the spellings of each option come in the same order as before. Then the two
are read as the same options or refused for the same reason. If they are read, a flag has the value
that stands beside the nested settings, or else the one in them, or else is off, and the same holds
for a setting of the walker, which is absent if it is given nowhere. The options of the run are
those that stand beside the nested settings; in these their names mean nothing, to the run or to the
walker. -/
theorem options_independent_of_key_order {values others : Entries (Value R)}
    (distinct : (values.map Prod.fst).Nodup) (reordered : values.Perm others)
    (spelled : ∀ o, spelledIn o values = spelledIn o others) :
    Alike Same (ofMapping values) (ofMapping others) ∧
    ∀ options, ofMapping values = .ok options →
      (∀ flag : Flag, .bool (options.settings.flags flag) =
        ((values.lookup flag.name).or (nestedValue values flag.name)).getD (.bool false)) ∧
      (∀ key, (∀ flag : Flag, key ≠ flag.name) → key ∉ projectKeys → key ≠ "settings" →
        options.settings.extra.lookup key = (values.lookup key).or (nestedValue values key)) ∧
      (∀ key ∈ projectKeys, options.settings.extra.lookup key = none) ∧
      ∀ o : ProjectOption, o.valueIn options =
        ((spelledIn o values).getLast?.bind fun spelling => values.lookup spelling).getD
          o.default := by
  refine ⟨alike_ofMapping_of_perm distinct reordered spelled, ?_⟩
  intro options read
  refine ⟨flag_of_ofMapping distinct read, ?_, ?_, ?_⟩
  · intro key noFlag noOption beside
    exact extra_of_ofMapping distinct read (Settings.isExtra_iff.mpr ⟨noFlag, noOption⟩) beside
  · intro key option
    obtain ⟨inner, -, accepted, -⟩ := ofMapping_eq_ok read
    rw [Settings.lookup_extra_of_ofMapping accepted, if_neg]
    intro walkers
    exact (Settings.isExtra_iff.mp walkers).2 option
  · intro o
    rw [Config.valueIn_eq read, Entries.getLast?_filter_eq_bind distinct (· ∈ o.spellings)]
    rfl

/-- Nested settings, among them a name that is an option beside them. -/
def nesting : String × Value Binary64 :=
  ("settings", .dict [("forin", .bool true), ("newmi", .bool true), ("workers", .int 9)])

/-- Entries beside the nested settings: a flag that they say otherwise, and one option in both
spellings. -/
def besideNesting : Entries (Value Binary64) :=
  [("noCoreSize", .bool false), ("forin", .bool false), ("no_core_size", .bool true)]

/-- Whether the nested settings come first or last, what stands beside them counts. -/
theorem options_independent_of_key_order_nesting :
    ∃ options : Options Binary64, ofMapping (nesting :: besideNesting) = .ok options ∧
      Alike Same (.ok options) (ofMapping (besideNesting ++ [nesting])) ∧
      options.settings.flags .forin = false ∧ options.settings.flags .newmi = true ∧
      options.settings.flags .logicalor = false ∧
      options.settings.extra.lookup "jsx" = none ∧
      options.settings.extra.lookup "workers" = none ∧
      options.noCoreSize = true ∧ options.workersValue = .null := by
  obtain ⟨options, read⟩ : ∃ options, ofMapping (nesting :: besideNesting) = .ok options := ⟨_, rfl⟩
  have distinct : ((nesting :: besideNesting).map Prod.fst).Nodup := by decide
  have reordered : (nesting :: besideNesting).Perm (besideNesting ++ [nesting]) :=
    (List.perm_append_singleton nesting besideNesting).symm
  have spelled (o : ProjectOption) :
      spelledIn o (nesting :: besideNesting) = spelledIn o (besideNesting ++ [nesting]) := by
    cases o <;> decide
  have noFlag (flag : Flag) : "jsx" ≠ flag.name := by cases flag <;> decide
  obtain ⟨alike, value⟩ := options_independent_of_key_order distinct reordered spelled
  obtain ⟨flags, extra, reserved, run⟩ := value options read
  rw [read] at alike
  exact ⟨options, read, alike, Value.bool.inj (flags .forin), Value.bool.inj (flags .newmi),
    Value.bool.inj (flags .logicalor), extra "jsx" noFlag (by decide) (by decide),
    reserved "workers" (by decide), Value.bool.inj (run .noCoreSize), run .workers⟩

end Options

end SourceMetrics
