import SourceMetrics.Config.Options
import SourceMetrics.Proofs.EntryOrder
import SourceMetrics.Proofs.Outcome

/-! # What settings and options are read from

Flags are read one by one, each from what stands under its name, so a mapping of settings is
accepted exactly if each flag that it names has a truth value (`Settings.ofMapping_eq_ok`). A
mapping of options is read in two parts. Its settings are those that it nests, overridden by the
entries beside them that are neither options nor the nesting itself (`Options.settingValues_eq`),
and an option has the value of the last entry that mentions it in any spelling
(`Options.lookup_optionValues`).
-/

namespace SourceMetrics

variable {R : Type} [Arithmetic R]

namespace Flag

/-- A flag that is found under a name has this name. -/
theorem name_of_ofName {name : String} {flag : Flag} (found : ofName? name = some flag) :
    flag.name = name := by
  simpa using List.find?_some found

/-- Nothing is found exactly under the names that no flag has. -/
theorem ofName_eq_none_iff {name : String} :
    ofName? name = none ↔ ∀ flag : Flag, name ≠ flag.name := by
  rw [ofName?, List.find?_eq_none]
  constructor
  · intro unnamed flag same
    exact unnamed flag (by cases flag <;> decide) (by simp [same])
  · intro unnamed flag _ same
    exact unnamed flag (by simpa [eq_comm] using same)

/-- Each flag is found under its own name. -/
theorem ofName_name (flag : Flag) : ofName? flag.name = some flag := by
  cases flag <;> decide

/-- No flag shares its name with an option of a project. -/
theorem name_not_mem_projectKeys (flag : Flag) : flag.name ∉ projectKeys := by
  cases flag <;> decide

/-- Looking up what is listed for each flag under its name. -/
theorem lookup_all {α : Type} (value : Flag → α) (key : String) :
    (all.map fun flag => (flag.name, value flag)).lookup key = (ofName? key).map value := by
  unfold ofName?
  induction all with
  | nil => rfl
  | cons flag rest ih =>
    by_cases same : flag.name = key
    · simp [same]
    · have apart : (key == flag.name) = false := by simpa using Ne.symm same
      simpa [List.lookup_cons, apart, same] using ih

end Flag

namespace Settings

omit [Arithmetic R] in
/-- Settings are known by their flags and by their other entries. -/
theorem eq_of_fields {left right : Settings R} (flags : left.flags = right.flags)
    (extra : left.extra = right.extra) : left = right := by
  cases left
  cases right
  cases flags
  cases extra
  rfl

/-- A flag is read from a boolean under its name, or is the default where nothing stands there. -/
theorem readBoolean_eq_ok {values : Entries (Value R)} {key : String} {default b : Bool} :
    readBoolean values key default = .ok b ↔
      values.lookup key = some (.bool b) ∨ values.lookup key = none ∧ b = default := by
  unfold readBoolean
  cases values.lookup key with
  | none => simp [eq_comm]
  | some value => cases value <;> simp

/-- The flag that is read is what the entries have under its name, with the default if absent. -/
theorem bool_of_readBoolean {values : Entries (Value R)} {key : String} {default b : Bool}
    (read : readBoolean values key default = .ok b) :
    .bool b = (values.lookup key).getD (.bool default) := by
  obtain found | ⟨absent, rfl⟩ := readBoolean_eq_ok.mp read
  · rw [found, Option.getD_some]
  · rw [absent, Option.getD_none]

/-- Flags are read if each of them is. -/
theorem readFlags_eq_ok {values : Entries (Value R)} {default flags : Flag → Bool} :
    readFlags values default = .ok flags ↔
      ∀ flag, readBoolean values flag.name (default flag) = .ok (flags flag) := by
  simp only [readFlags, bind_eq_ok]
  constructor
  · rintro ⟨logicalor, first, switchcase, second, forin, third, trycatch, fourth, newmi, fifth, ⟨⟩⟩
    intro flag
    cases flag with
    | logicalor => exact first
    | switchcase => exact second
    | forin => exact third
    | trycatch => exact fourth
    | newmi => exact fifth
  · intro each
    refine ⟨_, each .logicalor, _, each .switchcase, _, each .forin, _, each .trycatch, _,
      each .newmi, congrArg Except.ok ?_⟩
    funext flag
    cases flag <;> rfl

/-- Settings are read from a mapping if each flag is; the walker's settings are the entries that are
neither flags nor options. -/
theorem ofMapping_eq_ok {values : Entries (Value R)} {settings : Settings R} :
    ofMapping values = .ok settings ↔
      (∀ flag, readBoolean values flag.name false = .ok (settings.flags flag)) ∧
        settings.extra = values.filter fun entry => isExtra entry.1 := by
  simp only [ofMapping, bind_eq_ok, readFlags_eq_ok]
  constructor
  · rintro ⟨flags, each, ⟨⟩⟩
    exact ⟨each, rfl⟩
  · obtain ⟨flags, extra⟩ := settings
    rintro ⟨each, rfl⟩
    exact ⟨flags, each, rfl⟩

/-- Where each flag can be read, settings are. -/
theorem exists_ofMapping {values : Entries (Value R)}
    (readable : ∀ flag : Flag, ∃ b, readBoolean values flag.name false = .ok b) :
    ∃ settings, ofMapping values = .ok settings := by
  choose flags each using readable
  exact ⟨{ flags, extra := values.filter fun entry => isExtra entry.1 },
    ofMapping_eq_ok.mpr ⟨each, rfl⟩⟩

section

variable {values : Entries (Value R)} {settings : Settings R}
  (read : ofMapping values = .ok settings)

include read

/-- A flag has the value that a mapping gives it, and is off if it is left out. -/
theorem flag_of_ofMapping (flag : Flag) :
    .bool (settings.flags flag) = (values.lookup flag.name).getD (.bool false) :=
  bool_of_readBoolean ((ofMapping_eq_ok.mp read).1 flag)

/-- Settings keep exactly the entries that are for walkers, under the same names. -/
theorem lookup_extra_of_ofMapping (key : String) :
    settings.extra.lookup key = if isExtra key then values.lookup key else none := by
  rw [(ofMapping_eq_ok.mp read).2, Entries.lookup_filter]

end

end Settings

namespace Options

/-- Whether an entry beside the nested settings belongs to the settings: it is no option, and not
the nesting itself. -/
def isSetting (key : String) : Bool :=
  key ≠ "settings" && !isOption key

/-- Every name is that of a setting except for `settings` and the options of a project. -/
theorem isSetting_iff {key : String} :
    isSetting key = true ↔ key ≠ "settings" ∧ key ∉ projectKeys := by
  rw [isSetting, Bool.and_eq_true_iff, decide_eq_true_iff, isOption, Bool.not_eq_true',
    ← Bool.not_eq_true, List.contains_iff_mem]

/-- A flag stands beside nested settings as a setting. -/
theorem isSetting_flag (flag : Flag) : isSetting flag.name = true := by
  cases flag <;> decide

/-- A name that is for walkers is that of a setting, unless it is `settings`. -/
theorem isSetting_of_isExtra {key : String} (walkers : Settings.isExtra key = true)
    (beside : key ≠ "settings") : isSetting key = true := by
  unfold Settings.isExtra at walkers
  obtain ⟨-, noOption⟩ := Bool.and_eq_true_iff.mp walkers
  exact Bool.and_eq_true_iff.mpr ⟨decide_eq_true beside, noOption⟩

private theorem isOption_plainSpelling (key : String) :
    isOption (plainSpelling key) = isOption key := by
  unfold plainSpelling
  split
  · subst_vars
    rfl
  · split
    · subst_vars
      rfl
    · rfl

private theorem plainSpelling_of_not_isOption {key : String} (other : isOption key = false) :
    plainSpelling key = key := by
  unfold plainSpelling
  split
  · subst_vars
    cases other
  · split
    · subst_vars
      cases other
    · rfl

omit [Arithmetic R] in
/-- Spelling options plainly leaves the settings beside them alone. -/
theorem filter_flat (values : Entries (Value R)) :
    ((flat values).filter fun entry => !isOption entry.1) =
      values.filter fun entry => isSetting entry.1 := by
  induction values with
  | nil => rfl
  | cons entry rest ih =>
    obtain ⟨key, value⟩ := entry
    unfold flat at ih ⊢
    by_cases nesting : key = "settings"
    · simpa [nesting, isSetting] using ih
    · cases option : isOption key with
      | true => simpa [nesting, isSetting, option, isOption_plainSpelling] using ih
      | false =>
        simpa [nesting, isSetting, option, isOption_plainSpelling,
          plainSpelling_of_not_isOption option] using ih

omit [Arithmetic R] in
/-- The settings of a mapping are those that it nests, overridden by the entries beside them. -/
theorem settingValues_eq (values inner : Entries (Value R)) :
    settingValues values inner =
      Entries.update inner (values.filter fun entry => isSetting entry.1) := by
  rw [settingValues, filter_flat]

omit [Arithmetic R] in
/-- An option has the value of the last entry that mentions it. -/
theorem lookup_optionValues (values : Entries (Value R)) {name : String}
    (known : isOption name = true) (unnested : name ≠ "settings") :
    (optionValues values).lookup name =
      (values.filter fun entry => plainSpelling entry.1 = name).getLast?.map Prod.snd := by
  have spelled : ((flat values).filter fun entry => isOption entry.1).filter
        (fun entry => entry.1 = name) =
      (values.filter fun entry => plainSpelling entry.1 = name).map fun entry =>
        (plainSpelling entry.1, entry.2) := by
    rw [flat, List.filter_map, List.filter_map, List.filter_filter, List.filter_filter]
    congr 1
    apply List.filter_congr
    intro entry _
    by_cases same : plainSpelling entry.1 = name
    · have beside : entry.1 ≠ "settings" := by
        intro nesting
        rw [nesting] at same
        exact unnested same.symm
      simp [same, known, beside]
    · simp [same]
  rw [optionValues, Entries.ofPairs, Entries.lookup_update, List.lookup_nil, Option.or_none,
    Entries.lookup_reverse, spelled, List.getLast?_map, Option.map_map]
  rfl

/-- Options are read field by field, each from its own part of the entries. -/
theorem ofMapping_eq_ok {values : Entries (Value R)} {options : Options R}
    (read : ofMapping values = .ok options) :
    ∃ inner, nested values = .ok inner ∧
      Settings.ofMapping (settingValues values inner) = .ok options.settings ∧
      Settings.readBoolean (optionValues values) "skip_calculation" false =
        .ok options.skipCalculation ∧
      Settings.readBoolean (optionValues values) "no_core_size" false = .ok options.noCoreSize ∧
      readWorkers (optionValues values) = .ok options.workers := by
  simp only [ofMapping, ofValues, bind_eq_ok] at read
  obtain ⟨inner, nests, settings, accepted, skip, first, core, second, workers, third, ⟨⟩⟩ := read
  exact ⟨inner, nests, accepted, first, second, third⟩

end Options

end SourceMetrics
