import SourceMetrics.Analysis
import SourceMetrics.Proofs.ConfigReading
import SourceMetrics.Proofs.ProjectRun
import SourceMetrics.Real.Binary64

/-! # One mapping for a tree and for a project

The same mapping may be given as the settings of a tree and as the options of a project. The two
readings agree on options, flags and a walker's settings that stand in the mapping itself. Only the
reading as options looks into settings that are nested under `settings`; the other one takes the
nesting for one more of the walker's settings. So both hand the same settings to a walker exactly if
the mapping nests none (`Options.readings_agree_iff_unnested`).
-/

namespace SourceMetrics

variable {R : Type} [Arithmetic R]

/-- A tree is analysed with the settings that its options stand for. -/
theorem analyze_tree_result (working : String) {tree : Value R} (single : tree.items? = none)
    (walker : Walker R) {options : Value R} {settings : Settings R}
    (resolved : Settings.resolve options = .ok settings) :
    (analyze working tree walker options).result =
      (ModuleReport.ofTree tree walker (.ok settings)).map Report.ofModule := by
  simp only [analyze, single, resolved, Logged.result_bind, Logged.result_pure,
    ModuleReport.analyze_result]
  exact bind_ok _ Report.ofModule

/-- The only module of a project is analysed with the settings of the project's options. -/
theorem analyze_singleton_result (working path : String) (named : path ≠ "") (tree : Value R)
    (walker : Walker R) {options : Value R} {resolved : Options R}
    (accepted : Options.resolve options = .ok resolved) :
    (analyze working (.list [.dict [("path", .text path), ("tree", tree)]]) walker options).result =
      ((ModuleReport.ofTree tree walker (.ok resolved.settings)).mapError
        (ProjectModule.attributed path)) >>= fun report =>
          (if resolved.skipCalculation then .ok { reports := [{ report with path := .text path }] }
            else (ProjectReport.ofReports working [{ report with path := .text path }]
              resolved.noCoreSize).result).map Report.ofProject := by
  have listed : ProjectModule.listOf
      (.list [.dict [("path", .text path), ("tree", tree)]] : Value R) = .ok [⟨path, tree⟩] := by
    have nonempty : path.isEmpty = false := by simpa [String.isEmpty_iff] using named
    simp [ProjectModule.listOf, Value.items?, ProjectModule.ofValue, ProjectModule.make,
      List.lookup_cons, nonempty, pure, Except.pure, bind, Except.bind]
  have whole := ProjectReport.analyze_result working walker accepted listed
  simp only [analyze, Value.items?, Logged.result_bind, whole, List.mapM_cons, List.mapM_nil,
    ProjectModule.analyze_result]
  cases ModuleReport.ofTree tree walker (.ok resolved.settings) with
  | error failure => rfl
  | ok report => exact bind_ok _ Report.ofProject

namespace Options

omit [Arithmetic R] in
/-- Of a setting, what stands beside the nested settings wins. -/
theorem lookup_settingValues {values : Entries (Value R)} (distinct : (values.map Prod.fst).Nodup)
    (inner : Entries (Value R)) (key : String) :
    (settingValues values inner).lookup key =
      (if isSetting key then values.lookup key else none).or (inner.lookup key) := by
  have still : ((values.filter fun entry => isSetting entry.1).map Prod.fst).Nodup :=
    distinct.sublist (List.filter_sublist.map _)
  rw [settingValues_eq, Entries.lookup_update, Entries.lookup_reverse_of_nodup still,
    Entries.lookup_filter]

/-- No settings are nested in themselves. -/
theorem lookup_nested_ne {values inner : Entries (Value R)} {value : Value R}
    (found : values.lookup "settings" = some value) (nests : nested values = .ok inner) :
    inner.lookup "settings" ≠ some value := by
  intro again
  unfold nested at nests
  rw [found] at nests
  cases value with
  | null =>
    cases nests
    cases again
  | dict entries =>
    cases nests
    have smaller := Entries.sizeOf_lt_of_lookup again
    simp only [Value.dict.sizeOf_spec] at smaller
    omega
  | record kind fields =>
    cases kind with
    | settings =>
      cases nests
      -- The mapping of settings holds its flags and, under any other key, what `extra` holds.
      have unset : (Settings.ofRecord fields).flagEntries.reverse.lookup "settings" = none := rfl
      rw [Settings.toMapping, Entries.lookup_update, unset, Option.none_or] at again
      unfold Settings.ofRecord at again
      cases held : fields.lookup "extra" with
      | none => simp [held] at again
      | some extra =>
        cases extra with
        | dict entries =>
          simp only [held] at again
          have inside := Entries.sizeOf_lt_of_lookup held
          have smaller := Entries.sizeOf_lt_of_lookup again
          simp only [Value.dict.sizeOf_spec, Value.record.sizeOf_spec] at inside smaller
          omega
        | _ => simp [held] at again
    | _ => cases nests
  | _ => cases nests

/-- Entries that stand in a mapping itself are accepted as settings if they are among options. -/
theorem exists_settings {values inner : Entries (Value R)} {settings : Settings R}
    (distinct : (values.map Prod.fst).Nodup)
    (read : Settings.ofMapping (settingValues values inner) = .ok settings) :
    ∃ direct, Settings.ofMapping values = .ok direct := by
  obtain ⟨flags, -⟩ := Settings.ofMapping_eq_ok.mp read
  have readable (flag : Flag) : ∃ b, Settings.readBoolean values flag.name false = .ok b := by
    have either := flags flag
    rw [Settings.readBoolean_eq_ok, lookup_settingValues distinct, if_pos (isSetting_flag flag)]
      at either
    cases found : values.lookup flag.name with
    | none => exact ⟨false, Settings.readBoolean_eq_ok.mpr (.inr ⟨found, rfl⟩)⟩
    | some value =>
      rw [found] at either
      obtain same | ⟨absent, -⟩ := either
      · cases same
        exact ⟨_, Settings.readBoolean_eq_ok.mpr (.inl found)⟩
      · cases absent
  exact Settings.exists_ofMapping readable

/-- A flag is read differently if it is given by the nested settings only, and on. -/
theorem flags_ne_iff {values inner : Entries (Value R)} {direct settings : Settings R}
    (distinct : (values.map Prod.fst).Nodup)
    (single : Settings.ofMapping values = .ok direct)
    (read : Settings.ofMapping (settingValues values inner) = .ok settings) (flag : Flag) :
    direct.flags flag ≠ settings.flags flag ↔
      values.lookup flag.name = none ∧ inner.lookup flag.name = some (.bool true) := by
  have first := (Settings.ofMapping_eq_ok.mp single).1 flag
  have second := (Settings.ofMapping_eq_ok.mp read).1 flag
  rw [Settings.readBoolean_eq_ok] at first second
  rw [lookup_settingValues distinct, if_pos (isSetting_flag flag)] at second
  cases found : values.lookup flag.name with
  | none =>
    simp only [found, Option.none_or, reduceCtorEq, true_and, false_or] at first second
    obtain given | ⟨absent, off⟩ := second
    · cases on : settings.flags flag <;> simp [first, given, on]
    · simp [first, absent, off]
  | some value =>
    simp only [found, Option.some_or, Option.some.injEq, reduceCtorEq, false_and, or_false]
      at first second
    rw [first] at second
    simp [Value.bool.inj second]

/-- The nesting is a setting of the walker to one reading and not to the other. -/
theorem lookup_extra_nesting {values inner : Entries (Value R)} {direct settings : Settings R}
    (distinct : (values.map Prod.fst).Nodup)
    (single : Settings.ofMapping values = .ok direct) (nests : nested values = .ok inner)
    (read : Settings.ofMapping (settingValues values inner) = .ok settings) {value : Value R}
    (found : values.lookup "settings" = some value) :
    direct.extra.lookup "settings" = some value ∧ settings.extra.lookup "settings" ≠ some value := by
  rw [Settings.lookup_extra_of_ofMapping single, Settings.lookup_extra_of_ofMapping read,
    lookup_settingValues distinct]
  exact ⟨found, lookup_nested_ne found nests⟩

/-- Without nested settings the two readings are one. -/
theorem settings_eq_of_unnested {values inner : Entries (Value R)} {direct settings : Settings R}
    (distinct : (values.map Prod.fst).Nodup) (unnested : values.lookup "settings" = none)
    (single : Settings.ofMapping values = .ok direct) (nests : nested values = .ok inner)
    (read : Settings.ofMapping (settingValues values inner) = .ok settings) :
    direct = settings := by
  obtain rfl : inner = [] := by
    unfold nested at nests
    rw [unnested] at nests
    exact (Except.ok.inj nests).symm
  apply Settings.eq_of_fields
  · funext flag
    by_contra different
    obtain ⟨-, impossible⟩ := (flags_ne_iff distinct single read flag).mp different
    cases impossible
  · obtain ⟨-, extra⟩ := Settings.ofMapping_eq_ok.mp single
    obtain ⟨-, nestedExtra⟩ := Settings.ofMapping_eq_ok.mp read
    have still : ((values.filter fun entry => isSetting entry.1).map Prod.fst).Nodup :=
      distinct.sublist (List.filter_sublist.map _)
    have alone : settingValues values [] = values.filter fun entry => isSetting entry.1 := by
      rw [settingValues_eq]
      exact Entries.ofPairs_of_nodup still
    rw [extra, nestedExtra, alone, List.filter_filter]
    apply List.filter_congr
    intro entry member
    have beside : entry.1 ≠ "settings" := by
      intro nesting
      have apart := List.lookup_eq_none_iff.mp unnested entry member
      simp [nesting] at apart
    cases walkers : Settings.isExtra entry.1 with
    | false => rfl
    | true => rw [isSetting_of_isExtra walkers beside, Bool.and_self]

/-- A mapping of options is accepted as settings as well. A tree is analysed with the settings that
it stands for directly, and a project with those of its options. The two are the same exactly if the
mapping nests no settings. Where it does, the first reading takes the nesting for a setting of the
walker, which the second one never does; it misses the flags that are on in the nested settings
alone, and the walker's settings that stand there alone. -/
theorem readings_agree_iff_unnested {entries : Entries (Value R)} {options : Options R}
    (distinct : (entries.map Prod.fst).Nodup)
    (accepted : Options.resolve (.dict entries) = .ok options) :
    ∃ settings inner, Settings.resolve (.dict entries) = .ok settings ∧
      nested entries = .ok inner ∧
      (∀ (working : String) (tree : Value R) (walker : Walker R), tree.items? = none →
        (analyze working tree walker (.dict entries)).result =
          (ModuleReport.ofTree tree walker (.ok settings)).map Report.ofModule) ∧
      (∀ (working path : String) (tree : Value R) (walker : Walker R), path ≠ "" →
        (analyze working (.list [.dict [("path", .text path), ("tree", tree)]]) walker
            (.dict entries)).result =
          ((ModuleReport.ofTree tree walker (.ok options.settings)).mapError
            (ProjectModule.attributed path)) >>= fun report =>
              (if options.skipCalculation then
                  .ok { reports := [{ report with path := .text path }] }
                else (ProjectReport.ofReports working [{ report with path := .text path }]
                  options.noCoreSize).result).map Report.ofProject) ∧
      (settings = options.settings ↔ entries.lookup "settings" = none) ∧
      (∀ value, entries.lookup "settings" = some value →
        settings.extra.lookup "settings" = some value ∧
          options.settings.extra.lookup "settings" ≠ some value) ∧
      (∀ flag, settings.flags flag ≠ options.settings.flags flag ↔
        entries.lookup flag.name = none ∧ inner.lookup flag.name = some (.bool true)) ∧
      ∀ key, Settings.isExtra key = true → key ≠ "settings" →
        settings.extra.lookup key = entries.lookup key ∧
          options.settings.extra.lookup key = (entries.lookup key).or (inner.lookup key) := by
  obtain ⟨inner, nests, read, -⟩ := ofMapping_eq_ok accepted
  obtain ⟨settings, direct⟩ := exists_settings distinct read
  refine ⟨settings, inner, direct, nests, ?_, ?_, ?_, ?_, flags_ne_iff distinct direct read, ?_⟩
  · intro working tree walker single
    exact analyze_tree_result working single walker direct
  · intro working path tree walker named
    exact analyze_singleton_result working path named tree walker accepted
  · constructor
    · intro same
      cases found : entries.lookup "settings" with
      | none => rfl
      | some value =>
        obtain ⟨here, there⟩ := lookup_extra_nesting distinct direct nests read found
        rw [same] at here
        exact absurd here there
    · intro unnested
      exact settings_eq_of_unnested distinct unnested direct nests read
  · intro value found
    exact lookup_extra_nesting distinct direct nests read found
  · intro key walkers beside
    obtain ⟨-, extra⟩ := Settings.ofMapping_eq_ok.mp direct
    obtain ⟨-, nestedExtra⟩ := Settings.ofMapping_eq_ok.mp read
    rw [extra, nestedExtra, Entries.lookup_filter, Entries.lookup_filter,
      lookup_settingValues distinct, if_pos walkers, if_pos walkers,
      if_pos (isSetting_of_isExtra walkers beside)]
    exact ⟨rfl, rfl⟩

/-- Options with a flag in nested settings. -/
def nestedFlag : Entries (Value Binary64) :=
  [("noCoreSize", .bool true), ("settings", .dict [("newmi", .bool true)])]

/-- A project is analysed with the flag on, and a tree with the flag off. -/
theorem readings_agree_iff_unnested_nestedFlag :
    ∃ (options : Options Binary64) (settings : Settings Binary64),
      Options.resolve (.dict nestedFlag) = .ok options ∧
        Settings.resolve (.dict nestedFlag) = .ok settings ∧
        options.settings.flags .newmi = true ∧ settings.flags .newmi = false ∧
        settings.extra.lookup "settings" = some (.dict [("newmi", .bool true)]) ∧
        settings ≠ options.settings := by
  obtain ⟨options, accepted⟩ : ∃ options, Options.resolve (.dict nestedFlag) = .ok options :=
    ⟨_, rfl⟩
  obtain ⟨settings, inner, direct, -, -, -, agree, taken, -⟩ :=
    readings_agree_iff_unnested (by decide) accepted
  refine ⟨options, settings, accepted, direct, ?_, ?_, (taken _ rfl).1, ?_⟩
  · cases accepted
    rfl
  · cases direct
    rfl
  · intro same
    cases agree.mp same

end Options

end SourceMetrics
