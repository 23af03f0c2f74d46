import SourceMetrics.Proofs.OptionOrder

/-! # Which source a setting comes from

A setting, unlike an option, has one spelling, so the sources that mention it set one key, and the
highest of them wins (`Config.reverse_lookup_layers`). To the reading of settings a flag that is
left out is off, but the merged mapping names every flag from the start, so this rule never applies
and flags keep their defaults (`Config.get_of_load`).
-/

namespace SourceMetrics

variable {R : Type}

namespace Environment

/-- A variable that is not set is passed over, and one that is set has to be readable. -/
theorem readAll_cons_eq_ok {environment : Entries String} {key : String} {kind : Expected}
    {rest : List (String × Expected)} {given : Entries (Value R)}
    (read : readAll environment ((key, kind) :: rest) = .ok given) :
    environment.lookup (variableName key) = none ∧ readAll environment rest = .ok given ∨
      ∃ text value others, environment.lookup (variableName key) = some text ∧
        readValue kind text = .ok value ∧ readAll environment rest = .ok others ∧
        given = (key, value) :: others := by
  rw [readAll] at read
  cases set : environment.lookup (variableName key) with
  | none =>
    rw [set] at read
    exact .inl ⟨rfl, read⟩
  | some text =>
    rw [set] at read
    dsimp only at read
    right
    cases means : readValue (R := R) kind text with
    | error fault =>
      rw [means] at read
      cases read
    | ok value =>
      rw [means] at read
      obtain ⟨others, onward, ⟨⟩⟩ := bind_eq_ok.mp read
      exact ⟨text, value, others, rfl, means, onward, rfl⟩

section

variable {environment : Entries String} {keys : List (String × Expected)}
  {given : Entries (Value R)}

/-- The variables give each key once, in the order in which they are read. -/
theorem keys_sublist (read : readAll environment keys = .ok given) :
    (given.map Prod.fst).Sublist (keys.map Prod.fst) := by
  induction keys generalizing given with
  | nil =>
    cases read
    exact List.Sublist.refl _
  | cons entry rest ih =>
    obtain ⟨-, onward⟩ | ⟨text, value, others, -, -, onward, rfl⟩ := readAll_cons_eq_ok read
    · exact (ih onward).cons _
    · exact (ih onward).cons_cons _

/-- What the variables give to a key is what the text of its variable means. -/
theorem lookup_of_readAll (read : readAll environment keys = .ok given) (key : String) :
    given.lookup key = (keys.lookup key).bind fun kind =>
      (environment.lookup (variableName key)).bind fun text => (readValue kind text).toOption := by
  induction keys generalizing given with
  | nil =>
    cases read
    rfl
  | cons entry rest ih =>
    obtain ⟨name, kind⟩ := entry
    obtain ⟨unset, onward⟩ | ⟨text, value, others, set, means, onward, rfl⟩ :=
      readAll_cons_eq_ok read
    · by_cases same : key = name
      · subst same
        rw [ih onward, unset]
        simp
      · have apart : (key == name) = false := by simpa using same
        rw [ih onward, List.lookup_cons, apart]
    · by_cases same : key = name
      · subst same
        simp [set, means, Except.toOption]
      · have apart : (key == name) = false := by simpa using same
        rw [List.lookup_cons, apart, ih onward, List.lookup_cons, apart]

/-- Every variable that is set has been read. -/
theorem exists_of_readAll (read : readAll environment keys = .ok given) {key text : String}
    {kind : Expected} (member : (key, kind) ∈ keys)
    (set : environment.lookup (variableName key) = some text) :
    ∃ value : Value R, readValue kind text = .ok value := by
  induction keys generalizing given with
  | nil => cases member
  | cons entry rest ih =>
    obtain ⟨name, expects⟩ := entry
    obtain ⟨unset, onward⟩ | ⟨found, value, others, held, means, onward, rfl⟩ :=
      readAll_cons_eq_ok read
    · rcases List.mem_cons.mp member with first | inRest
      · cases first
        rw [unset] at set
        cases set
      · exact ih onward inRest
    · rcases List.mem_cons.mp member with first | inRest
      · cases first
        rw [held] at set
        cases set
        exact ⟨value, means⟩
      · exact ih onward inRest

end

end Environment

namespace Config

/-- The defaults are those of the flags, under their names. -/
theorem lookup_defaults (key : String) : (defaults : Entries (Value R)).lookup key =
    (Flag.ofName? key).map fun flag => .bool flag.default :=
  Flag.lookup_all (fun flag => Value.bool flag.default) key

/-- No two defaults share a name. -/
theorem nodup_defaults : ((defaults : Entries (Value R)).map Prod.fst).Nodup := by
  change (Flag.all.map Flag.name).Nodup
  decide

/-- Of the settings, all flags and nothing else are read from variables. -/
theorem lookup_expected {key : String} (isSetting : Options.isSetting key = true) :
    Environment.expected.lookup key = (Flag.ofName? key).map fun _ => .truth := by
  obtain ⟨-, noOption⟩ := Bool.and_eq_true_iff.mp isSetting
  have unlisted : key ∉ ["skip_calculation", "no_core_size", "workers"] := by
    intro member
    have listed : Options.isOption key = true :=
      List.contains_iff_mem.mpr (List.mem_append_left ["skipCalculation", "noCoreSize"] member)
    rw [listed] at noOption
    cases noOption
  rw [Environment.expected, List.lookup_append, Flag.lookup_all,
    Entries.lookup_eq_none_of_not_mem unlisted, Option.none_or]

/-- What a source says about a key: the value of its last entry with that key. -/
def lastOf (entries : Entries (Value R)) (key : String) : Option (Value R) :=
  (entries.filter fun entry => entry.1 = key).getLast?.map Prod.snd

/-- What the environment says about a setting: the truth value that the variable of a flag has. No
other setting has a variable. -/
def variableOf (environment : Entries String) (key : String) : Option (Value R) := do
  let flag ← Flag.ofName? key
  let text ← environment.lookup (Environment.variableName flag.name)
  let b ← (Environment.readTruth text).toOption
  return .bool b

private theorem lastOf_eq (entries : Entries (Value R)) (key : String) :
    lastOf entries key = entries.reverse.lookup key :=
  (Entries.lookup_reverse entries key).symm

private theorem lastOf_eq_none {entries : Entries (Value R)} {key : String}
    (unmentioned : entries.lookup key = none) : lastOf entries key = none := by
  rw [lastOf_eq, List.lookup_eq_none_iff]
  simpa using List.lookup_eq_none_iff.mp unmentioned

section Variables

variable {environment : Entries String} {given : Entries (Value R)}
  (read : Environment.read environment = .ok given)

include read

/-- What the variables give to a setting. -/
theorem reverse_lookup_given {key : String} (isSetting : Options.isSetting key = true) :
    given.reverse.lookup key = variableOf environment key := by
  have distinct : (given.map Prod.fst).Nodup :=
    List.Nodup.sublist (Environment.keys_sublist read) (by decide)
  rw [Entries.lookup_reverse_of_nodup distinct, Environment.lookup_of_readAll read,
    lookup_expected isSetting, variableOf]
  cases found : Flag.ofName? key with
  | none => rfl
  | some flag =>
    obtain rfl := Flag.name_of_ofName found
    cases set : environment.lookup (Environment.variableName flag.name) with
    | none => simp [set]
    | some text =>
      cases means : Environment.readTruth text <;>
        simp [set, means, Environment.readValue, Except.toOption, Except.map]

private theorem exists_readTruth {flag : Flag} {text : String}
    (set : environment.lookup (Environment.variableName flag.name) = some text) :
    ∃ b, Environment.readTruth text = .ok b := by
  have listed : (flag.name, Environment.Expected.truth) ∈ Environment.expected :=
    List.mem_append_right _ (List.mem_map.mpr ⟨flag, by cases flag <;> decide, rfl⟩)
  obtain ⟨value, means⟩ := Environment.exists_of_readAll read listed set
  cases truth : Environment.readTruth text with
  | ok b => exact ⟨b, rfl⟩
  | error fault =>
    rw [Environment.readValue, truth] at means
    cases means

end Variables

/-- The table of a file that may be there: none has no entries. -/
def IsTableOf (file : Option (FileTable R)) (table : Entries (Value R)) : Prop :=
  match file with
  | none => table = []
  | some file => file = .ok table

/-- A file has one table. -/
theorem IsTableOf.unique {file : Option (FileTable R)} {table other : Entries (Value R)}
    (isTable : IsTableOf file table) (isOther : IsTableOf file other) : table = other := by
  cases file with
  | none => exact isTable.trans isOther.symm
  | some file => exact Except.ok.inj (isTable.symm.trans isOther)

private theorem fileEntries_of_isTableOf {file : Option (FileTable R)} {table : Entries (Value R)}
    (isTable : IsTableOf file table) : fileEntries file = flattened table := by
  cases file <;> cases isTable <;> rfl

/-- A table of settings that does not name itself again leaves no nesting behind. -/
theorem lookup_flattened {table : Entries (Value R)}
    (plain : ∀ inner, ("settings", .dict inner) ∈ table → inner.lookup "settings" = none) :
    (flattened table).lookup "settings" = none := by
  rw [List.lookup_eq_none_iff]
  intro entry member
  obtain ⟨source, inTable, inside⟩ := List.mem_flatMap.mp member
  obtain ⟨key, value⟩ := source
  by_cases nesting : key = "settings"
  · subst nesting
    cases value with
    | dict inner => exact List.lookup_eq_none_iff.mp (plain inner inTable) entry inside
    | _ => cases inside
  · rw [if_neg nesting, List.mem_singleton] at inside
    subst inside
    simpa using Ne.symm nesting

/-- Of the sources that mention a key, the highest sets it last. -/
theorem reverse_lookup_layers {sources : ConfigSources R} {project named given : Entries (Value R)}
    (isProject : IsTableOf (sources.project.map Prod.snd) project)
    (isNamed : IsTableOf (sources.named.bind Prod.snd) named)
    (read : Environment.read sources.environment = .ok given) (key : String) :
    (layers sources).flatten.reverse.lookup key =
      (lastOf sources.overrides key).or ((given.reverse.lookup key).or
        ((lastOf (flattened named) key).or (lastOf (flattened project) key))) := by
  have fromVariables : environmentEntries sources.environment = given := by
    simp only [environmentEntries, read]
  rw [layers, fileEntries_of_isTableOf isProject, fileEntries_of_isTableOf isNamed, fromVariables]
  simp [lastOf_eq, List.lookup_append]

variable [Arithmetic R]

private theorem exists_isTableOf_mergeProject {sources : ConfigSources R}
    {merged next : Entries (Value R)} (done : mergeProject sources merged = .ok next) :
    ∃ table : Entries (Value R), IsTableOf (sources.project.map Prod.snd) table := by
  unfold mergeProject at done
  cases there : sources.project with
  | none => exact ⟨[], rfl⟩
  | some file =>
    rw [there] at done
    obtain ⟨table, read, -⟩ := mergeFile_eq_ok done
    exact ⟨table, read⟩

private theorem exists_isTableOf_mergeNamed {sources : ConfigSources R}
    {merged next : Entries (Value R)} (done : mergeNamed sources merged = .ok next) :
    ∃ table : Entries (Value R), IsTableOf (sources.named.bind Prod.snd) table := by
  unfold mergeNamed at done
  cases asked : sources.named with
  | none => exact ⟨[], rfl⟩
  | some file =>
    obtain ⟨path, there⟩ := file
    cases there with
    | none =>
      rw [asked] at done
      cases done
    | some content =>
      rw [asked] at done
      obtain ⟨table, read, -⟩ := mergeFile_eq_ok done
      exact ⟨table, read⟩

/-- Options that have been loaded come from sources that could all be read. -/
theorem exists_read_of_load {sources : ConfigSources R} {options : Options R}
    (loaded : load sources = .ok options) :
    ∃ project named given : Entries (Value R),
      IsTableOf (sources.project.map Prod.snd) project ∧
      IsTableOf (sources.named.bind Prod.snd) named ∧
      Environment.read sources.environment = .ok given := by
  unfold load at loaded
  split at loaded
  · cases loaded
  · obtain ⟨merged, done, -⟩ := bind_eq_ok.mp loaded
    simp only [merge, bind_eq_ok] at done
    obtain ⟨_, fromProject, _, fromNamed, given, read, -⟩ := done
    obtain ⟨project, isProject⟩ := exists_isTableOf_mergeProject fromProject
    obtain ⟨named, isNamed⟩ := exists_isTableOf_mergeNamed fromNamed
    exact ⟨project, named, given, isProject, isNamed, read⟩

/-- Without nested settings, a setting has the value that the merged mapping gives it. -/
theorem get_of_load {sources : ConfigSources R} {options : Options R}
    (loaded : load sources = .ok options)
    (unnested : (layers sources).flatten.reverse.lookup "settings" = none) {key : String}
    (isSetting : Options.isSetting key = true) (absent : Value R) :
    options.settings.get key absent =
      (((layers sources).flatten.reverse.lookup key).or (defaults.lookup key)).getD absent := by
  have distinct := Entries.nodup_update (nodup_defaults (R := R)) (layers sources).flatten
  have alone :
      Options.nestedValue (Entries.update defaults (layers sources).flatten) key = none := by
    rw [Options.nestedValue, Entries.lookup_update, unnested]
    rfl
  rw [Options.get_of_ofMapping distinct (load_eq_ok loaded) _ isSetting, alone, Option.or_none,
    Entries.lookup_update]
  intro flag
  rw [Entries.lookup_update, lookup_defaults, Flag.ofName_name]
  simp

/-- **A setting comes from the highest source that mentions it.** Let options be loaded from sources
of which none gives `settings` directly and none has a table of settings that nests another one.
Then every file that is there has been read as a table, and every variable of a flag says a truth
value. A setting, that is a flag or any other key that is no option, has the value that the caller
gives directly, otherwise that of its variable if it is a flag, otherwise that of the file that the
caller names, and otherwise that of the project's own file. Of the entries of a table and those of
its table of settings, the later one counts. A flag that no source mentions has its default, and any
other setting that none mentions is absent. -/
theorem setting_of_highest {sources : ConfigSources R} {options : Options R}
    (loaded : load sources = .ok options) (direct : sources.overrides.lookup "settings" = none)
    (plain : ∀ file ∈ [sources.project.map Prod.snd, sources.named.bind Prod.snd],
      ∀ table inner : Entries (Value R), IsTableOf file table →
        ("settings", .dict inner) ∈ table → inner.lookup "settings" = none) :
    ∃ project named : Entries (Value R),
      IsTableOf (sources.project.map Prod.snd) project ∧
      IsTableOf (sources.named.bind Prod.snd) named ∧
      (∀ (flag : Flag) (text : String),
        sources.environment.lookup (Environment.variableName flag.name) = some text →
          ∃ b, Environment.readTruth text = .ok b) ∧
      ∀ (key : String) (absent : Value R), Options.isSetting key = true →
        options.settings.get key absent =
          ((lastOf sources.overrides key).or ((variableOf sources.environment key).or
            ((lastOf (flattened named) key).or (lastOf (flattened project) key)))).getD
              (((Flag.ofName? key).map fun flag => .bool flag.default).getD absent) := by
  obtain ⟨project, named, given, isProject, isNamed, read⟩ := exists_read_of_load loaded
  have layered := reverse_lookup_layers isProject isNamed read
  have unnested : (layers sources).flatten.reverse.lookup "settings" = none := by
    have unset : given.lookup "settings" = none := Environment.lookup_of_readAll read "settings"
    rw [layered, lastOf_eq_none direct, ← lastOf_eq, lastOf_eq_none unset,
      lastOf_eq_none (lookup_flattened fun inner => plain _ (by simp) named inner isNamed),
      lastOf_eq_none (lookup_flattened fun inner => plain _ (by simp) project inner isProject)]
    rfl
  refine ⟨project, named, isProject, isNamed, fun _ _ => exists_readTruth read, ?_⟩
  intro key absent isSetting
  rw [get_of_load loaded unnested isSetting, layered, reverse_lookup_given read isSetting,
    lookup_defaults, Option.getD_or]

/-- A table that mentions a setting and, in its table of settings, mentions it again. -/
def tableLast : Entries (Value Binary64) :=
  [("forin", .bool false), ("indent", .int 2), ("newmi", .bool true),
    ("settings", .dict [("forin", .bool true), ("trycatch", .bool false)])]

/-- A table that mentions a setting in its table of settings and then again. -/
def tableFirst : Entries (Value Binary64) :=
  [("settings", .dict [("depth", .int 3)]), ("depth", .int 4)]

/-- Four sources. Both files mention a setting beside their table of settings and in it. -/
def fourSources : ConfigSources Binary64 where
  project := some ("complexity-insight.toml", .ok tableLast)
  named := some ("custom.toml", some (.ok tableFirst))
  environment := [("COMPLEXITY_NEWMI", " Off"), ("COMPLEXITY_INDENT", "8")]
  overrides := [("trycatch", .bool true)]

/-- Each source decides the settings that no higher one mentions, beside its table of settings or in
it. -/
theorem setting_of_highest_fourSources :
    ∃ options : Options Binary64, load fourSources = .ok options ∧
      options.settings.get "trycatch" .null = .bool true ∧
      options.settings.get "newmi" .null = .bool false ∧
      options.settings.get "depth" .null = .int 4 ∧
      options.settings.get "forin" .null = .bool true ∧
      options.settings.get "indent" .null = .int 2 ∧
      options.settings.get "switchcase" .null = .bool true ∧
      options.settings.get "unknown" .null = .null := by
  have isLast : IsTableOf (fourSources.project.map Prod.snd) tableLast := rfl
  have isFirst : IsTableOf (fourSources.named.bind Prod.snd) tableFirst := rfl
  have plain : ∀ file ∈ [fourSources.project.map Prod.snd, fourSources.named.bind Prod.snd],
      ∀ table inner : Entries (Value Binary64), IsTableOf file table →
        ("settings", .dict inner) ∈ table → inner.lookup "settings" = none := by
    intro file member table inner isTable nests
    obtain rfl | rfl : file = fourSources.project.map Prod.snd ∨
        file = fourSources.named.bind Prod.snd := by simpa using member
    · obtain rfl := isTable.unique isLast
      obtain rfl : inner = [("forin", .bool true), ("trycatch", .bool false)] := by
        simpa [tableLast] using nests
      rfl
    · obtain rfl := isTable.unique isFirst
      obtain rfl : inner = [("depth", .int 3)] := by simpa [tableFirst] using nests
      rfl
  have accepted : (load fourSources).isOk = true := by
    decide +kernel
  cases loaded : load fourSources with
  | error failure =>
    rw [loaded] at accepted
    cases accepted
  | ok options =>
    obtain ⟨project, named, isProject, isNamed, -, value⟩ := setting_of_highest loaded rfl plain
    obtain rfl := isProject.unique isLast
    obtain rfl := isNamed.unique isFirst
    exact ⟨options, rfl, value "trycatch" .null rfl, value "newmi" .null rfl,
      value "depth" .null rfl, value "forin" .null rfl, value "indent" .null rfl,
      value "switchcase" .null rfl, value "unknown" .null rfl⟩

end Config

end SourceMetrics
