import SourceMetrics.Proofs.SettingPriority

/-! # Settings that a caller nests

A caller may give settings directly, one by one, or nest them under `settings`. A table of settings
in a file is flattened when the file is merged, but what a caller nests is not: it stays nested in
the merged mapping, beside everything that the other sources say, and what stands beside wins. So
settings that are given one by one have the highest priority, and nested ones the lowest, below the
defaults (`Config.get_of_givenNested`). The two ways agree exactly if the other sources do not
dispute what is given (`Config.Undisputed`), or if both fail for one reason.
-/

namespace SourceMetrics

variable {R : Type} [Arithmetic R]

/-- Mappings that name every flag and are read as the same settings agree on all keys but those of a
project run. -/
theorem Settings.lookup_eq_of_same {values others : Entries (Value R)} {left right : Settings R}
    (read : ofMapping values = .ok left) (readOther : ofMapping others = .ok right)
    (complete : ∀ flag : Flag, values.lookup flag.name ≠ none)
    (completeOther : ∀ flag : Flag, others.lookup flag.name ≠ none) (same : left.Same right)
    {key : String} (noOption : key ∉ projectKeys) : values.lookup key = others.lookup key := by
  cases found : Flag.ofName? key with
  | some flag =>
    obtain rfl := Flag.name_of_ofName found
    obtain ⟨value, held⟩ := Option.ne_none_iff_exists'.mp (complete flag)
    obtain ⟨other, heldOther⟩ := Option.ne_none_iff_exists'.mp (completeOther flag)
    have first := flag_of_ofMapping read flag
    have second := flag_of_ofMapping readOther flag
    rw [held, Option.getD_some] at first
    rw [heldOther, Option.getD_some] at second
    rw [held, heldOther, ← first, ← second, same.flags]
  | none =>
    have walkers : isExtra key = true :=
      isExtra_iff.mpr ⟨Flag.ofName_eq_none_iff.mp found, noOption⟩
    have extra := same.extra key
    rwa [lookup_extra_of_ofMapping read, lookup_extra_of_ofMapping readOther, if_pos walkers,
      if_pos walkers] at extra

namespace Config

/-- The mapping that all sources below the caller give together. -/
def below (sources : ConfigSources R) : Except (Failure R) (Entries (Value R)) :=
  merge { sources with overrides := [] }

/-- The caller gives settings one by one. -/
def givenFlat (sources : ConfigSources R) (given : Entries (Value R)) : ConfigSources R :=
  { sources with overrides := given }

/-- The caller gives the same settings nested. -/
def givenNested (sources : ConfigSources R) (given : Entries (Value R)) : ConfigSources R :=
  { sources with overrides := [("settings", .dict given)] }

/-- What the caller gives is set after everything else. -/
theorem merge_eq (sources : ConfigSources R) (overrides : Entries (Value R)) :
    merge { sources with overrides := overrides } =
      below sources >>= fun merged => .ok (Entries.update merged overrides) := by
  change (mergeProject sources defaults >>= fun first => mergeNamed sources first >>= fun second =>
      Environment.read sources.environment >>= fun given =>
        .ok (Entries.update (Entries.update second given) overrides)) =
    (mergeProject sources defaults >>= fun first => mergeNamed sources first >>= fun second =>
      Environment.read sources.environment >>= fun given =>
        .ok (Entries.update second given)) >>= fun merged => .ok (Entries.update merged overrides)
  cases mergeProject sources defaults with
  | error failure => rfl
  | ok first =>
    rw [ok_bind, ok_bind]
    cases mergeNamed sources first with
    | error failure => rfl
    | ok second =>
      rw [ok_bind, ok_bind]
      cases Environment.read (R := R) sources.environment <;> rfl

private theorem load_givenNested (sources : ConfigSources R) (given : Entries (Value R)) :
    load (givenNested sources given) = below sources >>= fun merged =>
      Options.ofMapping (Entries.insert "settings" (.dict given) merged) := by
  change (merge (givenNested sources given) >>= Options.ofMapping) = _
  rw [givenNested, merge_eq]
  cases below sources <;> rfl

private theorem load_givenFlat (sources : ConfigSources R) {given : Entries (Value R)}
    (unnamed : given.lookup fileArgument = none) :
    load (givenFlat sources given) = below sources >>= fun merged =>
      Options.ofMapping (Entries.update merged given) := by
  have passes : ((givenFlat sources given).overrides.lookup fileArgument).isSome = false := by
    rw [givenFlat, unnamed]
    rfl
  rw [load, passes]
  change (merge (givenFlat sources given) >>= Options.ofMapping) = _
  rw [givenFlat, merge_eq]
  cases below sources <;> rfl

private theorem load_givenFlat_named (sources : ConfigSources R) {given : Entries (Value R)}
    (named : given.lookup fileArgument ≠ none) :
    load (givenFlat sources given) = .error (.fault (.repeatedArgument fileArgument)) := by
  have refused : ((givenFlat sources given).overrides.lookup fileArgument).isSome = true :=
    Option.isSome_iff_ne_none.mpr named
  rw [load, refused]
  rfl

private theorem unnamed_of_load {sources : ConfigSources R} {given : Entries (Value R)}
    {options : Options R} (loaded : load (givenFlat sources given) = .ok options) :
    given.lookup fileArgument = none := by
  by_contra named
  rw [load_givenFlat_named sources named] at loaded
  cases loaded

private theorem exists_below_of_load {sources : ConfigSources R} {given : Entries (Value R)}
    {options : Options R} (loaded : load (givenFlat sources given) = .ok options) :
    ∃ merged, below sources = .ok merged := by
  rw [load_givenFlat sources (unnamed_of_load loaded)] at loaded
  obtain ⟨merged, done, -⟩ := bind_eq_ok.mp loaded
  exact ⟨merged, done⟩

section

variable {sources : ConfigSources R} {merged : Entries (Value R)}
  (done : below sources = .ok merged)

include done

private theorem nodup_below : (merged.map Prod.fst).Nodup := by
  rw [merge_eq_ok done]
  exact Entries.nodup_update nodup_defaults _

/-- The sources below the caller, with the defaults among them, name every flag. -/
theorem lookup_below_flag (flag : Flag) : merged.lookup flag.name ≠ none := by
  rw [merge_eq_ok done, Entries.lookup_update, lookup_defaults, Flag.ofName_name]
  simp

end

section

variable {given : Entries (Value R)} (distinct : (given.map Prod.fst).Nodup)
  (settings : ∀ key ∈ given.map Prod.fst, Options.isSetting key = true)
  (merged : Entries (Value R))

include distinct in
omit [Arithmetic R] in
private theorem lookup_flat (key : String) :
    (Entries.update merged given).lookup key = (given.lookup key).or (merged.lookup key) := by
  rw [Entries.lookup_update, Entries.lookup_reverse_of_nodup distinct]

private theorem nested_nested :
    Options.nested (Entries.insert "settings" (.dict given) merged) = .ok given := by
  rw [Options.nested, Entries.lookup_insert_self]

omit [Arithmetic R] in
private theorem nestedValue_nested (key : String) :
    Options.nestedValue (Entries.insert "settings" (.dict given) merged) key = given.lookup key := by
  rw [Options.nestedValue, Entries.lookup_insert_self]

include settings

omit [Arithmetic R] in
/-- What is given one by one nests nothing. -/
theorem lookup_given_settings : given.lookup "settings" = none := by
  apply Entries.lookup_eq_none_of_not_mem
  intro member
  cases settings _ member

include distinct in
omit [Arithmetic R] in
/-- What the sources below nest stays nested beside what is given one by one. -/
theorem lookup_flat_settings :
    (Entries.update merged given).lookup "settings" = merged.lookup "settings" := by
  rw [lookup_flat distinct, lookup_given_settings settings, Option.none_or]

omit [Arithmetic R] in
private theorem filter_given (o : ProjectOption) :
    (given.filter fun entry => entry.1 ∈ o.spellings) = [] := by
  apply List.filter_eq_nil_iff.mpr
  intro entry member
  obtain ⟨-, noOption⟩ := Bool.and_eq_true_iff.mp (settings _ (List.mem_map_of_mem member))
  have options : ∀ spelling ∈ o.spellings, Options.isOption spelling = true := by
    cases o <;> decide
  intro spelled
  rw [options _ (by simpa using spelled)] at noOption
  cases noOption

omit [Arithmetic R] in
/-- Both ways leave the options of the run alone. -/
theorem lookup_optionValues_given (o : ProjectOption) :
    (Options.optionValues (Entries.update merged given)).lookup o.name =
      (Options.optionValues (Entries.insert "settings" (.dict given) merged)).lookup o.name := by
  have noSpelling : decide ("settings" ∈ o.spellings) = false := by cases o <;> decide
  rw [lookup_optionValues_name, lookup_optionValues_name,
    Entries.filter_update (fun key => key ∈ o.spellings), filter_given settings,
    Entries.filter_insert (fun key => key ∈ o.spellings), noSpelling]
  rfl

end

/-- The sources below the caller do not dispute what is given. They say the same about it, or
nothing. Where they nest settings themselves, as a table of settings within a table of settings
does, these can be read and say nothing that is not said beside them or given. -/
structure Undisputed (merged given : Entries (Value R)) : Prop where
  readable : ∃ inner, Options.nested merged = .ok inner
  same : ∀ key value held, given.lookup key = some value → merged.lookup key = some held →
    held = value
  overridden : ∀ key, key ∉ projectKeys → Options.nestedValue merged key ≠ none →
    key ≠ "settings" ∧ (given.lookup key ≠ none ∨ merged.lookup key ≠ none)

section

variable {sources : ConfigSources R} {merged given : Entries (Value R)}
  (done : below sources = .ok merged) (distinct : (given.map Prod.fst).Nodup)
  (settings : ∀ key ∈ given.map Prod.fst, Options.isSetting key = true)

include done

private theorem lookup_nested_flag (given : Entries (Value R)) (flag : Flag) :
    (Entries.insert "settings" (.dict given) merged).lookup flag.name ≠ none := by
  rw [Entries.lookup_insert_of_ne (Options.isSetting_iff.mp (Options.isSetting_flag flag)).1]
  exact lookup_below_flag done flag

/-- Nested settings lose to everything that another source says. -/
theorem get_of_givenNested {options : Options R}
    (loaded : load (givenNested sources given) = .ok options) {key : String}
    (setting : Options.isSetting key = true) (absent : Value R) :
    options.settings.get key absent =
      ((merged.lookup key).or (given.lookup key)).getD absent := by
  rw [load_givenNested, done] at loaded
  rw [Options.get_of_ofMapping (Entries.nodup_insert (nodup_below done) _ _) loaded
      (lookup_nested_flag done given) setting,
    Entries.lookup_insert_of_ne (Options.isSetting_iff.mp setting).1, nestedValue_nested]

include distinct

private theorem lookup_flat_flag (flag : Flag) :
    (Entries.update merged given).lookup flag.name ≠ none := by
  obtain ⟨held, found⟩ := Option.ne_none_iff_exists'.mp (lookup_below_flag done flag)
  rw [lookup_flat distinct, found]
  simp

include settings

/-- Settings that are given one by one win over everything that another source says. -/
theorem get_of_givenFlat {options : Options R}
    (loaded : load (givenFlat sources given) = .ok options) {key : String}
    (setting : Options.isSetting key = true) (absent : Value R) :
    options.settings.get key absent = ((given.lookup key).or
      ((merged.lookup key).or (Options.nestedValue merged key))).getD absent := by
  have unnamed := unnamed_of_load loaded
  have below : Options.nestedValue (Entries.update merged given) key =
      Options.nestedValue merged key := by
    rw [Options.nestedValue, Options.nestedValue, lookup_flat_settings distinct settings]
  rw [load_givenFlat sources unnamed, done] at loaded
  rw [Options.get_of_ofMapping (Entries.nodup_update (nodup_below done) _) loaded
      (lookup_flat_flag done distinct) setting, lookup_flat distinct, below, Option.or_assoc]

/-- What is undisputed is what makes the settings agree key by key. -/
theorem undisputed_iff {inner : Entries (Value R)} (nests : Options.nested merged = .ok inner) :
    Undisputed merged given ↔ ∀ key, key ∉ projectKeys →
      (Options.settingValues (Entries.update merged given) inner).lookup key =
        (Options.settingValues (Entries.insert "settings" (.dict given) merged) given).lookup
          key := by
  have unnested := lookup_given_settings settings
  have value (key : String) (noOption : key ∉ projectKeys) :
      (Options.settingValues (Entries.update merged given) inner).lookup key =
        (Options.settingValues (Entries.insert "settings" (.dict given) merged) given).lookup key ↔
      (∀ v held, given.lookup key = some v → merged.lookup key = some held → held = v) ∧
      (Options.nestedValue merged key ≠ none →
        key ≠ "settings" ∧ (given.lookup key ≠ none ∨ merged.lookup key ≠ none)) := by
    rw [Options.lookup_settingValues (Entries.nodup_update (nodup_below done) _),
      Options.lookup_settingValues (Entries.nodup_insert (nodup_below done) _ _),
      lookup_flat distinct, Options.lookup_nested nests]
    by_cases nesting : key = "settings"
    · subst nesting
      have beside : Options.isSetting "settings" = false := rfl
      simp [beside, unnested]
    · rw [if_pos (Options.isSetting_iff.mpr ⟨nesting, noOption⟩),
        if_pos (Options.isSetting_iff.mpr ⟨nesting, noOption⟩),
        Entries.lookup_insert_of_ne nesting]
      cases given.lookup key <;> cases merged.lookup key <;> simp [nesting, eq_comm]
  constructor
  · intro undisputed key noOption
    exact (value key noOption).mpr ⟨undisputed.same key, undisputed.overridden key noOption⟩
  · intro agree
    refine ⟨⟨inner, nests⟩, ?_, ?_⟩
    · intro key v held stated
      have member : key ∈ given.map Prod.fst :=
        List.mem_map_of_mem ((Entries.lookup_eq_some_iff_mem distinct).mp stated)
      have noOption := (Options.isSetting_iff.mp (settings key member)).2
      exact ((value key noOption).mp (agree key noOption)).1 v held stated
    · intro key noOption
      exact ((value key noOption).mp (agree key noOption)).2

/-- Both ways lead to the same options exactly if nothing that is given is disputed. -/
theorem alike_load_iff (unnamed : given.lookup fileArgument = none) :
    Alike Options.Same (load (givenFlat sources given)) (load (givenNested sources given)) ↔
      Undisputed merged given ∨ ∃ failure, load (givenFlat sources given) = .error failure ∧
        load (givenNested sources given) = .error failure := by
  have unmoved := Options.nested_congr (lookup_flat_settings distinct settings merged)
  have flat : load (givenFlat sources given) =
      Options.ofMapping (Entries.update merged given) := by
    rw [load_givenFlat sources unnamed, done, ok_bind]
  have nested : load (givenNested sources given) =
      Options.ofMapping (Entries.insert "settings" (.dict given) merged) := by
    rw [load_givenNested, done, ok_bind]
  rw [alike_iff]
  constructor
  · rintro (⟨first, second, loaded, loadedNested, same⟩ | failed)
    · left
      obtain ⟨inner, nests, read, -⟩ := Options.ofMapping_eq_ok (flat.symm.trans loaded)
      obtain ⟨given', nestsGiven, readNested, -⟩ :=
        Options.ofMapping_eq_ok (nested.symm.trans loadedNested)
      obtain rfl := Except.ok.inj ((nested_nested merged).symm.trans nestsGiven)
      apply (undisputed_iff done distinct settings (unmoved.symm.trans nests)).mpr
      intro key noOption
      exact Settings.lookup_eq_of_same read readNested
        (Options.settingValues_complete (Entries.nodup_update (nodup_below done) _)
          (lookup_flat_flag done distinct) inner)
        (Options.settingValues_complete (Entries.nodup_insert (nodup_below done) _ _)
          (lookup_nested_flag done _) _)
        same.settings noOption
    · exact .inr failed
  · rintro (undisputed | failed)
    · obtain ⟨inner, nests⟩ := undisputed.readable
      rw [← alike_iff, flat, nested]
      exact Options.alike_ofMapping (unmoved.trans nests) (nested_nested merged)
        (lookup_optionValues_given settings merged)
        ((undisputed_iff done distinct settings nests).mp undisputed)
    · exact .inr failed

end

/-- **What a caller nests has the lowest priority.** Let a caller give settings, none of which is
called like an option or like the nesting itself. If they are given one by one, a setting has the
value that is given, otherwise the one that the sources below give. If they are nested, it is the
other way round; since the sources below name every flag, a flag that is nested is never heard. The
two ways lead to the same options exactly if the sources below do not dispute what is given. They
fail for the same reason if the sources below fail, and otherwise only if they happen to; giving
settings one by one also fails if one of them is called like the argument that names a file. -/
theorem nested_overrides_agree_iff_undisputed {given : Entries (Value R)}
    (distinct : (given.map Prod.fst).Nodup)
    (settings : ∀ key ∈ given.map Prod.fst, key ≠ "settings" ∧ key ∉ projectKeys)
    (sources : ConfigSources R) :
    (Alike Options.Same (load (givenFlat sources given)) (load (givenNested sources given)) ↔
      (given.lookup fileArgument = none ∧
        ∃ merged, below sources = .ok merged ∧ Undisputed merged given) ∨
      ∃ failure, load (givenFlat sources given) = .error failure ∧
        load (givenNested sources given) = .error failure) ∧
    (∀ failure, below sources = .error failure →
      load (givenNested sources given) = .error failure ∧
      (given.lookup fileArgument = none → load (givenFlat sources given) = .error failure)) ∧
    ∀ merged, below sources = .ok merged →
      (∀ flag : Flag, merged.lookup flag.name ≠ none) ∧
      ∀ (options : Options R) (key : String) (absent : Value R),
        key ≠ "settings" → key ∉ projectKeys →
        (load (givenNested sources given) = .ok options → options.settings.get key absent =
          ((merged.lookup key).or (given.lookup key)).getD absent) ∧
        (load (givenFlat sources given) = .ok options → options.settings.get key absent =
          ((given.lookup key).or
            ((merged.lookup key).or (Options.nestedValue merged key))).getD absent) := by
  have named : ∀ key ∈ given.map Prod.fst, Options.isSetting key = true := by
    intro key member
    exact Options.isSetting_iff.mpr (settings key member)
  refine ⟨?_, ?_, ?_⟩
  · constructor
    · intro alike
      rcases alike_iff.mp alike with ⟨flat, nested, loaded, -⟩ | failed
      · have unnamed := unnamed_of_load loaded
        obtain ⟨merged, done⟩ := exists_below_of_load loaded
        rcases (alike_load_iff done distinct named unnamed).mp alike with undisputed | failed
        · exact .inl ⟨unnamed, merged, done, undisputed⟩
        · exact .inr failed
      · exact .inr failed
    · rintro (⟨unnamed, merged, done, undisputed⟩ | failed)
      · exact (alike_load_iff done distinct named unnamed).mpr (.inl undisputed)
      · exact alike_iff.mpr (.inr failed)
  · intro failure failed
    rw [load_givenNested, failed]
    refine ⟨rfl, fun unnamed => ?_⟩
    rw [load_givenFlat sources unnamed, failed]
    rfl
  · intro merged done
    refine ⟨lookup_below_flag done, ?_⟩
    intro options key absent beside noOption
    have setting := Options.isSetting_iff.mpr ⟨beside, noOption⟩
    exact ⟨fun loaded => get_of_givenNested done loaded setting absent,
      fun loaded => get_of_givenFlat done distinct named loaded setting absent⟩

/-- A flag that is off by default, and a setting that nothing else mentions. -/
def newFlag : Entries (Value Binary64) :=
  [("newmi", .bool true), ("depth", .int 3)]

/-- Without any other source, the flag comes on if it is given directly and stays off if it is
nested. -/
theorem nested_overrides_agree_iff_undisputed_newFlag :
    ∃ flat nested : Options Binary64,
      load (givenFlat {} newFlag) = .ok flat ∧ load (givenNested {} newFlag) = .ok nested ∧
      flat.settings.get "newmi" .null = .bool true ∧
      nested.settings.get "newmi" .null = .bool false ∧
      flat.settings.get "depth" .null = .int 3 ∧ nested.settings.get "depth" .null = .int 3 ∧
      ¬ Alike Options.Same (load (givenFlat {} newFlag)) (load (givenNested {} newFlag)) := by
  have distinct : (newFlag.map Prod.fst).Nodup := by decide
  have settings : ∀ key ∈ newFlag.map Prod.fst, key ≠ "settings" ∧ key ∉ projectKeys := by decide
  obtain ⟨flat, loaded⟩ : ∃ flat, load (givenFlat {} newFlag) = .ok flat := ⟨_, rfl⟩
  obtain ⟨nested, loadedNested⟩ : ∃ nested, load (givenNested {} newFlag) = .ok nested := ⟨_, rfl⟩
  obtain ⟨agree, -, value⟩ := nested_overrides_agree_iff_undisputed distinct settings {}
  obtain ⟨-, value⟩ := value defaults rfl
  have newmi := fun options => value options "newmi" .null (by decide) (by decide)
  have depth := fun options => value options "depth" .null (by decide) (by decide)
  refine ⟨flat, nested, loaded, loadedNested, (newmi flat).2 loaded, (newmi nested).1 loadedNested,
    (depth flat).2 loaded, (depth nested).1 loadedNested, ?_⟩
  intro alike
  rcases agree.mp alike with ⟨-, merged, done, undisputed⟩ | ⟨failure, failed, -⟩
  · obtain rfl : defaults = merged := Except.ok.inj done
    cases undisputed.same "newmi" _ _ rfl rfl
  · rw [loaded] at failed
    cases failed

end Config

end SourceMetrics
