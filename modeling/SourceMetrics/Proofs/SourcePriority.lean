import SourceMetrics.Config.Layers
import SourceMetrics.Proofs.ConfigReading
import SourceMetrics.Real.Binary64

/-! # Which source an option comes from

Sources are merged in the order of their priority into one mapping, which keeps a key where it was
first set. The spellings of an option are different keys, and only when the mapping is read as
options does the later one of them win. The later key is not always the one that was set last: if
the lowest and the highest of the sources that mention an option spell it in one way, and a source
between them in the other way (`Config.Reverts`), the source between them wins. In every other case
the highest source does (`Config.option_of_highest_unless_reverts`).
-/

namespace SourceMetrics

variable {R : Type}

/-- The options of a project run, apart from the settings. -/
inductive ProjectOption where
  | skipCalculation
  | noCoreSize
  | workers
deriving DecidableEq, Repr

namespace ProjectOption

/-- The plain name of an option. -/
def name : ProjectOption → String
  | .skipCalculation => "skip_calculation"
  | .noCoreSize => "no_core_size"
  | .workers => "workers"

/-- The ways in which an option may be spelled. -/
def spellings : ProjectOption → List String
  | .skipCalculation => ["skip_calculation", "skipCalculation"]
  | .noCoreSize => ["no_core_size", "noCoreSize"]
  | .workers => ["workers"]

/-- The value of an option that nothing mentions. -/
def default : ProjectOption → Value R
  | .skipCalculation | .noCoreSize => .bool false
  | .workers => .null

/-- The value of an option among options. -/
def valueIn (options : Options R) : ProjectOption → Value R
  | .skipCalculation => .bool options.skipCalculation
  | .noCoreSize => .bool options.noCoreSize
  | .workers => options.workersValue

private theorem plainSpelling_eq_name_iff (o : ProjectOption) (key : String) :
    Options.plainSpelling key = o.name ↔ key ∈ o.spellings := by
  unfold Options.plainSpelling
  by_cases skip : key = "skipCalculation"
  · subst skip
    cases o <;> decide
  · by_cases core : key = "noCoreSize"
    · subst core
      cases o <;> decide
    · cases o <;> simp [skip, core, name, spellings]

/-- The spelling of an option that is not a given one. -/
def otherSpelling (o : ProjectOption) (spelling : String) : String :=
  (o.spellings.find? fun other => other ≠ spelling).getD spelling

/-- An option has no third spelling. -/
theorem eq_otherSpelling {o : ProjectOption} {first second : String} (known : first ∈ o.spellings)
    (other : second ∈ o.spellings) (apart : second ≠ first) : second = o.otherSpelling first := by
  cases o <;> simp only [spellings, List.mem_cons, List.not_mem_nil, or_false] at known other
  case workers => exact absurd (other.trans known.symm) apart
  all_goals
    obtain rfl | rfl := known <;> obtain rfl | rfl := other
    · exact absurd rfl apart
    · rfl
    · rfl
    · exact absurd rfl apart

end ProjectOption

namespace Config

/-- The entries of a file's table, with those of a table of settings in its place. -/
def flattened (table : Entries (Value R)) : Entries (Value R) :=
  table.flatMap fun entry =>
    if entry.1 = "settings" then
      match entry.2 with
      | .dict entries => entries
      | _ => []
    else [entry]

/-- The entries of a file, if it is there and can be read. -/
def fileEntries : Option (FileTable R) → Entries (Value R)
  | some (.ok table) => flattened table
  | _ => []

/-- The entries that variables give. -/
def environmentEntries (environment : Entries String) : Entries (Value R) :=
  match Environment.read environment with
  | .ok given => given
  | .error _ => []

/-- What the sources give, from the lowest priority to the highest: the project's own file, the file
that the caller names, the environment, and what the caller gives directly. -/
def layers (sources : ConfigSources R) : List (Entries (Value R)) :=
  [fileEntries (sources.project.map Prod.snd), fileEntries (sources.named.bind Prod.snd),
    environmentEntries sources.environment, sources.overrides]

/-- What each source that mentions an option says about it and in which spelling, from the lowest
priority to the highest. -/
def said (o : ProjectOption) (sources : ConfigSources R) : Entries (Value R) :=
  (layers sources).filterMap fun layer => layer.find? fun entry => entry.1 ∈ o.spellings

/-- The lowest and the highest use one spelling, and one between them uses another. -/
def Reverts (entries : Entries (Value R)) : Prop :=
  ∃ low between high, entries = low :: (between ++ [high]) ∧ low.1 = high.1 ∧
    ∃ entry ∈ between, entry.1 ≠ low.1

/-- An option is read from the last entry that mentions it in any spelling. -/
theorem lookup_optionValues_name (values : Entries (Value R)) (o : ProjectOption) :
    (Options.optionValues values).lookup o.name =
      (values.filter fun entry => entry.1 ∈ o.spellings).getLast?.map Prod.snd := by
  have known : Options.isOption o.name = true := by cases o <;> decide
  have unnested : o.name ≠ "settings" := by cases o <;> decide
  rw [Options.lookup_optionValues values known unnested]
  simp only [o.plainSpelling_eq_name_iff]

/-- A source that mentions an option once says one thing about it. -/
theorem filter_layers {o : ProjectOption} {sources : ConfigSources R}
    (once : ∀ layer ∈ layers sources,
      (layer.filter fun entry => entry.1 ∈ o.spellings).length ≤ 1) :
    ((layers sources).flatten.filter fun entry => entry.1 ∈ o.spellings) = said o sources := by
  have single (layer : Entries (Value R)) (member : layer ∈ layers sources) :
      (layer.filter fun entry => entry.1 ∈ o.spellings) =
        (layer.find? fun entry => entry.1 ∈ o.spellings).toList := by
    have few := once layer member
    rw [← List.head?_filter]
    cases mentions : layer.filter fun entry => entry.1 ∈ o.spellings with
    | nil => rfl
    | cons entry rest =>
      rw [mentions, List.length_cons] at few
      obtain rfl : rest = [] := List.length_eq_zero_iff.mp (by omega)
      rfl
  rw [List.filter_flatten, said, List.filterMap_eq_flatMap_toList, List.flatMap_def]
  congr 1
  exact List.map_congr_left single

private theorem spelled {o : ProjectOption} {sources : ConfigSources R}
    {entry : String × Value R} (member : entry ∈ said o sources) : entry.1 ∈ o.spellings := by
  obtain ⟨layer, -, found⟩ := List.mem_filterMap.mp member
  simpa using List.find?_some found

variable [Arithmetic R]

private theorem mergeEntry_eq_ok {merged next : Entries (Value R)} {entry : String × Value R}
    (done : mergeEntry merged entry = .ok next) :
    next = Entries.update merged (flattened [entry]) := by
  unfold mergeEntry at done
  by_cases nesting : entry.1 = "settings"
  · rw [if_pos nesting] at done
    cases held : entry.2 with
    | dict entries =>
      rw [held] at done
      cases done
      simp [flattened, nesting, held]
    | _ =>
      rw [held] at done
      cases done
  · rw [if_neg nesting] at done
    cases done
    simp [flattened, nesting, Entries.update]

/-- Merging a table is setting its entries one after another. -/
theorem mergeTable_eq_ok {merged next table : Entries (Value R)}
    (done : mergeTable merged table = .ok next) :
    next = Entries.update merged (flattened table) := by
  unfold mergeTable at done
  induction table generalizing merged with
  | nil =>
    cases done
    rfl
  | cons entry rest ih =>
    rw [List.foldlM_cons, bind_eq_ok] at done
    obtain ⟨middle, first, onward⟩ := done
    have split : flattened (entry :: rest) = flattened [entry] ++ flattened rest := by
      simp [flattened]
    rw [ih onward, mergeEntry_eq_ok first, split, Entries.update_append]

/-- A file that has been merged could be read, and its table has been merged. -/
theorem mergeFile_eq_ok {title path : String} {file : FileTable R} {merged next : Entries (Value R)}
    (done : mergeFile title merged path file = .ok next) :
    ∃ table, file = .ok table ∧ next = Entries.update merged (flattened table) := by
  unfold mergeFile at done
  cases file with
  | error reason => cases done
  | ok table =>
    refine ⟨table, rfl, ?_⟩
    cases outcome : mergeTable merged table with
    | error failure =>
      simp only [outcome] at done
      cases failure <;> cases done
    | ok all =>
      simp only [outcome] at done
      cases done
      exact mergeTable_eq_ok outcome

private theorem mergeProject_eq_ok {sources : ConfigSources R} {merged next : Entries (Value R)}
    (done : mergeProject sources merged = .ok next) :
    next = Entries.update merged (fileEntries (sources.project.map Prod.snd)) := by
  unfold mergeProject at done
  cases there : sources.project with
  | none =>
    rw [there] at done
    cases done
    rfl
  | some entry =>
    obtain ⟨path, file⟩ := entry
    rw [there] at done
    obtain ⟨table, rfl, merges⟩ := mergeFile_eq_ok done
    exact merges

private theorem mergeNamed_eq_ok {sources : ConfigSources R} {merged next : Entries (Value R)}
    (done : mergeNamed sources merged = .ok next) :
    next = Entries.update merged (fileEntries (sources.named.bind Prod.snd)) := by
  unfold mergeNamed at done
  cases asked : sources.named with
  | none =>
    rw [asked] at done
    cases done
    rfl
  | some file =>
    obtain ⟨path, there⟩ := file
    cases there with
    | none =>
      rw [asked] at done
      cases done
    | some content =>
      rw [asked] at done
      obtain ⟨table, rfl, merges⟩ := mergeFile_eq_ok done
      exact merges

/-- All sources together set the entries of one after those of another. -/
theorem merge_eq_ok {sources : ConfigSources R} {merged : Entries (Value R)}
    (done : merge sources = .ok merged) :
    merged = Entries.update defaults (layers sources).flatten := by
  simp only [merge, bind_eq_ok] at done
  obtain ⟨first, project, second, named, given, read, ⟨⟩⟩ := done
  have fromVariables : environmentEntries sources.environment = given := by
    simp only [environmentEntries, read]
  rw [mergeNamed_eq_ok named, mergeProject_eq_ok project, layers, fromVariables]
  simp [Entries.update_append]

/-- Options are loaded from the defaults and all layers, each written over the ones before. -/
theorem load_eq_ok {sources : ConfigSources R} {options : Options R}
    (loaded : load sources = .ok options) :
    Options.ofMapping (Entries.update defaults (layers sources).flatten) = .ok options := by
  unfold load at loaded
  split at loaded
  · cases loaded
  · obtain ⟨merged, done, read⟩ := bind_eq_ok.mp loaded
    rw [← merge_eq_ok done]
    exact read

/-- An option has the value of the last entry that mentions it, or its default. -/
theorem valueIn_eq {values : Entries (Value R)} {options : Options R}
    (read : Options.ofMapping values = .ok options) (o : ProjectOption) :
    o.valueIn options =
      ((values.filter fun entry => entry.1 ∈ o.spellings).getLast?.map Prod.snd).getD o.default := by
  rw [← lookup_optionValues_name]
  obtain ⟨-, -, -, skip, core, workers⟩ := Options.ofMapping_eq_ok read
  cases o with
  | skipCalculation => exact Settings.bool_of_readBoolean skip
  | noCoreSize => exact Settings.bool_of_readBoolean core
  | workers =>
    unfold Options.readWorkers at workers
    change options.workersValue = ((Options.optionValues values).lookup "workers").getD .null
    unfold Options.workersValue
    cases found : (Options.optionValues values).lookup "workers" with
    | none =>
      rw [found] at workers
      rw [← Except.ok.inj workers]
      rfl
    | some value =>
      rw [found] at workers
      cases value with
      | null =>
        rw [← Except.ok.inj workers]
        rfl
      | int count =>
        simp only at workers
        split at workers
        · cases workers
        · rw [← Except.ok.inj workers]
          rfl
      | _ => cases workers

/-- The value of an option is the last one in the mapping of what is said about it. -/
theorem valueIn_load {sources : ConfigSources R} {options : Options R}
    (loaded : load sources = .ok options) {o : ProjectOption}
    (once : ∀ layer ∈ layers sources,
      (layer.filter fun entry => entry.1 ∈ o.spellings).length ≤ 1) :
    o.valueIn options =
      ((Entries.ofPairs (said o sources)).getLast?.map Prod.snd).getD o.default := by
  have unmentioned : ((defaults : Entries (Value R)).filter fun entry => entry.1 ∈ o.spellings) =
      [] := by
    cases o <;> rfl
  rw [valueIn_eq (load_eq_ok loaded) o,
    Entries.filter_update (fun key => key ∈ o.spellings), unmentioned, filter_layers once]
  rfl

/-- A spelling that comes in after the lowest one wins over it. -/
theorem valueIn_of_said {sources : ConfigSources R} {options : Options R}
    (loaded : load sources = .ok options) {o : ProjectOption}
    (once : ∀ layer ∈ layers sources,
      (layer.filter fun entry => entry.1 ∈ o.spellings).length ≤ 1)
    {low : String × Value R} {rest : Entries (Value R)} (heard : said o sources = low :: rest) :
    o.valueIn options = (((rest.filter fun entry => entry.1 ≠ low.1).getLast?.or
      (low :: rest).getLast?).map Prod.snd).getD o.default := by
  have known : low.1 ∈ o.spellings := by
    apply spelled
    rw [heard]
    exact List.mem_cons_self
  have two : ∀ pair ∈ rest, pair.1 ≠ low.1 → pair.1 = o.otherSpelling low.1 := by
    intro pair member apart
    have listed : pair.1 ∈ o.spellings := by
      apply spelled
      rw [heard]
      exact List.mem_cons_of_mem _ member
    exact ProjectOption.eq_otherSpelling known listed apart
  rw [valueIn_load loaded once, heard, Entries.getLast?_ofPairs_cons two]

/-- Where no source mentions an option twice, an option has the value that the highest of the
sources mentioning it gives, and its default if none does, unless the spelling reverts: then it has
the value of the last source that spells it otherwise than the lowest and the highest do. The number
of workers has one spelling, so it always comes from the highest source. -/
theorem option_of_highest_unless_reverts {sources : ConfigSources R} {options : Options R}
    (loaded : load sources = .ok options) (o : ProjectOption)
    (once : ∀ layer ∈ layers sources,
      (layer.filter fun entry => entry.1 ∈ o.spellings).length ≤ 1) :
    (¬ Reverts (said o sources) →
      o.valueIn options = ((said o sources).getLast?.map Prod.snd).getD o.default) ∧
    (∀ low between high entry, said o sources = low :: (between ++ [high]) → low.1 = high.1 →
      (between.filter fun other => other.1 ≠ low.1).getLast? = some entry →
      o.valueIn options = entry.2) ∧
    (o = .workers → ¬ Reverts (said o sources)) := by
  refine ⟨?_, ?_, ?_⟩
  · intro steady
    cases heard : said o sources with
    | nil => rw [valueIn_load loaded once, heard]; rfl
    | cons low rest =>
      rw [valueIn_of_said loaded once heard]
      cases last : (rest.filter fun entry => entry.1 ≠ low.1).getLast? with
      | none => rfl
      | some entry =>
        -- The last source must not use the first spelling again, so it is the one that is found.
        obtain ⟨inside, apart⟩ := List.mem_filter.mp (List.mem_of_getLast? last)
        obtain ⟨between, high, rfl⟩ : ∃ between high, rest = between ++ [high] := by
          rcases List.eq_nil_or_concat rest with rfl | ⟨between, high, split⟩
          · cases inside
          · exact ⟨between, high, by rw [split, List.concat_eq_append]⟩
        have renewed : high.1 ≠ low.1 := by
          intro again
          have earlier : entry ∈ between := by
            rcases List.mem_append.mp inside with earlier | latest
            · exact earlier
            · rw [List.mem_singleton.mp latest, again] at apart
              simp at apart
          exact steady ⟨low, between, high, heard, again.symm, entry, earlier, by simpa using apart⟩
        rw [List.filter_append, List.filter_singleton] at last
        simp only [renewed, ne_eq, not_false_eq_true, decide_true, cond_true,
          List.getLast?_append, List.getLast?_singleton, Option.some_or] at last
        simp [← last, List.getLast?_cons]
  · intro low between high entry heard again last
    have others : ((between ++ [high]).filter fun other => other.1 ≠ low.1) =
        between.filter fun other => other.1 ≠ low.1 := by
      simp [again]
    rw [valueIn_of_said loaded once heard, others, last]
    rfl
  · rintro rfl ⟨low, between, high, heard, -, entry, member, apart⟩
    have one (e : String × Value R) (listed : e ∈ said .workers sources) : e.1 = "workers" := by
      simpa [ProjectOption.spellings] using spelled listed
    rw [heard] at one
    exact apart ((one entry (by simp [member])).trans (one low (by simp)).symm)

/-- Two files and what the caller gives directly, with two spellings of one option. -/
def twoSpellings : ConfigSources Binary64 where
  project := some ("complexity-insight.toml", .ok [("no_core_size", .bool false)])
  named := some ("custom.toml", some (.ok [("noCoreSize", .bool false)]))
  overrides := [("no_core_size", .bool true)]

/-- What the caller gives directly loses to the file between. -/
theorem option_of_highest_unless_reverts_twoSpellings :
    ∃ options : Options Binary64, load twoSpellings = .ok options ∧
      (∀ layer ∈ layers twoSpellings,
        (layer.filter fun entry => entry.1 ∈ ProjectOption.noCoreSize.spellings).length ≤ 1) ∧
      (said .noCoreSize twoSpellings).getLast? = some ("no_core_size", .bool true) ∧
      options.noCoreSize = false := by
  have given : layers twoSpellings = [[("no_core_size", .bool false)],
      [("noCoreSize", .bool false)], [], [("no_core_size", .bool true)]] := by
    rfl
  have heard : said .noCoreSize twoSpellings = [("no_core_size", .bool false),
      ("noCoreSize", .bool false), ("no_core_size", .bool true)] := by
    rw [said, given]
    rfl
  have once : ∀ layer ∈ layers twoSpellings,
      (layer.filter fun entry => entry.1 ∈ ProjectOption.noCoreSize.spellings).length ≤ 1 := by
    rw [given]
    decide
  have accepted : (load twoSpellings).isOk = true := by
    decide +kernel
  cases loaded : load twoSpellings with
  | error failure =>
    rw [loaded] at accepted
    cases accepted
  | ok options =>
    refine ⟨options, rfl, once, by rw [heard]; rfl, ?_⟩
    obtain ⟨-, reverted, -⟩ := option_of_highest_unless_reverts loaded .noCoreSize once
    exact Value.bool.inj (reverted _ [("noCoreSize", .bool false)] _ _ heard rfl rfl)

end Config

end SourceMetrics
