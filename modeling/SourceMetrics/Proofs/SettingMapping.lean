import SourceMetrics.Proofs.ConfigReading
import SourceMetrics.Real.Binary64

/-! # Settings as a mapping and back

All settings are written as one mapping, in which the flags and the walker's settings share the keys
(`Settings.lookup_toMapping`). When a mapping is read, a name of a flag is always a flag and the
keys of a project run are passed over. So settings come back from their mapping exactly if the
walker's settings take none of these names (`Settings.same_ofMapping_toMapping`), and settings that
were read from a mapping never take one (`Settings.unreserved_of_ofMapping`).
-/

namespace SourceMetrics.Settings

variable {R : Type}

/-- Settings are the same if they have the same flags and give the walker the same mapping. -/
structure Same (left right : Settings R) : Prop where
  flags : left.flags = right.flags
  extra : left.extra.Same right.extra

/-- No setting of the walker is called like a flag or like a key of a project run. -/
def Unreserved (s : Settings R) : Prop :=
  ∀ key ∈ s.extra.map Prod.fst, (∀ flag : Flag, key ≠ flag.name) ∧ key ∉ projectKeys

/-- A name is for walkers exactly if neither a flag nor an option of a project has it. -/
theorem isExtra_iff {key : String} :
    isExtra key = true ↔ (∀ flag : Flag, key ≠ flag.name) ∧ key ∉ projectKeys := by
  rw [isExtra, Bool.and_eq_true_iff, Option.isNone_iff_eq_none, Flag.ofName_eq_none_iff,
    Bool.not_eq_true', ← Bool.not_eq_true, List.contains_iff_mem]

private theorem unreserved_iff {s : Settings R} :
    s.Unreserved ↔ ∀ entry ∈ s.extra, isExtra entry.1 = true := by
  simp only [Unreserved, isExtra_iff, List.forall_mem_map]

/-- The mapping of settings has the flags under their names and, under any other key, what the
walker has there. -/
theorem lookup_toMapping (s : Settings R) (key : String) :
    s.toMapping.lookup key =
      ((Flag.ofName? key).map fun flag => .bool (s.flags flag)).or (s.extra.lookup key) := by
  have distinct : (s.flagEntries.map Prod.fst).Nodup := by
    change (Flag.all.map Flag.name).Nodup
    decide
  rw [toMapping, Entries.lookup_update, Entries.lookup_reverse_of_nodup distinct, flagEntries,
    Flag.lookup_all]

/-- Asking settings for a name is looking it up in their mapping. -/
theorem get_eq_lookup (s : Settings R) (key : String) (default : Value R) :
    s.get key default = (s.toMapping.lookup key).getD default := by
  rw [lookup_toMapping, get]
  cases Flag.ofName? key <;> rfl

/-- Adding the flags to the walker's settings adds none to them. -/
theorem filter_toMapping (s : Settings R) :
    (s.toMapping.filter fun entry => isExtra entry.1) =
      s.extra.filter fun entry => isExtra entry.1 := by
  have noFlag : (s.flagEntries.filter fun entry => isExtra entry.1) = [] := by
    apply List.filter_eq_nil_iff.mpr
    intro entry member
    obtain ⟨flag, -, rfl⟩ := List.mem_map.mp member
    rw [isExtra_iff]
    intro extra
    exact extra.1 flag rfl
  rw [toMapping, Entries.filter_update, noFlag, Entries.update_nil]

variable [Arithmetic R]

/-- Settings are always read back from their mapping, without reserved names. -/
theorem ofMapping_toMapping (s : Settings R) : ofMapping s.toMapping =
    .ok { flags := s.flags, extra := s.extra.filter fun entry => isExtra entry.1 } := by
  rw [ofMapping_eq_ok]
  constructor
  · intro flag
    rw [readBoolean_eq_ok, lookup_toMapping, Flag.ofName_name]
    exact .inl rfl
  · exact (filter_toMapping s).symm

/-- Settings come back from their mapping exactly if no name is reserved. -/
theorem same_ofMapping_toMapping {s t : Settings R} (read : ofMapping s.toMapping = .ok t) :
    t.Same s ↔ s.Unreserved := by
  obtain rfl := Except.ok.inj ((ofMapping_toMapping s).symm.trans read)
  rw [unreserved_iff]
  constructor
  · rintro ⟨-, extra⟩ ⟨key, value⟩ member
    have kept := extra key
    rw [Entries.lookup_filter] at kept
    by_contra reserved
    rw [if_neg reserved, eq_comm, List.lookup_eq_none_iff] at kept
    simpa using kept _ member
  · intro free
    refine ⟨rfl, fun key => ?_⟩
    rw [List.filter_eq_self.mpr free]

private theorem eq_of_unreserved {s t : Settings R} (free : s.Unreserved)
    (read : ofMapping s.toMapping = .ok t) : t = s := by
  obtain rfl := Except.ok.inj ((ofMapping_toMapping s).symm.trans read)
  exact eq_of_fields rfl (List.filter_eq_self.mpr (unreserved_iff.mp free))

/-- No setting that is read from a mapping has a reserved name. -/
theorem unreserved_of_ofMapping {values : Entries (Value R)} {s : Settings R}
    (read : ofMapping values = .ok s) : s.Unreserved := by
  rw [unreserved_iff, (ofMapping_eq_ok.mp read).2]
  intro entry member
  exact (List.mem_filter.mp member).2

/-- A mapping without the keys of a project run, and with the flags that it leaves out set to
off. -/
def completed (values : Entries (Value R)) : Entries (Value R) :=
  (values.filter fun entry => !projectKeys.contains entry.1) ++
    (({ flags := fun _ => false } : Settings R).flagEntries.filter fun entry =>
      (values.lookup entry.1).isNone)

omit [Arithmetic R] in
private theorem lookup_completed (values : Entries (Value R)) (key : String) :
    (completed values).lookup key =
      (if projectKeys.contains key then none else values.lookup key).or
        (if (values.lookup key).isNone then (Flag.ofName? key).map fun _ => .bool false
          else none) := by
  rw [completed, List.lookup_append, Entries.lookup_filter fun key => !projectKeys.contains key,
    Entries.lookup_filter fun key => (values.lookup key).isNone, flagEntries, Flag.lookup_all]
  cases projectKeys.contains key <;> rfl

/-- Settings that were read from a mapping are written as that mapping, completed. -/
theorem toMapping_of_ofMapping {values : Entries (Value R)} {s : Settings R}
    (read : ofMapping values = .ok s) : s.toMapping.Same (completed values) := by
  intro key
  rw [lookup_toMapping, lookup_completed, lookup_extra_of_ofMapping read]
  cases found : Flag.ofName? key with
  | some flag =>
    obtain rfl := Flag.name_of_ofName found
    have noOption : projectKeys.contains flag.name = false := by
      simpa using flag.name_not_mem_projectKeys
    simp only [flag_of_ofMapping read, noOption, Option.map_some, Option.some_or]
    cases values.lookup flag.name <;> rfl
  | none =>
    have walkers : isExtra key = !projectKeys.contains key := by rw [isExtra, found]; rfl
    rw [walkers]
    cases projectKeys.contains key <;> simp

/-- **Settings and their mapping.** Settings can always be read back from their mapping. What comes
back are the same settings, even with the walker's settings in the same order, if none of these is
called like a flag or like a key of a project run, and only then; for settings that were read from a
mapping this is the case. Conversely, a mapping in which every flag has a truth value is accepted,
and the settings are written as that mapping without the keys of a project run and with the flags
that it leaves out set to off. A setting can be asked for by name or looked up in the mapping. -/
theorem mapping_inverts_unless_reserved :
    (∀ s : Settings R, ∃ t, ofMapping s.toMapping = .ok t ∧ (t.Same s ↔ s.Unreserved) ∧
      (s.Unreserved → t = s)) ∧
    (∀ (values : Entries (Value R)) (s : Settings R), ofMapping values = .ok s → s.Unreserved) ∧
    (∀ values : Entries (Value R),
      (∀ (flag : Flag) (value : Value R), values.lookup flag.name = some value →
        ∃ b, value = .bool b) →
      ∃ s, ofMapping values = .ok s ∧ s.toMapping.Same (completed values)) ∧
    ∀ (s : Settings R) (key : String) (default : Value R),
      s.get key default = (s.toMapping.lookup key).getD default := by
  refine ⟨?_, ?_, ?_, get_eq_lookup⟩
  · intro s
    have read := ofMapping_toMapping s
    exact ⟨_, read, same_ofMapping_toMapping read, fun free => eq_of_unreserved free read⟩
  · intro values s read
    exact unreserved_of_ofMapping read
  · intro values truths
    have readable (flag : Flag) : ∃ b, readBoolean values flag.name false = .ok b := by
      cases found : values.lookup flag.name with
      | none => exact ⟨false, readBoolean_eq_ok.mpr (.inr ⟨found, rfl⟩)⟩
      | some value =>
        obtain ⟨b, rfl⟩ := truths flag value found
        exact ⟨b, readBoolean_eq_ok.mpr (.inl found)⟩
    obtain ⟨s, read⟩ := exists_ofMapping readable
    exact ⟨s, read, toMapping_of_ofMapping read⟩

/-- A flag and a setting of the walker. -/
def walkersOwn : Settings Binary64 where
  flags flag := flag = .trycatch
  extra := [("jsx", .bool true)]

/-- The same with a setting of the walker that is called like a flag, and one like an option. -/
def misnamed : Settings Binary64 where
  flags := walkersOwn.flags
  extra := [("forin", .bool true), ("jsx", .bool true), ("noCoreSize", .bool true)]

/-- The misnamed settings are lost on the way back, and a mapping loses its option. -/
theorem mapping_inverts_unless_reserved_jsx :
    ofMapping walkersOwn.toMapping = .ok walkersOwn ∧
      (∃ t, ofMapping misnamed.toMapping = .ok t ∧ ¬ t.Same misnamed) ∧
      ∃ s : Settings Binary64,
        ofMapping [("noCoreSize", .bool true), ("forin", .bool true), ("depth", .int 3)] = .ok s ∧
        s.Unreserved ∧ s.get "newmi" .null = .bool false ∧
        s.toMapping.Same [("forin", .bool true), ("depth", .int 3), ("logicalor", .bool false),
          ("switchcase", .bool false), ("trycatch", .bool false), ("newmi", .bool false)] := by
  obtain ⟨back, free, written, asked⟩ := mapping_inverts_unless_reserved (R := Binary64)
  refine ⟨?_, ?_, ?_⟩
  · obtain ⟨t, read, -, same⟩ := back walkersOwn
    have unreserved : walkersOwn.Unreserved := by
      rw [unreserved_iff]
      intro entry member
      rw [List.mem_singleton.mp member]
      rfl
    rw [read, same unreserved]
  · obtain ⟨t, read, same, -⟩ := back misnamed
    refine ⟨t, read, fun again => ?_⟩
    exact (same.mp again "forin" List.mem_cons_self).1 .forin rfl
  · obtain ⟨s, read, same⟩ :=
      written [("noCoreSize", .bool true), ("forin", .bool true), ("depth", .int 3)] (by
        intro flag value found
        cases flag <;> cases found
        exact ⟨true, rfl⟩)
    refine ⟨s, read, free _ s read, ?_, same⟩
    rw [asked, same]
    rfl

end SourceMetrics.Settings
