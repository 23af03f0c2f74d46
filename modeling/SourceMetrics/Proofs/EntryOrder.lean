import Mathlib.Data.List.Induction
import Mathlib.Data.List.Nodup
import SourceMetrics.Value.Basic

/-! # Where a mapping keeps its keys

A mapping keeps a key at the place where it was first set and gives it the value that was set last,
so it never names a key twice (`Entries.nodup_update`). For a row of pairs this is one equation
(`Entries.ofPairs_cons`): the first pair stays in front, with the last value of its key, and what
follows is the mapping of the pairs with other keys. Restricting a mapping to some keys can be done
before or after the pairs are set (`Entries.filter_update`).

Mappings are compared by what they give to each key (`Entries.Same`), so the order of the keys does
not count (`Entries.same_of_perm`).
-/

namespace SourceMetrics.Entries

variable {α : Type}

@[simp] theorem update_nil (entries : Entries α) : update entries [] = entries := rfl

private theorem update_cons (entries : Entries α) (entry : String × α) (more : Entries α) :
    update entries (entry :: more) = update (insert entry.1 entry.2 entries) more := rfl

theorem update_append (entries first second : Entries α) :
    update entries (first ++ second) = update (update entries first) second := by
  simp only [update, List.foldl_append]

private theorem insert_of_ne {key other : String} (different : other ≠ key) (value held : α)
    (rest : Entries α) :
    insert key value ((other, held) :: rest) = (other, held) :: insert key value rest := by
  rw [insert, if_neg different]

/-- Looking a key up among the entries whose keys pass a test. -/
theorem lookup_filter (test : String → Bool) (entries : Entries α) (key : String) :
    (entries.filter fun entry => test entry.1).lookup key =
      if test key then entries.lookup key else none := by
  induction entries with
  | nil => simp
  | cons entry rest ih =>
    obtain ⟨name, value⟩ := entry
    by_cases same : key = name
    · subst same
      by_cases passes : test key = true
      · simp [passes]
      · simpa [passes] using ih
    · have apart : (key == name) = false := by simpa using same
      by_cases passes : test name = true
      · simpa [passes, List.lookup_cons, apart] using ih
      · simpa [passes, List.lookup_cons, apart] using ih

/-- The last value of a key is that of the last pair with the key. -/
theorem lookup_reverse (pairs : Entries α) (key : String) :
    pairs.reverse.lookup key =
      (pairs.filter fun entry => entry.1 = key).getLast?.map Prod.snd := by
  induction pairs using List.reverseRecOn with
  | nil => rfl
  | append_singleton pairs pair ih =>
    obtain ⟨name, value⟩ := pair
    rw [List.reverse_concat, List.filter_append]
    by_cases same : name = key
    · subst same
      simp
    · have apart : (key == name) = false := by simpa using Ne.symm same
      simp [List.lookup_cons, apart, same, ih]

/-- Nothing stands under a name that no entry has. -/
theorem lookup_eq_none_of_not_mem {entries : Entries α} {key : String}
    (absent : key ∉ entries.map Prod.fst) : entries.lookup key = none := by
  rw [List.lookup_eq_none_iff]
  intro entry member
  have different : key ≠ entry.1 := fun same => absent (same ▸ List.mem_map_of_mem member)
  simpa using different

/-- What a mapping holds is smaller than the mapping. -/
theorem sizeOf_lt_of_lookup [SizeOf α] {entries : Entries α} {key : String} {value : α}
    (found : entries.lookup key = some value) : sizeOf value < sizeOf entries := by
  induction entries with
  | nil => cases found
  | cons entry rest ih =>
    obtain ⟨name, held⟩ := entry
    rw [List.lookup_cons] at found
    by_cases same : (key == name) = true
    · simp only [same, Option.some.injEq] at found
      subst found
      simp only [List.cons.sizeOf_spec, Prod.mk.sizeOf_spec]
      omega
    · simp only [same] at found
      have below := ih found
      simp only [List.cons.sizeOf_spec]
      omega

private theorem map_fst_insert (key : String) (value : α) (entries : Entries α) :
    (insert key value entries).map Prod.fst =
      if key ∈ entries.map Prod.fst then entries.map Prod.fst
      else entries.map Prod.fst ++ [key] := by
  induction entries with
  | nil => rfl
  | cons entry rest ih =>
    obtain ⟨name, held⟩ := entry
    by_cases same : name = key
    · subst same
      simp [insert]
    · rw [insert_of_ne same, List.map_cons, ih]
      by_cases inside : key ∈ rest.map Prod.fst
      · simp [inside]
      · simp [inside, Ne.symm same]

/-- Writing an entry does not repeat a name. -/
theorem nodup_insert {entries : Entries α} (distinct : (entries.map Prod.fst).Nodup) (key : String)
    (value : α) : ((insert key value entries).map Prod.fst).Nodup := by
  rw [map_fst_insert]
  split
  · exact distinct
  · next fresh => exact List.concat_eq_append ▸ distinct.concat fresh

/-- A mapping names no key twice, whatever is set in it. -/
theorem nodup_update {entries : Entries α} (distinct : (entries.map Prod.fst).Nodup)
    (more : Entries α) : ((update entries more).map Prod.fst).Nodup := by
  induction more generalizing entries with
  | nil => exact distinct
  | cons entry rest ih => exact ih (nodup_insert distinct entry.1 entry.2)

/-- Restricting to some keys after a key is set. -/
theorem filter_insert (test : String → Bool) (key : String) (value : α) (entries : Entries α) :
    (insert key value entries).filter (fun entry => test entry.1) =
      if test key then insert key value (entries.filter fun entry => test entry.1)
      else entries.filter fun entry => test entry.1 := by
  induction entries with
  | nil => by_cases passes : test key = true <;> simp [insert, passes]
  | cons entry rest ih =>
    obtain ⟨name, held⟩ := entry
    by_cases same : name = key
    · subst same
      by_cases passes : test name = true <;> simp [insert, passes]
    · rw [insert_of_ne same]
      by_cases kept : test name = true
      · by_cases passes : test key = true
        · simp only [List.filter_cons, kept, ih, passes, if_true, insert_of_ne same]
        · simp only [List.filter_cons, kept, ih, passes, if_true, if_false, Bool.false_eq_true]
      · simp only [List.filter_cons, kept, ih, if_false, Bool.false_eq_true]

/-- Restricting to some keys can be done before the pairs are set. -/
theorem filter_update (test : String → Bool) (entries more : Entries α) :
    (update entries more).filter (fun entry => test entry.1) =
      update (entries.filter fun entry => test entry.1) (more.filter fun entry => test entry.1) := by
  induction more generalizing entries with
  | nil => rfl
  | cons entry rest ih =>
    rw [update_cons, ih, filter_insert]
    by_cases passes : test entry.1 = true
    · rw [if_pos passes, List.filter_cons, if_pos passes, update_cons]
    · rw [if_neg passes, List.filter_cons, if_neg passes]

/-- The first entry of a mapping stays first, whatever is set after it. -/
theorem update_cons_entry (key : String) (value : α) (rest more : Entries α) :
    update ((key, value) :: rest) more =
      (key, (more.reverse.lookup key).getD value) ::
        update rest (more.filter fun entry => entry.1 ≠ key) := by
  induction more generalizing value rest with
  | nil => rfl
  | cons entry more ih =>
    obtain ⟨name, given⟩ := entry
    rw [update_cons, List.reverse_cons, List.lookup_append]
    by_cases same : name = key
    · subst same
      have front : insert name given ((name, value) :: rest) = (name, given) :: rest := by
        rw [insert, if_pos rfl]
      rw [front, ih]
      cases more.reverse.lookup name <;> simp
    · have apart : (key == name) = false := by simpa using Ne.symm same
      rw [insert_of_ne (Ne.symm same), ih]
      simp [same, apart, List.lookup_cons, update_cons]

/-- A key is kept where it was first set, with the value that was set last. -/
theorem ofPairs_cons (key : String) (value : α) (pairs : Entries α) :
    ofPairs ((key, value) :: pairs) =
      (key, (pairs.reverse.lookup key).getD value) ::
        ofPairs (pairs.filter fun entry => entry.1 ≠ key) :=
  update_cons_entry key value [] pairs

/-- Pairs with different keys are the mapping that they give. -/
theorem ofPairs_of_nodup {pairs : Entries α} (distinct : (pairs.map Prod.fst).Nodup) :
    ofPairs pairs = pairs := by
  induction pairs with
  | nil => rfl
  | cons pair rest ih =>
    obtain ⟨key, value⟩ := pair
    obtain ⟨absent, onward⟩ : key ∉ rest.map Prod.fst ∧ (rest.map Prod.fst).Nodup :=
      List.nodup_cons.mp distinct
    have unset : rest.reverse.lookup key = none :=
      lookup_eq_none_of_not_mem (by simpa using absent)
    have others : (rest.filter fun entry => entry.1 ≠ key) = rest := by
      apply List.filter_eq_self.mpr
      intro entry member
      have different : entry.1 ≠ key := by
        rintro rfl
        exact absent (List.mem_map_of_mem member)
      simpa using different
    rw [ofPairs_cons, unset, others, ih onward]
    rfl

/-- With different keys, the last value of a key is its value. -/
theorem lookup_reverse_of_nodup {pairs : Entries α} (distinct : (pairs.map Prod.fst).Nodup)
    (key : String) : pairs.reverse.lookup key = pairs.lookup key := by
  have whole := lookup_update [] pairs key
  rw [List.lookup_nil, Option.or_none] at whole
  rw [← whole]
  exact congrArg (List.lookup key) (ofPairs_of_nodup distinct)

/-- Two mappings are the same if they give the same value to every key. -/
def Same (entries others : Entries α) : Prop :=
  ∀ key, entries.lookup key = others.lookup key

/-- With different keys, the value of a key stands anywhere. -/
theorem lookup_eq_some_iff_mem {entries : Entries α} (distinct : (entries.map Prod.fst).Nodup)
    {key : String} {value : α} : entries.lookup key = some value ↔ (key, value) ∈ entries := by
  induction entries with
  | nil => simp
  | cons entry rest ih =>
    obtain ⟨name, held⟩ := entry
    obtain ⟨absent, onward⟩ : name ∉ rest.map Prod.fst ∧ (rest.map Prod.fst).Nodup :=
      List.nodup_cons.mp distinct
    by_cases same : key = name
    · subst same
      have noOther : (key, value) ∉ rest := fun member => absent (List.mem_map_of_mem member)
      simp [noOther, eq_comm]
    · have apart : (key == name) = false := by simpa using same
      simp [List.lookup_cons, apart, same, ih onward]

/-- The order of its entries does not change a mapping. -/
theorem same_of_perm {entries others : Entries α} (distinct : (entries.map Prod.fst).Nodup)
    (perm : entries.Perm others) : Same entries others := by
  intro key
  apply Option.ext
  intro value
  rw [lookup_eq_some_iff_mem distinct, lookup_eq_some_iff_mem ((perm.map _).nodup_iff.mp distinct)]
  exact perm.mem_iff

/-- The last value under keys that pass a test is the value of the last of these keys. -/
theorem getLast?_filter_eq_bind {entries : Entries α} (distinct : (entries.map Prod.fst).Nodup)
    (test : String → Bool) :
    (entries.filter fun entry => test entry.1).getLast?.map Prod.snd =
      ((entries.map Prod.fst).filter test).getLast?.bind fun key => entries.lookup key := by
  rw [List.filter_map, List.getLast?_map]
  change _ = (Option.map Prod.fst (entries.filter fun entry => test entry.1).getLast?).bind _
  cases last : (entries.filter fun entry => test entry.1).getLast? with
  | none => rfl
  | some entry =>
    have member : entry ∈ entries := List.mem_of_mem_filter (List.mem_of_getLast? last)
    exact ((lookup_eq_some_iff_mem distinct).mpr member).symm

/-- Pairs with one key give it the value of the last of them. -/
theorem ofPairs_of_same {pairs : Entries α} {key : String} (same : ∀ pair ∈ pairs, pair.1 = key) :
    ofPairs pairs = pairs.getLast?.toList := by
  cases pairs with
  | nil => rfl
  | cons pair rest =>
    obtain ⟨name, value⟩ := pair
    have onward : ∀ pair ∈ rest, pair.1 = name := by
      intro pair member
      exact (same pair (List.mem_cons_of_mem _ member)).trans (same _ List.mem_cons_self).symm
    have noOther : (rest.filter fun entry => entry.1 ≠ name) = [] := by
      apply List.filter_eq_nil_iff.mpr
      intro pair member
      simpa using onward pair member
    have every : (rest.filter fun entry => entry.1 = name) = rest := by
      apply List.filter_eq_self.mpr
      intro pair member
      simpa using onward pair member
    rw [ofPairs_cons, noOther, lookup_reverse, every, List.getLast?_cons]
    cases last : rest.getLast? with
    | none => rfl
    | some pair =>
      have named := onward pair (List.mem_of_getLast? last)
      simp [ofPairs, ← named]

/-- With two keys, the one that was set later has the value of the last pair with it. -/
theorem getLast?_ofPairs_cons {low : String × α} {rest : Entries α} {other : String}
    (two : ∀ pair ∈ rest, pair.1 ≠ low.1 → pair.1 = other) :
    (ofPairs (low :: rest)).getLast?.map Prod.snd =
      ((rest.filter fun entry => entry.1 ≠ low.1).getLast?.or
        (low :: rest).getLast?).map Prod.snd := by
  obtain ⟨key, value⟩ := low
  have others : ∀ pair ∈ rest.filter fun entry => entry.1 ≠ key, pair.1 = other := by
    intro pair member
    obtain ⟨inside, apart⟩ := List.mem_filter.mp member
    exact two pair inside (by simpa using apart)
  rw [ofPairs_cons, ofPairs_of_same others, List.getLast?_cons]
  cases last : (rest.filter fun entry => entry.1 ≠ key).getLast? with
  | some pair => simp
  | none =>
    have every : (rest.filter fun entry => entry.1 = key) = rest := by
      apply List.filter_eq_self.mpr
      intro pair member
      have none_other := List.filter_eq_nil_iff.mp (List.getLast?_eq_none_iff.mp last) pair member
      simpa using none_other
    rw [lookup_reverse, every, List.getLast?_cons]
    cases rest.getLast? <;> rfl

end SourceMetrics.Entries
