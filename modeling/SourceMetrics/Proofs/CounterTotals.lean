import Mathlib.Algebra.BigOperators.Group.List.Basic
import Mathlib.Algebra.Ring.Int.Defs
import Mathlib.Data.Finset.Card
import SourceMetrics.Proofs.BuilderSteps

/-! # Counters of whole amounts

Where all amounts are integers, the counters after a row of contributions are sums
(`Counters.Totals.takeAll`). Tokens are counted by their keys: every occurrence is one in the total,
and the number of distinct tokens is `Key.distinctCount`, in which a key that can be met again
counts once and any other key counts each time.
-/

namespace SourceMetrics

variable {R : Type}

namespace Key

/-- The number of distinct tokens in a row of keys. -/
def distinctCount (keys : List Key) : Nat :=
  (keys.filter recurs).toFinset.card + keys.countP fun k => !k.recurs

/-- The number of distinct tokens does not depend on the order of their keys. -/
theorem distinctCount_perm {first second : List Key} (same : first.Perm second) :
    distinctCount first = distinctCount second := by
  unfold distinctCount
  rw [List.toFinset_eq_of_perm _ _ (same.filter _), same.countP_eq]

/-- A part of some tokens has no more distinct ones than all of them. -/
theorem distinctCount_le {part whole : List Key} (inside : part.Subperm whole) :
    distinctCount part ≤ distinctCount whole := by
  have fewer : (part.filter recurs).toFinset ⊆ (whole.filter recurs).toFinset := by
    intro k member
    rw [List.mem_toFinset, List.mem_filter] at member ⊢
    exact ⟨inside.subset member.1, member.2⟩
  have once := Finset.card_le_card fewer
  have each := inside.countP_le fun k => !k.recurs
  unfold distinctCount
  omega

/-- Some token is distinct as soon as there is one. -/
theorem distinctCount_eq_zero {keys : List Key} : distinctCount keys = 0 ↔ keys = [] := by
  constructor
  · intro zero
    unfold distinctCount at zero
    obtain ⟨once, each⟩ := Nat.add_eq_zero_iff.mp zero
    rw [Finset.card_eq_zero, List.toFinset_eq_empty_iff, List.filter_eq_nil_iff] at once
    rw [List.countP_eq_zero] at each
    rw [List.eq_nil_iff_forall_not_mem]
    intro k member
    exact each k member (by simpa using once k member)
  · rintro rfl
    rfl

/-- Two rows of tokens together have no more distinct ones than both have apart. -/
theorem distinctCount_append_le (first second : List Key) :
    distinctCount (first ++ second) ≤ distinctCount first + distinctCount second := by
  have once := Finset.card_union_le (first.filter recurs).toFinset (second.filter recurs).toFinset
  unfold distinctCount
  rw [List.filter_append, List.toFinset_append, List.countP_append]
  omega

/-- Rows of tokens together have no more distinct ones than all of them have apart. -/
theorem distinctCount_flatMap_le {α : Type} (row : List α) (keys : α → List Key) :
    (distinctCount (row.flatMap keys) : Int) ≤
      (row.map fun a => (distinctCount (keys a) : Int)).sum := by
  induction row with
  | nil => exact Int.le_refl 0
  | cons a rest ih =>
    have split := distinctCount_append_le (keys a) (rest.flatMap keys)
    rw [List.flatMap_cons, List.map_cons, List.sum_cons]
    omega

private theorem toFinset_filter_concat {k : Key} (recurs : k.recurs = true) (keys : List Key) :
    ((keys ++ [k]).filter Key.recurs).toFinset = insert k (keys.filter Key.recurs).toFinset := by
  have single : [k].filter Key.recurs = [k] := by simp [recurs]
  rw [List.filter_append, single, List.toFinset_append, Finset.union_comm]
  exact (Finset.insert_eq _ _).symm

/-- A token that can be met again is counted the first time. -/
theorem distinctCount_concat_of_recurs {k : Key} (recurs : k.recurs = true) (keys : List Key) :
    distinctCount (keys ++ [k]) = distinctCount keys + if k ∈ keys then 0 else 1 := by
  have uncounted : [k].countP (fun k => !k.recurs) = 0 := by simp [recurs]
  have known : k ∈ (keys.filter Key.recurs).toFinset ↔ k ∈ keys := by simp [recurs]
  unfold distinctCount
  rw [toFinset_filter_concat recurs, List.countP_append, uncounted]
  by_cases seen : k ∈ keys
  · rw [if_pos seen, Finset.insert_eq_of_mem (known.mpr seen)]
    rfl
  · rw [if_neg seen, Finset.card_insert_of_notMem (mt known.mp seen)]
    omega

/-- Any other token is counted every time. -/
theorem distinctCount_concat_of_not_recurs {k : Key} (once : k.recurs = false) (keys : List Key) :
    distinctCount (keys ++ [k]) = distinctCount keys + 1 := by
  have dropped : [k].filter Key.recurs = [] := by simp [once]
  have counted : [k].countP (fun k => !k.recurs) = 1 := by simp [once]
  unfold distinctCount
  rw [List.filter_append, dropped, List.append_nil, List.countP_append, counted]
  omega

end Key

namespace Tally

/-- The keys of the tokens that a tally lists. -/
def keys (tally : Tally R) : List Key :=
  tally.identifiers.map Prod.fst

/-- A tally of the tokens that have some keys. Of the tokens that can be met again it lists each
once, and of the others every occurrence. -/
structure Counts (tally : Tally R) (occurrences : List Key) : Prop where
  total : tally.total = .int occurrences.length
  distinct : tally.distinct = .int (Key.distinctCount occurrences)
  listed : ∀ k, k ∈ tally.keys ↔ k ∈ occurrences
  repeated : ∀ k, k.recurs = false → tally.keys.count k = occurrences.count k

theorem Counts.empty : ({} : Tally R).Counts [] where
  total := rfl
  distinct := rfl
  listed _ := Iff.rfl
  repeated _ _ := rfl

/-- A tally has seen the keys that it lists, except for those that never recur. -/
theorem seen_iff {tally : Tally R} {k : Key} :
    tally.seen k = true ↔ k.recurs = true ∧ k ∈ tally.keys := by
  simp [seen, keys]

variable [Arithmetic R]

/-- One more occurrence. -/
theorem Counts.count {tally : Tally R} {occurrences : List Key} (counts : tally.Counts occurrences)
    (k : Key) (token : Value R) : (tally.count k token).Counts (occurrences ++ [k]) := by
  have total : tally.total.succ = .int (occurrences ++ [k]).length := by
    rw [counts.total, List.length_append]
    rfl
  unfold Tally.count
  by_cases seen : tally.seen k = true
  · obtain ⟨recurs, listed⟩ := seen_iff.mp seen
    have known := (counts.listed k).mp listed
    rw [if_pos seen]
    refine ⟨total, ?_, ?_, ?_⟩
    · rw [Key.distinctCount_concat_of_recurs recurs, if_pos known]
      exact counts.distinct
    · intro other
      rw [List.mem_append, List.mem_singleton, ← counts.listed]
      constructor
      · exact .inl
      · rintro (before | rfl)
        · exact before
        · exact listed
    · intro other once
      have different : k ≠ other := by
        rintro rfl
        rw [recurs] at once
        cases once
      rw [List.count_append, List.count_singleton, ← counts.repeated other once]
      simp [different, keys]
  · have more : Key.distinctCount (occurrences ++ [k]) = Key.distinctCount occurrences + 1 := by
      by_cases recurs : k.recurs = true
      · have new : k ∉ occurrences := by
          intro met
          exact seen (seen_iff.mpr ⟨recurs, (counts.listed k).mpr met⟩)
        rw [Key.distinctCount_concat_of_recurs recurs, if_neg new]
      · rw [Key.distinctCount_concat_of_not_recurs (by simpa using recurs)]
    rw [if_neg seen]
    refine ⟨total, ?_, ?_, ?_⟩
    · rw [more, counts.distinct]
      rfl
    · intro other
      have before := counts.listed other
      simp only [keys, List.map_append, List.map_cons, List.map_nil, List.mem_append] at before ⊢
      rw [before]
    · intro other once
      have before := counts.repeated other once
      simp only [keys, List.map_append, List.map_cons, List.map_nil, List.count_append] at before ⊢
      rw [before]

end Tally

namespace Value

/-- The integer that a value counts as, if it is one. -/
def integer? (value : Value R) : Option Int :=
  match value.number? with
  | some (.int i) => some i
  | _ => none

/-- The integer that a value counts as, and zero for a value that is none. -/
def whole (value : Value R) : Int :=
  value.integer?.getD 0

@[simp] theorem whole_int (i : Int) : (Value.int i : Value R).whole = i := rfl

/-- A whole number is increased by a whole amount. -/
theorem increase_int [Arithmetic R] (i : Int) {amount : Value R}
    (integer : amount.integer?.isSome = true) :
    (Value.int i).increase amount = .ok (.int (i + amount.whole)) := by
  unfold whole
  unfold integer? at integer ⊢
  unfold increase arithmetic
  cases counted : amount.number? with
  | none => simp [counted] at integer
  | some number =>
    cases number with
    | int j => rfl
    | real x => simp [counted] at integer

end Value

namespace Contribution

variable [Arithmetic R]

/-- Whether the amount of a contribution, if it has one, is an integer. -/
def isWhole : Contribution R → Bool
  | .logical amount => amount.integer?.isSome
  | .cyclomatic amount => amount.integer?.isSome
  | _ => true

/-- The logical lines of a contribution. -/
def lines : Contribution R → Int
  | .logical amount => amount.whole
  | _ => 0

/-- The branches of a contribution. -/
def branches : Contribution R → Int
  | .cyclomatic amount => amount.whole
  | _ => 0

/-- The key of a contribution that is a token of a class. -/
def tokenKey? (tokenClass : TokenClass) : Contribution R → Option Key
  | .token other identifier => if other = tokenClass then (Tally.key identifier).toOption else none
  | _ => none

end Contribution

namespace Counters

variable [Arithmetic R]

/-- The tally of a class. -/
def tally (c : Counters R) : TokenClass → Tally R
  | .operators => c.operators
  | .operands => c.operands

/-- The counters that contributions add up to. -/
structure Totals (c : Counters R) (items : List (Contribution R)) : Prop where
  logical : c.logical = .int (items.map Contribution.lines).sum
  cyclomatic : c.cyclomatic = .int (1 + (items.map Contribution.branches).sum)
  tally : ∀ tokenClass,
    (c.tally tokenClass).Counts (items.filterMap (Contribution.tokenKey? tokenClass))

theorem Totals.initial : (initial : Counters R).Totals [] where
  logical := rfl
  cyclomatic := rfl
  tally tokenClass := by
    cases tokenClass
    · exact .empty
    · exact .empty

/-- A token goes to the tally of its class and to nothing else. -/
theorem take_token_eq_ok {c next : Counters R} {tokenClass : TokenClass} {identifier : Value R}
    (taken : c.take (.token tokenClass identifier) = .ok next) :
    ∃ k, Tally.key identifier = .ok k ∧ next.logical = c.logical ∧
      next.cyclomatic = c.cyclomatic ∧
      next.tally tokenClass = (c.tally tokenClass).count k identifier ∧
      ∀ other, tokenClass ≠ other → next.tally other = c.tally other := by
  cases tokenClass with
  | operators =>
    obtain ⟨changed, recorded, result⟩ := bind_eq_ok.mp taken
    obtain ⟨k, known, counted⟩ := bind_eq_ok.mp recorded
    cases result
    cases counted
    refine ⟨k, known, rfl, rfl, rfl, ?_⟩
    intro other different
    cases other with
    | operators => exact absurd rfl different
    | operands => rfl
  | operands =>
    obtain ⟨changed, recorded, result⟩ := bind_eq_ok.mp taken
    obtain ⟨k, known, counted⟩ := bind_eq_ok.mp recorded
    cases result
    cases counted
    refine ⟨k, known, rfl, rfl, rfl, ?_⟩
    intro other different
    cases other with
    | operators => rfl
    | operands => exact absurd rfl different

/-- Contributions that leave the tallies alone. -/
theorem Totals.tally_concat {c : Counters R} {items : List (Contribution R)}
    (totals : c.Totals items) {item : Contribution R} {tokenClass : TokenClass}
    (noToken : item.tokenKey? tokenClass = none) :
    (c.tally tokenClass).Counts
      ((items ++ [item]).filterMap (Contribution.tokenKey? tokenClass)) := by
  rw [List.filterMap_append, List.filterMap_cons_none noToken, List.filterMap_nil, List.append_nil]
  exact totals.tally tokenClass

/-- What one contribution adds. -/
theorem Totals.take {c next : Counters R} {items : List (Contribution R)} (totals : c.Totals items)
    {item : Contribution R} (whole : item.isWhole = true) (taken : c.take item = .ok next) :
    next.Totals (items ++ [item]) := by
  have lines : ((items ++ [item]).map Contribution.lines).sum =
      (items.map Contribution.lines).sum + item.lines := by simp
  have branches : ((items ++ [item]).map Contribution.branches).sum =
      (items.map Contribution.branches).sum + item.branches := by simp
  cases item with
  | logical amount =>
    simp only [Counters.take, totals.logical, Value.increase_int _ whole] at taken
    cases taken
    refine ⟨?_, ?_, fun tokenClass => totals.tally_concat rfl⟩
    · rw [lines]
      rfl
    · rw [branches]
      simpa [Contribution.branches] using totals.cyclomatic
  | cyclomatic amount =>
    simp only [Counters.take, totals.cyclomatic, Value.increase_int _ whole] at taken
    cases taken
    refine ⟨?_, ?_, fun tokenClass => totals.tally_concat rfl⟩
    · rw [lines]
      simpa [Contribution.lines] using totals.logical
    · rw [branches, ← Int.add_assoc]
      rfl
  | token tokenClass identifier =>
    obtain ⟨k, known, logical, cyclomatic, counted, elsewhere⟩ := take_token_eq_ok taken
    refine ⟨?_, ?_, ?_⟩
    · rw [lines, logical]
      simpa [Contribution.lines] using totals.logical
    · rw [branches, cyclomatic]
      simpa [Contribution.branches] using totals.cyclomatic
    · intro other
      by_cases same : tokenClass = other
      · subst same
        have key : (Contribution.token tokenClass identifier).tokenKey? tokenClass = some k := by
          rw [Contribution.tokenKey?, if_pos rfl, known]
          rfl
        rw [counted, List.filterMap_append, List.filterMap_cons_some key, List.filterMap_nil]
        exact (totals.tally tokenClass).count k identifier
      · rw [elsewhere other same]
        apply totals.tally_concat
        rw [Contribution.tokenKey?, if_neg same]
  | dependencies records =>
    cases taken
    refine ⟨?_, ?_, fun tokenClass => totals.tally_concat rfl⟩
    · rw [lines]
      simpa [Contribution.lines] using totals.logical
    · rw [branches]
      simpa [Contribution.branches] using totals.cyclomatic

/-- Counters that hold totals hold them after taking more contributions. -/
theorem Totals.takeAll {c next : Counters R} {earlier items : List (Contribution R)}
    (totals : c.Totals earlier) (whole : ∀ item ∈ items, item.isWhole = true)
    (taken : c.takeAll items = .ok next) : next.Totals (earlier ++ items) := by
  induction items generalizing c earlier with
  | nil =>
    cases taken
    rwa [List.append_nil]
  | cons item rest ih =>
    rw [Counters.takeAll, List.foldlM_cons] at taken
    obtain ⟨middle, first, onward⟩ := bind_eq_ok.mp taken
    have after := totals.take (whole item List.mem_cons_self) first
    have last := ih after (fun other member => whole other (List.mem_cons_of_mem _ member)) onward
    rwa [List.append_assoc] at last

/-- Of each class of tokens, the tally counts the keys that were contributed. -/
theorem Totals.counts_tally {f : FunctionReport R} {items : List (Contribution R)}
    (totals : f.counters.Totals items) (tokenClass : TokenClass) :
    (f.halstead.tally tokenClass).Counts
      (items.filterMap (Contribution.tokenKey? tokenClass)) := by
  cases tokenClass with
  | operators => exact totals.tally .operators
  | operands => exact totals.tally .operands

end Counters

end SourceMetrics
