import SourceMetrics.Proofs.CounterTotals
import SourceMetrics.Proofs.TokenEquality

/-! # What a tally lists

A tally has every token that was recorded in its total and lists the first occurrence of each, in
the spelling that it had (`Tally.Lists`). One more token keeps it so (`Tally.Lists.count`), and so
does a token of the other class, hence so does a run of calls (`FunctionReport.recordAll_lists`).

A call is refused if its class is unknown or its value can change. What can change is a list or a
mapping, a record of a kind that does, and a tuple or a fixed record that has a part which can
(`Value.IsMutable`).
-/

namespace SourceMetrics

namespace Token

/-- The first occurrence of each token: all later ones that are equal to it are left out. -/
def firstOccurrences : List Token → List Token
  | [] => []
  | a :: rest => a :: (firstOccurrences rest).filter fun b => !a.equals b

/-- One more token is listed if it equals none of those before it. -/
theorem firstOccurrences_concat (tokens : List Token) (b : Token) :
    firstOccurrences (tokens ++ [b]) =
      firstOccurrences tokens ++ if tokens.any (·.equals b) then [] else [b] := by
  induction tokens with
  | nil => rfl
  | cons a rest ih =>
    rw [List.cons_append, firstOccurrences, firstOccurrences, ih, List.filter_append,
      List.cons_append, List.any_cons]
    congr 2
    by_cases first : a.equals b = true <;> by_cases later : rest.any (·.equals b) = true <;>
      simp [first, later]

end Token

namespace Tally

/-- A tally of some tokens. -/
structure Lists (tally : Tally Binary64) (tokens : List Token) : Prop where
  counts : tally.Counts (tokens.map Token.key)
  once : tally.keys.Nodup
  names : tally.names = (Token.firstOccurrences tokens).map Token.toValue
  distinct : tally.distinct = .int tally.identifiers.length

private theorem Lists.empty : ({} : Tally Binary64).Lists [] where
  counts := .empty
  once := .nil
  names := rfl
  distinct := rfl

/-- A token has been seen if it equals one that was recorded. -/
theorem Lists.seen_iff {tally : Tally Binary64} {tokens : List Token} (lists : tally.Lists tokens)
    (a : Token) : tally.seen a.key = true ↔ tokens.any (·.equals a) = true := by
  rw [Tally.seen_iff, lists.counts.listed, List.mem_map, List.any_eq_true]
  simp only [a.recurs_key, true_and, Token.key_eq_iff]

/-- One more token is listed if it is new and keeps the spelling of an equal one otherwise. -/
theorem Lists.count {tally : Tally Binary64} {tokens : List Token} (lists : tally.Lists tokens)
    (a : Token) : (tally.count a.key a.toValue).Lists (tokens ++ [a]) := by
  have counts : (tally.count a.key a.toValue).Counts ((tokens ++ [a]).map Token.key) := by
    rw [List.map_append]
    exact lists.counts.count a.key a.toValue
  by_cases seen : tally.seen a.key = true
  · have same : tally.count a.key a.toValue = { tally with total := tally.total.succ } := by
      rw [Tally.count, if_pos seen]
    rw [same] at counts ⊢
    refine ⟨counts, lists.once, ?_, lists.distinct⟩
    rw [Token.firstOccurrences_concat, if_pos ((lists.seen_iff a).mp seen), List.append_nil]
    exact lists.names
  · have more : tally.count a.key a.toValue =
        { distinct := tally.distinct.succ
          total := tally.total.succ
          identifiers := tally.identifiers ++ [(a.key, a.toValue)] } := by
      rw [Tally.count, if_neg seen]
    have new : a.key ∉ tally.keys := fun listed => seen (Tally.seen_iff.mpr ⟨a.recurs_key, listed⟩)
    rw [more] at counts ⊢
    refine ⟨counts, ?_, ?_, ?_⟩
    · rw [keys, List.map_append]
      exact List.nodup_append_comm.mp (lists.once.cons new)
    · rw [Token.firstOccurrences_concat, if_neg (mt (lists.seen_iff a).mpr seen), List.map_append,
        ← lists.names, Tally.names, List.map_append]
      rfl
    · rw [lists.distinct, List.length_append]
      rfl

end Tally

/-! ## Refused calls -/

variable {R : Type}

namespace Value

/-- The values that can change, in themselves or in one of their parts. -/
inductive IsMutable : Value R → Prop
  | list (items : List (Value R)) : IsMutable (.list items)
  | dict (entries : List (String × Value R)) : IsMutable (.dict entries)
  | tuple {items : List (Value R)} {item : Value R} (member : item ∈ items)
      (changes : IsMutable item) : IsMutable (.tuple items)
  | record {kind : RecordKind} (own : canChange kind = true) (fields : List (String × Value R)) :
      IsMutable (.record kind fields)
  | field {kind : RecordKind} {fields : List (String × Value R)} {entry : String × Value R}
      (rests : restsOnFields kind = true) (member : entry ∈ fields)
      (changes : IsMutable entry.2) : IsMutable (.record kind fields)

private theorem changingItem?_eq_none {items : List (Value R)} :
    changingItem? items = none ↔ ∀ item ∈ items, item.changing? = none := by
  induction items with
  | nil => simp [changingItem?]
  | cons item rest ih => simp [changingItem?, ih]

private theorem changingField?_eq_none {fields : List (String × Value R)} :
    changingField? fields = none ↔ ∀ entry ∈ fields, entry.2.changing? = none := by
  induction fields with
  | nil => simp [changingField?]
  | cons entry rest ih => simp [changingField?, ih]

private theorem IsMutable.changing_ne_none {value : Value R} (changes : value.IsMutable) :
    value.changing? ≠ none := by
  induction changes with
  | list items => simp [changing?]
  | dict entries => simp [changing?]
  | tuple member _ ih =>
    rw [changing?, Ne, changingItem?_eq_none]
    exact fun fixed => ih (fixed _ member)
  | record own fields => simp [changing?, own]
  | @field kind fields entry rests member _ ih =>
    rw [changing?, if_pos rests]
    split
    · exact Option.some_ne_none _
    · rw [Ne, changingField?_eq_none]
      exact fun fixed => ih (fixed _ member)

private theorem isMutable_of_changing : (value : Value R) → value.changing? ≠ none → value.IsMutable
  | .list items, _ => .list items
  | .dict entries, _ => .dict entries
  | .tuple items, changes => by
    rw [changing?, Ne, changingItem?_eq_none] at changes
    push Not at changes
    obtain ⟨item, member, part⟩ := changes
    exact .tuple member (isMutable_of_changing item part)
  | .record kind fields, changes => by
    rw [changing?] at changes
    split at changes
    · next own => exact .record own fields
    · split at changes
      · next rests =>
        rw [Ne, changingField?_eq_none] at changes
        push Not at changes
        obtain ⟨⟨name, part⟩, member, inside⟩ := changes
        have smaller : sizeOf part < sizeOf fields := by
          have whole := List.sizeOf_lt_of_mem member
          simp only [Prod.mk.sizeOf_spec] at whole
          omega
        exact .field rests member (isMutable_of_changing part inside)
      · exact absurd rfl changes
  | .null, changes | .bool _, changes | .int _, changes | .real _, changes | .text _, changes
  | .bytes _, changes | .function _, changes => absurd rfl changes

/-- A value is refused as a token exactly if it can change. -/
theorem exists_key_iff [Arithmetic R] {value : Value R} :
    (∃ k, Tally.key value = .ok k) ↔ ¬ value.IsMutable := by
  unfold Tally.key tokenKey
  cases found : value.changing? with
  | none =>
    refine iff_of_true ⟨_, rfl⟩ ?_
    exact fun changes => changes.changing_ne_none found
  | some type =>
    refine iff_of_false nofun (not_not_intro ?_)
    exact isMutable_of_changing value (by simp [found])

end Value

namespace TokenClass

private theorem ofName_eq_ok [Arithmetic R] {name : Value R} {tokenClass : TokenClass} :
    ofName name = .ok tokenClass ↔ name = .text tokenClass.name := by
  unfold ofName
  cases tokenClass <;> split <;> simp_all [TokenClass.name]

end TokenClass

/-- A new tally of a class leaves that of the other class alone. -/
theorem Halstead.tally_setTally (h : Halstead R) (tokenClass other : TokenClass) (t : Tally R) :
    (h.setTally tokenClass t).tally other = if tokenClass = other then t else h.tally other := by
  cases tokenClass <;> cases other <;> rfl

namespace FunctionReport

section Refusal

variable [Arithmetic R] (f : FunctionReport R) {name value : Value R}

/-- Whether a call is refused: it names no class, or its value can change. -/
def Refuses (name value : Value R) : Prop :=
  (∀ tokenClass : TokenClass, name ≠ .text tokenClass.name) ∨ value.IsMutable

private theorem record_of_key (tokenClass : TokenClass) {k : Key}
    (known : Tally.key value = .ok k) :
    f.record (.text tokenClass.name) value =
      { state := { f with
          halstead := f.halstead.setTally tokenClass
            ((f.halstead.tally tokenClass).count k value) } } := by
  have named : TokenClass.ofName (.text tokenClass.name : Value R) = .ok tokenClass :=
    TokenClass.ofName_eq_ok.mpr rfl
  simp only [record, named, ok_bind, take, Halstead.record, Tally.record, known]
  rfl

private theorem record_of_refused (refused : Refuses name value) :
    ∃ fault, f.record name value = { state := f, failure := some (.fault fault) } := by
  unfold record
  cases named : TokenClass.ofName name with
  | error fault => exact ⟨fault, rfl⟩
  | ok tokenClass =>
    rcases refused with unknown | changes
    · exact absurd (TokenClass.ofName_eq_ok.mp named) (unknown tokenClass)
    · cases known : Tally.key value with
      | ok k => exact absurd changes (Value.exists_key_iff.mp ⟨k, known⟩)
      | error fault =>
        refine ⟨fault, ?_⟩
        simp only [ok_bind, take, Halstead.record, Tally.record, known]
        rfl

/-- A call fails exactly if it is refused. -/
theorem failure_record_iff : (f.record name value).failure ≠ none ↔ Refuses name value := by
  constructor
  · intro failed
    by_contra taken
    rw [Refuses, not_or, not_forall] at taken
    obtain ⟨⟨tokenClass, named⟩, fixed⟩ := taken
    obtain ⟨k, known⟩ := Value.exists_key_iff.mpr fixed
    rw [not_not.mp named, f.record_of_key tokenClass known] at failed
    exact failed rfl
  · intro refused
    obtain ⟨fault, result⟩ := f.record_of_refused refused
    simp [result]

end Refusal

/-! ## Runs of calls -/

/-- Record tokens one after another, each under the name of its class. -/
def recordAll (f : FunctionReport Binary64) (calls : List (TokenClass × Token)) :
    Progress Binary64 (FunctionReport Binary64) :=
  Progress.foldl (fun g call => g.record (.text call.1.name) call.2.toValue) f calls

/-- The tokens that are recorded under a class, in order. -/
def tokensOf (tokenClass : TokenClass) (calls : List (TokenClass × Token)) : List Token :=
  calls.filterMap fun call => if call.1 = tokenClass then some call.2 else none

private theorem tokensOf_concat (tokenClass : TokenClass) (calls : List (TokenClass × Token))
    (call : TokenClass × Token) : tokensOf tokenClass (calls ++ [call]) =
      tokensOf tokenClass calls ++ if call.1 = tokenClass then [call.2] else [] := by
  rw [tokensOf, List.filterMap_append]
  congr 1
  split <;> simp_all

/-- Calls with tokens all succeed, and each class lists its own. -/
theorem recordAll_lists (f : FunctionReport Binary64) (calls : List (TokenClass × Token)) :
    ∃ g, recordAll { f with halstead := .empty } calls = { state := g } ∧
      ∀ tokenClass, (g.halstead.tally tokenClass).Lists (tokensOf tokenClass calls) := by
  induction calls using List.reverseRecOn with
  | nil =>
    refine ⟨_, rfl, ?_⟩
    intro tokenClass
    cases tokenClass
    · exact .empty
    · exact .empty
  | append_singleton earlier call ih =>
    obtain ⟨g, done, lists⟩ := ih
    obtain ⟨tokenClass, a⟩ := call
    have last := g.record_of_key tokenClass a.key_toValue
    refine ⟨_, Progress.foldl_concat_eq_ok.mpr ⟨g, done, last⟩, ?_⟩
    intro other
    rw [tokensOf_concat, Halstead.tally_setTally]
    by_cases same : tokenClass = other
    · subst same
      simpa using (lists tokenClass).count a
    · simpa [same] using lists other

/-- **A tally counts every occurrence and lists the first of each token.** Tokens are recorded in a
fresh report in any order, under both classes. All calls succeed, and then each class has all its
tokens in the total and the first occurrence of each in its list, as it was spelled and in order;
the number of distinct tokens is the length of that list, in which no key is found twice. What is
recorded under the other class does not matter. Tokens have the same key exactly if they are equal,
also those that are spelled like a field of a tally. A call fails exactly if it names no class or
its value can change, and then the report stays as it was. -/
theorem recorded_tokens_listed_once (f : FunctionReport Binary64)
    (calls : List (TokenClass × Token)) :
    (∃ g, recordAll { f with halstead := .empty } calls = { state := g } ∧
      ∀ tokenClass,
        let tokens := tokensOf tokenClass calls
        let tally := g.halstead.tally tokenClass
        tally.total = .int tokens.length ∧
        tally.names = (Token.firstOccurrences tokens).map Token.toValue ∧
        tally.distinct = .int tally.identifiers.length ∧
        tally.identifiers.length = tally.names.length ∧ tally.keys.Nodup) ∧
    (∀ a b : Token, ∃ k l, Tally.key a.toValue = .ok k ∧ Tally.key b.toValue = .ok l ∧
      (k = l ↔ a.equals b = true)) ∧
    ∀ (g : FunctionReport Binary64) (name value : Value Binary64),
      ((g.record name value).failure ≠ none ↔ Refuses name value) ∧
      ((g.record name value).failure ≠ none → (g.record name value).state = g) := by
  refine ⟨?_, ?_, ?_⟩
  · obtain ⟨g, done, lists⟩ := recordAll_lists f calls
    refine ⟨g, done, ?_⟩
    intro tokenClass
    have own := lists tokenClass
    refine ⟨?_, own.names, own.distinct, (List.length_map _).symm, own.once⟩
    rw [own.counts.total, List.length_map]
  · intro a b
    exact ⟨a.key, b.key, a.key_toValue, b.key_toValue, a.key_eq_iff b⟩
  · intro g name value
    refine ⟨g.failure_record_iff, ?_⟩
    intro failed
    obtain ⟨fault, result⟩ := g.record_of_refused (g.failure_record_iff.mp failed)
    rw [result]

/-- The fraction number one. -/
def realOne : Token :=
  .real (Arithmetic.ofInt 1) (Arithmetic.AveragesWholes.isNaN_ofInt 1)

/-- Tokens of both classes, some of them in several spellings and some named like a field. -/
def spellings : List (TokenClass × Token) :=
  [(.operators, .text "total"), (.operands, .bool true), (.operators, .int 1),
   (.operators, realOne), (.operators, .tuple [realOne, .text "total"]), (.operands, .text "total"),
   (.operators, .text "total"), (.operators, .tuple [.bool true, .text "total"])]

/-- The number one is spelled in several ways, also in tuples, and `total` is a token like any
other. -/
theorem recorded_tokens_listed_once_spellings :
    (∃ g, recordAll .empty spellings = { state := g } ∧
      g.halstead.operators.total = .int 6 ∧
      g.halstead.operators.names =
        [.text "total", .int 1, .tuple [.real (Arithmetic.ofInt 1), .text "total"]] ∧
      g.halstead.operators.distinct = .int g.halstead.operators.identifiers.length ∧
      g.halstead.operands.names = [.bool true, .text "total"]) ∧
    (let listed : Progress Binary64 (FunctionReport Binary64) :=
      FunctionReport.empty.record (.text "operators") (.tuple [.int 1, .list []])
     listed.failure ≠ none ∧ listed.state = .empty) := by
  have worth : (Double.ofFloat (Arithmetic.ofInt 1 : Binary64).value).worth? = some (.finite 1) :=
    Double.worth_nearest_whole (m := 1) (k := 0) rfl (by decide) (by decide)
  have operators : Token.firstOccurrences (tokensOf .operators spellings) =
      [.text "total", .int 1, .tuple [realOne, .text "total"]] := by
    simp [tokensOf, spellings, realOne, Token.firstOccurrences, Token.equals, Token.equalItems,
      Token.worth?, worth]
  have operands : Token.firstOccurrences (tokensOf .operands spellings) =
      [.bool true, .text "total"] := by
    simp [tokensOf, spellings, Token.firstOccurrences, Token.equals, Token.worth?]
  obtain ⟨⟨g, done, lists⟩, -, calls⟩ := recorded_tokens_listed_once .empty spellings
  obtain ⟨total, names, distinct, -⟩ := lists .operators
  obtain ⟨-, others, -⟩ := lists .operands
  rw [operators] at names
  rw [operands] at others
  obtain ⟨fails, unchanged⟩ := calls .empty (.text "operators") (.tuple [.int 1, .list []])
  have failed := fails.mpr (.inr (.tuple (by simp) (.list [])))
  exact ⟨⟨g, done, total, names, distinct, others⟩, failed, unchanged failed⟩

end FunctionReport

end SourceMetrics
