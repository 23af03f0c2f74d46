import SourceMetrics.Halstead.Tally
import SourceMetrics.Proofs.DoubleWorth

/-! # When two tokens are equal

A plain token is a text, a number other than `nan`, a truth value, a row of bytes, the absent value
or a tuple of such tokens (`Token`). Two of them are equal if they are numbers of the same worth,
the same text or bytes, both absent, or tuples of equal items (`Token.equals`). A tally does not
compare tokens but their keys, where numbers that are not whole are known by their bits and the
names of its own fields are set apart. This comes to the same (`Token.key_eq_iff`).
-/

namespace SourceMetrics

/-- The plain tokens. -/
inductive Token where
  | null
  | bool (b : Bool)
  | int (i : Int)
  | real (x : Binary64) (number : Arithmetic.isNaN x = false)
  | text (s : String)
  | bytes (bs : List UInt8)
  | tuple (items : List Token)

namespace Token

mutual

/-- A token as a value. -/
def toValue : Token → Value Binary64
  | .null => .null
  | .bool b => .bool b
  | .int i => .int i
  | .real x _ => .real x
  | .text s => .text s
  | .bytes bs => .bytes bs
  | .tuple items => .tuple (toValues items)

/-- Tokens as values. -/
def toValues : List Token → List (Value Binary64)
  | [] => []
  | item :: rest => item.toValue :: toValues rest

end

/-- What a token is worth if it counts as a number. -/
def worth? : Token → Option Worth
  | .bool b => some (.finite (if b then 1 else 0))
  | .int i => some (.finite i)
  | .real x _ => (Double.ofFloat x.value).worth?
  | _ => none

mutual

/-- Whether two tokens are equal. -/
def equals : Token → Token → Bool
  | .null, .null => true
  | .text s, .text t => s == t
  | .bytes bs, .bytes cs => bs == cs
  | .tuple items, .tuple others => equalItems items others
  | a, b => a.worth?.isSome && decide (a.worth? = b.worth?)

/-- Whether two rows of tokens are equal item by item. -/
def equalItems : List Token → List Token → Bool
  | [], [] => true
  | a :: rest, b :: others => a.equals b && equalItems rest others
  | _, _ => false

end

end Token

/-! ## Keys of numbers -/

namespace Worth

/-- The keys of the numbers that are worth so much: a whole number is known by itself, and any other
number by its bits. -/
inductive HasKey : Worth → Key → Prop
  | whole (i : Int) : HasKey (.finite i) (.integer i)
  | fraction {x : Float} {w : Worth} (worth : (Double.ofFloat x).worth? = some w)
      (broken : ∀ i : Int, w ≠ .finite i) : HasKey w (.fraction x.toBits.toNat)

private theorem HasKey.eq_iff {w v : Worth} {k l : Key} (left : w.HasKey k) (right : v.HasKey l) :
    k = l ↔ w = v := by
  cases left with
  | whole i =>
    cases right with
    | whole j => simp
    | fraction worth broken => simpa using (broken i).symm
  | @fraction x _ worth broken =>
    cases right with
    | whole j => simpa using broken j
    | @fraction y _ worth' broken' =>
      rw [Key.fraction.injEq, UInt64.toNat_inj]
      constructor
      · intro bits
        have read : Double.ofFloat x = Double.ofFloat y := by
          unfold Double.ofFloat
          rw [bits]
        rw [read, worth'] at worth
        exact (Option.some.inj worth).symm
      · rintro rfl
        exact Double.toBits_eq_of_worth_eq worth worth' (by simpa using broken 0)

private theorem HasKey.recurs {w : Worth} {k : Key} (known : w.HasKey k) : k.recurs = true := by
  cases known <;> rfl

private theorem hasKey_realKey {x : Binary64} {w : Worth}
    (worth : (Double.ofFloat x.value).worth? = some w) : w.HasKey (Value.realKey x) := by
  have number : Arithmetic.isNaN x = false := Binary64.exists_worth_iff.mp ⟨w, worth⟩
  unfold Value.realKey
  cases found : Arithmetic.integer? x with
  | some i =>
    obtain rfl := (Binary64.integer?_eq_some_iff worth i).mp found
    exact .whole i
  | none =>
    simp only [number, Bool.false_eq_true, ↓reduceIte]
    refine .fraction worth ?_
    rintro i rfl
    rw [(Binary64.integer?_eq_some_iff worth i).mpr rfl] at found
    cases found

end Worth

namespace Token

private theorem exists_worth_real {x : Binary64} (number : Arithmetic.isNaN x = false) :
    ∃ w, (Token.real x number).worth? = some w :=
  Binary64.exists_worth_iff.mpr number

private theorem hasKey_of_worth {a : Token} {w : Worth} (worth : a.worth? = some w) :
    w.HasKey a.toValue.key := by
  cases a with
  | bool b =>
    cases worth
    cases b
    · exact .whole 0
    · exact .whole 1
  | int i =>
    cases worth
    exact .whole i
  | real x number => exact Worth.hasKey_realKey worth
  | _ => cases worth

/-! ## Keys of tokens -/

/-- Only a number is known as a number is. -/
theorem exists_worth_of_hasKey {a : Token} {w : Worth} (known : w.HasKey a.toValue.key) :
    ∃ v, a.worth? = some v := by
  cases a with
  | bool b => exact ⟨_, rfl⟩
  | int i => exact ⟨_, rfl⟩
  | real x number => exact exists_worth_real number
  | _ => cases known

private theorem equals_of_worth {a : Token} {w : Worth} (worth : a.worth? = some w) (b : Token) :
    a.equals b = true ↔ b.worth? = some w := by
  have number : a.equals b = (a.worth?.isSome && decide (a.worth? = b.worth?)) := by
    cases a with
    | bool c => rfl
    | int i => rfl
    | real x number => rfl
    | _ => cases worth
  rw [number, worth]
  simp [eq_comm]

/-- A number has the key of the tokens that it equals. -/
theorem valueKey_eq_iff_of_worth {a : Token} {w : Worth} (worth : a.worth? = some w) (b : Token) :
    a.toValue.key = b.toValue.key ↔ a.equals b = true := by
  have known := hasKey_of_worth worth
  rw [equals_of_worth worth]
  constructor
  · intro same
    rw [same] at known
    obtain ⟨v, worth'⟩ := exists_worth_of_hasKey known
    rw [worth', ((hasKey_of_worth worth').eq_iff known).mp rfl]
  · intro worth'
    exact (known.eq_iff (hasKey_of_worth worth')).mpr rfl

private theorem valueKey_eq_iff_number {a b : Token} (other : a.worth? = none) {w : Worth}
    (worth : b.worth? = some w) : a.toValue.key = b.toValue.key ↔ a.equals b = true := by
  have apart : a.equals b = false := by
    cases a <;> cases b <;> simp_all [equals, worth?]
  rw [apart]
  refine iff_of_false ?_ Bool.false_ne_true
  intro same
  have known := hasKey_of_worth worth
  rw [← same] at known
  obtain ⟨v, number⟩ := exists_worth_of_hasKey known
  rw [other] at number
  cases number

mutual

/-- Tokens have the same key exactly if they are equal. -/
theorem valueKey_eq_iff : (a b : Token) → (a.toValue.key = b.toValue.key ↔ a.equals b = true)
  | .bool _, b | .int _, b => valueKey_eq_iff_of_worth rfl b
  | .real _ number, b =>
    let ⟨_, worth⟩ := exists_worth_real number
    valueKey_eq_iff_of_worth worth b
  | .null, b | .text _, b | .bytes _, b => by
    cases b with
    | real x number =>
      obtain ⟨w, worth⟩ := exists_worth_real number
      exact valueKey_eq_iff_number rfl worth
    | _ => simp [toValue, Value.key, equals, worth?]
  | .tuple items, b => by
    cases b with
    | real x number =>
      obtain ⟨w, worth⟩ := exists_worth_real number
      exact valueKey_eq_iff_number rfl worth
    | tuple others => simp [toValue, Value.key, equals, valueKeys_eq_iff items others]
    | _ => simp [toValue, Value.key, equals, worth?]

private theorem valueKeys_eq_iff : (items others : List Token) →
    (Value.keys (toValues items) = Value.keys (toValues others) ↔ equalItems items others = true)
  | [], [] => by simp [equalItems]
  | a :: rest, b :: others => by
    simp [toValues, Value.keys, equalItems, valueKey_eq_iff a b, valueKeys_eq_iff rest others]
  | [], _ :: _ => by simp [toValues, Value.keys, equalItems]
  | _ :: _, [] => by simp [toValues, Value.keys, equalItems]

end

mutual

private theorem changing_toValue : (a : Token) → a.toValue.changing? = none
  | .null | .bool _ | .int _ | .real _ _ | .text _ | .bytes _ => rfl
  | .tuple items => changingItem_toValues items

private theorem changingItem_toValues : (items : List Token) →
    Value.changingItem? (toValues items) = none
  | [] => rfl
  | a :: rest => by
    simp [toValues, Value.changingItem?, changing_toValue a, changingItem_toValues rest]

end

mutual

private theorem recurs_valueKey : (a : Token) → a.toValue.key.recurs = true
  | .null | .bool _ | .int _ | .text _ | .bytes _ => rfl
  | .real _ number => by
    obtain ⟨w, worth⟩ := exists_worth_real number
    exact (hasKey_of_worth worth).recurs
  | .tuple items => recurAll_valueKeys items

private theorem recurAll_valueKeys : (items : List Token) →
    Key.recurAll (Value.keys (toValues items)) = true
  | [] => rfl
  | a :: rest => by
    simp [toValues, Value.keys, Key.recurAll, recurs_valueKey a, recurAll_valueKeys rest]

end

private theorem valueKey_ne_reserved (a : Token) (name : String) :
    a.toValue.key ≠ .reserved name := by
  cases a with
  | real x number =>
    intro same
    obtain ⟨w, worth⟩ := exists_worth_real number
    have known := hasKey_of_worth worth
    rw [same] at known
    cases known
  | _ => exact Key.noConfusion

end Token

namespace Tally

/-- A reserved name is set apart from all other keys, and from no spelling of itself. -/
theorem reserve_inj {k l : Key} (left : ∀ name, k ≠ .reserved name)
    (right : ∀ name, l ≠ .reserved name) : reserve k = reserve l ↔ k = l := by
  refine ⟨?_, congrArg reserve⟩
  cases k <;> cases l <;> grind [reserve]

private theorem recurs_reserve (k : Key) : (reserve k).recurs = k.recurs := by
  cases k with
  | text s =>
    simp only [reserve]
    split <;> rfl
  | _ => rfl

end Tally

namespace Token

/-- The key that a token is recorded under. -/
def key (a : Token) : Key :=
  Tally.reserve a.toValue.key

/-- Each token has a key. -/
theorem key_toValue (a : Token) : Tally.key a.toValue = .ok a.key := by
  simp only [Tally.key, Value.tokenKey, changing_toValue]
  rfl

/-- The key of a token recurs. -/
theorem recurs_key (a : Token) : a.key.recurs = true := by
  rw [key, Tally.recurs_reserve, recurs_valueKey]

/-- Tokens are recorded under the same key exactly if they are equal. -/
theorem key_eq_iff (a b : Token) : a.key = b.key ↔ a.equals b = true := by
  rw [key, key, Tally.reserve_inj a.valueKey_ne_reserved b.valueKey_ne_reserved, valueKey_eq_iff]

end Token

end SourceMetrics
