import SourceMetrics.Value.Number

/-!
# When two tokens are the same

Tokens are values of any kind, and two of them are the same token when their keys are equal. Numbers
are compared by what they are worth, so the integer one, the fraction number one and the truth value
true are one token; a text, a row of bytes and the absent value are the same only as themselves; a
moment is the same as one of the same instant, or as one that reads the same; tuples are compared
item by item. An object of the caller is the same only as itself, and one that is made anew wherever
it is mentioned is never the same again.

A value that can change is no token. Lists, mappings and the records of reports and dependencies
can; settings cannot, whatever they hold.
-/

namespace SourceMetrics

/-- What a value is known by. -/
inductive Key where
  | null
  | integer (i : Int)
  /-- A number that is not whole, by its code. -/
  | fraction (code : Nat)
  | text (s : String)
  | bytes (bs : List UInt8)
  | moment (mark : Moment.Mark)
  | tuple (items : List Key)
  | list (items : List Key)
  /-- A mapping, by its keys in ascending order and what they are set to. -/
  | mapping (names : List String) (items : List Key)
  | record (kind : RecordKind) (items : List Key)
  | function (handle : Nat)
  /-- A text that is also the name of a field of a tally. It is kept apart from the plain texts, and
  no token can be given this key by another way. -/
  | reserved (name : String)
  /-- The key of what is never the same again. -/
  | fresh

namespace Key

mutual

/-- Whether two keys are equal. -/
def same : Key → Key → Bool
  | .null, .null => true
  | .integer i, .integer j => i == j
  | .fraction a, .fraction b => a == b
  | .text s, .text t => s == t
  | .bytes bs, .bytes cs => bs == cs
  | .moment m, .moment n => m == n
  | .tuple items, .tuple others => sameItems items others
  | .list items, .list others => sameItems items others
  | .mapping names items, .mapping others more => names == others && sameItems items more
  | .record kind items, .record other others => kind == other && sameItems items others
  | .function f, .function g => f == g
  | .reserved s, .reserved t => s == t
  | .fresh, .fresh => true
  | _, _ => false

/-- Whether two rows of keys are equal. -/
def sameItems : List Key → List Key → Bool
  | [], [] => true
  | a :: rest, b :: others => same a b && sameItems rest others
  | _, _ => false

end

mutual

private theorem same_self : (k : Key) → same k k = true
  | .null | .fresh => rfl
  | .integer _ | .fraction _ | .text _ | .bytes _ | .moment _ | .function _ | .reserved _ => by
    simp [same]
  | .tuple items => by simp [same, sameItems_self items]
  | .list items => by simp [same, sameItems_self items]
  | .mapping _ items => by simp [same, sameItems_self items]
  | .record _ items => by simp [same, sameItems_self items]

private theorem sameItems_self : (items : List Key) → sameItems items items = true
  | [] => rfl
  | k :: rest => by simp [sameItems, same_self k, sameItems_self rest]

end

mutual

private theorem eq_of_same : {a b : Key} → same a b = true → a = b
  | .null, .null, _ => rfl
  | .fresh, .fresh, _ => rfl
  | .integer _, .integer _, h | .fraction _, .fraction _, h | .text _, .text _, h
  | .bytes _, .bytes _, h | .moment _, .moment _, h | .function _, .function _, h
  | .reserved _, .reserved _, h => by
    simpa [same] using h
  | .tuple items, .tuple others, h => by
    exact congrArg Key.tuple (eq_of_sameItems (by simpa [same] using h))
  | .list items, .list others, h => by
    exact congrArg Key.list (eq_of_sameItems (by simpa [same] using h))
  | .mapping _ items, .mapping _ others, h => by
    simp only [same, Bool.and_eq_true, beq_iff_eq] at h
    rw [h.1, eq_of_sameItems h.2]
  | .record _ items, .record _ others, h => by
    simp only [same, Bool.and_eq_true, beq_iff_eq] at h
    rw [h.1, eq_of_sameItems h.2]

private theorem eq_of_sameItems :
    {items others : List Key} → sameItems items others = true → items = others
  | [], [], _ => rfl
  | a :: rest, b :: others, h => by
    simp only [sameItems, Bool.and_eq_true] at h
    rw [eq_of_same h.1, eq_of_sameItems h.2]

end

instance : DecidableEq Key := fun a b =>
  if h : same a b = true then .isTrue (eq_of_same h)
  else .isFalse fun e => h (e ▸ same_self a)

/-- The key of a mapping, from the keys of its entries in any order. -/
def ofEntries (entries : List (String × Key)) : Key :=
  let sorted := entries.mergeSort fun a b => decide (a.1 ≤ b.1)
  .mapping (sorted.map (·.1)) (sorted.map (·.2))

mutual

/-- Whether what has a key can be met again. -/
def recurs : Key → Bool
  | .fresh => false
  | .tuple items => recurAll items
  | .list items => recurAll items
  | .mapping _ items => recurAll items
  | .record _ items => recurAll items
  | _ => true

/-- Whether everything that has one of some keys can be met again. -/
def recurAll : List Key → Bool
  | [] => true
  | k :: rest => recurs k && recurAll rest

end

end Key

namespace Value

variable {R : Type} [Arithmetic R]

/-- What a number is known by. One that equals not even itself is never met again. -/
def realKey (x : R) : Key :=
  match Arithmetic.integer? x with
  | some i => .integer i
  | none => if Arithmetic.isNaN x then .fresh else .fraction (Arithmetic.code x)

mutual

/-- What a value is known by. -/
def key : Value R → Key
  | .null => .null
  | .bool b => .integer (if b then 1 else 0)
  | .int i => .integer i
  | .real x => realKey x
  | .text s => .text s
  | .bytes bs => .bytes bs
  | .moment m => .moment m.mark
  | .list items => .list (keys items)
  | .tuple items => .tuple (keys items)
  | .dict entries => Key.ofEntries (entryKeys entries)
  | .record (.object (some identity)) _ => .record (.object (some identity)) []
  | .record (.object none) _ => .fresh
  | .record kind fields => .record kind (fieldKeys fields)
  | .function handle => .function handle

/-- What items are known by. -/
def keys : List (Value R) → List Key
  | [] => []
  | item :: rest => key item :: keys rest

/-- What the values of entries are known by. -/
def entryKeys : List (String × Value R) → List (String × Key)
  | [] => []
  | (name, value) :: rest => (name, key value) :: entryKeys rest

/-- What the values of fields are known by. -/
def fieldKeys : List (String × Value R) → List Key
  | [] => []
  | (_, value) :: rest => key value :: fieldKeys rest

end

/-- Whether a record of a kind can change. -/
def canChange : RecordKind → Bool
  | .dependency | .projectModule | .tally | .halstead | .lineCounts | .functionReport
  | .moduleReport | .projectReport => true
  | _ => false

/-- Whether a record of a kind is kept from changing only as far as its fields are. -/
def restsOnFields : RecordKind → Bool
  | .location | .rule | .token => true
  | _ => false

mutual

/-- The type of the first part of a value that can change, if there is one. -/
def changing? : Value R → Option String
  | .list _ => some "list"
  | .dict _ => some "dict"
  | .tuple items => changingItem? items
  | .record kind fields =>
    if canChange kind then some kind.typeName
    else if restsOnFields kind then changingField? fields
    else none
  | _ => none

/-- The type of the first part of items that can change. -/
def changingItem? : List (Value R) → Option String
  | [] => none
  | item :: rest => (changing? item).or (changingItem? rest)

/-- The type of the first part of fields that can change. -/
def changingField? : List (String × Value R) → Option String
  | [] => none
  | (_, value) :: rest => (changing? value).or (changingField? rest)

end

/-- What a value is known by as a token, before the reserved names are set apart. A value that can
change is refused. -/
def tokenKey (value : Value R) : Except Fault Key :=
  match value.changing? with
  | some type => .error (.unhashable type)
  | none => .ok value.key

end Value

end SourceMetrics
