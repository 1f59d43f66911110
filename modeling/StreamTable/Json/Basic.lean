import StreamTable.BinaryFloat.Rounding

/-!
# JSON values

`Json` is the data that documents hold.  A number is an integer or a finite 64-bit float, and the
two are never equal.  The members of an object are kept in ascending order of their names, each name
once; `Members` is the list of them with its operations, of which `Members.insert` keeps that order.
Names are compared by their code points.

Main statements: what `Members.get?` finds after `Members.insert`, and `Members.sorted_insert`, that
members stay in order.
-/

namespace StreamTable

/-- The members of an object: names with data, in ascending order of the names. -/
abbrev Members (α : Type) := List (String × α)

namespace Members

variable {α : Type}

/-- The datum under a name. -/
def get? (k : String) : Members α → Option α
  | [] => none
  | (k', v) :: ms => if k = k' then some v else get? k ms

/-- Put a datum under a name, in the place of the one that the name had, if any. -/
def insert (k : String) (v : α) : Members α → Members α
  | [] => [(k, v)]
  | (k', v') :: ms =>
    if k = k' then (k, v) :: ms
    else if k < k' then (k, v) :: (k', v') :: ms
    else (k', v') :: insert k v ms

/-- Members from pairs in any order; of two pairs with one name the later one counts. -/
def ofPairs (ps : List (String × α)) : Members α := ps.foldl (fun ms p => ms.insert p.1 p.2) []

/-- Drop the datum under a name. -/
def erase (k : String) : Members α → Members α
  | [] => []
  | (k', v') :: ms => if k = k' then ms else (k', v') :: erase k ms

/-- The names are strictly ascending, so each of them occurs once. -/
def Sorted (ms : Members α) : Prop := ms.Pairwise (·.1 < ·.1)

@[simp] theorem get?_nil (k : String) : get? k ([] : Members α) = none := rfl

@[simp] theorem get?_insert_self (k : String) (v : α) (ms : Members α) :
    (ms.insert k v).get? k = some v := by
  induction ms with
  | nil => simp [insert, get?]
  | cons m ms ih =>
    obtain ⟨k', v'⟩ := m
    by_cases h : k = k'
    · simp [insert, get?, h]
    · by_cases h' : k < k'
      · simp [insert, get?, h, h']
      · simp [insert, get?, h, h', ih]

theorem get?_insert_of_ne {k k' : String} (h : k' ≠ k) (v : α) (ms : Members α) :
    (ms.insert k v).get? k' = ms.get? k' := by
  induction ms with
  | nil => simp [insert, get?, h]
  | cons m ms ih =>
    obtain ⟨k'', v''⟩ := m
    by_cases h₁ : k = k''
    · subst h₁; simp [insert, get?, h]
    · by_cases h₂ : k < k''
      · simp [insert, get?, h, h₁, h₂]
      · simp [insert, get?, h₁, h₂, ih]

theorem get?_insert (k k' : String) (v : α) (ms : Members α) :
    (ms.insert k v).get? k' = if k' = k then some v else ms.get? k' := by
  split
  · next h => subst h; exact get?_insert_self _ _ _
  · next h => exact get?_insert_of_ne h _ _

theorem mem_insert {k : String} {v : α} {ms : Members α} {m : String × α}
    (h : m ∈ ms.insert k v) : m = (k, v) ∨ m ∈ ms := by
  induction ms with
  | nil => simpa [insert] using h
  | cons m' ms ih =>
    obtain ⟨k', v'⟩ := m'
    simp only [insert] at h
    split at h
    · grind
    · split at h <;> grind

theorem sorted_insert (k : String) (v : α) {ms : Members α} (h : ms.Sorted) :
    (ms.insert k v).Sorted := by
  induction ms with
  | nil => exact List.pairwise_singleton _ _
  | cons m ms ih =>
    obtain ⟨k', v'⟩ := m
    obtain ⟨hk, hs⟩ := List.pairwise_cons.1 h
    simp only [insert]
    split
    · next e => subst e; exact List.pairwise_cons.2 ⟨hk, hs⟩
    · next e =>
      split
      · next lt =>
        refine List.pairwise_cons.2 ⟨fun m hm => ?_, h⟩
        rcases List.mem_cons.1 hm with rfl | hm
        · exact lt
        · exact String.lt_trans lt (hk m hm)
      · next lt =>
        refine List.pairwise_cons.2 ⟨fun m hm => ?_, ih hs⟩
        rcases mem_insert hm with rfl | hm
        · exact Std.lt_of_le_of_ne (String.not_lt.1 lt) (Ne.symm e)
        · exact hk m hm

end Members

/-- JSON data. -/
inductive Json where
  /-- The datum `null`. -/
  | null
  /-- A truth value. -/
  | bool (b : Bool)
  /-- A number written without fraction and exponent. -/
  | int (n : Int)
  /-- Any other number. -/
  | float (x : FiniteFloat .double)
  /-- A text. -/
  | string (s : String)
  /-- A sequence. -/
  | array (xs : List Json)
  /-- A record of named data. -/
  | object (ms : List (String × Json))

namespace Json

mutual

/-- Equality of data: integers by value, floats as numbers, an integer never equal to a float. -/
def same : Json → Json → Bool
  | .null, .null => true
  | .bool a, .bool b => a == b
  | .int m, .int n => m == n
  | .float x, .float y => x.same y
  | .string s, .string t => s == t
  | .array xs, .array ys => sameItems xs ys
  | .object ms, .object ns => sameMembers ms ns
  | _, _ => false

/-- Item by item equality of sequences. -/
def sameItems : List Json → List Json → Bool
  | [], [] => true
  | x :: xs, y :: ys => x.same y && sameItems xs ys
  | _, _ => false

/-- Member by member equality of records. -/
def sameMembers : List (String × Json) → List (String × Json) → Bool
  | [], [] => true
  | (k, x) :: ms, (l, y) :: ns => k == l && x.same y && sameMembers ms ns
  | _, _ => false

end

/-- The datum is `null`. -/
def isNull : Json → Bool
  | .null => true
  | _ => false

/-- The truth value of a datum that is one. -/
def bool? : Json → Option Bool
  | .bool b => some b
  | _ => none

/-- The text of a datum that is one. -/
def string? : Json → Option String
  | .string s => some s
  | _ => none

/-- The integer of a datum that is one and fits 64 bits with a sign. -/
def long? : Json → Option Int64
  | .int n => if Int64.minValue.toInt ≤ n ∧ n ≤ Int64.maxValue.toInt then some (.ofInt n) else none
  | _ => none

/-- The integer of a datum that is one and fits 32 bits with a sign. -/
def int? : Json → Option Int32
  | .int n => if Int32.minValue.toInt ≤ n ∧ n ≤ Int32.maxValue.toInt then some (.ofInt n) else none
  | _ => none

/-- The 64-bit float nearest to a datum that is a number. -/
def double? : Json → Option (BinaryFloat .double)
  | .int n => some (.ofInt .double n)
  | .float x => some (.finite x)
  | _ => none

end Json

end StreamTable
