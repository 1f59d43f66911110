import StreamTable.Proofs.BinaryFloat.Rounding
import StreamTable.Value.Literal

/-!
# Stored values

The stored form of a value is read back as the value, if its type is the declared one
(`Value.ofJson_toJson`).  A 32-bit float is widened on the way and narrowed again.  The values that
are lost are the floats that are not finite and the JSON datum `null`, which are stored as `null`.

The integers of 32 and of 64 bits differ in their bounds only, so what is read as the one or as the
other is one fact about bounds (`Json.ite_ofInt_eq_some_iff`).
-/

namespace StreamTable

namespace Json

/-! ### Integers of a width -/

/-- If the integers of a type are those within some bounds, then just the integers within the bounds
are read, and each as the one of the type that it is. -/
theorem ite_ofInt_eq_some_iff {α : Type} {ofInt : Int → α} {toInt : α → Int} {low high : Int}
    (toInt_ofInt : ∀ n, low ≤ n → n ≤ high → toInt (ofInt n) = n)
    (ofInt_toInt : ∀ m, ofInt (toInt m) = m) (bounds : ∀ m, low ≤ toInt m ∧ toInt m ≤ high)
    {n : Int} {m : α} :
    (if low ≤ n ∧ n ≤ high then some (ofInt n) else none) = some m ↔ toInt m = n := by
  constructor
  · intro h
    split at h
    · next inside =>
      obtain rfl := Option.some.inj h
      exact toInt_ofInt n inside.1 inside.2
    · cases h
  · rintro rfl
    rw [if_pos (bounds m), ofInt_toInt]

theorem int?_eq_some_iff {n : Int} {m : Int32} : (Json.int n).int? = some m ↔ m.toInt = n := by
  have back (n : Int) (low : Int32.minValue.toInt ≤ n) (high : n ≤ Int32.maxValue.toInt) :
      (Int32.ofInt n).toInt = n :=
    Int32.toInt_ofInt_of_le low (Int.lt_add_one_of_le high)
  exact ite_ofInt_eq_some_iff back Int32.ofInt_toInt fun m => ⟨m.minValue_le_toInt, m.toInt_le⟩

theorem long?_eq_some_iff {n : Int} {m : Int64} : (Json.int n).long? = some m ↔ m.toInt = n := by
  have back (n : Int) (low : Int64.minValue.toInt ≤ n) (high : n ≤ Int64.maxValue.toInt) :
      (Int64.ofInt n).toInt = n :=
    Int64.toInt_ofInt_of_le low (Int.lt_add_one_of_le high)
  exact ite_ofInt_eq_some_iff back Int64.ofInt_toInt fun m => ⟨m.minValue_le_toInt, m.toInt_le⟩

end Json

namespace Value

variable {v : Value} {t : AttributeType}

theorem isNull_eq_false (h : v ≠ .null) : v.isNull = false := by
  cases v with
  | null => exact absurd rfl h
  | _ => rfl

/-- A finite float that is widened is a number. -/
theorem toJson_float (x : FiniteFloat .single) :
    ∃ y : FiniteFloat .double, toJson (.float (.finite x)) = .float y ∧
      BinaryFloat.convert .single (.finite y) = .finite x := by
  obtain ⟨y, widened, narrowed⟩ := BinaryFloat.convert_convert Format.widens_single_double x
  refine ⟨y, ?_, narrowed⟩
  rw [toJson, widened]
  rfl

theorem isNull_toJson (finite : v.isNonFinite = false) (datum : v ≠ .object .null) :
    v.toJson.isNull = v.isNull := by
  -- Of the values of the machine, only floats that are not finite are stored as null.
  cases v with
  | null => rfl
  | bool b => rfl
  | int n => rfl
  | long n => rfl
  | string s => rfl
  | float x =>
    cases x with
    | nan => cases finite
    | infinite s => cases finite
    | finite x =>
      obtain ⟨y, stored, _⟩ := toJson_float x
      rw [stored]
      rfl
  | double x =>
    cases x with
    | nan => cases finite
    | infinite s => cases finite
    | finite x => rfl
  | object j =>
    cases j with
    | null => exact absurd rfl datum
    | _ => rfl

/-- The stored form of a value is read back as the value. -/
theorem ofJson_toJson (typed : v = .null ∨ v.type? = some t) (finite : v.isNonFinite = false)
    (datum : v ≠ .object .null) : ofJson v.toJson t = v := by
  have null := isNull_toJson finite datum
  unfold ofJson
  rw [null]
  cases v with
  | null => rfl
  | bool b =>
    obtain rfl : t = .bool := by simpa [type?, eq_comm] using typed
    rfl
  | int n =>
    obtain rfl : t = .int := by simpa [type?, eq_comm] using typed
    have fits : Json.int? (.int n.toInt) = some n := Json.int?_eq_some_iff.2 rfl
    simp [isNull, narrow?, toJson, fits]
  | long n =>
    obtain rfl : t = .long := by simpa [type?, eq_comm] using typed
    have fits : Json.long? (.int n.toInt) = some n := Json.long?_eq_some_iff.2 rfl
    simp [isNull, narrow?, toJson, fits]
  | float x =>
    obtain rfl : t = .float := by simpa [type?, eq_comm] using typed
    cases x with
    | nan => cases finite
    | infinite s => cases finite
    | finite x =>
      obtain ⟨y, stored, narrowed⟩ := toJson_float x
      simp [isNull, narrow?, stored, Json.double?, narrowed]
  | double x =>
    obtain rfl : t = .double := by simpa [type?, eq_comm] using typed
    cases x with
    | nan => cases finite
    | infinite s => cases finite
    | finite x => rfl
  | string s =>
    obtain rfl : t = .string := by simpa [type?, eq_comm] using typed
    rfl
  | object j =>
    obtain rfl : t = .object := by simpa [type?, eq_comm] using typed
    rfl

end Value

end StreamTable
