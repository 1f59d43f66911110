import StreamTable.Proofs.Value.Stored

/-!
# Reading data as values of an exact type

The exact types are all but the floats.  A datum that was read as a value of such a type is stored
as the same datum again, whatever it is: if it fits the type (`Json.Fits`), the value has the type
and stands for it (`Value.toJson_of_narrow?`), and otherwise it is carried along as it is.

`Value.ofJson_exact` puts both directions together.
-/

namespace StreamTable

/-- Values of the type are stored as they are, without rounding. -/
def AttributeType.IsExact (t : AttributeType) : Prop := t ≠ .float ∧ t ≠ .double

namespace Json

/-- The datum is of the kind of an exact type, and in its range. -/
inductive Fits : Json → AttributeType → Prop
  | bool (b : Bool) : Fits (.bool b) .bool
  | int {n : Int} (low : -2 ^ 31 ≤ n) (high : n < 2 ^ 31) : Fits (.int n) .int
  | long {n : Int} (low : -2 ^ 63 ≤ n) (high : n < 2 ^ 63) : Fits (.int n) .long
  | string (s : String) : Fits (.string s) .string
  | object {j : Json} (datum : j ≠ .null) : Fits j .object

theorem isNull_iff {j : Json} : j.isNull = true ↔ j = .null := by
  cases j <;> simp [isNull]

theorem Fits.ne_null {j : Json} {t : AttributeType} (h : j.Fits t) : j ≠ .null := by
  intro null
  subst null
  cases h with
  | object datum => exact datum rfl

end Json

namespace Value

variable {j : Json} {t : AttributeType} {v : Value}

/-! ### From data to values -/

/-- A datum is narrowed to a value of the declared type. -/
theorem type?_of_narrow? (h : narrow? j t = some v) : v.type? = some t := by
  cases t with
  | object => cases h
  | _ =>
    obtain ⟨_, _, rfl⟩ := Option.map_eq_some_iff.1 h
    rfl

/-- A datum that was narrowed to an exact type is what the value is stored as. -/
theorem toJson_of_narrow? (exact : t.IsExact) (h : narrow? j t = some v) : v.toJson = j := by
  cases t with
  | float => exact absurd rfl exact.1
  | double => exact absurd rfl exact.2
  | object => cases h
  | bool =>
    obtain ⟨b, read, rfl⟩ := Option.map_eq_some_iff.1 h
    cases j <;> cases read
    rfl
  | string =>
    obtain ⟨s, read, rfl⟩ := Option.map_eq_some_iff.1 h
    cases j <;> cases read
    rfl
  | int =>
    obtain ⟨m, read, rfl⟩ := Option.map_eq_some_iff.1 h
    cases j with
    | int n => exact congrArg Json.int (Json.int?_eq_some_iff.1 read)
    | _ => cases read
  | long =>
    obtain ⟨m, read, rfl⟩ := Option.map_eq_some_iff.1 h
    cases j with
    | int n => exact congrArg Json.int (Json.long?_eq_some_iff.1 read)
    | _ => cases read

/-- Just the data that fit are narrowed; data are never narrowed to objects. -/
theorem isSome_narrow?_iff (exact : t.IsExact) (plain : t ≠ .object) :
    (narrow? j t).isSome = true ↔ j.Fits t := by
  constructor
  · intro h
    obtain ⟨v, hv⟩ := Option.isSome_iff_exists.1 h
    have type := type?_of_narrow? hv
    have stored := toJson_of_narrow? exact hv
    -- The datum is what the value is stored as, so its kind and range are read off the value.
    subst stored
    cases v with
    | null => cases type
    | bool b => cases type; exact .bool b
    | string s => cases type; exact .string s
    | int m =>
      cases type
      have low := m.le_toInt
      have high := m.toInt_lt
      exact .int low high
    | long m =>
      cases type
      have low := m.le_toInt
      have high := m.toInt_lt
      exact .long low high
    | float x => cases type; exact absurd rfl exact.1
    | double x => cases type; exact absurd rfl exact.2
    | object k => cases type; exact absurd rfl plain
  · intro h
    cases h with
    | bool b => rfl
    | string s => rfl
    | object datum => exact absurd rfl plain
    | @int n low high =>
      have back : (Int32.ofInt n).toInt = n := Int32.toInt_ofInt_of_le low high
      rw [narrow?, Json.int?_eq_some_iff.2 back]
      rfl
    | @long n low high =>
      have back : (Int64.ofInt n).toInt = n := Int64.toInt_ofInt_of_le low high
      rw [narrow?, Json.long?_eq_some_iff.2 back]
      rfl

theorem ofJson_null (t : AttributeType) : ofJson .null t = .null := rfl

/-- A datum other than `null` is narrowed if possible, and carried along otherwise. -/
theorem ofJson_of_ne_null (datum : j ≠ .null) (t : AttributeType) :
    ofJson j t = (narrow? j t).getD (.object j) := by
  have notNull : ¬ j.isNull = true := fun h => datum (Json.isNull_iff.1 h)
  exact if_neg notNull

theorem toJson_ofJson (exact : t.IsExact) (j : Json) : (ofJson j t).toJson = j := by
  by_cases datum : j = .null
  · rw [datum, ofJson_null, toJson]
  · rw [ofJson_of_ne_null datum]
    cases narrowed : narrow? j t with
    | none => rfl
    | some v => exact toJson_of_narrow? exact narrowed

/-- A datum that does not fit is carried along. -/
theorem ofJson_of_not_fits (exact : t.IsExact) (datum : j ≠ .null) (misfit : ¬ j.Fits t) :
    ofJson j t = .object j := by
  have plain : t ≠ .object := by
    rintro rfl
    exact misfit (.object datum)
  have wide : narrow? j t = none := by
    rw [← Option.not_isSome_iff_eq_none, isSome_narrow?_iff exact plain]
    exact misfit
  rw [ofJson_of_ne_null datum, wide]
  rfl

/-- The value has the declared type just if the datum fits it. -/
theorem type?_ofJson_iff (exact : t.IsExact) : (ofJson j t).type? = some t ↔ j.Fits t := by
  by_cases datum : j = .null
  · have unfit : ¬ j.Fits t := fun h => h.ne_null datum
    rw [datum, ofJson_null]
    refine iff_of_false (fun h => by cases h) ?_
    rwa [← datum]
  · by_cases plain : t = .object
    · subst plain
      rw [ofJson_of_ne_null datum]
      exact iff_of_true rfl (.object datum)
    · constructor
      · intro typed
        by_contra misfit
        rw [ofJson_of_not_fits exact datum misfit] at typed
        exact plain (Option.some.inj typed).symm
      · intro fits
        obtain ⟨v, narrowed⟩ :=
          Option.isSome_iff_exists.1 ((isSome_narrow?_iff exact plain).2 fits)
        rw [ofJson_of_ne_null datum, narrowed]
        exact type?_of_narrow? narrowed

/-! ### Both directions -/

theorem isNonFinite_of_isExact (exact : t.IsExact) (typed : v.type? = some t) :
    v.isNonFinite = false := by
  cases v with
  | float x => exact absurd (Option.some.inj typed).symm exact.1
  | double x => exact absurd (Option.some.inj typed).symm exact.2
  | _ => rfl

/-- Nothing is lost between data and values of an exact type.  Every datum is what its value is
stored as: a datum that fits becomes a value of the type, `null` becomes `null`, and any other datum
becomes an object that holds it.  Every value of the type is read back from what it is stored as,
unless it is an object that holds `null`. -/
theorem ofJson_exact {t : AttributeType} (exact : t.IsExact) :
    (∀ j, (ofJson j t).toJson = j ∧ ((ofJson j t).type? = some t ↔ j.Fits t) ∧
      (j = .null → ofJson j t = .null) ∧
      (j ≠ .null → ¬ j.Fits t → ofJson j t = .object j)) ∧
    ∀ v : Value, v.type? = some t → v ≠ .object .null → ofJson v.toJson t = v := by
  refine ⟨fun j => ⟨toJson_ofJson exact j, type?_ofJson_iff exact, ?_, ?_⟩, ?_⟩
  · rintro rfl
    exact ofJson_null t
  · intro datum misfit
    exact ofJson_of_not_fits exact datum misfit
  · intro v typed datum
    exact ofJson_toJson (.inr typed) (isNonFinite_of_isExact exact typed) datum

/-- The integer after the greatest one of 32 bits is carried along as it is. -/
theorem ofJson_exact_wideInteger :
    AttributeType.int.IsExact ∧ ofJson (.int 2147483648) .int = .object (.int 2147483648) ∧
      ofJson (.int 2147483647) .int = .int 2147483647 := by
  have exact : AttributeType.int.IsExact := ⟨by decide, by decide⟩
  obtain ⟨read, stored⟩ := ofJson_exact exact
  refine ⟨exact, (read (.int 2147483648)).2.2.2 Json.noConfusion ?_, ?_⟩
  · rintro ⟨_, high⟩
    omega
  · exact stored (.int 2147483647) rfl Value.noConfusion

end Value

end StreamTable
