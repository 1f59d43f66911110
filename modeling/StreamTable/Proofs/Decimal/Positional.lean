import Mathlib.Algebra.Group.Nat.Defs
import Mathlib.Data.List.TakeDrop
import Mathlib.Data.List.TakeWhile
import StreamTable.Decimal.Reading

/-!
# Reading positional notation

`Decimal.positional` is the decimal with the same value whose exponent is that of its positional
notation: zero unless there is a fraction.

Positional notation is read back as this decimal (`Decimal.read?_plain`), and every format rounds it
as it rounds the decimal that was written (`Decimal.toBinary_positional`).
-/

namespace StreamTable.Decimal

/-! ### Runs of digits -/

theorem digitsValue_eq (ds : List Char) : digitsValue ds = Nat.ofDigitChars 10 ds 0 := rfl

theorem digitsValue_append_replicate (ds : List Char) (n : Nat) :
    digitsValue (ds ++ List.replicate n '0') = digitsValue ds * 10 ^ n := by
  rw [digitsValue_eq, digitsValue_eq, Nat.ofDigitChars_append, Nat.ofDigitChars_replicate_zero,
    Nat.mul_comm]

theorem digitsValue_replicate_append (n : Nat) (ds : List Char) :
    digitsValue (List.replicate n '0' ++ ds) = digitsValue ds := by
  rw [digitsValue_eq, digitsValue_eq, Nat.ofDigitChars_append, Nat.ofDigitChars_replicate_zero,
    Nat.mul_zero]

@[simp] theorem digitsValue_digits (d : Decimal) : digitsValue d.digits = d.coefficient :=
  Nat.ofDigitChars_ten_toDigits

theorem isDigit_of_mem_digits {d : Decimal} {c : Char} (h : c ∈ d.digits) : c.isDigit = true :=
  Nat.isDigit_of_mem_toDigits (by decide) (by decide) h

theorem isDigit_of_mem_replicate {n : Nat} {c : Char} (h : c ∈ List.replicate n '0') :
    c.isDigit = true := by
  rw [List.eq_of_mem_replicate h]
  decide

theorem spanDigits_of_isDigit {ds : List Char} (h : ∀ c ∈ ds, c.isDigit = true) :
    spanDigits ds = (ds, []) := by
  rw [spanDigits, List.span_eq_takeWhile_dropWhile, List.takeWhile_eq_self_iff.2 h,
    List.dropWhile_eq_nil_iff.2 h]

theorem spanDigits_append_point {ds : List Char} (h : ∀ c ∈ ds, c.isDigit = true)
    (rest : List Char) : spanDigits (ds ++ '.' :: rest) = (ds, '.' :: rest) := by
  rw [spanDigits, List.span_eq_takeWhile_dropWhile, List.takeWhile_append_of_pos h,
    List.dropWhile_append_of_pos h]
  simp

/-- A number without a point. -/
theorem readMagnitude?_whole (negative : Bool) {ds : List Char} (hn : ds ≠ [])
    (h : ∀ c ∈ ds, c.isDigit = true) :
    readMagnitude? negative ds = some ⟨negative, digitsValue ds, 0⟩ := by
  have some : ds.isEmpty = false := by simpa using hn
  simp [readMagnitude?, spanDigits_of_isDigit h, some, readExponent?, ofDigits]

/-- A number with a point. -/
theorem readMagnitude?_fraction (negative : Bool) {whole fraction : List Char} (hn : whole ≠ [])
    (hw : ∀ c ∈ whole, c.isDigit = true) (hf : ∀ c ∈ fraction, c.isDigit = true) :
    readMagnitude? negative (whole ++ '.' :: fraction) =
      some ⟨negative, digitsValue (whole ++ fraction), -(fraction.length : Int)⟩ := by
  have some : whole.isEmpty = false := by simpa using hn
  simp [readMagnitude?, spanDigits_append_point hw, spanDigits_of_isDigit hf, some, readExponent?,
    ofDigits]

/-! ### Positional notation -/

variable (d : Decimal)

/-- The decimal as its positional notation reads. -/
def positional : Decimal :=
  if 0 ≤ d.exponent then ⟨d.negative, d.coefficient * 10 ^ d.exponent.toNat, 0⟩ else d

/-- A decimal that is written out is read back, digit for digit. -/
theorem readMagnitude?_plainMagnitude :
    readMagnitude? d.negative d.plainMagnitude = some d.positional := by
  have digits : ∀ c ∈ d.digits, c.isDigit = true := fun c => isDigit_of_mem_digits
  have digits_ne : d.digits ≠ [] := Nat.toDigits_ne_nil
  unfold plainMagnitude positional
  simp only
  split
  · rw [readMagnitude?_whole _ (by simp [digits_ne])
      (List.forall_mem_append.2 ⟨digits, fun c => isDigit_of_mem_replicate⟩),
      digitsValue_append_replicate, digitsValue_digits]
  · next negative =>
    split
    · next inside =>
      -- The point stands between two digits.
      have whole : d.digits.take (d.digits.length - (-d.exponent).toNat) ≠ [] := by
        refine List.ne_nil_of_length_pos ?_
        rw [List.length_take]
        omega
      rw [readMagnitude?_fraction _ whole (fun c hc => digits c (List.mem_of_mem_take hc))
        (fun c hc => digits c (List.mem_of_mem_drop hc)), List.take_append_drop,
        digitsValue_digits]
      have places : -((d.digits.drop (d.digits.length - (-d.exponent).toNat)).length : Int) =
          d.exponent := by
        rw [List.length_drop]
        omega
      rw [places]
    · next outside =>
      -- The point stands before all digits, with zeros around it.
      have text : '0' :: '.' :: List.replicate ((-d.exponent).toNat - d.digits.length) '0' ++
          d.digits = ['0'] ++ '.' ::
            (List.replicate ((-d.exponent).toNat - d.digits.length) '0' ++ d.digits) := rfl
      rw [text, readMagnitude?_fraction _ (by simp) (List.forall_mem_singleton.2 rfl)
        (List.forall_mem_append.2 ⟨fun c => isDigit_of_mem_replicate, digits⟩)]
      have places : -((List.replicate ((-d.exponent).toNat - d.digits.length) '0' ++
          d.digits).length : Int) = d.exponent := by
        rw [List.length_append, List.length_replicate]
        omega
      have value : digitsValue (['0'] ++ (List.replicate ((-d.exponent).toNat - d.digits.length) '0'
          ++ d.digits)) = d.coefficient := by
        have zeros : ['0'] ++ List.replicate ((-d.exponent).toNat - d.digits.length) '0' =
            List.replicate ((-d.exponent).toNat - d.digits.length + 1) '0' :=
          List.replicate_succ.symm
        rw [← List.append_assoc, zeros, digitsValue_replicate_append, digitsValue_digits]
      rw [places, value]

theorem noSign_of_mem_plainMagnitude {c : Char} (h : c ∈ d.plainMagnitude) :
    c ≠ '-' ∧ c ≠ '+' := by
  -- Wherever the point stands, there are digits and zeros around it.
  have plain : c.isDigit = true ∨ c = '.' := by
    unfold plainMagnitude at h
    simp only at h
    split at h
    · rcases List.mem_append.1 h with h | h
      · exact .inl (isDigit_of_mem_digits h)
      · exact .inl (isDigit_of_mem_replicate h)
    · split at h
      · rcases List.mem_append.1 h with h | h
        · exact .inl (isDigit_of_mem_digits (List.mem_of_mem_take h))
        · rcases List.mem_cons.1 h with h | h
          · exact .inr h
          · exact .inl (isDigit_of_mem_digits (List.mem_of_mem_drop h))
      · rcases List.mem_cons.1 h with rfl | h
        · exact .inl (by decide)
        · rcases List.mem_cons.1 h with h | h
          · exact .inr h
          · rcases List.mem_append.1 h with h | h
            · exact .inl (isDigit_of_mem_replicate h)
            · exact .inl (isDigit_of_mem_digits h)
  constructor
  · rintro rfl
    revert plain
    decide
  · rintro rfl
    revert plain
    decide

theorem spanSign_of_noSign {cs : List Char} (h : ∀ c ∈ cs, c ≠ '-' ∧ c ≠ '+') :
    spanSign cs = (false, cs) := by
  unfold spanSign
  split
  · exact absurd rfl (h _ List.mem_cons_self).1
  · exact absurd rfl (h _ List.mem_cons_self).2
  · rfl

/-- Positional notation is read back. -/
theorem read?_plain : read? d.plain = some d.positional := by
  have sign : spanSign d.plain = (d.negative, d.plainMagnitude) := by
    rw [plain, Decimal.sign]
    cases d.negative with
    | true => rfl
    | false => exact spanSign_of_noSign fun c => d.noSign_of_mem_plainMagnitude
  rw [read?, sign]
  exact d.readMagnitude?_plainMagnitude

theorem digits_mul_pow {c : Nat} (hc : c ≠ 0) (n : Nat) :
    Nat.toDigits 10 (c * 10 ^ n) = Nat.toDigits 10 c ++ List.replicate n '0' := by
  induction n with
  | zero => simp
  | succ n ih =>
    have pos : 0 < c * 10 ^ n := Nat.mul_pos (Nat.pos_of_ne_zero hc) (Nat.pow_pos (by decide))
    have shifted : c * 10 ^ (n + 1) = 10 * (c * 10 ^ n) + 0 := by
      rw [Nat.pow_succ, ← Nat.mul_assoc, Nat.mul_comm, Nat.add_zero]
    rw [shifted, ← Nat.toDigits_append_toDigits (by decide) pos (by decide), ih,
      List.replicate_succ', Nat.toDigits_zero, List.append_assoc]

/-- The notation of a decimal is rounded as the decimal. -/
theorem toBinary_positional (f : Format) : d.positional.toBinary f = d.toBinary f := by
  by_cases he : 0 ≤ d.exponent
  · have shifted : d.positional = ⟨d.negative, d.coefficient * 10 ^ d.exponent.toNat, 0⟩ :=
      if_pos he
    by_cases hc : d.coefficient = 0
    · have zero : d.positional.coefficient = 0 := by rw [shifted, hc, Nat.zero_mul]
      rw [toBinary, toBinary, if_pos zero, if_pos hc, shifted]
    · have nonzero : d.positional.coefficient ≠ 0 := by
        rw [shifted]
        exact Nat.mul_ne_zero hc (Nat.pow_pos (by decide)).ne'
      have point : d.positional.point = d.point := by
        have digits : d.positional.digits = d.digits ++ List.replicate d.exponent.toNat '0' := by
          rw [shifted]
          exact digits_mul_pow hc _
        rw [Decimal.point, digits, shifted, List.length_append, List.length_replicate, point]
        push_cast
        omega
      have ratio : d.positional.ratio = d.ratio := by
        rw [shifted, Decimal.ratio, Decimal.ratio, if_pos he]
        exact congrArg (·, 1) (Nat.mul_one _)
      have negative : d.positional.negative = d.negative := by rw [shifted]
      rw [toBinary, toBinary, if_neg nonzero, if_neg hc, point, ratio, negative]
  · rw [positional, if_neg he]

end StreamTable.Decimal
