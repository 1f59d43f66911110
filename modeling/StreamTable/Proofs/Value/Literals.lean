import StreamTable.Value.Literal

/-!
# The characters of literals

Numbers are written with the characters of `Value.isNumeral` alone, in query text as in JSON
(`isNumeral_of_mem_plain`, `isNumeral_of_mem_jsonText`, `isNumeral_of_mem_intText`).  No literal is
the empty text, whatever its value and the type of its placeholder (`Value.literal_ne_empty`), and
only `true` begins with a `t` (`Value.literal_of_head?`).
-/

namespace StreamTable

/-- The characters that numbers are written with. -/
def Value.isNumeral (c : Char) : Bool :=
  c.isDigit || c = '.' || c = '-' || c = '+' || c = 'e' || c = 'E'

open Value (isNumeral)

theorem isNumeral_of_isDigit {c : Char} (h : c.isDigit = true) : isNumeral c = true := by
  simp [isNumeral, h]

/-- The other characters of numbers are the point, the signs and the letters before exponents. -/
theorem isDigit_or_of_isNumeral {c : Char} (h : isNumeral c = true) :
    c.isDigit = true ∨ c = '.' ∨ c = '-' ∨ c = '+' ∨ c = 'e' ∨ c = 'E' := by
  simpa [isNumeral, or_assoc] using h

theorem isNumeral_of_mem_toDigits {n : Nat} {c : Char} (h : c ∈ Nat.toDigits 10 n) :
    isNumeral c = true :=
  isNumeral_of_isDigit (Nat.isDigit_of_mem_toDigits (by decide) (by decide) h)

namespace Decimal

variable {d : Decimal} {c : Char}

theorem digits_ne_nil (d : Decimal) : d.digits ≠ [] := Nat.toDigits_ne_nil

theorem isNumeral_of_mem_digits (h : c ∈ d.digits) : isNumeral c = true :=
  isNumeral_of_mem_toDigits h

theorem isNumeral_of_mem_sign (h : c ∈ d.sign) : isNumeral c = true := by
  unfold sign at h
  split at h
  · rw [List.mem_singleton.1 h]
    decide
  · cases h

theorem isNumeral_of_mem_plainMagnitude (h : c ∈ d.plainMagnitude) : isNumeral c = true := by
  have zero : isNumeral '0' = true := by decide
  have point : isNumeral '.' = true := by decide
  unfold plainMagnitude at h
  simp only at h
  split at h
  · rcases List.mem_append.1 h with h | h
    · exact isNumeral_of_mem_digits h
    · rw [List.eq_of_mem_replicate h]
      exact zero
  · split at h
    · rcases List.mem_append.1 h with h | h
      · exact isNumeral_of_mem_digits (List.mem_of_mem_take h)
      · rcases List.mem_cons.1 h with rfl | h
        · exact point
        · exact isNumeral_of_mem_digits (List.mem_of_mem_drop h)
    · rw [List.cons_append, List.mem_cons, List.cons_append, List.mem_cons] at h
      rcases h with rfl | rfl | h
      · exact zero
      · exact point
      · rcases List.mem_append.1 h with h | h
        · rw [List.eq_of_mem_replicate h]
          exact zero
        · exact isNumeral_of_mem_digits h

theorem isNumeral_of_mem_plain (h : c ∈ d.plain) : isNumeral c = true :=
  (List.mem_append.1 h).elim isNumeral_of_mem_sign isNumeral_of_mem_plainMagnitude

theorem plainMagnitude_ne_nil (d : Decimal) : d.plainMagnitude ≠ [] := by
  unfold plainMagnitude
  simp only
  split
  · simp [d.digits_ne_nil]
  · split <;> simp

theorem plain_ne_nil (d : Decimal) : d.plain ≠ [] := by
  simp [plain, d.plainMagnitude_ne_nil]

/-! ### Floats in JSON -/

theorem isNumeral_of_mem_exponentText {e : Int} (h : c ∈ exponentText e) :
    isNumeral c = true := by
  rcases List.mem_cons.1 h with rfl | h
  · split <;> decide
  · exact isNumeral_of_mem_toDigits h

theorem isNumeral_of_mem_scientificMagnitude (h : c ∈ d.scientificMagnitude) :
    isNumeral c = true := by
  have exponent : ∀ c ∈ 'e' :: exponentText d.leading, isNumeral c = true := by
    intro c h
    rcases List.mem_cons.1 h with rfl | h
    · decide
    · exact isNumeral_of_mem_exponentText h
  have digit : ∀ c ∈ d.digits, isNumeral c = true := fun c => isNumeral_of_mem_digits
  unfold scientificMagnitude at h
  split at h
  · cases h
  · next a ha =>
    rw [ha] at digit
    rcases List.mem_cons.1 h with rfl | h
    · exact digit _ (List.mem_singleton_self _)
    · exact exponent c h
  · next a as _ ha =>
    rw [ha] at digit
    rw [List.cons_append, List.mem_cons, List.cons_append, List.mem_cons, List.mem_append] at h
    rcases h with rfl | rfl | h | h
    · exact digit _ List.mem_cons_self
    · decide
    · exact digit c (List.mem_cons_of_mem _ h)
    · exact exponent c h

theorem isNumeral_of_mem_jsonText (h : c ∈ d.jsonText) : isNumeral c = true := by
  have zero : ∀ c ∈ ['0', '.', '0'], isNumeral c = true := List.all_eq_true.1 (by decide)
  have fraction : ∀ c ∈ ['.', '0'], isNumeral c = true := List.all_eq_true.1 (by decide)
  unfold jsonText at h
  split at h
  · rcases List.mem_append.1 h with h | h
    · exact isNumeral_of_mem_sign h
    · exact zero c h
  · split at h
    · split at h
      · exact isNumeral_of_mem_plain h
      · rcases List.mem_append.1 h with h | h
        · exact isNumeral_of_mem_plain h
        · exact fraction c h
    · rcases List.mem_append.1 h with h | h
      · exact isNumeral_of_mem_sign h
      · exact isNumeral_of_mem_scientificMagnitude h

theorem scientificMagnitude_ne_nil (d : Decimal) : d.scientificMagnitude ≠ [] := by
  unfold scientificMagnitude
  split
  · next h => exact absurd h d.digits_ne_nil
  · exact List.cons_ne_nil _ _
  · exact List.cons_ne_nil _ _

theorem jsonText_ne_nil (d : Decimal) : d.jsonText ≠ [] := by
  unfold jsonText
  split
  · simp
  · split
    · split
      · exact d.plain_ne_nil
      · simp
    · simp [d.scientificMagnitude_ne_nil]

end Decimal

namespace Json

theorem isNumeral_of_mem_intText {n : Int} {c : Char} (h : c ∈ intText n) :
    isNumeral c = true := by
  rcases List.mem_append.1 h with h | h
  · split at h
    · rw [List.mem_singleton.1 h]
      decide
    · cases h
  · exact isNumeral_of_mem_toDigits h

theorem intText_ne_nil (n : Int) : intText n ≠ [] := by
  simp [intText, Nat.toDigits_ne_nil]

/-- No datum is written as the empty text. -/
theorem chars_ne_nil (j : Json) : j.chars ≠ [] := by
  unfold chars
  split
  case h_4 n => exact intText_ne_nil n
  case h_5 x => exact Decimal.jsonText_ne_nil _
  all_goals simp [quote]

end Json

/-! ### Literals -/

theorem Text.Quoted.encode_ne_empty (s : String) : encode s ≠ "" := by
  intro h
  have := congrArg String.toList h
  simp [encode] at this

theorem BinaryFloat.text_ne_empty {f : Format} (x : BinaryFloat f) : x.text ≠ "" := by
  unfold text
  split
  · decide
  · decide
  · decide
  · next x =>
    intro h
    have := congrArg String.toList h
    simp [Decimal.plain_ne_nil] at this

namespace Value

theorem text_ne_empty {v : Value} (h : ∀ s, v ≠ .string s) : v.text ≠ "" := by
  have ofList {cs : List Char} (h : cs ≠ []) : String.ofList cs ≠ "" := by
    intro e
    exact h (by simpa using congrArg String.toList e)
  cases v with
  | null => decide
  | bool b => cases b <;> decide
  | int n => exact ofList (Json.intText_ne_nil _)
  | long n => exact ofList (Json.intText_ne_nil _)
  | float x => exact x.text_ne_empty
  | double x => exact x.text_ne_empty
  | string s => exact absurd rfl (h s)
  | object j => exact ofList j.chars_ne_nil

/-- No value has an empty literal: a text keeps its quotes, even if it is empty itself. -/
theorem literal_ne_empty (v : Value) (t : AttributeType) : v.literal t ≠ "" := by
  have unquoted (h : ∀ s, v ≠ .string s) :
      (if t.isQuoted then Text.Quoted.encode v.text
        else if v.isNonFinite then nullLiteral else v.text) ≠ "" := by
    split
    · exact Text.Quoted.encode_ne_empty _
    · split
      · decide
      · exact text_ne_empty h
  cases v with
  | null => exact (by decide : nullLiteral ≠ "")
  | string s => exact Text.Quoted.encode_ne_empty s
  | _ => exact unquoted fun s h => by cases h

end Value

/-! ### Literals that begin with a letter -/

theorem head?_ne_of_isNumeral {cs : List Char} (h : ∀ c ∈ cs, isNumeral c = true) :
    cs.head? ≠ some 't' := by
  intro head
  have numeral : isNumeral 't' = true := h 't' (List.mem_of_head? head)
  exact absurd numeral (by decide)

theorem Json.chars_of_head? {j : Json} (h : j.chars.head? = some 't') :
    j.chars = ['t', 'r', 'u', 'e'] := by
  unfold chars at h ⊢
  split at h
  case h_2 => rfl
  case h_4 n => exact absurd h (head?_ne_of_isNumeral fun _ => isNumeral_of_mem_intText)
  case h_5 x => exact absurd h (head?_ne_of_isNumeral fun _ => Decimal.isNumeral_of_mem_jsonText)
  all_goals simp [quote] at h

theorem Text.Quoted.head?_encode (s : String) : (encode s).toList.head? = some '\'' := by
  simp [encode]

theorem BinaryFloat.head?_text {f : Format} (x : BinaryFloat f) :
    x.text.toList.head? ≠ some 't' := by
  unfold text
  split
  · decide
  · decide
  · decide
  · next x =>
    rw [String.toList_ofList]
    exact head?_ne_of_isNumeral fun _ => Decimal.isNumeral_of_mem_plain

namespace Value

theorem text_of_head? {v : Value} (string : ∀ s, v ≠ .string s)
    (h : v.text.toList.head? = some 't') : v.text = "true" := by
  cases v with
  | null => exact absurd h (by decide)
  | bool b =>
    cases b with
    | true => rfl
    | false => exact absurd h (by decide)
  | int n | long n =>
    rw [text, String.toList_ofList] at h
    exact absurd h (head?_ne_of_isNumeral fun _ => Json.isNumeral_of_mem_intText)
  | float x | double x => exact absurd h x.head?_text
  | string s => exact absurd rfl (string s)
  | object j =>
    rw [text, Json.write, String.toList_ofList] at h
    rw [text, Json.write, Json.chars_of_head? h]

/-- Only one literal begins with a `t`. -/
theorem literal_of_head? {v : Value} {t : AttributeType}
    (h : (v.literal t).toList.head? = some 't') : v.literal t = "true" := by
  have quoted (s : String) : (Text.Quoted.encode s).toList.head? ≠ some 't' := by
    rw [Text.Quoted.head?_encode]
    decide
  have unquoted (string : ∀ s, v ≠ .string s)
      (h : (if t.isQuoted then Text.Quoted.encode v.text
        else if v.isNonFinite then nullLiteral else v.text).toList.head? = some 't') :
      (if t.isQuoted then Text.Quoted.encode v.text
        else if v.isNonFinite then nullLiteral else v.text) = "true" := by
    split at h
    · exact absurd h (quoted v.text)
    · split at h
      · exact absurd h (by decide)
      · next plain finite =>
        rw [if_neg plain, if_neg finite]
        exact text_of_head? string h
  cases v with
  | null => exact absurd h (by decide : nullLiteral.toList.head? ≠ some 't')
  | string s => exact absurd h (quoted s)
  | _ => exact unquoted (fun s h => by cases h) h

end Value

end StreamTable
