import StreamTable.Proofs.Decimal.Positional
import StreamTable.Proofs.Decimal.Shortest
import StreamTable.Value.Literal

/-!
# Literals as a store reads them

`StoreLiteral.read?` reads a literal of the query language, and `StoreLiteral.denotes` tells whether
it stands for a stored datum: digits stand for the integer that they are, or for the 64-bit float
that they are rounded to.

The literal of a value of its own type stands for the stored form of the value, unless the value is
a 32-bit float: its literal has the fewest digits that read back in 32 bits, and stands for the
stored float only if these digits also read back in 64 bits (`Value.exists_denotes_iff`).
-/

namespace StreamTable

/-- What a store reads a literal as. -/
inductive StoreLiteral where
  | null
  | bool (b : Bool)
  | text (s : String)
  | number (d : Decimal)
  deriving DecidableEq

namespace StoreLiteral

/-- Read a literal that does not stand between quotes. -/
def readWord? (cs : List Char) : Option StoreLiteral :=
  if cs = "null".toList then some .null
  else if cs = "true".toList then some (.bool true)
  else if cs = "false".toList then some (.bool false)
  else (Decimal.read? cs).map .number

/-- Read the whole of a literal. -/
def read? (s : String) : Option StoreLiteral :=
  match s.toList with
  | '\'' :: cs =>
    match Text.Quoted.decode? cs with
    | some (body, []) => some (.text (.ofList body))
    | _ => none
  | cs => readWord? cs

/-- The literal stands for the datum. -/
def denotes : StoreLiteral → Json → Bool
  | .null, .null => true
  | .bool b, .bool c => b = c
  | .text s, .string t => s = t
  | .number d, .int n =>
    d.exponent = 0 ∧ n = if d.negative then -(d.coefficient : Int) else d.coefficient
  | .number d, .float x => (d.toBinary .double).same (.finite x)
  | _, _ => false

/-! ### Reading back -/

/-- A quoted text is read as the text. -/
theorem read?_encode (s : String) : read? (Text.Quoted.encode s) = some (.text s) := by
  have decoded := Text.Quoted.decode?_encodeBody s.toList []
  rw [read?, Text.Quoted.encode, String.toList_ofList]
  simp [decoded]

theorem read?_quote (cs : List Char) : Decimal.read? ('\'' :: cs) = none := by
  have digits : Decimal.spanDigits ('\'' :: cs) = ([], '\'' :: cs) := by
    rw [Decimal.spanDigits, List.span_eq_takeWhile_dropWhile]
    simp
  simp [Decimal.read?, Decimal.spanSign, Decimal.readMagnitude?, digits]

/-- A word that is a decimal is read as the decimal. -/
theorem readWord?_of_read? {cs : List Char} {d : Decimal} (h : Decimal.read? cs = some d) :
    readWord? cs = some (.number d) := by
  have apart {word : List Char} (hw : Decimal.read? word = none) : cs ≠ word := by
    rintro rfl
    rw [hw] at h
    cases h
  rw [readWord?, if_neg (apart (by decide)), if_neg (apart (by decide)),
    if_neg (apart (by decide)), h]
  rfl

/-- Positional notation is read as the decimal. -/
theorem read?_plain (d : Decimal) : read? (.ofList d.plain) = some (.number d.positional) := by
  have number := d.read?_plain
  rw [read?, String.toList_ofList]
  split
  · -- What starts with a quote is no decimal.
    next quoted =>
    rw [quoted, read?_quote] at number
    cases number
  · exact readWord?_of_read? number

theorem read?_intText (n : Int) :
    read? (.ofList (Json.intText n)) = some (.number ⟨n < 0, n.natAbs, 0⟩) := by
  have plain : Json.intText n = (Decimal.mk (n < 0) n.natAbs 0).plain := by
    simp [Json.intText, Decimal.plain, Decimal.sign, Decimal.plainMagnitude, Decimal.digits]
  have positional : (Decimal.mk (n < 0) n.natAbs 0).positional = ⟨n < 0, n.natAbs, 0⟩ := by
    simp [Decimal.positional]
  rw [plain, read?_plain, positional]

theorem denotes_int (n : Int) : denotes (.number ⟨n < 0, n.natAbs, 0⟩) (.int n) = true := by
  simp only [denotes, decide_eq_true_eq, true_and]
  split
  · omega
  · omega

/-- A decimal stands for a float in whatever notation it is written. -/
theorem denotes_positional (d : Decimal) (x : FiniteFloat .double) :
    denotes (.number d.positional) (.float x) = (d.toBinary .double).same (.finite x) := by
  rw [denotes, Decimal.toBinary_positional]

end StoreLiteral

theorem FiniteFloat.same_self {f : Format} (x : FiniteFloat f) : x.same x = true := by
  simp [FiniteFloat.same]

/-! ### Literals of values -/

namespace Value

/-- The literal of the value at a placeholder of the type stands for the stored form of the
value. -/
def Denotes (v : Value) (t : AttributeType) : Prop :=
  ∃ l, StoreLiteral.read? (v.literal t) = some l ∧ l.denotes v.toJson = true

/-- If the value is a 32-bit float, its shortest decimal reads back in 64 bits as well. -/
def ReadsBackWide (v : Value) : Prop :=
  ∀ x : FiniteFloat .single, v = .float (.finite x) →
    ((x.shortest .up).toBinary .double).same ((BinaryFloat.finite x).convert .double) = true

variable {v : Value} {t : AttributeType}

theorem denotes_float (x : FiniteFloat .single) :
    Denotes (.float (.finite x)) .float ↔
      ((x.shortest .up).toBinary .double).same ((BinaryFloat.finite x).convert .double) = true := by
  have read : StoreLiteral.read? (literal (.float (.finite x)) .float) =
      some (.number (x.shortest .up).positional) :=
    StoreLiteral.read?_plain _
  obtain ⟨y, widened, _⟩ := BinaryFloat.convert_convert Format.widens_single_double x
  have stored : toJson (.float (.finite x)) = .float y := by
    rw [toJson, widened]
    rfl
  rw [Denotes, read, stored, widened]
  simp only [Option.some.injEq, exists_eq_left', StoreLiteral.denotes_positional]

theorem denotes_double (x : FiniteFloat .double) : Denotes (.double (.finite x)) .double := by
  refine ⟨_, StoreLiteral.read?_plain _, ?_⟩
  show StoreLiteral.denotes _ (.float x) = true
  rw [StoreLiteral.denotes_positional, FiniteFloat.toBinary_shortest Format.regular_double]
  exact x.same_self

/-- The literal of a value at a placeholder of its own type stands for the stored form of the value,
except for 32-bit floats whose shortest decimal is another number in 64 bits. -/
theorem denotes_iff (own : v.type? = none ∨ v.type? = some t) (finite : v.isNonFinite = false)
    (noObject : ∀ j, v ≠ .object j) : v.Denotes t ↔ v.ReadsBackWide := by
  have other (h : ∀ x, v ≠ .float (.finite x)) (denotes : v.Denotes t) :
      v.Denotes t ↔ v.ReadsBackWide :=
    iff_of_true denotes fun x hx => absurd hx (h x)
  -- Only a finite float of 32 bits has two sides to compare; every other value is denoted anyway.
  cases v with
  | null =>
    have read : StoreLiteral.read? nullLiteral = some .null := by decide
    exact other (fun x => Value.noConfusion) ⟨.null, read, rfl⟩
  | bool b =>
    obtain rfl : t = .bool := by simpa [type?, eq_comm] using own
    refine other (fun x => Value.noConfusion) ⟨.bool b, ?_, by simp [toJson, StoreLiteral.denotes]⟩
    cases b <;> rfl
  | int n =>
    obtain rfl : t = .int := by simpa [type?, eq_comm] using own
    exact other (fun x => Value.noConfusion)
      ⟨_, StoreLiteral.read?_intText n.toInt, StoreLiteral.denotes_int n.toInt⟩
  | long n =>
    obtain rfl : t = .long := by simpa [type?, eq_comm] using own
    exact other (fun x => Value.noConfusion)
      ⟨_, StoreLiteral.read?_intText n.toInt, StoreLiteral.denotes_int n.toInt⟩
  | float x =>
    obtain rfl : t = .float := by simpa [type?, eq_comm] using own
    cases x with
    | nan => cases finite
    | infinite s => cases finite
    | finite x =>
      rw [denotes_float]
      constructor
      · rintro same _ ⟨⟩
        exact same
      · exact fun h => h x rfl
  | double x =>
    obtain rfl : t = .double := by simpa [type?, eq_comm] using own
    cases x with
    | nan => cases finite
    | infinite s => cases finite
    | finite x => exact other (fun x => Value.noConfusion) (denotes_double x)
  | string s =>
    exact other (fun x => Value.noConfusion)
      ⟨.text s, StoreLiteral.read?_encode s, by simp [toJson, StoreLiteral.denotes]⟩
  | object j => exact absurd rfl (noObject j)

end Value

end StreamTable
