import StreamTable.Proofs.Condition.Equality
import StreamTable.Proofs.Table.StoredRows
import StreamTable.Proofs.Value.StoreLiteral

/-!
# Rows that are found by a value

A row that is written to a table is found by the condition that one of its attributes equals its
value there, if the literal of the value stands for the stored value
(`Value.isFoundBy_iff_readsBackWide`).  The 32-bit floats whose literals do not are lost: a tenth is
written as `0.1`, which is another number in 64 bits (`Value.not_denotes_tenth`).
-/

namespace StreamTable

open Document (idField ofValues)

/-- The text compares a field of the table with a literal that stands for the datum in this field of
the document. -/
def Document.IsFoundBy (d : Document) (table field text : String) : Prop :=
  ∃ literal l j, text = "(" ++ (table ++ "." ++ field) ++ " = " ++ literal ++ ")" ∧
    StoreLiteral.read? literal = some l ∧ d.get? field = some j ∧ l.denotes j = true

/-- The row of the table has the value at the attribute of the name and the type. -/
structure Table.Gives {σ : Type} (t : Table σ) (row : Row) (name : String) (type : AttributeType)
    (v : Value) : Prop where
  nodup : t.schema.names.Nodup
  arity : row.length = t.schema.length
  position : ∃ i : Nat, t.schema[i]? = some ⟨name, type⟩ ∧ row[i]? = some v
  address : name = idField → v.toJson.isNull = false

namespace Document

variable {d : Document} {table field : String} {v : Value} {t : AttributeType}

/-- The parentheses and the path leave one literal. -/
theorem isFoundBy_iff (stored : d.get? field = some v.toJson) :
    d.IsFoundBy table field ("(" ++ (table ++ "." ++ field) ++ " = " ++ v.literal t ++ ")") ↔
      v.Denotes t := by
  constructor
  · rintro ⟨literal, l, j, text, read, get, denotes⟩
    have chars := congrArg String.toList text
    obtain rfl : v.literal t = literal := String.toList_injective (by simpa using chars)
    obtain rfl : v.toJson = j := Option.some.inj (stored.symm.trans get)
    exact ⟨l, read, denotes⟩
  · rintro ⟨l, read, denotes⟩
    exact ⟨_, l, _, rfl, read, stored, denotes⟩

end Document

namespace Table

variable {σ : Type} {t : Table σ} {row : Row} {name : String} {type : AttributeType} {v : Value}

/-- One document is created for a row, and it holds the value of the row. -/
theorem Gives.created (h : t.Gives row name type v) (w : World σ) :
    ∃ d, (t.add [row] w).trace.created = [d] ∧ d.get? name = some v.toJson := by
  obtain ⟨i, there, value⟩ := h.position
  obtain ⟨values, bound, get⟩ := Schema.exists_bind h.nodup there h.arity value
  obtain ⟨w', split⟩ := t.created_writeBatch_cons 0 row [] w
  obtain ⟨n, created⟩ := created_addRecord bound w
  refine ⟨ofValues values (t.freshIds n), ?_, Document.get?_ofValues_of_ne _ get h.address⟩
  rw [created_add, split, created]
  rfl

end Table

namespace Value

variable {v : Value} {type : AttributeType}

/-- The literal of a value of its own type stands for the stored form of the value, and rows with the
value are found by it, unless the value is a 32-bit float whose shortest decimal is another number
in 64 bits. -/
theorem isFoundBy_iff_readsBackWide (own : v.type? = none ∨ v.type? = some type)
    (finite : v.isNonFinite = false) (noObject : ∀ j, v ≠ .object j) :
    (v.Denotes type ↔ v.ReadsBackWide) ∧
      ∀ {σ : Type} (t : Table σ) (row : Row) (name source : String) (values : Values)
        (w : World σ), t.Gives row name type v → values.get? source = some v →
          ∃ c text d, compile t.id .condition (.fieldIs name type source type) = .ok c ∧
            c.resolve values = .ok text ∧ (t.add [row] w).trace.created = [d] ∧
              (d.IsFoundBy t.id name text ↔ v.ReadsBackWide) := by
  have literal := denotes_iff own finite noObject
  refine ⟨literal, fun t row name source values w gives bound => ?_⟩
  obtain ⟨c, compiled⟩ := exists_compile_fieldIs t.id name type source type
  obtain ⟨d, created, stored⟩ := gives.created w
  exact ⟨c, _, d, compiled, resolve_of_fieldIs compiled bound, created,
    (Document.isFoundBy_iff stored).trans literal⟩

/-- The 32-bit float nearest to one tenth, by its significand and its exponent. -/
theorem canonical_tenth : Format.single.Canonical 13421773 (-27) := by decide

/-- The 32-bit float nearest to a tenth. -/
def tenth : Value := .float (.finite ⟨false, 13421773, -27, canonical_tenth⟩)

/-- The literal of the tenth is `0.1`, and its stored form is the float that was widened. -/
theorem not_denotes_tenth :
    tenth.type? = some .float ∧ tenth.isNonFinite = false ∧ (∀ j, tenth ≠ .object j) ∧
      ¬ tenth.Denotes .float := by
  refine ⟨rfl, rfl, fun j => Value.noConfusion, ?_⟩
  rw [tenth, denotes_float]
  decide +kernel

/-- The 32-bit float that is half-way between 75 and 76. -/
def midPrice : Value := .float (.finite ⟨false, 9895936, -17, by decide⟩)

theorem isFoundBy_iff_readsBackWide_midPrice :
    midPrice.Denotes .float ∧
      ∃ c text d, compile "Orders" .condition (.fieldIs "price" .float "asked" .float) = .ok c ∧
        c.resolve [("asked", midPrice)] = .ok text ∧
        (Table.orders.add [[midPrice, .string "a", .int 1, .null]] ⟨(), 0⟩).trace.created = [d] ∧
        d.IsFoundBy "Orders" "price" text := by
  have wide : midPrice.ReadsBackWide := by
    intro x hx
    obtain rfl : _ = x := by
      simpa only [midPrice, Value.float.injEq, BinaryFloat.finite.injEq] using hx
    decide +kernel
  have gives : Table.orders.Gives [midPrice, .string "a", .int 1, .null] "price" .float
      midPrice :=
    ⟨by decide, rfl, ⟨0, rfl, rfl⟩, fun h => absurd h (by decide)⟩
  obtain ⟨literal, found⟩ :=
    isFoundBy_iff_readsBackWide (v := midPrice) (.inr rfl) rfl fun j => Value.noConfusion
  obtain ⟨c, text, d, compiled, resolved, created, iff⟩ :=
    found Table.orders _ "price" "asked" [("asked", midPrice)] ⟨(), 0⟩ gives rfl
  exact ⟨literal.2 wide, c, text, d, compiled, resolved, created, iff.2 wide⟩

end Value

end StreamTable
