import StreamTable.Proofs.Condition.Filter
import StreamTable.Proofs.Condition.Rendering

/-!
# Equality conditions

A field of the table is compared with an attribute of the stream.  The condition is always compiled,
and bound to a value it is the comparison of the path with the literal of the value
(`resolve_of_fieldIs`).
-/

namespace StreamTable

/-- A field of the table is an attribute of the stream. -/
def Expr.fieldIs (field : String) (type : AttributeType) (name : String) (type' : AttributeType) :
    Expr :=
  .compare .eq (.field field type) (.attribute name type')

variable {table field name : String} {type type' : AttributeType}

theorem exists_compile_fieldIs (table field : String) (type : AttributeType) (name : String)
    (type' : AttributeType) :
    ∃ c, compile table .condition (.fieldIs field type name type') = .ok c :=
  ⟨_, rfl⟩

/-- Bound to a value, the comparison of a field with an attribute is the path, and the literal of
the value. -/
theorem resolve_of_fieldIs {c : CompiledCondition}
    (h : compile table .condition (.fieldIs field type name type') = .ok c) {values : Values}
    {v : Value} (bound : values.get? name = some v) :
    c.resolve values =
      .ok ("(" ++ (table ++ "." ++ field) ++ " = " ++ v.literal type' ++ ")") := by
  have notAlways : c.alwaysTrue = false := by
    rw [Bool.eq_false_iff]
    intro always
    cases eq_alwaysTrue_of_compile h always
  obtain ⟨f, hf, rfl⟩ := emits_of_compile h notAlways
  -- The only hole for a value is the attribute, and it is bound.
  have holes : (f.template.holes.map (·.parameter)).findSome? (Parameter.unbound? values) =
      none := by
    rw [hf.parameters, Leaf.findSome?_unbound?]
    simp [Expr.fieldIs, Expr.leaves, Leaf.streamName?, bound]
  have filled := hf.filled fun a => (values.get? a).getD .null
  have spaced : " " ++ CompareOp.eq.symbol ++ " " = " = " := rfl
  rw [CompiledCondition.resolve_eq notAlways, CompiledCondition.parameters, holes, filled, ← spaced]
  simp [Expr.fieldIs, Expr.rendered, Leaf.rendered, bound, Clause.fieldPath, String.append_assoc]

end StreamTable
