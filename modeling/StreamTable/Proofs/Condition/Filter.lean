import StreamTable.Proofs.Condition.Rendering
import StreamTable.Proofs.Value.Literals

/-!
# Filters that are not empty

The empty filter stands for a query without a filter.  A condition resolves to it exactly if its
expression is the constant `true` at the root (`resolve_eq_empty_iff`): any other expression is
written with text around its operands, or it is a leaf, and no literal and no path is empty.
-/

namespace StreamTable

namespace Leaf

variable (table : String) (value : String → Value)

theorem rendered_ne_empty (l : Leaf) :
    l.rendered (Clause.condition.fieldPath table) value ≠ "" := by
  cases l with
  | constant v => exact v.literal_ne_empty _
  | «attribute» name t => exact (value name).literal_ne_empty _
  | field name t =>
    -- The name of the table and a point stand before the name, which may itself be anything.
    show table ++ "." ++ name ≠ ""
    simp

end Leaf

/-- Whatever the values are, a fragment of a condition is not filled to the empty text. -/
theorem Target.Emits.filled_ne_empty {table : String} {e : Expr} {f : Fragment}
    (h : Target.Emits ⟨table, .condition⟩ e f) (value : String → Value) :
    f.template.filled (Slot.rendered value) ≠ "" := by
  cases h with
  | leaf isLeaf =>
    rw [Fragment.filled_leaf, Slot.rendered_leaf]
    exact Leaf.rendered_ne_empty table value _
  | compare _ _ _ | and _ _ _ | or _ _ _ | math _ _ _ => simp
  | not _ _ | isNull _ | contains _ _ | textSearch _ _ => simp
  | aggregate _ _ _ _ | countAll _ _ => simp

/-- The flag is only set in the condition that every record meets, to which only the constant `true`
compiles. -/
theorem everyRecord_of_compile {table : String} {clause : Clause} {e : Expr}
    {c : CompiledCondition} (h : compile table clause e = .ok c) (hc : c.alwaysTrue = true) :
    e = Expr.alwaysTrue ∧ c = .everyRecord := by
  rcases compile_cases h with ⟨_, root, everyRecord⟩ | ⟨f, _, rfl⟩
  · exact ⟨root, everyRecord⟩
  · cases hc

/-- Only that expression compiles to the condition that every record meets. -/
theorem eq_alwaysTrue_of_compile {table : String} {clause : Clause} {e : Expr}
    {c : CompiledCondition} (h : compile table clause e = .ok c) (hc : c.alwaysTrue = true) :
    e = Expr.alwaysTrue :=
  (everyRecord_of_compile h hc).1

/-- The flag of a condition tells whether its expression is the constant `true`. -/
theorem alwaysTrue_of_compile {table : String} {e : Expr} {c : CompiledCondition}
    (h : compile table .condition e = .ok c) : c.alwaysTrue = true ↔ e = Expr.alwaysTrue := by
  constructor
  · exact eq_alwaysTrue_of_compile h
  · rintro rfl
    cases h
    rfl

/-- A condition resolves to the empty filter just if its expression is the constant `true`. -/
theorem resolve_eq_empty_iff {table : String} {e : Expr} {c : CompiledCondition}
    (h : compile table .condition e = .ok c) {values : Values} {text : String}
    (resolved : c.resolve values = .ok text) : text = "" ↔ e = Expr.alwaysTrue := by
  rw [← alwaysTrue_of_compile h]
  cases hc : c.alwaysTrue with
  | true =>
    rw [CompiledCondition.resolve, if_pos hc] at resolved
    cases resolved
    simp
  | false =>
    rw [CompiledCondition.resolve_eq hc] at resolved
    cases hu : c.parameters.findSome? (Parameter.unbound? values) with
    | some e => simp [hu] at resolved
    | none =>
      obtain ⟨f, hf, rfl⟩ := emits_of_compile h hc
      simp only [hu, Option.elim_none, Except.ok.injEq] at resolved
      subst resolved
      simpa using hf.filled_ne_empty fun a => (values.get? a).getD .null

end StreamTable
