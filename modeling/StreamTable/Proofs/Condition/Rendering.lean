import StreamTable.Condition.Resolve
import StreamTable.Proofs.Condition.Holes

/-!
# Resolved conditions

`Expr.rendered` writes an expression as query text by recursion on the expression, with no template
in between.  Compiling an expression and binding the result to runtime values is the same: it
succeeds exactly if all attributes of the stream are bound, and then gives the rendered text
(`resolve_of_compile`).

The proof looks at a template twice.  Its holes are the leaves of the expression
(`Target.Emits.parameters`), so the first hole that cannot be filled is the first leaf that is
unbound; and its text with all holes filled is the rendered text (`Target.Emits.filled`).
-/

namespace StreamTable

namespace Leaf

variable (path : String → String) (value : String → Value)

/-- The text of a leaf: a literal of its own type, or the path of a field. -/
def rendered : Leaf → String
  | .constant v => v.literal (v.type?.getD .object)
  | .attribute name t => (value name).literal t
  | .field name _ => path name

/-- The text of a leaf that is a pattern: a literal text, or the path of a field. -/
def renderedPattern : Leaf → String
  | .constant v => v.textLiteral
  | .attribute name _ => (value name).textLiteral
  | .field name _ => path name

end Leaf

namespace Expr

/-- The keyword of an aggregate function. -/
def keyword (name : String) : String := (Aggregate.ofName? name).elim "" Aggregate.keyword

/-- The text of a pattern. -/
def renderedPattern (path : String → String) (value : String → Value) (pattern : Expr) : String :=
  pattern.leaf?.elim "" (Leaf.renderedPattern path value)

/-- The query text of an expression, for the paths of the fields and the values of the attributes of
the stream.  Of the calls, only those that compile have a text of interest. -/
def rendered (path : String → String) (value : String → Value) : Expr → String
  | .constant v => Leaf.rendered path value (.constant v)
  | .attribute name t => Leaf.rendered path value (.attribute name t)
  | .field name t => Leaf.rendered path value (.field name t)
  | .compare op l r =>
    "(" ++ l.rendered path value ++ " " ++ op.symbol ++ " " ++ r.rendered path value ++ ")"
  | .and l r => "(" ++ l.rendered path value ++ " AND " ++ r.rendered path value ++ ")"
  | .or l r => "(" ++ l.rendered path value ++ " OR " ++ r.rendered path value ++ ")"
  | .not x => "(NOT " ++ x.rendered path value ++ ")"
  | .isNull x => "(" ++ x.rendered path value ++ " IS NULL)"
  | .contains x pattern =>
    "CONTAINS(" ++ x.rendered path value ++ ", " ++ pattern.renderedPattern path value ++ ")"
  | .math op l r =>
    "(" ++ l.rendered path value ++ " " ++ op.symbol ++ " " ++ r.rendered path value ++ ")"
  | .call space name args =>
    match space, args with
    | none, [x] => keyword name ++ "(" ++ x.rendered path value ++ ")"
    | none, [] => "COUNT(1)"
    | some _, [x, pattern] =>
      "CONTAINS(" ++ x.rendered path value ++ ", " ++ pattern.renderedPattern path value ++ ")"
    | _, _ => ""
  | .isIn _ _ => ""

theorem rendered_of_leaf? {path : String → String} {value : String → Value} {e : Expr} {l : Leaf}
    (h : e.leaf? = some l) : e.rendered path value = l.rendered path value := by
  cases e <;> cases h <;> rfl

end Expr

/-! ### Holes -/

/-- The error of a hole whose attribute has no value. -/
def Parameter.unbound? (values : Values) (p : Parameter) : Option BindError :=
  match p.boundAttribute? with
  | some name => if (values.get? name).isNone then some (.missingAttribute name) else none
  | none => none

/-- The first hole that cannot be filled belongs to the first leaf that is unbound. -/
theorem Leaf.findSome?_unbound? (values : Values) (table : String) (clause : Clause)
    (ls : List Leaf) :
    (ls.map (Leaf.parameter table clause)).findSome? (Parameter.unbound? values) =
      ((ls.filterMap Leaf.streamName?).find? fun a => (values.get? a).isNone).map
        .missingAttribute := by
  induction ls with
  | nil => rfl
  | cons l ls ih =>
    cases l with
    | constant v => exact ih
    | field name t => exact ih
    | «attribute» name t =>
      cases h : values.get? name with
      | none => simp [Leaf.parameter, Leaf.streamName?, Parameter.unbound?,
          Parameter.boundAttribute?, h]
      | some v => simpa [Leaf.parameter, Leaf.streamName?, Parameter.unbound?,
          Parameter.boundAttribute?, h] using ih

namespace Slot

variable {table : String} {clause : Clause}

/-- The text of a hole, for the values of the attributes of the stream. -/
def rendered (value : String → Value) (slot : Slot) : String :=
  match slot.parameter with
  | .constant v => slot.write v
  | .attribute name _ => slot.write (value name)
  | .field path _ => path

theorem fill_eq (values : Values) (slot : Slot) :
    slot.fill values =
      (slot.parameter.unbound? values).elim
        (.ok (slot.rendered fun a => (values.get? a).getD .null)) .error := by
  obtain ⟨parameter, isPattern⟩ := slot
  cases parameter with
  | constant v => rfl
  | field path t => rfl
  | «attribute» name t =>
    cases h : values.get? name <;>
      simp [fill, Parameter.unbound?, Parameter.boundAttribute?, rendered, Values.lookup, h,
        Except.map]

theorem rendered_leaf (value : String → Value) (l : Leaf) :
    rendered value ⟨l.parameter table clause, false⟩ =
      l.rendered (clause.fieldPath table) value := by
  cases l <;> rfl

theorem rendered_pattern (value : String → Value) (l : Leaf) :
    rendered value ⟨l.parameter table clause, true⟩ =
      l.renderedPattern (clause.fieldPath table) value := by
  cases l <;> rfl

end Slot

/-- Any condition but the one that every record meets resolves to its filled text, or to the error
of its first hole that cannot be filled. -/
theorem CompiledCondition.resolve_eq {c : CompiledCondition} (hc : c.alwaysTrue = false)
    (values : Values) :
    c.resolve values =
      (c.parameters.findSome? (Parameter.unbound? values)).elim
        (.ok (c.template.filled (Slot.rendered fun a => (values.get? a).getD .null))) .error := by
  rw [resolve, hc, parameters, List.findSome?_map]
  exact Template.fill_eq (Slot.fill_eq values) c.template

namespace CompiledCondition

/-- Every attribute of the stream that the condition needs has a value. -/
def Bound (values : Values) (c : CompiledCondition) : Prop :=
  ∀ p ∈ c.parameters, ∀ a, p.boundAttribute? = some a → (values.get? a).isSome = true

/-- The text with all holes filled. -/
def filled (values : Values) (c : CompiledCondition) : String :=
  c.template.filled (Slot.rendered fun a => (values.get? a).getD .null)

theorem findSome?_unbound?_eq_none {values : Values} {c : CompiledCondition} :
    c.parameters.findSome? (Parameter.unbound? values) = none ↔ c.Bound values := by
  rw [List.findSome?_eq_none_iff]
  refine forall₂_congr fun p _ => ?_
  unfold Parameter.unbound?
  cases p.boundAttribute? with
  | none => simp
  | some a =>
    cases h : values.get? a with
    | none => simp [h]
    | some v => simp [h]

theorem resolve_eq_ok_iff {values : Values} {c : CompiledCondition} {text : String}
    (hc : c.alwaysTrue = false) :
    c.resolve values = .ok text ↔ c.Bound values ∧ c.filled values = text := by
  rw [resolve_eq hc, ← findSome?_unbound?_eq_none]
  cases c.parameters.findSome? (Parameter.unbound? values) with
  | none => simp [filled]
  | some e => simp

end CompiledCondition

/-- The filled text of a fragment is the rendered text of its expression. -/
theorem Target.Emits.filled {c : Target} {e : Expr} {f : Fragment} (h : c.Emits e f)
    (value : String → Value) :
    f.template.filled (Slot.rendered value) = e.rendered (c.clause.fieldPath c.table) value := by
  induction h with
  | leaf isLeaf => simp [Slot.rendered_leaf, Expr.rendered_of_leaf? isLeaf]
  | compare _ _ _ ihl ihr | math _ _ _ ihl ihr =>
    simp [Expr.rendered, ihl, ihr, String.append_assoc]
  | and _ _ _ ihl ihr | or _ _ _ ihl ihr =>
    simp [Expr.rendered, LogicOp.symbol, ihl, ihr, String.append_assoc]
  | not _ _ ih | isNull _ ih => simp [Expr.rendered, ih]
  | contains _ isLeaf ih | textSearch _ isLeaf ih =>
    simp [Expr.rendered, Expr.renderedPattern, isLeaf, Slot.rendered_pattern, ih]
  | aggregate known _ _ _ ih => simp [Expr.rendered, Expr.keyword, known, ih]
  | countAll _ _ => rfl

/-- With all attributes of the stream bound, the fragment of an expression is filled. -/
theorem Target.Emits.resolve {c : Target} {e : Expr} {f : Fragment} (h : c.Emits e f)
    {values : Values} (bound : ∀ a ∈ e.streamAttributes, (values.get? a).isSome) :
    CompiledCondition.resolve { template := f.template, resultType := f.type? } values =
      .ok (f.template.filled (Slot.rendered fun a => (values.get? a).getD .null)) := by
  have unbound : (e.leaves.map (Leaf.parameter c.table c.clause)).findSome?
      (Parameter.unbound? values) = none := by
    rw [Leaf.findSome?_unbound?, ← Expr.streamAttributes, Option.map_eq_none_iff,
      List.find?_eq_none]
    intro a ha
    simpa [Option.isSome_iff_ne_none] using bound a ha
  rw [CompiledCondition.resolve_eq rfl, CompiledCondition.parameters, h.parameters, unbound]
  rfl

/-- Binding a compiled condition to runtime values is rendering its expression: it succeeds exactly
if every attribute of the stream is bound, and the leftmost one that is not decides the error.  To
bind its lists, with each hole looked up among the patterns, is the same. -/
theorem resolve_of_compile {table : String} {clause : Clause} {e : Expr} {c : CompiledCondition}
    (h : compile table clause e = .ok c) (hc : c.alwaysTrue = false) (values : Values) :
    ((∃ text, c.resolve values = .ok text) ↔
        ∀ a ∈ e.streamAttributes, (values.get? a).isSome) ∧
      (c.resolve values =
        match e.streamAttributes.find? fun a => (values.get? a).isNone with
        | some a => .error (.missingAttribute a)
        | none =>
          .ok (e.rendered (clause.fieldPath table) fun a => (values.get? a).getD .null)) ∧
      c.resolve values = c.numbered.render values := by
  have lists : c.resolve values = c.numbered.render values := by
    rw [CompiledCondition.resolve_eq_render, hc]
    rfl
  refine and_assoc.1 ⟨?_, lists⟩
  obtain ⟨f, hf, rfl⟩ := emits_of_compile h hc
  -- The holes are the leaves, so the first hole without a value is the first unbound leaf.
  have resolved := CompiledCondition.resolve_eq hc values
  rw [hf.filled, CompiledCondition.parameters, hf.parameters, Leaf.findSome?_unbound?] at resolved
  rw [resolved, ← Expr.streamAttributes]
  cases hfind : e.streamAttributes.find? fun a => (values.get? a).isNone with
  | some a =>
    have ha := List.find?_some hfind
    have hmem := List.mem_of_find?_eq_some hfind
    refine ⟨⟨?_, ?_⟩, rfl⟩
    · rintro ⟨text, ht⟩
      cases ht
    · intro hall
      have := hall a hmem
      simp [Option.isNone_iff_eq_none.1 ha] at this
  | none =>
    refine ⟨⟨?_, fun _ => ⟨_, rfl⟩⟩, rfl⟩
    intro _ a ha
    simpa [Option.isSome_iff_ne_none] using List.find?_eq_none.1 hfind a ha

theorem resolve_of_compile_nestedSearch :
    ∃ c, compile "Stock" .having nestedSearch = .ok c ∧ c.alwaysTrue = false ∧
      c.resolve [("limit", .int 5)] = .error (.missingAttribute "word") ∧
      c.resolve [("limit", .int 5), ("word", .int 7)] =
        .ok ("(CONTAINS(CONTAINS(title, '7'), 'it\\'s?') AND " ++
          "((SUM(price) > '5') OR (COUNT(1) = null)))") := by
  obtain ⟨c, h, hc⟩ : ∃ c, compile "Stock" .having nestedSearch = .ok c ∧
      c.alwaysTrue = false := ⟨_, rfl, rfl⟩
  refine ⟨c, h, hc, ?_, ?_⟩
  · exact (resolve_of_compile h hc _).2.1.trans (by rfl)
  · exact (resolve_of_compile h hc _).2.1.trans (by rfl)

end StreamTable
