import StreamTable.Proofs.Condition.Ordinals

/-!
# The holes of a compiled condition

A compiled condition has one hole for each leaf of its expression, in the order of the leaves, and
the holes that are patterns are those of the leaves that are patterns (`holes_of_compile`).  No
text between the holes holds a mark, so the marks that are shown count the holes, whatever
characters the constants and names have.  The walk over the expression that notes the patterns by
number ends with the lists of the condition.
-/

namespace StreamTable

/-! ### Marks -/

theorem Template.count_mark : Template.mark.toList.count '?' = 1 := by decide

theorem CompareOp.count_mark_symbol (op : CompareOp) : op.symbol.toList.count '?' = 0 := by
  cases op <;> decide

theorem MathOp.count_mark_symbol (op : MathOp) : op.symbol.toList.count '?' = 0 := by
  cases op <;> decide

theorem LogicOp.count_mark_symbol (op : LogicOp) : op.symbol.toList.count '?' = 0 := by
  cases op <;> decide

theorem Aggregate.count_mark_keyword (a : Aggregate) : a.keyword.toList.count '?' = 0 := by
  cases a <;> decide

namespace Target.Emits

variable {c : Target} {e : Expr} {f : Fragment}

/-- The holes of a fragment are the leaves of its expression. -/
theorem parameters (h : c.Emits e f) :
    f.template.holes.map (·.parameter) = e.leaves.map (Leaf.parameter c.table c.clause) := by
  induction h with
  | leaf isLeaf => simp [Expr.leaves_of_leaf? isLeaf]
  | compare _ _ _ ihl ihr | and _ _ _ ihl ihr | or _ _ _ ihl ihr | math _ _ _ ihl ihr =>
    simp [Expr.leaves, ihl, ihr]
  | not _ _ ih | isNull _ ih => simp [Expr.leaves, ih]
  | contains _ isLeaf ih => simp [Expr.leaves, Expr.leaves_of_leaf? isLeaf, ih]
  | aggregate _ _ _ _ ih => simp [Expr.leaves, Expr.leavesOfAll, ih]
  | countAll _ _ => simp [Expr.leaves, Expr.leavesOfAll]
  | textSearch _ isLeaf ih =>
    simp [Expr.leaves, Expr.leavesOfAll, Expr.leaves_of_leaf? isLeaf, ih]

/-- There are as many holes as leaves. -/
theorem length_holes (h : c.Emits e f) : f.template.holes.length = e.leaves.length := by
  simpa using congrArg List.length h.parameters

/-- The holes that are patterns are the leaves that are patterns. -/
theorem patternPositions (h : c.Emits e f) :
    Slot.patternPositions f.template.holes = e.patternPositions := by
  induction h with
  | leaf isLeaf => simp [Expr.patternPositions_of_leaf? isLeaf]
  | compare hl _ _ ihl ihr | and hl _ _ ihl ihr | or hl _ _ ihl ihr | math hl _ _ ihl ihr =>
    simp [Expr.patternPositions, Slot.patternPositions_append, hl.length_holes, ihl, ihr]
  | not _ _ ih | isNull _ ih => simp [Expr.patternPositions, ih]
  | contains hx _ ih | textSearch hx _ ih =>
    simp [Expr.patternPositions, Slot.patternPositions_append, hx.length_holes, ih]
  | aggregate _ _ _ _ ih => simp [Expr.patternPositions, Expr.patternPositionsOfAll, ih]
  | countAll _ _ => simp [Expr.patternPositions, Expr.patternPositionsOfAll]

/-- The text shows one mark for each hole. -/
theorem count_marks (h : c.Emits e f) :
    (f.template.filled fun _ => Template.mark).toList.count '?' = f.template.holes.length := by
  -- Only operators and keywords stand between the holes: constants and names are in the holes.
  induction h with
  | leaf isLeaf => simp [Template.count_mark]
  | @compare op _ _ _ _ _ _ _ ihl ihr => simp [ihl, ihr, op.count_mark_symbol]
  | and _ _ _ ihl ihr | or _ _ _ ihl ihr => simp [ihl, ihr, LogicOp.count_mark_symbol]
  | @math op _ _ _ _ _ _ _ ihl ihr => simp [ihl, ihr, op.count_mark_symbol]
  | not _ _ ih | isNull _ ih => simp [ih]
  | contains _ _ ih | textSearch _ _ ih => simp [ih, Template.count_mark]
  | @aggregate _ a _ _ _ _ _ _ _ ih => simp [ih, a.count_mark_keyword]
  | countAll _ _ => simp [Aggregate.count_mark_keyword]

end Target.Emits

/-- The holes of a condition other than the one that every record meets: their sources are those of
the leaves, there is one more piece of text and exactly as many marks, and the patterns among them
are the patterns among the leaves, in ascending order.  Its lists are those that the walk over the
expression makes. -/
theorem holes_of_compile {table : String} {clause : Clause} {e : Expr} {c : CompiledCondition}
    (h : compile table clause e = .ok c) (hc : c.alwaysTrue = false) :
    c.parameters = e.leaves.map (Leaf.parameter table clause) ∧
      c.size = c.parameters.length ∧
      c.template.texts.length = c.parameters.length + 1 ∧
      c.shown.toList.count '?' = c.parameters.length ∧
      c.patternPositions = e.patternPositions ∧
      c.patternPositions.Pairwise (· < ·) ∧
      (∀ i ∈ c.patternPositions, i < c.size) ∧
      compileNumbered table clause e = .ok c.asNumbered ∧
      c.numbered.ordinals = c.patternPositions := by
  have walk : compileNumbered table clause e = .ok c.asNumbered := by
    rw [compileNumbered_eq, h]
    rfl
  obtain ⟨f, hf, rfl⟩ := emits_of_compile h hc
  -- The rest is about the fragment, where each part is an induction on what was emitted.
  have size : f.template.size = f.template.holes.length := by
    simp [Template.size, Template.holes]
  refine ⟨hf.parameters, ?_, ?_, ?_, hf.patternPositions, ?_, ?_, walk, rfl⟩
  · simp [CompiledCondition.size, CompiledCondition.parameters, size]
  · simp [Template.length_texts, CompiledCondition.parameters]
  · rw [CompiledCondition.shown, Template.shown_eq_filled, hf.count_marks]
    simp [CompiledCondition.parameters]
  · exact Slot.pairwise_patternPositions _
  · intro i hi
    rw [CompiledCondition.size, size]
    exact Slot.lt_of_mem_patternPositions hi

/-- A text search in a text search, beside aggregates with and without an argument. -/
def nestedSearch : Expr :=
  .and
    (.contains (.call (some "str") "contains" [.field "title" .string, .attribute "word" .int])
      (.constant (.string "it's?")))
    (.or (.compare .gt (.call none "sum" [.field "price" .double]) (.attribute "limit" .string))
      (.compare .eq (.call none "count" []) (.constant .null)))

theorem holes_of_compile_nestedSearch :
    ∃ c, compile "Stock?" .selection nestedSearch = .ok c ∧ c.alwaysTrue = false ∧
      c.shown.toList.count '?' = 6 ∧ c.patternPositions = [1, 2] := by
  obtain ⟨c, h, hc⟩ : ∃ c, compile "Stock?" .selection nestedSearch = .ok c ∧
      c.alwaysTrue = false := ⟨_, rfl, rfl⟩
  obtain ⟨parameters, _, _, marks, patterns, _⟩ := holes_of_compile h hc
  refine ⟨c, h, hc, ?_, patterns.trans (by rfl)⟩
  rw [marks, parameters]
  rfl

end StreamTable
