import StreamTable.Proofs.Condition.Filter

/-!
# One expression in several clauses

What a clause changes in a compiled expression is only how it refers to the fields of the table, and
whether it admits aggregate functions (`compile_clauses`).

`Target.Emits.transfers` separates the two: a fragment is a template of leaves, which any other
target emits as well, with its own paths in it, unless it refuses the aggregates that the expression
calls.  So the search for calls of aggregates, which walks over the expression, and the check of the
compiler, which meets them one by one, come to the same.
-/

namespace StreamTable

/-! ### Leaves in a clause -/

/-- The hole of a leaf, which may be a pattern. -/
def Target.slot (c : Target) (p : Leaf × Bool) : Slot := ⟨p.1.parameter c.table c.clause, p.2⟩

/-- The holes of two targets that refer to fields in the same way are the same. -/
theorem Target.slot_congr {c c' : Target}
    (paths : c.clause.fieldPath c.table = c'.clause.fieldPath c'.table) : c.slot = c'.slot := by
  funext p
  obtain ⟨l, isPattern⟩ := p
  cases l with
  | constant v => rfl
  | «attribute» name t => rfl
  | field name t => exact congrArg (Slot.mk · isPattern) (congrArg (Parameter.field · t)
      (congrFun paths name))

/-! ### Calls of aggregate functions -/

theorem Expr.callsAggregate_of_leaf? {e : Expr} {l : Leaf} (h : e.leaf? = some l) :
    e.callsAggregate = false := by
  cases e <;> cases h <;> rfl

/-- The target refuses none of the aggregates that the expression calls. -/
def Target.Admits (c : Target) (e : Expr) : Prop :=
  e.callsAggregate = true → c.clause.allowsAggregates = true

/-- A target that emits a fragment has met no aggregate that it refuses. -/
theorem Target.Emits.admits {c : Target} {e : Expr} {f : Fragment} (h : c.Emits e f) :
    c.Admits e := by
  intro calls
  induction h with
  | leaf isLeaf =>
    rw [Expr.callsAggregate_of_leaf? isLeaf] at calls
    cases calls
  | compare _ _ _ ihl ihr | and _ _ _ ihl ihr | or _ _ _ ihl ihr | math _ _ _ ihl ihr =>
    rw [Expr.callsAggregate, Bool.or_eq_true] at calls
    exact calls.elim ihl ihr
  | not _ _ ih | isNull _ ih => exact ih calls
  | contains _ isLeaf ih =>
    rw [Expr.callsAggregate, Expr.callsAggregate_of_leaf? isLeaf, Bool.or_false] at calls
    exact ih calls
  | textSearch _ isLeaf ih =>
    have pattern := Expr.callsAggregate_of_leaf? isLeaf
    simp only [Expr.callsAggregate, Expr.anyCallsAggregate, pattern, Option.isNone_some,
      Bool.false_and, Bool.false_or, Bool.or_false] at calls
    exact ih calls
  | aggregate _ allowed _ _ _ => exact allowed
  | countAll _ allowed => exact allowed

/-! ### Fragments as templates of leaves -/

namespace Target

/-- The fragment is a template of leaves, and every target that admits the aggregates of the
expression emits that template for it, with its own paths. -/
def Transfers (c : Target) (e : Expr) (f : Fragment) : Prop :=
  ∃ t : Template (Leaf × Bool), f.template = t.map c.slot ∧
    ∀ c' : Target, c'.Admits e → c'.Emits e ⟨t.map c'.slot, f.type?⟩

namespace Transfers

variable {c : Target} {e x y : Expr} {f g : Fragment} {type? : Option AttributeType}

/-- Two operands around an operator. -/
theorem binary {op : String} (hx : c.Transfers x f) (hy : c.Transfers y g)
    (calls : e.callsAggregate = (x.callsAggregate || y.callsAggregate))
    (node : ∀ (c' : Target) (s t : Template Slot), c'.Emits x ⟨s, f.type?⟩ →
      c'.Emits y ⟨t, g.type?⟩ → c'.Emits e ⟨Fragment.binary ⟨s, f.type?⟩ op ⟨t, g.type?⟩, type?⟩) :
    c.Transfers e ⟨f.binary op g, type?⟩ := by
  obtain ⟨s, hs, left⟩ := hx
  obtain ⟨t, ht, right⟩ := hy
  refine ⟨.text "(" ++ s ++ .text (" " ++ op ++ " ") ++ t ++ .text ")", ?_, ?_⟩
  · simp [Fragment.binary, hs, ht]
  · intro c' admits
    have emitted := node c' _ _ (left c' fun h => admits (by simp [calls, h]))
      (right c' fun h => admits (by simp [calls, h]))
    simpa [Fragment.binary] using emitted

/-- One operand between two texts. -/
theorem enclosed {before after : String} (hx : c.Transfers x f)
    (calls : x.callsAggregate = true → e.callsAggregate = true)
    (node : ∀ (c' : Target) (s : Template Slot), c'.Admits e → c'.Emits x ⟨s, f.type?⟩ →
      c'.Emits e ⟨.text before ++ s ++ .text after, type?⟩) :
    c.Transfers e ⟨.text before ++ f.template ++ .text after, type?⟩ := by
  obtain ⟨s, hs, operand⟩ := hx
  refine ⟨.text before ++ s ++ .text after, by simp [hs], ?_⟩
  intro c' admits
  have emitted := node c' _ admits (operand c' fun h => admits (calls h))
  simpa using emitted

/-- A text search with a leaf for its pattern. -/
theorem search {l : Leaf} (hx : c.Transfers x f)
    (calls : x.callsAggregate = true → e.callsAggregate = true)
    (node : ∀ (c' : Target) (s : Template Slot), c'.Emits x ⟨s, f.type?⟩ →
      c'.Emits e (Fragment.search ⟨s, f.type?⟩ (l.parameter c'.table c'.clause))) :
    c.Transfers e (f.search (l.parameter c.table c.clause)) := by
  obtain ⟨s, hs, operand⟩ := hx
  refine ⟨.text "CONTAINS(" ++ s ++ .text ", " ++ .hole (l, true) ++ .text ")", ?_, ?_⟩
  · simp [Fragment.search, hs, slot]
  · intro c' admits
    have emitted := node c' _ (operand c' fun h => admits (calls h))
    simpa [Fragment.search, slot] using emitted

end Transfers

namespace Emits

variable {c : Target} {e : Expr} {f : Fragment}

/-- Whatever is emitted for one clause comes from a template that every clause fills in its own way.
-/
theorem transfers (h : c.Emits e f) : c.Transfers e f := by
  induction h with
  | @leaf e l isLeaf => exact ⟨.hole (l, false), rfl, fun c' _ => .leaf isLeaf⟩
  | compare _ _ ordered ihl ihr =>
    exact ihl.binary ihr rfl fun c' s t hl hr => .compare hl hr ordered
  | and _ _ boolean ihl ihr => exact ihl.binary ihr rfl fun c' s t hl hr => .and hl hr boolean
  | or _ _ boolean ihl ihr => exact ihl.binary ihr rfl fun c' s t hl hr => .or hl hr boolean
  | math _ _ numeric ihl ihr => exact ihl.binary ihr rfl fun c' s t hl hr => .math hl hr numeric
  | not _ boolean ih => exact ih.enclosed id fun c' s _ hx => .not hx boolean
  | isNull _ ih => exact ih.enclosed id fun c' s _ hx => .isNull hx
  | contains _ isLeaf ih =>
    refine ih.search (fun h => ?_) fun c' s hx => .contains hx isLeaf
    simp [Expr.callsAggregate, h]
  | textSearch _ isLeaf ih =>
    refine ih.search (fun h => ?_) fun c' s hx => .textSearch hx isLeaf
    simp [Expr.callsAggregate, Expr.anyCallsAggregate, h]
  -- A clause that does not allow aggregates admits no expression with a call, so nothing is left to
  -- show for it.
  | @aggregate name a x f t known allowed hx result ih =>
    have calls : (Expr.call none name [x]).callsAggregate = true := by
      simp [Expr.callsAggregate, known]
    exact ih.enclosed (fun _ => calls) fun c' s admits hx =>
      .aggregate known (admits calls) hx result
  | @countAll name known allowed =>
    have calls : (Expr.call none name []).callsAggregate = true := by
      simp [Expr.callsAggregate, known]
    refine ⟨.text (Aggregate.count.keyword ++ "(") ++ .text "1" ++ .text ")", rfl, ?_⟩
    intro c' admits
    exact .countAll known (admits calls)

/-- The compiler emits one fragment for an expression. -/
theorem unique {g : Fragment} (hf : c.Emits e f) (hg : c.Emits e g) : f = g := by
  have emitted := emit_eq_ok_of_emits hf
  rw [emit_eq_ok_of_emits hg] at emitted
  exact (Except.ok.inj emitted).symm

end Emits

end Target

/-! ### Clauses -/

namespace Parameter

/-- The parameter with the name of a table before the path of a field. -/
def qualified (table : String) : Parameter → Parameter
  | .field name t => .field (table ++ "." ++ name) t
  | p => p

end Parameter

/-- With its path qualified, the source of a leaf in a having clause is that in a select column. -/
theorem Leaf.qualified_parameter (table : String) (l : Leaf) :
    (l.parameter table .having).qualified table = l.parameter table .selection := by
  cases l <;> rfl

variable {table : String} {clause : Clause} {e : Expr} {c c' : CompiledCondition}

/-- Outside of set values, any expression but the condition that every record meets is compiled to
its fragment. -/
theorem compile_eq_ok_iff (notSet : clause ≠ .setAttribute)
    (plain : clause = .condition → e ≠ .alwaysTrue) :
    compile table clause e = .ok c ↔ ∃ f, Target.Emits ⟨table, clause⟩ e f ∧
      ({ template := f.template, resultType := f.type? } : CompiledCondition) = c := by
  have notRoot : ¬ (clause = .condition ∧ e.isAlwaysTrue = true) := fun h =>
    plain h.1 (Expr.isAlwaysTrue_iff.1 h.2)
  rw [compile, if_neg notRoot, if_neg fun h => notSet h.1]
  simp only [bind_eq_ok, pure_eq_ok, Target.emit_eq_ok_iff]

theorem compile_selection_eq_ok_iff :
    compile table .selection e = .ok c ↔ ∃ f, Target.Emits ⟨table, .selection⟩ e f ∧
      ({ template := f.template, resultType := f.type? } : CompiledCondition) = c :=
  compile_eq_ok_iff (by decide) fun h => by cases h

theorem compile_having_eq_ok_iff :
    compile table .having e = .ok c ↔ ∃ f, Target.Emits ⟨table, .having⟩ e f ∧
      ({ template := f.template, resultType := f.type? } : CompiledCondition) = c :=
  compile_eq_ok_iff (by decide) fun h => by cases h

/-- A clause that refers to fields as a select column does, but admits no aggregates, gives what the
select column gives, and nothing where that calls an aggregate. -/
theorem compile_of_refuses (refuses : clause.allowsAggregates = false)
    (paths : clause.fieldPath table = Clause.selection.fieldPath table)
    (notSet : clause ≠ .setAttribute) (plain : clause = .condition → e ≠ .alwaysTrue) :
    compile table clause e = .ok c ↔
      compile table .selection e = .ok c ∧ e.callsAggregate = false := by
  have slots : Target.slot ⟨table, clause⟩ = Target.slot ⟨table, .selection⟩ :=
    Target.slot_congr paths
  rw [compile_eq_ok_iff notSet plain, compile_selection_eq_ok_iff]
  constructor
  · rintro ⟨f, hf, rfl⟩
    obtain ⟨t, ht, moved⟩ := hf.transfers
    have selected := moved ⟨table, .selection⟩ fun _ => rfl
    rw [← slots, ← ht] at selected
    refine ⟨⟨f, selected, rfl⟩, ?_⟩
    -- The clause emits a fragment only where no aggregate is called.
    refine Bool.eq_false_iff.2 fun calls => ?_
    rw [hf.admits calls] at refuses
    cases refuses
  · rintro ⟨⟨f, hf, rfl⟩, noCalls⟩
    obtain ⟨t, ht, moved⟩ := hf.transfers
    have emitted := moved ⟨table, clause⟩ fun calls => absurd calls (by simp [noCalls])
    rw [slots, ← ht] at emitted
    exact ⟨f, emitted, rfl⟩

/-- A having clause accepts what a select column accepts. -/
theorem exists_compile_having_iff :
    (∃ c, compile table .having e = .ok c) ↔ ∃ c, compile table .selection e = .ok c := by
  simp only [compile_having_eq_ok_iff, compile_selection_eq_ok_iff]
  constructor
  · rintro ⟨_, f, hf, _⟩
    obtain ⟨t, _, moved⟩ := hf.transfers
    exact ⟨_, _, moved ⟨table, .selection⟩ fun _ => rfl, rfl⟩
  · rintro ⟨_, f, hf, _⟩
    obtain ⟨t, _, moved⟩ := hf.transfers
    exact ⟨_, _, moved ⟨table, .having⟩ fun _ => rfl, rfl⟩

/-- What a having clause makes of an expression has the text, the patterns and the type that a
select column gives it, and differs in the paths of the fields only. -/
theorem eq_of_compile_having (hc : compile table .having e = .ok c)
    (hc' : compile table .selection e = .ok c') :
    c.template.texts = c'.template.texts ∧ c.patternPositions = c'.patternPositions ∧
      c.resultType = c'.resultType ∧
      c.parameters.map (Parameter.qualified table) = c'.parameters := by
  obtain ⟨f, hf, rfl⟩ := compile_having_eq_ok_iff.1 hc
  obtain ⟨g, hg, rfl⟩ := compile_selection_eq_ok_iff.1 hc'
  obtain ⟨t, ht, moved⟩ := hf.transfers
  obtain rfl := hg.unique (moved ⟨table, .selection⟩ fun _ => rfl)
  refine ⟨?_, ?_, rfl, ?_⟩
  · show f.template.texts = _
    rw [ht, Template.texts_map, Template.texts_map]
  · exact hf.patternPositions.trans hg.patternPositions.symm
  · show (f.template.holes.map (·.parameter)).map _ = _
    rw [hf.parameters, List.map_map]
    refine Eq.trans ?_ hg.parameters.symm
    exact List.map_congr_left fun l _ => l.qualified_parameter table

/-- The fields of a having clause are known by the names that they have in the expression. -/
theorem mem_leaves_of_compile_having (hc : compile table .having e = .ok c) {name : String}
    {t : AttributeType} (h : .field name t ∈ c.parameters) : Leaf.field name t ∈ e.leaves := by
  obtain ⟨f, hf, rfl⟩ := compile_having_eq_ok_iff.1 hc
  rw [CompiledCondition.parameters, hf.parameters] at h
  obtain ⟨l, hl, named⟩ := List.mem_map.1 h
  cases l with
  | constant v => cases named
  | «attribute» a u => cases named
  | field a u =>
    cases named
    exact hl

/-- Clauses differ in two ways only.  Grouping keys, order keys and conditions are compiled as a
select column is, but only if no aggregate function is called anywhere in them; a having clause is
compiled whenever a select column is, and refers to the fields by their names alone. -/
theorem compile_clauses (table : String) (e : Expr) :
    (∀ clause ∈ [Clause.groupBy, .orderBy, .condition],
      (clause = .condition → e ≠ .alwaysTrue) → ∀ c,
        compile table clause e = .ok c ↔
          compile table .selection e = .ok c ∧ e.callsAggregate = false) ∧
      ((∃ c, compile table .having e = .ok c) ↔ ∃ c, compile table .selection e = .ok c) ∧
      ∀ c c', compile table .having e = .ok c → compile table .selection e = .ok c' →
        c.template.texts = c'.template.texts ∧ c.patternPositions = c'.patternPositions ∧
          c.resultType = c'.resultType ∧
          c.parameters.map (Parameter.qualified table) = c'.parameters ∧
          ∀ name t, .field name t ∈ c.parameters → Leaf.field name t ∈ e.leaves := by
  refine ⟨?_, exists_compile_having_iff, ?_⟩
  · intro clause hclause plain c
    simp only [List.mem_cons, List.not_mem_nil, or_false] at hclause
    obtain rfl | rfl | rfl := hclause
    · exact compile_of_refuses rfl rfl (by decide) plain
    · exact compile_of_refuses rfl rfl (by decide) plain
    · exact compile_of_refuses rfl rfl (by decide) plain
  · intro c c' hc hc'
    obtain ⟨texts, positions, types, parameters⟩ := eq_of_compile_having hc hc'
    exact ⟨texts, positions, types, parameters, fun _ _ => mem_leaves_of_compile_having hc⟩

/-- A search that calls aggregates is refused where they are not admitted, and a comparison that
calls none is compiled to the same in all clauses but having. -/
theorem compile_clauses_nestedSearch :
    (∃ c c', compile "Stock" .having nestedSearch = .ok c ∧
      compile "Stock" .selection nestedSearch = .ok c' ∧
      c.template.texts = c'.template.texts ∧ c.patternPositions = c'.patternPositions ∧
      c.resultType = c'.resultType ∧
      c.parameters.map (Parameter.qualified "Stock") = c'.parameters ∧
      compile "Stock" .condition nestedSearch ≠ .ok c') ∧
    ∃ c, compile "Stock" .selection
        (.compare .lt (.field "price" .double) (.attribute "limit" .double)) = .ok c ∧
      compile "Stock" .groupBy
        (.compare .lt (.field "price" .double) (.attribute "limit" .double)) = .ok c := by
  constructor
  · obtain ⟨refused, accepted, alike⟩ := compile_clauses "Stock" nestedSearch
    obtain ⟨c', hc'⟩ : ∃ c', compile "Stock" .selection nestedSearch = .ok c' := ⟨_, rfl⟩
    obtain ⟨c, hc⟩ := accepted.2 ⟨c', hc'⟩
    obtain ⟨texts, positions, types, parameters, _⟩ := alike c c' hc hc'
    refine ⟨c, c', hc, hc', texts, positions, types, parameters, fun h => ?_⟩
    have calls := ((refused .condition (by decide) (fun _ => nofun) c').1 h).2
    revert calls
    decide
  · obtain ⟨grouped, _, _⟩ := compile_clauses "Stock"
      (.compare .lt (.field "price" .double) (.attribute "limit" .double))
    exact ⟨_, rfl, (grouped .groupBy (by decide) nofun _).2 ⟨rfl, rfl⟩⟩

end StreamTable
