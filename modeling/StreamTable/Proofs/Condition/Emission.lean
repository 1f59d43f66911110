import StreamTable.Condition.Compile
import StreamTable.Proofs.Expr.Leaves
import StreamTable.Proofs.Template.Filling

/-!
# What the compiler emits

`Target.Emits c e f` is the compiler as a relation: one constructor for each kind of expression that
is accepted, with the checks that it passed.  `Target.emit_eq_ok_iff` says that the compiler emits a
fragment exactly when the relation holds, so a property of compiled text is an induction on
`Target.Emits` and never unfolds the compiler.  What a condition can be compiled to is said once, in
`compile_cases`.  The holes and the filled text of a fragment are given by one lemma for each way in
which fragments are put together.
-/

namespace StreamTable

/-! ### Computations that can fail -/

/-- A sequence succeeds just if both of its parts do. -/
theorem bind_eq_ok {ε α β : Type} {x : Except ε α} {f : α → Except ε β} {b : β} :
    x >>= f = .ok b ↔ ∃ a, x = .ok a ∧ f a = .ok b := by
  cases x <;> simp [bind, Except.bind]

theorem map_eq_ok {ε α β : Type} {x : Except ε α} {f : α → β} {b : β} :
    f <$> x = .ok b ↔ ∃ a, x = .ok a ∧ f a = b := by
  cases x <;> simp [Functor.map, Except.map]

theorem throw_ne_ok {ε α : Type} (e : ε) (a : α) : (throw e : Except ε α) ≠ .ok a := by
  simp [throw, throwThe, MonadExceptOf.throw]

theorem pure_eq_ok {ε α : Type} {a b : α} : (pure a : Except ε α) = .ok b ↔ a = b := by
  simp [pure, Except.pure]

namespace Fragment

/-- The fragment has no type, or one that qualifies. -/
def Admits (x : Fragment) (qualifies : AttributeType → Bool) : Prop :=
  ∀ t, x.type? = some t → qualifies t = true

/-- A check is passed by the fragments that it admits. -/
theorem expect_eq_ok {x : Fragment} {qualifies : AttributeType → Bool}
    {error : AttributeType → CompileError} {u : Unit} :
    x.expect qualifies error = .ok u ↔ x.Admits qualifies := by
  obtain ⟨template, type?⟩ := x
  cases type? with
  | none => simp [expect, Admits]
  | some t =>
    by_cases h : qualifies t = true
    · simp [expect, Admits, h]
    · simp [expect, Admits, h]

variable (w : Slot → String)

@[simp] theorem holes_leaf (p : Parameter) (t : Option AttributeType) :
    (leaf p t).template.holes = [⟨p, false⟩] := rfl

@[simp] theorem filled_leaf (p : Parameter) (t : Option AttributeType) :
    (leaf p t).template.filled w = w ⟨p, false⟩ :=
  Template.filled_hole w ⟨p, false⟩

@[simp] theorem holes_binary (f : Fragment) (op : String) (g : Fragment) :
    (f.binary op g).holes = f.template.holes ++ g.template.holes := by
  simp [binary]

@[simp] theorem filled_binary (f : Fragment) (op : String) (g : Fragment) :
    (f.binary op g).filled w =
      "(" ++ f.template.filled w ++ (" " ++ op ++ " ") ++ g.template.filled w ++ ")" := by
  simp [binary]

@[simp] theorem holes_search (f : Fragment) (p : Parameter) :
    (f.search p).template.holes = f.template.holes ++ [⟨p, true⟩] := by
  simp [search]

@[simp] theorem filled_search (f : Fragment) (p : Parameter) :
    (f.search p).template.filled w =
      "CONTAINS(" ++ f.template.filled w ++ ", " ++ w ⟨p, true⟩ ++ ")" := by
  simp [search]

end Fragment

theorem Aggregate.ofName?_eq_some {name : String} {a : Aggregate} :
    ofName? name = some a ↔ a.name = name := by
  constructor
  · intro h
    simpa using List.find?_some h
  · rintro rfl
    cases a <;> rfl

namespace Target

/-- The target emits a fragment for an expression. -/
inductive Emits (c : Target) : Expr → Fragment → Prop where
  | leaf {e : Expr} {l : Leaf} (isLeaf : e.leaf? = some l) :
      Emits c e (.leaf (l.parameter c.table c.clause) l.type?)
  | compare {op : CompareOp} {l r : Expr} {f g : Fragment} (hl : Emits c l f) (hr : Emits c r g)
      (ordered : op.isOrdering = true → f.Admits (·.isOrdered) ∧ g.Admits (·.isOrdered)) :
      Emits c (.compare op l r) ⟨f.binary op.symbol g, some .bool⟩
  | and {l r : Expr} {f g : Fragment} (hl : Emits c l f) (hr : Emits c r g)
      (boolean : f.Admits (· = .bool) ∧ g.Admits (· = .bool)) :
      Emits c (.and l r) ⟨f.binary LogicOp.and.symbol g, some .bool⟩
  | or {l r : Expr} {f g : Fragment} (hl : Emits c l f) (hr : Emits c r g)
      (boolean : f.Admits (· = .bool) ∧ g.Admits (· = .bool)) :
      Emits c (.or l r) ⟨f.binary LogicOp.or.symbol g, some .bool⟩
  | not {x : Expr} {f : Fragment} (hx : Emits c x f) (boolean : f.Admits (· = .bool)) :
      Emits c (.not x) ⟨.text "(NOT " ++ f.template ++ .text ")", some .bool⟩
  | isNull {x : Expr} {f : Fragment} (hx : Emits c x f) :
      Emits c (.isNull x) ⟨.text "(" ++ f.template ++ .text " IS NULL)", some .bool⟩
  | contains {x pattern : Expr} {f : Fragment} {p : Leaf} (hx : Emits c x f)
      (isLeaf : pattern.leaf? = some p) :
      Emits c (.contains x pattern) (f.search (p.parameter c.table c.clause))
  | math {op : MathOp} {l r : Expr} {f g : Fragment} (hl : Emits c l f) (hr : Emits c r g)
      (numeric : f.Admits (·.isNumeric) ∧ g.Admits (·.isNumeric)) :
      Emits c (.math op l r)
        ⟨f.binary op.symbol g, AttributeType.wider? f.type? g.type?⟩
  | aggregate {name : String} {a : Aggregate} {x : Expr} {f : Fragment} {t : Option AttributeType}
      (known : Aggregate.ofName? name = some a) (allowed : c.clause.allowsAggregates = true)
      (hx : Emits c x f) (result : a.resultType? f.type? = .ok t) :
      Emits c (.call none name [x])
        ⟨.text (a.keyword ++ "(") ++ f.template ++ .text ")", t⟩
  | countAll {name : String} (known : Aggregate.ofName? name = some .count)
      (allowed : c.clause.allowsAggregates = true) :
      Emits c (.call none name [])
        ⟨.text (Aggregate.count.keyword ++ "(") ++ .text "1" ++ .text ")", some .long⟩
  | textSearch {x pattern : Expr} {f : Fragment} {p : Leaf} (hx : Emits c x f)
      (isLeaf : pattern.leaf? = some p) :
      Emits c (.call (some Expr.textSpace) "contains" [x, pattern])
        (f.search (p.parameter c.table c.clause))

variable {c : Target}

theorem path_eq_fieldPath (name : String) : c.path name = c.clause.fieldPath c.table name := by
  obtain ⟨table, clause⟩ := c
  cases clause <;> rfl

theorem emit_of_leaf? {e : Expr} {l : Leaf} (h : e.leaf? = some l) :
    c.emit e = .ok (.leaf (l.parameter c.table c.clause) l.type?) := by
  cases e <;> cases h <;> simp [emit, Leaf.parameter, Leaf.type?, path_eq_fieldPath]

/-- The compiler takes exactly the leaves for patterns. -/
theorem parameter?_eq (e : Expr) :
    c.parameter? e = e.leaf?.map (Leaf.parameter c.table c.clause) := by
  cases e <;> simp [parameter?, Expr.leaf?, Leaf.parameter, path_eq_fieldPath]

theorem emits_leaf {e : Expr} {l : Leaf} {f : Fragment} (hl : e.leaf? = some l)
    (h : c.emit e = .ok f) : c.Emits e f := by
  rw [emit_of_leaf? hl] at h
  cases h
  exact .leaf hl

/-- A source is that of a leaf. -/
theorem parameter?_eq_some {e : Expr} {p : Parameter} (h : c.parameter? e = some p) :
    ∃ l, e.leaf? = some l ∧ p = l.parameter c.table c.clause := by
  rw [parameter?_eq, Option.map_eq_some_iff] at h
  obtain ⟨l, hl, rfl⟩ := h
  exact ⟨l, hl, rfl⟩

/-! ### The relation is the compiler -/

/-- A call with one argument compiles if the clause allows it, the argument compiles, and the
function takes its type. -/
theorem aggregate_some_eq_ok {a : Aggregate} {found : Nat} {x : Except CompileError Fragment}
    {f : Fragment} :
    c.aggregate a found (some x) = .ok f ↔
      c.clause.allowsAggregates = true ∧ ∃ g, x = .ok g ∧ ∃ t, a.resultType? g.type? = .ok t ∧
        ⟨.text (a.keyword ++ "(") ++ g.template ++ .text ")", t⟩ = f := by
  by_cases h : c.clause.allowsAggregates = true
  · simp [aggregate, h, bind_eq_ok, map_eq_ok]
  · simp [aggregate, h, bind_eq_ok, throw_ne_ok]

/-- Without a single argument, only the count of all records compiles. -/
theorem aggregate_none_eq_ok {a : Aggregate} {found : Nat} {f : Fragment} :
    c.aggregate a found none = .ok f ↔
      c.clause.allowsAggregates = true ∧ a = .count ∧ found = 0 ∧
        ⟨.text (Aggregate.count.keyword ++ "(") ++ .text "1" ++ .text ")", some .long⟩ = f := by
  by_cases h : c.clause.allowsAggregates = true
  · by_cases hn : a = .count ∧ found = 0
    · obtain ⟨rfl, rfl⟩ := hn
      have accepted : c.aggregate .count 0 none =
          .ok ⟨.text (Aggregate.count.keyword ++ "(") ++ .text "1" ++ .text ")", some .long⟩ := by
        simp only [aggregate, h]
        rfl
      simp [accepted, h]
    · have refused : c.aggregate a found none = .error (.arity a.name a.arity found) := by
        simp only [aggregate, h, hn, if_false]
        rfl
      rw [refused]
      constructor
      · intro h
        cases h
      · rintro ⟨_, ha, hfound, _⟩
        exact absurd ⟨ha, hfound⟩ hn
  · simp [aggregate, h, bind_eq_ok, throw_ne_ok]

/-- What the compiler accepts passed the checks of the relation. -/
theorem emits_of_emit_eq_ok {e : Expr} {f : Fragment} (h : c.emit e = .ok f) : c.Emits e f := by
  -- The cases are the branches of `emit` in their order; a branch that refuses cannot give a
  -- fragment.
  induction e using Target.emit.induct (c := c) generalizing f with
  | case1 v => exact emits_leaf rfl h
  | case2 name t => exact emits_leaf rfl h
  | case3 name t => exact emits_leaf rfl h
  | case4 op l r ihl ihr =>
    simp only [emit, bind_eq_ok] at h
    obtain ⟨g, hg, k, hk, h⟩ := h
    by_cases ho : op.isOrdering = true
    · simp only [ho, if_true, bind_eq_ok, pure_eq_ok, Fragment.expect_eq_ok] at h
      obtain ⟨_, hl, _, hr, rfl⟩ := h
      exact .compare (ihl hg) (ihr hk) fun _ => ⟨hl, hr⟩
    · simp only [ho, Bool.false_eq_true, if_false, pure_eq_ok] at h
      subst h
      exact .compare (ihl hg) (ihr hk) fun h => absurd h ho
  | case5 l r ihl ihr =>
    simp only [emit, bind_eq_ok, pure_eq_ok, Fragment.expect_eq_ok] at h
    obtain ⟨g, hg, k, hk, _, hl, _, hr, rfl⟩ := h
    exact .and (ihl hg) (ihr hk) ⟨hl, hr⟩
  | case6 l r ihl ihr =>
    simp only [emit, bind_eq_ok, pure_eq_ok, Fragment.expect_eq_ok] at h
    obtain ⟨g, hg, k, hk, _, hl, _, hr, rfl⟩ := h
    exact .or (ihl hg) (ihr hk) ⟨hl, hr⟩
  | case7 x ih =>
    simp only [emit, bind_eq_ok, pure_eq_ok, Fragment.expect_eq_ok] at h
    obtain ⟨g, hg, _, hb, rfl⟩ := h
    exact .not (ih hg) hb
  | case8 x ih =>
    simp only [emit, bind_eq_ok, pure_eq_ok] at h
    obtain ⟨g, hg, rfl⟩ := h
    exact .isNull (ih hg)
  | case9 x pattern p hp ih =>
    simp only [emit, hp, bind_eq_ok, pure_eq_ok] at h
    obtain ⟨g, hg, rfl⟩ := h
    obtain ⟨l, hl, rfl⟩ := parameter?_eq_some hp
    exact .contains (ih hg) hl
  | case10 x pattern hp => simp [emit, hp] at h
  | case11 op l r ihl ihr =>
    simp only [emit, bind_eq_ok, pure_eq_ok, Fragment.expect_eq_ok] at h
    obtain ⟨g, hg, k, hk, _, hl, _, hr, rfl⟩ := h
    exact .math (ihl hg) (ihr hk) ⟨hl, hr⟩
  | case12 name args hn => simp [emit, hn] at h
  | case13 name a hn x ih =>
    simp only [emit, hn, aggregate_some_eq_ok] at h
    obtain ⟨hc, g, hg, t, ht, rfl⟩ := h
    exact .aggregate hn hc (ih hg) ht
  | case14 name a hn args hargs =>
    simp only [emit, hn, aggregate_none_eq_ok] at h
    obtain ⟨hc, rfl, h0, rfl⟩ := h
    obtain rfl := List.eq_nil_of_length_eq_zero h0
    exact .countAll hn hc
  | case15 space name hs x pattern p hp ih =>
    obtain ⟨rfl, rfl⟩ := hs
    simp only [emit, hp, bind_eq_ok, pure_eq_ok, and_self, if_true] at h
    obtain ⟨g, hg, rfl⟩ := h
    obtain ⟨l, hl, rfl⟩ := parameter?_eq_some hp
    exact .textSearch (ih hg) hl
  | case16 space name hs x pattern hp => simp [emit, hs, hp] at h
  | case17 space name hs args hargs =>
    unfold emit at h
    rw [if_pos hs] at h
    split at h
    · exact absurd rfl (hargs _ _)
    · cases h
  | case18 space name args hs hl =>
    unfold emit at h
    rw [if_neg hs, if_pos hl] at h
    cases h
  | case19 space name args hs hl =>
    unfold emit at h
    rw [if_neg hs, if_neg hl] at h
    cases h
  | case20 x table => simp [emit] at h

/-- What passes the checks of the relation is accepted by the compiler. -/
theorem emit_eq_ok_of_emits {e : Expr} {f : Fragment} (h : c.Emits e f) : c.emit e = .ok f := by
  induction h with
  | leaf isLeaf => exact emit_of_leaf? isLeaf
  | @compare op l r f g _ _ ordered ihl ihr =>
    simp only [emit, bind_eq_ok]
    refine ⟨f, ihl, g, ihr, ?_⟩
    by_cases ho : op.isOrdering = true
    · simp only [ho, if_true, bind_eq_ok, pure_eq_ok, Fragment.expect_eq_ok]
      exact ⟨(), (ordered ho).1, (), (ordered ho).2, trivial⟩
    · simp only [ho, Bool.false_eq_true, if_false, pure_eq_ok]
  | and _ _ boolean ihl ihr =>
    simp only [emit, bind_eq_ok, pure_eq_ok, Fragment.expect_eq_ok]
    exact ⟨_, ihl, _, ihr, (), boolean.1, (), boolean.2, rfl⟩
  | or _ _ boolean ihl ihr =>
    simp only [emit, bind_eq_ok, pure_eq_ok, Fragment.expect_eq_ok]
    exact ⟨_, ihl, _, ihr, (), boolean.1, (), boolean.2, rfl⟩
  | not _ boolean ih =>
    simp only [emit, bind_eq_ok, pure_eq_ok, Fragment.expect_eq_ok]
    exact ⟨_, ih, (), boolean, rfl⟩
  | isNull _ ih =>
    simp only [emit, bind_eq_ok, pure_eq_ok]
    exact ⟨_, ih, rfl⟩
  | contains _ isLeaf ih =>
    simp only [emit, parameter?_eq, isLeaf, Option.map_some, bind_eq_ok, pure_eq_ok]
    exact ⟨_, ih, rfl⟩
  | math _ _ numeric ihl ihr =>
    simp only [emit, bind_eq_ok, pure_eq_ok, Fragment.expect_eq_ok]
    exact ⟨_, ihl, _, ihr, (), numeric.1, (), numeric.2, rfl⟩
  | aggregate known allowed _ result ih =>
    simp only [emit, known, aggregate_some_eq_ok]
    exact ⟨allowed, _, ih, _, result, rfl⟩
  | countAll known allowed =>
    simp only [emit, known, aggregate_none_eq_ok]
    exact ⟨allowed, trivial, rfl, trivial⟩
  | textSearch _ isLeaf ih =>
    simp only [emit, parameter?_eq, isLeaf, Option.map_some, bind_eq_ok, pure_eq_ok, and_self,
      if_true]
    exact ⟨_, ih, rfl⟩

/-- The compiler emits a fragment just if the relation holds. -/
theorem emit_eq_ok_iff {e : Expr} {f : Fragment} : c.emit e = .ok f ↔ c.Emits e f :=
  ⟨emits_of_emit_eq_ok, emit_eq_ok_of_emits⟩

end Target

/-! ### Conditions -/

/-- There is one expression that every record meets. -/
theorem Expr.isAlwaysTrue_iff {e : Expr} : e.isAlwaysTrue = true ↔ e = alwaysTrue := by
  constructor
  · intro h
    unfold isAlwaysTrue at h
    split at h
    · rfl
    · cases h
  · rintro rfl
    rfl

/-- The constant `true` is compiled to the condition that every record meets, if it is a condition.
Everything else that is compiled is the fragment of its expression. -/
theorem compile_cases {table : String} {clause : Clause} {e : Expr} {c : CompiledCondition}
    (h : compile table clause e = .ok c) :
    (clause = .condition ∧ e = .alwaysTrue ∧ c = .everyRecord) ∨
      ∃ f, Target.Emits ⟨table, clause⟩ e f ∧
        c = { template := f.template, resultType := f.type? } := by
  unfold compile at h
  split at h
  · next root => exact .inl ⟨root.1, Expr.isAlwaysTrue_iff.1 root.2, (Except.ok.inj h).symm⟩
  · split at h
    · cases h
    · obtain ⟨f, hf, h⟩ := bind_eq_ok.1 h
      exact .inr ⟨f, Target.emits_of_emit_eq_ok hf, (pure_eq_ok.1 h).symm⟩

/-- A condition other than the one that every record meets is the fragment of its expression. -/
theorem emits_of_compile {table : String} {clause : Clause} {e : Expr} {c : CompiledCondition}
    (h : compile table clause e = .ok c) (hc : c.alwaysTrue = false) :
    ∃ f, Target.Emits ⟨table, clause⟩ e f ∧
      c = { template := f.template, resultType := f.type? } := by
  rcases compile_cases h with ⟨_, _, rfl⟩ | emitted
  · cases hc
  · exact emitted

end StreamTable
