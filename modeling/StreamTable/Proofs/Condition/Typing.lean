import StreamTable.Proofs.Condition.Filter

/-!
# Well-typed expressions

`HasType clause e t` is the typing of expressions in a clause of a query, said without the compiler:
one rule for each kind of expression that has a type.  The type `none` is that of a null constant,
and of what is computed from one; it qualifies everywhere.

An expression is compiled exactly if it has a type, and that type is the one of the compiled
condition (`compile_iff_hasType`).  A set value has to be a constant or an attribute of the stream
besides.
-/

namespace StreamTable

namespace AttributeType

/-- The numeric types, from the narrowest to the widest. -/
def numerics : List AttributeType := [.int, .long, .float, .double]

/-- The widest of the types that are there, and none if none is there. -/
def IsWidest (sides : List (Option AttributeType)) : Option AttributeType → Prop
  | none => ∀ s ∈ sides, s = none
  | some u => some u ∈ sides ∧ ∀ s, some s ∈ sides → numerics.idxOf s ≤ numerics.idxOf u

end AttributeType

open AttributeType (IsWidest)

/-- What an aggregate function gives for an argument of a type. -/
inductive Aggregates : String → Option AttributeType → Option AttributeType → Prop where
  | count (t : Option AttributeType) : Aggregates "count" t (some .long)
  | untyped {name : String} (known : name ∈ ["sum", "avg", "min", "max"]) :
      Aggregates name none none
  | sumOfIntegers {t : AttributeType} (integer : t = .int ∨ t = .long) :
      Aggregates "sum" (some t) (some .long)
  | sumOfFloats {t : AttributeType} (float : t = .float ∨ t = .double) :
      Aggregates "sum" (some t) (some .double)
  | avg {t : AttributeType} (numeric : t.isNumeric = true) :
      Aggregates "avg" (some t) (some .double)
  | extreme {name : String} {t : AttributeType} (known : name = "min" ∨ name = "max")
      (ordered : t.isOrdered = true) : Aggregates name (some t) (some t)

/-- An expression is well typed in a clause, and has a type or none. -/
inductive HasType (clause : Clause) : Expr → Option AttributeType → Prop where
  | constant (v : Value) : HasType clause (.constant v) v.type?
  | attribute (name : String) (t : AttributeType) : HasType clause (.attribute name t) (some t)
  | field (name : String) (t : AttributeType) : HasType clause (.field name t) (some t)
  | compare {op : CompareOp} {l r : Expr} {s t : Option AttributeType} (hl : HasType clause l s)
      (hr : HasType clause r t)
      (ordered : op ≠ .eq → op ≠ .ne →
        (∀ a ∈ s, a.isOrdered = true) ∧ ∀ a ∈ t, a.isOrdered = true) :
      HasType clause (.compare op l r) (some .bool)
  | and {l r : Expr} {s t : Option AttributeType} (hl : HasType clause l s)
      (hr : HasType clause r t) (boolean : (∀ a ∈ s, a = .bool) ∧ ∀ a ∈ t, a = .bool) :
      HasType clause (.and l r) (some .bool)
  | or {l r : Expr} {s t : Option AttributeType} (hl : HasType clause l s)
      (hr : HasType clause r t) (boolean : (∀ a ∈ s, a = .bool) ∧ ∀ a ∈ t, a = .bool) :
      HasType clause (.or l r) (some .bool)
  | not {x : Expr} {t : Option AttributeType} (hx : HasType clause x t)
      (boolean : ∀ a ∈ t, a = .bool) : HasType clause (.not x) (some .bool)
  | isNull {x : Expr} {t : Option AttributeType} (hx : HasType clause x t) :
      HasType clause (.isNull x) (some .bool)
  | contains {x pattern : Expr} {t : Option AttributeType} (hx : HasType clause x t)
      (isLeaf : pattern.isLeaf = true) : HasType clause (.contains x pattern) (some .bool)
  | textSearch {x pattern : Expr} {t : Option AttributeType} (hx : HasType clause x t)
      (isLeaf : pattern.isLeaf = true) :
      HasType clause (.call (some "str") "contains" [x, pattern]) (some .bool)
  | math {op : MathOp} {l r : Expr} {s t u : Option AttributeType} (hl : HasType clause l s)
      (hr : HasType clause r t)
      (numeric : (∀ a ∈ s, a.isNumeric = true) ∧ ∀ a ∈ t, a.isNumeric = true)
      (widest : IsWidest [s, t] u) : HasType clause (.math op l r) u
  | aggregate {name : String} {x : Expr} {t u : Option AttributeType}
      (allowed : clause = .selection ∨ clause = .having) (hx : HasType clause x t)
      (gives : Aggregates name t u) : HasType clause (.call none name [x]) u
  | countAll (allowed : clause = .selection ∨ clause = .having) :
      HasType clause (.call none "count" []) (some .long)

/-! ### The checks of the compiler -/

namespace AttributeType

theorem idxOf_numerics {t : AttributeType} (h : t.isNumeric = true) :
    numerics.idxOf t = t.width := by
  revert h
  cases t <;> decide

theorem eq_of_width_eq {s t : AttributeType} (hs : s.isNumeric = true) (ht : t.isNumeric = true)
    (h : s.width = t.width) : s = t := by
  revert hs ht h
  cases s <;> cases t <;> decide

/-- Of two numeric sides the compiler takes the widest. -/
theorem isWidest_iff {s t u : Option AttributeType} (hs : ∀ a ∈ s, a.isNumeric = true)
    (ht : ∀ a ∈ t, a.isNumeric = true) : IsWidest [s, t] u ↔ wider? s t = u := by
  cases s with
  | none =>
    cases t <;> cases u <;> simp +contextual [IsWidest, wider?, eq_comm]
  | some a =>
    cases t with
    | none => cases u <;> simp +contextual [IsWidest, wider?, eq_comm]
    | some b =>
      have ha := hs a rfl
      have hb := ht b rfl
      cases u with
      | none => simp [IsWidest, wider?]
      | some c =>
        -- For two types, the place in the order of numeric types is the width.
        have sides : IsWidest [some a, some b] (some c) ↔ (c = a ∨ c = b) ∧
            numerics.idxOf a ≤ numerics.idxOf c ∧ numerics.idxOf b ≤ numerics.idxOf c := by
          simp [IsWidest]
        rw [sides, wider?, Option.some.injEq, wider]
        constructor
        · rintro ⟨rfl | rfl, hac, hbc⟩
          · rw [idxOf_numerics ha, idxOf_numerics hb] at hbc
            rw [if_pos hbc]
          · rw [idxOf_numerics ha, idxOf_numerics hb] at hac
            split
            · next hba => exact eq_of_width_eq ha hb (Nat.le_antisymm hac hba)
            · rfl
        · split
          · next hba =>
            rintro rfl
            refine ⟨.inl rfl, Nat.le_refl _, ?_⟩
            rwa [idxOf_numerics ha, idxOf_numerics hb]
          · next hba =>
            rintro rfl
            refine ⟨.inr rfl, ?_, Nat.le_refl _⟩
            rw [idxOf_numerics ha, idxOf_numerics hb]
            omega

end AttributeType

/-- Every rule belongs to an aggregate function, which gives the same result. -/
theorem Aggregates.exists_aggregate {name : String} {t u : Option AttributeType}
    (h : Aggregates name t u) :
    ∃ a : Aggregate, Aggregate.ofName? name = some a ∧ a.resultType? t = .ok u := by
  -- Each rule is for one function, or for two that have the same result.
  cases h with
  | count t =>
    refine ⟨.count, rfl, ?_⟩
    cases t <;> rfl
  | untyped known =>
    simp only [List.mem_cons, List.not_mem_nil, or_false] at known
    obtain rfl | rfl | rfl | rfl := known
    · exact ⟨.sum, rfl, rfl⟩
    · exact ⟨.avg, rfl, rfl⟩
    · exact ⟨.min, rfl, rfl⟩
    · exact ⟨.max, rfl, rfl⟩
  | sumOfIntegers integer =>
    obtain rfl | rfl := integer
    · exact ⟨.sum, rfl, rfl⟩
    · exact ⟨.sum, rfl, rfl⟩
  | sumOfFloats float =>
    obtain rfl | rfl := float
    · exact ⟨.sum, rfl, rfl⟩
    · exact ⟨.sum, rfl, rfl⟩
  | avg numeric => exact ⟨.avg, rfl, if_pos numeric⟩
  | extreme known ordered =>
    obtain rfl | rfl := known
    · exact ⟨.min, rfl, if_pos ordered⟩
    · exact ⟨.max, rfl, if_pos ordered⟩

/-- For every type that an aggregate function takes there is a rule. -/
theorem aggregates_of_accepts {a : Aggregate} {t : AttributeType} (accepted : a.accepts t = true) :
    Aggregates a.name (some t) (some (a.resultOn t)) := by
  cases a with
  | sum =>
    cases t with
    | int => exact .sumOfIntegers (.inl rfl)
    | long => exact .sumOfIntegers (.inr rfl)
    | float => exact .sumOfFloats (.inl rfl)
    | double => exact .sumOfFloats (.inr rfl)
    | bool | object | string => cases accepted
  | count => exact .count (some t)
  | avg => exact .avg accepted
  | min => exact .extreme (.inl rfl) accepted
  | max => exact .extreme (.inr rfl) accepted

theorem aggregates_iff {name : String} {t u : Option AttributeType} :
    Aggregates name t u ↔
      ∃ a : Aggregate, Aggregate.ofName? name = some a ∧ a.resultType? t = .ok u := by
  refine ⟨Aggregates.exists_aggregate, ?_⟩
  rintro ⟨a, known, result⟩
  obtain rfl := Aggregate.ofName?_eq_some.1 known
  cases t with
  | none =>
    cases a <;> cases result
    · exact .untyped (by decide)
    · exact .count none
    · exact .untyped (by decide)
    · exact .untyped (by decide)
    · exact .untyped (by decide)
  | some t =>
    simp only [Aggregate.resultType?] at result
    split at result
    · next accepted =>
      cases result
      exact aggregates_of_accepts accepted
    · cases result

theorem Expr.isLeaf_iff {e : Expr} : e.isLeaf = true ↔ ∃ l, e.leaf? = some l := by
  cases e <;> simp [isLeaf, leaf?]

theorem Clause.allowsAggregates_iff {clause : Clause} :
    clause.allowsAggregates = true ↔ clause = .selection ∨ clause = .having := by
  simp [allowsAggregates]

/-! ### Types are those of the compiler -/

/-- An expression that has a type is compiled to a fragment of the type. -/
theorem HasType.emits {clause : Clause} {e : Expr} {t : Option AttributeType}
    (h : HasType clause e t) (table : String) :
    ∃ f, Target.Emits ⟨table, clause⟩ e f ∧ f.type? = t := by
  induction h with
  | constant v => exact ⟨_, .leaf (l := .constant v) rfl, rfl⟩
  | «attribute» name t => exact ⟨_, .leaf (l := .attribute name t) rfl, rfl⟩
  | field name t => exact ⟨_, .leaf (l := .field name t) rfl, rfl⟩
  | @compare op l r s t _ _ ordered ihl ihr =>
    obtain ⟨f, hf, rfl⟩ := ihl
    obtain ⟨g, hg, rfl⟩ := ihr
    refine ⟨_, .compare hf hg fun ho => ?_, rfl⟩
    have apart : op ≠ .eq ∧ op ≠ .ne := by simpa [CompareOp.isOrdering] using ho
    exact ordered apart.1 apart.2
  | and _ _ boolean ihl ihr =>
    obtain ⟨f, hf, rfl⟩ := ihl
    obtain ⟨g, hg, rfl⟩ := ihr
    exact ⟨_, .and hf hg (by simpa [Fragment.Admits] using boolean), rfl⟩
  | or _ _ boolean ihl ihr =>
    obtain ⟨f, hf, rfl⟩ := ihl
    obtain ⟨g, hg, rfl⟩ := ihr
    exact ⟨_, .or hf hg (by simpa [Fragment.Admits] using boolean), rfl⟩
  | not _ boolean ih =>
    obtain ⟨f, hf, rfl⟩ := ih
    exact ⟨_, .not hf (by simpa [Fragment.Admits] using boolean), rfl⟩
  | isNull _ ih =>
    obtain ⟨f, hf, rfl⟩ := ih
    exact ⟨_, .isNull hf, rfl⟩
  | contains _ isLeaf ih =>
    obtain ⟨f, hf, rfl⟩ := ih
    obtain ⟨l, hl⟩ := Expr.isLeaf_iff.1 isLeaf
    exact ⟨_, .contains hf hl, rfl⟩
  | textSearch _ isLeaf ih =>
    obtain ⟨f, hf, rfl⟩ := ih
    obtain ⟨l, hl⟩ := Expr.isLeaf_iff.1 isLeaf
    exact ⟨_, .textSearch hf hl, rfl⟩
  | math _ _ numeric widest ihl ihr =>
    obtain ⟨f, hf, rfl⟩ := ihl
    obtain ⟨g, hg, rfl⟩ := ihr
    exact ⟨_, .math hf hg numeric, (AttributeType.isWidest_iff numeric.1 numeric.2).1 widest⟩
  | aggregate allowed _ gives ih =>
    obtain ⟨f, hf, rfl⟩ := ih
    obtain ⟨a, known, result⟩ := aggregates_iff.1 gives
    exact ⟨_, .aggregate known (Clause.allowsAggregates_iff.2 allowed) hf result, rfl⟩
  | countAll allowed =>
    exact ⟨_, .countAll rfl (Clause.allowsAggregates_iff.2 allowed), rfl⟩

/-- What is compiled has the type of its fragment. -/
theorem Target.Emits.hasType {c : Target} {e : Expr} {f : Fragment} (h : c.Emits e f) :
    HasType c.clause e f.type? := by
  induction h with
  | @leaf e l isLeaf =>
    cases e with
    | constant v =>
      cases isLeaf
      exact .constant v
    | «attribute» name t =>
      cases isLeaf
      exact .attribute name t
    | field name t =>
      cases isLeaf
      exact .field name t
    | _ => cases isLeaf
  | @compare op l r f g _ _ ordered ihl ihr =>
    refine .compare ihl ihr fun hne hne' => ordered ?_
    simpa [CompareOp.isOrdering] using ⟨hne, hne'⟩
  | and _ _ boolean ihl ihr => exact .and ihl ihr (by simpa [Fragment.Admits] using boolean)
  | or _ _ boolean ihl ihr => exact .or ihl ihr (by simpa [Fragment.Admits] using boolean)
  | not _ boolean ih => exact .not ih (by simpa [Fragment.Admits] using boolean)
  | isNull _ ih => exact .isNull ih
  | contains _ isLeaf ih => exact .contains ih (Expr.isLeaf_iff.2 ⟨_, isLeaf⟩)
  | textSearch _ isLeaf ih => exact .textSearch ih (Expr.isLeaf_iff.2 ⟨_, isLeaf⟩)
  | math _ _ numeric ihl ihr =>
    exact .math ihl ihr numeric ((AttributeType.isWidest_iff numeric.1 numeric.2).2 rfl)
  | aggregate known allowed _ result ih =>
    exact .aggregate (Clause.allowsAggregates_iff.1 allowed) ih
      (aggregates_iff.2 ⟨_, known, result⟩)
  | countAll known allowed =>
    obtain rfl := Aggregate.ofName?_eq_some.1 known
    exact .countAll (Clause.allowsAggregates_iff.1 allowed)

theorem hasType_iff_emits (table : String) {clause : Clause} {e : Expr}
    {t : Option AttributeType} :
    HasType clause e t ↔ ∃ f, Target.Emits ⟨table, clause⟩ e f ∧ f.type? = t := by
  constructor
  · exact fun h => h.emits table
  · rintro ⟨f, hf, rfl⟩
    exact hf.hasType

/-- An expression is compiled, with the result of a type, exactly if it has the type; as a set value
it is a constant or an attribute of the stream besides. -/
theorem compile_iff_hasType (table : String) (clause : Clause) (e : Expr)
    (t : Option AttributeType) :
    (∃ c, compile table clause e = .ok c ∧ c.resultType = t) ↔
      (clause = .setAttribute → e.isStreamLeaf = true) ∧ HasType clause e t := by
  rw [hasType_iff_emits table]
  unfold compile
  split
  · -- The condition that every record meets does not go through the compiler of fragments.
    next root =>
    obtain ⟨rfl, isAlwaysTrue⟩ := root
    obtain rfl := Expr.isAlwaysTrue_iff.1 isAlwaysTrue
    constructor
    · rintro ⟨c, hc, rfl⟩
      cases hc
      exact ⟨(fun h => by cases h), _, .leaf (l := .constant (.bool true)) rfl, rfl⟩
    · rintro ⟨_, f, hf, rfl⟩
      cases hf with
      | leaf isLeaf =>
        cases isLeaf
        exact ⟨_, rfl, rfl⟩
  · split
    · next refused =>
      -- A set value that is no leaf is refused before its type is looked at.
      obtain ⟨rfl, noLeaf⟩ := refused
      constructor
      · rintro ⟨c, hc, _⟩
        cases hc
      · rintro ⟨isLeaf, _⟩
        rw [isLeaf rfl] at noLeaf
        cases noLeaf
    · next accepted =>
      have isLeaf : clause = .setAttribute → e.isStreamLeaf = true := by simpa using accepted
      simp only [bind_eq_ok, pure_eq_ok, Target.emit_eq_ok_iff]
      constructor
      · rintro ⟨_, ⟨f, hf, rfl⟩, rfl⟩
        exact ⟨isLeaf, f, hf, rfl⟩
      · rintro ⟨_, f, hf, rfl⟩
        exact ⟨_, ⟨f, hf, rfl⟩, rfl⟩

/-- The negation of a truth value has a type, but is no set value. -/
theorem not_compile_iff_hasType_negation :
    ¬ ((∃ c, compile "Stock" .setAttribute (.not .alwaysTrue) = .ok c ∧
        c.resultType = some .bool) ↔
      HasType .setAttribute (.not .alwaysTrue) (some .bool)) := by
  have typed : HasType .setAttribute (.not .alwaysTrue) (some .bool) :=
    .not (.constant (.bool true)) fun a ha => (Option.some.inj ha).symm
  intro h
  obtain ⟨c, hc, _⟩ := h.2 typed
  cases hc

end StreamTable
