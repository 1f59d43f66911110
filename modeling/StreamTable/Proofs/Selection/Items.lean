import StreamTable.Proofs.Selection.LastValue
import StreamTable.Proofs.Selection.QueryText

/-!
# The items of a query

Every column of a selection is written from its own expression: as an item of the query
(`plainText`) or, in a query for last values, as an item of the query, as an item of the sub-select
and as an equation between the two (`selectedText`, `projectedText?`, `matchedText?`).

`Selection.CompiledColumns.FilledTo` relates compiled columns to such texts.  They are bound to
runtime values as a whole, and then each of the expressions is bound by itself
(`Selection.filledTo_of_compilePlain`, `Selection.filledTo_of_compileLastValue`).
-/

namespace StreamTable

/-- The query text of an expression in a clause, for some runtime values. -/
def Expr.writtenIn (table : String) (values : Values) (clause : Clause) (e : Expr) : String :=
  e.rendered (clause.fieldPath table) fun a => (values.get? a).getD .null

/-- The expression, compiled by itself, is bound by the runtime values. -/
def Expr.BoundIn (table : String) (values : Values) (clause : Clause) (e : Expr) : Prop :=
  ∃ c, compile table clause e = .ok c ∧ c.Bound values

namespace SelectColumn

/-- The output name of the column at a position. -/
def name (c : SelectColumn) (position : Nat) : String :=
  c.rename.getD (c.namedBy.leafName?.getD (generatedName position))

/-- The timestamp of a last-value column. -/
def timestamp? (c : SelectColumn) : Option Expr := c.expr.lastValueArgs?.bind (·[1]?)

end SelectColumn

/-! ### The texts of the columns -/

section

variable (write : Expr → String)

/-- The item of a column in a query without last values. -/
def plainText (p : String × SelectColumn) : String :=
  if p.2.rename = none ∧ p.2.expr.leafName?.isSome then write p.2.expr
  else write p.2.expr ++ " AS " ++ p.1

/-- The item of a column in a query for last values: an aggregate is that of the sub-select. -/
def selectedText (p : String × SelectColumn) : String :=
  if p.2.timestamp? = none ∧ p.2.expr.callsAggregate then "MAX(t2." ++ p.1 ++ ")" ++ " AS " ++ p.1
  else write p.2.namedBy ++ " AS " ++ p.1

/-- The item of a column in the sub-select: of the last-value columns, only the first has one, the
latest timestamp. -/
def projectedText? (first : Bool) (p : String × SelectColumn) : Option String :=
  match p.2.timestamp? with
  | some time =>
    if first then some ("MAX(" ++ write time ++ ")" ++ " AS " ++ time.leafName?.getD "") else none
  | none => some (write p.2.expr ++ " AS " ++ p.1)

/-- The equation of a column with the sub-select: of the last-value columns, only the first has one,
and aggregates have none. -/
def matchedText? (first : Bool) (p : String × SelectColumn) : Option String :=
  match p.2.timestamp? with
  | some time => if first then some (write time ++ " = t2." ++ time.leafName?.getD "") else none
  | none =>
    if p.2.expr.callsAggregate then none else some (write p.2.expr ++ " = t2." ++ p.1)

end

/-- What the columns add to a list, when they are told which one is the first last-value column. -/
def contributed (text? : Bool → String × SelectColumn → Option String)
    (columns : List (String × SelectColumn)) : List String :=
  let latest := columns.findIdx (·.2.expr.isLastValue)
  columns.zipIdx.filterMap fun (p, i) => text? (i = latest) p

/-! ### Compiled expressions -/

namespace CompiledCondition

variable {table : String} {clause : Clause} {e : Expr} {c : CompiledCondition} {values : Values}

/-- Only a condition can be the one that every record meets. -/
theorem alwaysTrue_of_compile_ne (h : compile table clause e = .ok c) (hc : clause ≠ .condition) :
    c.alwaysTrue = false := by
  rcases compile_cases h with ⟨condition, _, _⟩ | ⟨f, _, rfl⟩
  · exact absurd condition hc
  · rfl

/-- The filled text of a compiled expression is the expression as it is written in its clause. -/
theorem filled_of_compile (h : compile table clause e = .ok c) (hc : clause ≠ .condition) :
    c.filled values = e.writtenIn table values clause := by
  obtain ⟨f, hf, rfl⟩ := emits_of_compile h (alwaysTrue_of_compile_ne h hc)
  exact hf.filled _

theorem filled_named (name : String) :
    (c.named name).filled values = c.filled values ++ " AS " ++ name := by
  rw [named, filled_wrap, String.empty_append, String.append_assoc]

end CompiledCondition

/-- An expression that is bound by itself has its text. -/
theorem Expr.BoundIn.resolve {table : String} {clause : Clause} {e : Expr} {values : Values}
    (h : e.BoundIn table values clause) (hc : clause ≠ .condition) :
    ∃ c, compile table clause e = .ok c ∧
      c.resolve values = .ok (e.writtenIn table values clause) := by
  obtain ⟨c, compiled, bound⟩ := h
  have plain := CompiledCondition.alwaysTrue_of_compile_ne compiled hc
  exact ⟨c, compiled, (CompiledCondition.resolve_eq_ok_iff plain).2
    ⟨bound, CompiledCondition.filled_of_compile compiled hc⟩⟩

/-! ### Lists that are compiled item by item -/

theorem exists_mem_of_forall₂ {α β : Type} {r : α → β → Prop} {xs : List α} {ys : List β}
    (h : List.Forall₂ r xs ys) {x : α} (hx : x ∈ xs) : ∃ y ∈ ys, r x y := by
  induction h with
  | nil => cases hx
  | cons hxy _ ih =>
    rcases List.mem_cons.1 hx with rfl | hx
    · exact ⟨_, List.mem_cons_self, hxy⟩
    · obtain ⟨y, hy, hxy⟩ := ih hx
      exact ⟨y, List.mem_cons_of_mem _ hy, hxy⟩

theorem map_eq_map_of_forall₂ {α β γ : Type} {r : α → β → Prop} {xs : List α} {ys : List β}
    {g : β → γ} {h : α → γ} (same : ∀ x y, r x y → g y = h x) (hr : List.Forall₂ r xs ys) :
    ys.map g = xs.map h := by
  induction hr with
  | nil => rfl
  | cons hxy _ ih => rw [List.map_cons, List.map_cons, same _ _ hxy, ih]

section

variable {ε α β γ : Type} {f : α → Except ε β} {xs : List α} {ys : List β}

theorem forall₂_of_mapM (hxs : xs.mapM f = .ok ys) :
    List.Forall₂ (fun x y => f x = .ok y) xs ys := by
  induction xs generalizing ys with
  | nil =>
    cases hxs
    exact .nil
  | cons x xs ih =>
    simp only [List.mapM_cons, bind_eq_ok, pure_eq_ok] at hxs
    obtain ⟨y, hy, ys, hys, rfl⟩ := hxs
    exact .cons hy (ih hys)

theorem map_eq_of_mapM {g : β → γ} {h : α → γ} (same : ∀ x y, f x = .ok y → g y = h x)
    (hxs : xs.mapM f = .ok ys) : ys.map g = xs.map h :=
  map_eq_map_of_forall₂ same (forall₂_of_mapM hxs)

theorem exists_mem_of_mapM (hxs : xs.mapM f = .ok ys) {x : α} (hx : x ∈ xs) :
    ∃ y ∈ ys, f x = .ok y :=
  exists_mem_of_forall₂ (forall₂_of_mapM hxs) hx

theorem exists_of_mem_mapM (hxs : xs.mapM f = .ok ys) {y : β} (hy : y ∈ ys) :
    ∃ x ∈ xs, f x = .ok y :=
  exists_mem_of_forall₂ (forall₂_of_mapM hxs).flip hy

end

namespace Selection

variable {α : Type} {key : α → Except CompileError CompiledCondition} {table : String}
  {values : Values} {clause : Option CompiledCondition}

/-- A clause of keys; the `text` of a key is what its compiled form is filled to. -/
theorem compileKeys_eq_ok (values : Values) {text : α → String} (written : ∀ k c, key k = .ok c →
      c.filled values = text k) {ks : List α} (h : compileKeys key ks = .ok clause) :
    (∀ c ∈ clause, c.alwaysTrue = false) ∧
      clause.map (·.filled values) = QueryParts.joined? (ks.map text) ∧
      ((∀ c ∈ clause, c.Bound values) → ∀ k ∈ ks, ∃ c, key k = .ok c ∧ c.Bound values) := by
  cases ks with
  | nil =>
    cases h
    exact ⟨(fun c hc => by cases hc), rfl, fun _ => List.forall_mem_nil _⟩
  | cons k ks =>
    simp only [compileKeys, bind_eq_ok, pure_eq_ok] at h
    obtain ⟨cs, hcs, rfl⟩ := h
    refine ⟨fun c hc => ?_, ?_, fun bound k hk => ?_⟩
    · cases hc
      rfl
    · rw [Option.map_some, CompiledCondition.filled_join, map_eq_of_mapM written hcs]
      rfl
    · obtain ⟨c, hc, compiled⟩ := exists_mem_of_mapM hcs hk
      exact ⟨c, compiled, CompiledCondition.bound_join.1 (bound _ rfl) c hc⟩

theorem compileSortKey_eq_ok {k : SortKey} {c : CompiledCondition}
    (h : compileSortKey table k = .ok c) :
    c.filled values = k.expr.writtenIn table values .orderBy ++ " " ++ k.order.keyword ∧
      (c.Bound values → k.expr.BoundIn table values .orderBy) := by
  simp only [compileSortKey, bind_eq_ok, pure_eq_ok] at h
  obtain ⟨item, hi, rfl⟩ := h
  refine ⟨?_, fun bound => ⟨item, hi, CompiledCondition.bound_wrap.1 bound⟩⟩
  rw [CompiledCondition.filled_wrap, CompiledCondition.filled_of_compile hi (by decide),
    String.empty_append, String.append_assoc]

theorem compileHaving_eq_ok (values : Values) {having : Option Expr}
    (h : compileHaving table having = .ok clause) :
    (∀ c ∈ clause, c.alwaysTrue = false) ∧
      clause.map (·.filled values) = having.map (Expr.writtenIn table values .having) ∧
      ((∀ c ∈ clause, c.Bound values) → ∀ e ∈ having, e.BoundIn table values .having) := by
  cases having with
  | none =>
    cases h
    exact ⟨(fun c hc => by cases hc), rfl, fun _ e he => by cases he⟩
  | some e =>
    simp only [compileHaving, bind_eq_ok, pure_eq_ok] at h
    obtain ⟨c, hc, rfl⟩ := h
    refine ⟨fun d hd => ?_, ?_, fun bound d hd => ?_⟩
    · cases hd
      exact CompiledCondition.alwaysTrue_of_compile_ne hc (by decide)
    · rw [Option.map_some, CompiledCondition.filled_of_compile hc (by decide)]
      rfl
    · cases hd
      exact ⟨c, hc, bound c rfl⟩

/-- Compiled columns are filled to the items of a query and to its sub-select, and if they are bound,
so is each of the expressions that are written in them. -/
structure CompiledColumns.FilledTo (table : String) (values : Values) (items : List String)
    (joined : Option (List String × List String)) (written : List Expr) (x : CompiledColumns) :
    Prop where
  plain : x.select.alwaysTrue = false
  plain_subSelect : ∀ t ∈ x.subSelect, t.inner.alwaysTrue = false ∧ t.join.alwaysTrue = false
  select : x.select.filled values = ", ".intercalate items
  subSelect : x.subSelect.map (fun t => (t.inner.filled values, t.join.filled values)) =
    joined.map fun t => (", ".intercalate t.1, " AND ".intercalate t.2)
  joins : ∀ t, joined = some t → t.2 ≠ []
  bound : x.select.Bound values → (∀ t ∈ x.subSelect, t.inner.Bound values ∧ t.join.Bound values) →
    ∀ e ∈ written, e.BoundIn table values .selection

/-! ### Columns without last values -/

/-- The item of a column is named, unless it is an attribute that was given no name. -/
theorem plainItem_cases {name : String} {c : SelectColumn} {x : CompiledCondition × Attribute}
    (h : plainItem table name c = .ok x) :
    ∃ item, StreamTable.compile table .selection c.expr = .ok item ∧
      x.2 = outputAttribute name item.resultType ∧
      ((c.rename ≠ none ∨ c.expr.leafName? = none) ∧ x.1 = item.named name ∨
        (c.rename = none ∧ ∃ own, c.expr.leafName? = some own) ∧ x.1 = item) := by
  simp only [plainItem, bind_eq_ok] at h
  obtain ⟨item, hi, h⟩ := h
  split at h
  · next named =>
    cases pure_eq_ok.1 h
    refine ⟨item, hi, rfl, .inl ⟨?_, rfl⟩⟩
    simpa [Option.isSome_iff_ne_none] using named
  · next unnamed =>
    cases pure_eq_ok.1 h
    obtain ⟨given, own⟩ : c.rename = none ∧ c.expr.leafName? ≠ none := by simpa using unnamed
    exact ⟨item, hi, rfl, .inr ⟨⟨given, Option.ne_none_iff_exists'.1 own⟩, rfl⟩⟩

theorem plainItem_eq_ok {p : String × SelectColumn} {x : CompiledCondition × Attribute}
    (h : plainItem table p.1 p.2 = .ok x) :
    x.1.filled values = plainText (Expr.writtenIn table values .selection) p ∧
      (x.1.Bound values → p.2.expr.BoundIn table values .selection) := by
  obtain ⟨item, hi, _, cases⟩ := plainItem_cases h
  have written : item.filled values = p.2.expr.writtenIn table values .selection :=
    CompiledCondition.filled_of_compile hi (by decide)
  rcases cases with ⟨named, same⟩ | ⟨⟨unnamed, own, leaf⟩, same⟩
  · have other : ¬ (p.2.rename = none ∧ p.2.expr.leafName?.isSome) := by
      rintro ⟨unnamed, leaf⟩
      rcases named with given | computed
      · exact given unnamed
      · rw [computed] at leaf
        cases leaf
    rw [same]
    refine ⟨?_, fun bound => ⟨item, hi, CompiledCondition.bound_wrap.1 bound⟩⟩
    rw [CompiledCondition.filled_named, written, plainText, if_neg other]
  · rw [same]
    refine ⟨?_, fun bound => ⟨item, hi, bound⟩⟩
    rw [written, plainText, if_pos ⟨unnamed, by rw [leaf, Option.isSome_some]⟩]

/-- Without a last value the columns are filled to their texts, in order. -/
theorem filledTo_of_compilePlain (values : Values) {columns : List (String × SelectColumn)}
    {x : CompiledColumns} (h : compilePlain table columns = .ok x) :
    x.FilledTo table values (columns.map (plainText (Expr.writtenIn table values .selection))) none
      (columns.map (·.2.expr)) := by
  simp only [compilePlain, bind_eq_ok, pure_eq_ok] at h
  obtain ⟨items, hitems, rfl⟩ := h
  constructor
  case plain => rfl
  case plain_subSelect =>
    intro t ht
    cases ht
  case select =>
    rw [CompiledCondition.filled_join, List.map_map]
    exact congrArg _ (map_eq_of_mapM (fun p _ hx => (plainItem_eq_ok hx).1) hitems)
  case subSelect => rfl
  case joins =>
    intro t ht
    cases ht
  case bound =>
    intro bound _ e he
    obtain ⟨p, hp, rfl⟩ := List.mem_map.1 he
    obtain ⟨x, hx, item⟩ := exists_mem_of_mapM hitems hp
    exact (plainItem_eq_ok item).2
      (CompiledCondition.bound_join.1 bound x.1 (List.mem_map_of_mem hx))

end Selection

/-! ### Columns of a query for last values -/

/-- A column that asks for no last value is named by its own expression. -/
theorem SelectColumn.of_isLastValue_eq_false {c : SelectColumn}
    (h : c.expr.isLastValue = false) : c.timestamp? = none ∧ c.namedBy = c.expr := by
  have plain : c.expr.lastValueArgs? = none :=
    Option.isNone_iff_eq_none.1 (Option.isSome_eq_false_iff.1 h)
  rw [timestamp?, namedBy, plain]
  exact ⟨rfl, rfl⟩

namespace CompiledCondition

/-- The text of a template with all holes filled. -/
theorem filled_of_template {values : Values} {c : CompiledCondition} {t : Template Slot}
    (h : c.template = t) :
    c.filled values = t.filled (Slot.rendered fun a => (values.get? a).getD .null) := by
  rw [filled, h]

end CompiledCondition

namespace Contribution

open LastValue

variable {table name : String} {first : Bool} {c : SelectColumn} {x : Contribution}
  {values : Values}

theorem filled_aliased (f : Slot → String) (t : Template Slot × String) :
    (aliased t).filled f = t.1.filled f ++ " AS " ++ t.2 := by
  rw [aliased, Template.filled_append, Template.filled_text, String.append_assoc]

theorem filled_equated (f : Slot → String) (t : Template Slot × String) :
    (equated t).filled f = t.1.filled f ++ " = t2." ++ t.2 := by
  rw [equated, Template.filled_append, Template.filled_text, String.append_assoc]

theorem map_filled {d : Option CompiledCondition} {t : Option (Template Slot)}
    (h : d.map (·.template) = t) :
    d.map (·.filled values) =
      t.map (Template.filled (Slot.rendered fun a => (values.get? a).getD .null)) := by
  rw [← h, Option.map_map]
  rfl

/-- What a column adds, as texts. -/
theorem filled_ofColumn (h : ofColumn table name first c = .ok x) :
    x.outer.filled values = selectedText (Expr.writtenIn table values .selection) (name, c) ∧
    x.inner.map (·.filled values) =
      projectedText? (Expr.writtenIn table values .selection) first (name, c) ∧
    x.join.map (·.filled values) =
      matchedText? (Expr.writtenIn table values .selection) first (name, c) := by
  obtain ⟨⟨_, item, role⟩, rfl, isOf, adds⟩ := ofColumn_eq_ok h
  have value : item.template.filled (Slot.rendered fun a => (values.get? a).getD .null) =
      c.namedBy.writtenIn table values .selection :=
    CompiledCondition.filled_of_compile isOf.compiled (by decide)
  rw [CompiledCondition.filled_of_template adds.outer, map_filled adds.inner, map_filled adds.join]
  -- Each role says which of the three texts there are: the outer item, the projection and the
  -- comparison.
  cases isOf.role with
  | @last _ timestamp latest time args named _ compiled =>
    have stamp : time.template.filled (Slot.rendered fun a => (values.get? a).getD .null) =
        timestamp.writtenIn table values .selection :=
      CompiledCondition.filled_of_compile compiled (by decide)
    have asked : c.timestamp? = some timestamp := by
      rw [SelectColumn.timestamp?, args]
      rfl
    refine ⟨?_, ?_, ?_⟩
    · simp [selectedText, asked, Part.selected, Part.own, filled_aliased, value]
    · cases first <;> simp [projectedText?, asked, Part.projected, filled_aliased, stamp, named]
    · cases first <;> simp [matchedText?, asked, Part.matched, filled_equated, stamp, named]
  | aggregate other aggregates =>
    obtain ⟨asked, own⟩ := SelectColumn.of_isLastValue_eq_false other
    rw [own] at value
    refine ⟨?_, ?_, ?_⟩
    · simp [selectedText, asked, aggregates, Part.selected, filled_aliased]
    · simp [projectedText?, asked, Part.projected, Part.own, filled_aliased, value]
    · simp [matchedText?, asked, aggregates, Part.matched]
  | key other plain =>
    obtain ⟨asked, own⟩ := SelectColumn.of_isLastValue_eq_false other
    rw [own] at value
    refine ⟨?_, ?_, ?_⟩
    · simp [selectedText, asked, plain, own, Part.selected, Part.own, filled_aliased, value]
    · simp [projectedText?, asked, Part.projected, Part.own, filled_aliased, value]
    · simp [matchedText?, asked, plain, Part.matched, Part.own, filled_equated, value]

/-! ### All columns of such a query -/

variable {columns : List (String × SelectColumn)} {xs : List Contribution}

theorem forall₂_of_ofColumns (h : ofColumns table first columns = .ok xs) :
    List.Forall₂ (fun p x => ∃ first, ofColumn table p.1 first p.2 = .ok x) columns xs := by
  induction columns generalizing first xs with
  | nil =>
    cases h
    exact .nil
  | cons p columns ih =>
    obtain ⟨name, c⟩ := p
    simp only [ofColumns, bind_eq_ok, pure_eq_ok] at h
    obtain ⟨x, hx, ys, hys, rfl⟩ := h
    exact .cons ⟨first, hx⟩ (ih hys)

/-- The flag is set up to the first last value, which is at the position `latest`, if the columns are
counted from `start`. -/
structure Flagged (first : Bool) (start latest : Nat) (columns : List (String × SelectColumn)) :
    Prop where
  ahead : first = true → latest = start + columns.findIdx (·.2.expr.isLastValue)
  behind : first = false → latest < start

namespace Flagged

variable {p : String × SelectColumn} {start latest : Nat}
  (h : Flagged first start latest (p :: columns))

include h

/-- At a last value the flag tells whether it is the first one. -/
theorem here (isLast : p.2.expr.isLastValue = true) : first = decide (start = latest) := by
  cases first with
  | false =>
    have passed := h.behind rfl
    exact (decide_eq_false (by omega)).symm
  | true =>
    have reached := h.ahead rfl
    rw [List.findIdx_cons, isLast, cond_true] at reached
    exact (decide_eq_true (by omega)).symm

/-- The flag stays right from one column to the next. -/
theorem next : Flagged (first && !p.2.expr.isLastValue) (start + 1) latest columns where
  ahead set := by
    obtain ⟨rfl, other⟩ : first = true ∧ p.2.expr.isLastValue = false := by simpa using set
    have coming := h.ahead rfl
    rw [List.findIdx_cons, other, cond_false] at coming
    omega
  behind unset := by
    cases first with
    | false => exact Nat.lt_succ_of_lt (h.behind rfl)
    | true =>
      have isLast : p.2.expr.isLastValue = true := by simpa using unset
      have reached := h.ahead rfl
      rw [List.findIdx_cons, isLast, cond_true] at reached
      omega

end Flagged

/-- What the columns add, when each is told whether it is the one at the position `latest`. -/
theorem filterMap_ofColumns {α : Type} {f : Contribution → Option α}
    {g : Bool → String × SelectColumn → Option α}
    (adds : ∀ first p x, ofColumn table p.1 first p.2 = .ok x → f x = g first p)
    (steady : ∀ p, p.2.timestamp? = none → g true p = g false p) {start latest : Nat}
    (flagged : Flagged first start latest columns)
    (h : ofColumns table first columns = .ok xs) :
    xs.filterMap f = (columns.zipIdx start).filterMap fun (p, i) => g (i = latest) p := by
  induction columns generalizing first xs start with
  | nil =>
    cases h
    rfl
  | cons p columns ih =>
    obtain ⟨name, c⟩ := p
    simp only [ofColumns, bind_eq_ok, pure_eq_ok] at h
    obtain ⟨x, hx, ys, hys, rfl⟩ := h
    have here : f x = g (start = latest) (name, c) := by
      rw [adds first (name, c) x hx]
      -- Only a last value looks at the flag.
      by_cases isLast : c.expr.isLastValue = true
      · rw [flagged.here isLast]
      · rw [Bool.not_eq_true] at isLast
        have same := steady (name, c) (SelectColumn.of_isLastValue_eq_false isLast).1
        cases first <;> cases decide (start = latest) <;> simp only [same]
    rw [List.filterMap_cons, List.zipIdx_cons, List.filterMap_cons, here, ih flagged.next hys]

end Contribution

/-! ### Bound columns -/

namespace LastValue.Layout

variable {l : Layout} {values : Values}

/-- An aggregate is not the first last value, so it is before that or behind it. -/
theorem mem_of_isAggregate {p : Part} (hp : p ∈ l.parts) (aggregate : p.isAggregate = true) :
    p ∈ l.before ∨ p ∈ l.after.filter (!·.isLast) := by
  rcases List.mem_append.1 hp with hp | hp
  · exact .inl hp
  · rcases List.mem_cons.1 hp with rfl | hp
    · cases aggregate
    · refine .inr (List.mem_filter.2 ⟨hp, ?_⟩)
      obtain ⟨name, item, role⟩ := p
      cases role with
      | last latest time => cases aggregate
      | aggregate => rfl
      | key => cases aggregate

/-- The first last-value column of the layout has its timestamp. -/
theorem exists_timestamp {table : String} {columns : List (String × SelectColumn)}
    (h : List.Forall₂ (fun c p => p.name = c.1 ∧ Part.IsOf p table c.2) columns l.parts) :
    ∃ time, columns.findSome? (·.2.timestamp?) = some time ∧
      time.leafName? = some l.latest ∧ compile table .selection time = .ok l.time := by
  have before := List.forall₂_take_append columns l.before _ h
  have after := List.forall₂_drop_append columns l.before _ h
  -- Before the first last value there is no timestamp, so the first one found is its own.
  have unseen : (columns.take l.before.length).findSome? (·.2.timestamp?) = none := by
    refine List.findSome?_eq_none_iff.2 fun c hc => ?_
    obtain ⟨p, hp, _, isOf⟩ := exists_mem_of_forall₂ before hc
    exact (SelectColumn.of_isLastValue_eq_false
      (isOf.isLast_eq.symm.trans (l.isLast_before p hp))).1
  cases hd : columns.drop l.before.length with
  | nil =>
    rw [hd] at after
    cases after
  | cons c rest =>
    rw [hd] at after
    obtain ⟨⟨_, isOf⟩, _⟩ := List.forall₂_cons.1 after
    cases isOf.role with
    | @last _ time _ _ args named _ compiled =>
      refine ⟨time, ?_, named, compiled⟩
      have asked : c.2.timestamp? = some time := by
        rw [SelectColumn.timestamp?, args]
        rfl
      rw [← List.take_append_drop l.before.length columns, List.findSome?_append, unseen, hd,
        List.findSome?_cons, asked]
      rfl

/-- Every column is an item of the query or of the sub-select, and the first timestamp is one of the
sub-select. -/
theorem bound_parts {select inner : CompiledCondition}
    (hs : select.template = .join ", " (l.parts.map fun p => aliased p.selected))
    (hi : inner.template = .join ", " (l.projections.map aliased))
    (outer : select.Bound values) (sub : inner.Bound values) :
    (∀ p ∈ l.parts, p.item.Bound values) ∧ l.time.Bound values := by
  have selected : select.parameters =
      (l.parts.filter (!·.isAggregate)).flatMap (·.item.parameters) := by
    show sources select.template = _
    rw [hs, sources_join, flatMap_selected]
  have projected : inner.parameters = l.before.flatMap (·.item.parameters) ++
      l.time.parameters ++ (l.after.filter (!·.isLast)).flatMap (·.item.parameters) := by
    show sources inner.template = _
    rw [hi, sources_projections]
  rw [CompiledCondition.Bound, selected] at outer
  rw [CompiledCondition.Bound, projected] at sub
  refine ⟨fun p hp q hq => ?_, fun q hq => ?_⟩
  · -- An aggregate is computed by the sub-select only, every other column by the query.
    by_cases aggregate : p.isAggregate = true
    · rcases mem_of_isAggregate hp aggregate with hp | hp
      · exact sub q (List.mem_append_left _ (List.mem_append_left _
          (List.mem_flatMap.2 ⟨p, hp, hq⟩)))
      · exact sub q (List.mem_append_right _ (List.mem_flatMap.2 ⟨p, hp, hq⟩))
    · refine outer q (List.mem_flatMap.2 ⟨p, List.mem_filter.2 ⟨hp, ?_⟩, hq⟩)
      simpa using aggregate
  · exact sub q (List.mem_append_left _ (List.mem_append_right _ hq))

end LastValue.Layout

namespace Selection

open LastValue

/-- With a last value, the columns are filled to those of the outer clause and of the sub-select. -/
theorem filledTo_of_compileLastValue {table : String} (values : Values)
    {columns : List (String × SelectColumn)} {x : CompiledColumns}
    (hlast : columns.any (·.2.expr.isLastValue) = true)
    (h : compileLastValue table columns = .ok x) :
    let write := Expr.writtenIn table values .selection
    x.FilledTo table values (columns.map (selectedText write))
      (some (contributed (projectedText? write) columns, contributed (matchedText? write) columns))
      (columns.map (·.2.namedBy) ++ (columns.findSome? (·.2.timestamp?)).toList) := by
  intro write
  simp only [compileLastValue, bind_eq_ok, pure_eq_ok] at h
  obtain ⟨xs, hxs, rfl⟩ := h
  obtain ⟨l, parts, outers, inners, joins, -⟩ := Contribution.layout_of_ofColumns hxs hlast
  have flagged : Contribution.Flagged true 0 (columns.findIdx (·.2.expr.isLastValue)) columns :=
    ⟨fun _ => (Nat.zero_add _).symm, fun unset => by cases unset⟩
  have inner : xs.filterMap (fun x => x.inner.map (·.filled values)) =
      contributed (projectedText? write) columns := by
    refine Contribution.filterMap_ofColumns
      (fun _ p _ hx => (Contribution.filled_ofColumn hx).2.1)
      (fun p hp => ?_) flagged hxs
    simp [projectedText?, hp]
  have join : xs.filterMap (fun x => x.join.map (·.filled values)) =
      contributed (matchedText? write) columns := by
    refine Contribution.filterMap_ofColumns
      (fun _ p _ hx => (Contribution.filled_ofColumn hx).2.2)
      (fun p hp => ?_) flagged hxs
    simp [matchedText?, hp]
  have filled : (xs.filterMap (·.join)).length = l.equations.length := by
    rw [← List.length_map (·.template), joins, List.length_map]
  -- The comparison of the timestamp is always there, so the join is not empty.
  have some : 0 < (contributed (matchedText? write) columns).length := by
    rw [← join, ← List.map_filterMap, List.length_map, filled]
    simp only [LastValue.Layout.equations, List.length_append, List.length_cons]
    omega
  constructor
  case plain => rfl
  case plain_subSelect =>
    rintro _ ⟨⟩
    exact ⟨rfl, rfl⟩
  case select =>
    rw [CompiledCondition.filled_join, List.map_map]
    refine congrArg _ (map_eq_map_of_forall₂ ?_ (Contribution.forall₂_of_ofColumns hxs))
    rintro p x ⟨_, hx⟩
    exact (Contribution.filled_ofColumn hx).1
  case subSelect =>
    simp only [Option.map_some, CompiledCondition.filled_join, List.map_filterMap, inner, join]
    rfl
  case joins =>
    rintro _ ⟨⟩
    exact List.ne_nil_of_length_pos some
  case bound =>
    intro outer sub e he
    obtain ⟨items, stamp⟩ := LastValue.Layout.bound_parts (l := l) (congrArg _ outers)
      (congrArg _ inners) outer (sub _ rfl).1
    obtain ⟨time, asked, _, compiled⟩ := LastValue.Layout.exists_timestamp parts
    rcases List.mem_append.1 he with he | he
    · obtain ⟨p, hp, rfl⟩ := List.mem_map.1 he
      obtain ⟨part, hpart, _, isOf⟩ := exists_mem_of_forall₂ parts hp
      exact ⟨part.item, isOf.compiled, items part hpart⟩
    · rw [asked] at he
      obtain rfl := List.mem_singleton.1 he
      exact ⟨l.time, compiled, stamp⟩

end Selection

end StreamTable
