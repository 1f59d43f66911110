import StreamTable.Store.Scripted
import StreamTable.Table.Basic
import StreamTable.Proofs.Config.ContainerLink
import StreamTable.Proofs.Selection.SubSelects
import StreamTable.Proofs.Value.Literals

/-!
# Qualified paths

The clauses of a query refer to the fields of the table by paths that are qualified with its name,
and to the items of the sub-select by paths that are qualified with `t2`.  Any identifier is the name
of a table, so `t2` is one, too, and then the fields of the table are taken for items of the
sub-select.  `captures_iff_of_compile` says that this is the only way; otherwise the join compares no
item of the sub-select with an item.
-/

namespace StreamTable

/-- The path is qualified with the name. -/
def IsPathOf (name path : String) : Prop := ∃ field, path = name ++ "." ++ field

/-- The name that a path is qualified with is read off up to the point. -/
theorem IsPathOf.ofList_takeWhile {name path : String} (hn : Text.isIdentifier name = true)
    (h : IsPathOf name path) :
    String.ofList (path.toList.takeWhile Text.isIdentifierChar) = name := by
  obtain ⟨field, rfl⟩ := h
  have apart : IsBreak ('.' :: field.toList) := by
    intro c hc
    obtain rfl : '.' = c := Option.some.inj hc
    decide
  have chars : (name ++ "." ++ field).toList = name.toList ++ '.' :: field.toList := by simp
  rw [chars, ofList_takeWhile_of_isIdentifier hn apart]

theorem IsPathOf.eq {name other path : String} (hn : Text.isIdentifier name = true)
    (ho : Text.isIdentifier other = true) (h : IsPathOf name path) (h' : IsPathOf other path) :
    name = other :=
  (h.ofList_takeWhile hn).symm.trans (h'.ofList_takeWhile ho)

/-- The path to a field that fills a hole. -/
def Parameter.fieldPath? : Parameter → Option String
  | .field path _ => some path
  | .constant _ | .attribute _ _ => none

/-- The paths to the fields that fill the holes. -/
def CompiledCondition.fieldPaths (c : CompiledCondition) : List String :=
  c.parameters.filterMap Parameter.fieldPath?

/-- The clauses that stand in the query itself, without the condition on the groups, which refers to
columns by their names alone. -/
def CompiledSelection.outerClauses (s : CompiledSelection) : List CompiledCondition :=
  [some s.select, s.subSelect.map (·.join), s.groupBy, s.orderBy].filterMap id

/-- Some field is referred to as if it was an item of the sub-select. -/
def CompiledSelection.Captures (s : CompiledSelection) : Prop :=
  ∃ c ∈ s.outerClauses, ∃ path ∈ c.fieldPaths, IsPathOf SubSelect.name path

theorem CompiledSelection.forall_mem_outerClauses {s : CompiledSelection}
    {p : CompiledCondition → Prop} :
    (∀ c ∈ s.outerClauses, p c) ↔
      p s.select ∧ (∀ t ∈ s.subSelect, p t.join) ∧ (∀ c ∈ s.groupBy, p c) ∧
        ∀ c ∈ s.orderBy, p c := by
  obtain ⟨table, select, subSelect, groupBy, having, orderBy, limit, offset, output⟩ := s
  cases subSelect <;> cases groupBy <;> cases orderBy <;> simp [outerClauses]

/-! ### Fields of compiled expressions -/

namespace CompiledCondition

variable {table : String} {clause : Clause} {e : Expr} {c : CompiledCondition} {path : String}

theorem mem_fieldPaths : path ∈ c.fieldPaths ↔ ∃ p ∈ c.parameters, p.fieldPath? = some path :=
  List.mem_filterMap

theorem fieldPaths_wrap (before after : String) :
    (c.wrap before after).fieldPaths = c.fieldPaths := by
  simp [fieldPaths, parameters, template_wrap]

theorem fieldPaths_aliased (t : Template Slot × String) :
    fieldPaths { template := LastValue.aliased t } = fieldPaths { template := t.1 } := by
  simp [fieldPaths, parameters, LastValue.aliased]

theorem fieldPaths_equated (t : Template Slot × String) :
    fieldPaths { template := LastValue.equated t } = fieldPaths { template := t.1 } := by
  simp [fieldPaths, parameters, LastValue.equated]

theorem mem_fieldPaths_join {separator : String} {ts : List (Template Slot)}
    (h : c.template = .join separator ts) :
    path ∈ c.fieldPaths ↔ ∃ t ∈ ts, path ∈ fieldPaths { template := t } := by
  simp only [mem_fieldPaths, parameters, h, Template.holes_join, List.map_flatMap, List.mem_flatMap]
  constructor
  · rintro ⟨p, ⟨t, ht, hp⟩, field⟩
    exact ⟨t, ht, p, hp, field⟩
  · rintro ⟨t, ht, p, hp, field⟩
    exact ⟨p, ⟨t, ht, hp⟩, field⟩

/-- Outside a condition on groups, fields are qualified with the name of the table. -/
theorem isPathOf_of_mem_fieldPaths (h : compile table clause e = .ok c) (hc : clause ≠ .condition)
    (qualifies : clause ≠ .having) (hp : path ∈ c.fieldPaths) : IsPathOf table path := by
  obtain ⟨f, hf, rfl⟩ := emits_of_compile h (alwaysTrue_of_compile_ne h hc)
  obtain ⟨p, hp, field⟩ := mem_fieldPaths.1 hp
  rw [parameters, hf.parameters] at hp
  obtain ⟨l, _, rfl⟩ := List.mem_map.1 hp
  cases l with
  | constant v => cases field
  | «attribute» name t => cases field
  | field name t =>
    obtain rfl := Option.some.inj field
    exact ⟨name, if_neg qualifies⟩

/-- Of all compiled expressions, only a field is written like an item of the sub-select. -/
theorem mem_fieldPaths_of_isPathOf {values : Values} (h : compile table clause e = .ok c)
    (hc : clause ≠ .condition) (item : IsPathOf SubSelect.name (c.filled values)) :
    c.filled values ∈ c.fieldPaths := by
  obtain ⟨f, hf, rfl⟩ := emits_of_compile h (alwaysTrue_of_compile_ne h hc)
  obtain ⟨field, text⟩ := item
  unfold filled at text ⊢
  have chars := congrArg String.toList text
  have literal (v : Value) (t : AttributeType) : v.literal t ≠ SubSelect.name ++ "." ++ field := by
    intro same
    have word : v.literal t = "true" := Value.literal_of_head? (by simp [same, SubSelect.name])
    rw [word] at same
    simpa [SubSelect.name] using congrArg String.toList same
  -- Operators and functions begin with a parenthesis or a capital letter.
  cases hf with
  | @leaf _ l isLeaf =>
    rw [Fragment.filled_leaf, Slot.rendered_leaf] at text ⊢
    cases l with
    | constant v => exact absurd text (literal v _)
    | «attribute» name t => exact absurd text (literal _ t)
    | field name t => exact List.mem_singleton.2 rfl
  | compare _ _ _ | and _ _ _ | or _ _ _ | math _ _ _ | not _ _ | isNull _ | contains _ _
  | textSearch _ _ => simp [SubSelect.name] at chars
  | @aggregate _ a _ _ _ known _ _ _ => cases a <;> simp [Aggregate.keyword, SubSelect.name] at chars
  | countAll _ _ => simp [Aggregate.keyword, SubSelect.name] at chars

end CompiledCondition

/-! ### The clauses of a query -/

namespace Selection

variable {table : String} {s : Selection} {compiled : CompiledSelection}

theorem isIdentifier_of_compile (h : s.compile table = .ok compiled) :
    Text.isIdentifier table = true := by
  unfold Selection.compile at h
  obtain ⟨_, checked, _⟩ := bind_eq_ok.1 h
  exact checkIdentifier_eq_ok.1 checked

theorem isPathOf_of_compileKeys {α : Type} {key : α → Except CompileError CompiledCondition}
    {keys : List α} {clause : Option CompiledCondition}
    (own : ∀ k c, key k = .ok c → ∀ path ∈ c.fieldPaths, IsPathOf table path)
    (h : compileKeys key keys = .ok clause) :
    ∀ c ∈ clause, ∀ path ∈ c.fieldPaths, IsPathOf table path := by
  cases keys with
  | nil =>
    cases h
    intro c hc
    cases hc
  | cons k ks =>
    simp only [compileKeys, bind_eq_ok, pure_eq_ok] at h
    obtain ⟨cs, hcs, rfl⟩ := h
    rintro _ ⟨⟩ path hp
    obtain ⟨t, ht, hp⟩ := (CompiledCondition.mem_fieldPaths_join rfl).1 hp
    obtain ⟨c, hc, rfl⟩ := List.mem_map.1 ht
    obtain ⟨k', _, compiled⟩ := exists_of_mem_mapM hcs hc
    exact own k' c compiled path hp

theorem isPathOf_of_compileSortKey {k : SortKey} {c : CompiledCondition}
    (h : compileSortKey table k = .ok c) : ∀ path ∈ c.fieldPaths, IsPathOf table path := by
  intro path hp
  simp only [compileSortKey, bind_eq_ok, pure_eq_ok] at h
  obtain ⟨item, hi, rfl⟩ := h
  rw [CompiledCondition.fieldPaths_wrap] at hp
  exact CompiledCondition.isPathOf_of_mem_fieldPaths hi (by decide) (by decide) hp

/-- The keys of a query are fields of the table. -/
theorem isPathOf_keys_of_compile (h : s.compile table = .ok compiled) :
    (∀ c ∈ compiled.groupBy, ∀ path ∈ c.fieldPaths, IsPathOf table path) ∧
      ∀ c ∈ compiled.orderBy, ∀ path ∈ c.fieldPaths, IsPathOf table path := by
  obtain ⟨_, _, groupBy, _, orderBy, _, _, hg, _, ho, rfl⟩ := compile_eq_ok h
  constructor
  · refine isPathOf_of_compileKeys (fun e c hc path hp => ?_) hg
    exact CompiledCondition.isPathOf_of_mem_fieldPaths hc (by decide) (by decide) hp
  · exact isPathOf_of_compileKeys (fun _ _ => isPathOf_of_compileSortKey) ho

end Selection

namespace LastValue.Layout.Describes

variable {l : Layout} {table : String} {s : Selection} {compiled : CompiledSelection}
  {sub : SubSelect} {path : String}

/-- What is compared with the sub-select is compiled from an expression. -/
theorem exists_compiled (h : l.Describes table s compiled sub) {t : Template Slot × String}
    (ht : t ∈ l.equations) :
    ∃ e c, compile table .selection e = .ok c ∧ c.template = t.1 ∧ t.2 ∈ l.aliases := by
  rcases exists_of_mem_equations ht with rfl | ⟨p, hp, isKey, rfl⟩
  · obtain ⟨time, _, _, compiled⟩ := exists_timestamp h.columns
    exact ⟨time, l.time, compiled, rfl, latest_mem_aliases⟩
  · obtain ⟨c, isOf⟩ := h.isOf.exists_column hp
    exact ⟨c.namedBy, p.item, isOf.compiled, rfl, name_mem_aliases hp (Part.isLast_of_isKey isKey)⟩

theorem mem_aliases (h : l.Describes table s compiled sub) {values : Values}
    {p : String × String} (hp : p ∈ l.comparisons values) : p.2 ∈ l.aliases := by
  obtain ⟨t, ht, rfl⟩ := List.mem_map.1 hp
  obtain ⟨_, _, _, _, item⟩ := h.exists_compiled ht
  exact item

theorem join_mem_outerClauses (h : l.Describes table s compiled sub) :
    sub.join ∈ compiled.outerClauses := by
  simp [CompiledSelection.outerClauses, h.subSelect]

theorem isPathOf_select (h : l.Describes table s compiled sub)
    (hp : path ∈ compiled.select.fieldPaths) : IsPathOf table path := by
  obtain ⟨_, ht, hp⟩ := (CompiledCondition.mem_fieldPaths_join h.select).1 hp
  obtain ⟨p, hpart, rfl⟩ := List.mem_map.1 ht
  rw [CompiledCondition.fieldPaths_aliased] at hp
  have own : path ∈ p.item.fieldPaths := by
    cases hr : p.role with
    | aggregate =>
      rw [Part.selected, hr] at hp
      cases hp
    | last latest time => rwa [Part.selected, hr] at hp
    | key => rwa [Part.selected, hr] at hp
  obtain ⟨c, isOf⟩ := h.isOf.exists_column hpart
  exact CompiledCondition.isPathOf_of_mem_fieldPaths isOf.compiled (by decide) (by decide) own

theorem mem_fieldPaths_join (h : l.Describes table s compiled sub) :
    path ∈ sub.join.fieldPaths ↔
      ∃ t ∈ l.equations, path ∈ CompiledCondition.fieldPaths { template := t.1 } := by
  rw [CompiledCondition.mem_fieldPaths_join h.join]
  constructor
  · rintro ⟨_, ht, hp⟩
    obtain ⟨t, mem, rfl⟩ := List.mem_map.1 ht
    exact ⟨t, mem, by rwa [CompiledCondition.fieldPaths_equated] at hp⟩
  · rintro ⟨t, mem, hp⟩
    exact ⟨equated t, List.mem_map_of_mem mem, by rwa [CompiledCondition.fieldPaths_equated]⟩

theorem isPathOf_join (h : l.Describes table s compiled sub) (hp : path ∈ sub.join.fieldPaths) :
    IsPathOf table path := by
  obtain ⟨t, mem, hp⟩ := h.mem_fieldPaths_join.1 hp
  obtain ⟨e, c, compiled, same, _⟩ := h.exists_compiled mem
  rw [← same] at hp
  exact CompiledCondition.isPathOf_of_mem_fieldPaths compiled (by decide) (by decide) hp

/-- What the join compares with an item of the sub-select is written like one only if it is a
field. -/
theorem mem_fieldPaths_of_isPathOf (h : l.Describes table s compiled sub) {values : Values}
    {p : String × String} (hp : p ∈ l.comparisons values) (item : IsPathOf SubSelect.name p.1) :
    p.1 ∈ sub.join.fieldPaths := by
  obtain ⟨t, ht, rfl⟩ := List.mem_map.1 hp
  obtain ⟨e, c, compiled, same, _⟩ := h.exists_compiled ht
  have left : (written values t).1 = c.filled values := by
    rw [written, CompiledCondition.filled, same]
  rw [left] at item ⊢
  have field := CompiledCondition.mem_fieldPaths_of_isPathOf compiled (by decide) item
  refine h.mem_fieldPaths_join.2 ⟨t, ht, ?_⟩
  rw [← same]
  exact field

end LastValue.Layout.Describes

open LastValue

variable {table : String} {s : Selection} {compiled : CompiledSelection}

theorem isPathOf_of_mem_outerClauses {l : Layout} {sub : SubSelect}
    (h : s.compile table = .ok compiled) (describes : l.Describes table s compiled sub) :
    ∀ c ∈ compiled.outerClauses, ∀ path ∈ c.fieldPaths, IsPathOf table path := by
  obtain ⟨groupBy, orderBy⟩ := Selection.isPathOf_keys_of_compile h
  refine CompiledSelection.forall_mem_outerClauses.2
    ⟨fun _ => describes.isPathOf_select, fun t ht _ hp => ?_, groupBy, orderBy⟩
  obtain rfl : sub = t := Option.some.inj (describes.subSelect.symm.trans ht)
  exact describes.isPathOf_join hp

/-- The fields of the clauses are fields of the table.  One of them is taken for an item of the
sub-select just if the table is called as the sub-select is and the clauses have a field.  If none
is, the join compares no item of the sub-select with an item. -/
theorem captures_iff_of_compile (h : s.compile table = .ok compiled) (hs : s.hasLastValue = true) :
    ∃ (l : Layout) (sub : SubSelect), l.Describes table s compiled sub ∧
      (∀ c ∈ compiled.outerClauses, ∀ path ∈ c.fieldPaths, IsPathOf table path) ∧
      (compiled.Captures ↔
        table = SubSelect.name ∧ ∃ c ∈ compiled.outerClauses, c.fieldPaths ≠ []) ∧
      ∀ values, sub.join.filled values =
          " AND ".intercalate ((l.comparisons values).map fun p => p.1 ++ " = t2." ++ p.2) ∧
        ∀ p ∈ l.comparisons values, p.2 ∈ l.aliases ∧
          (¬ compiled.Captures → ¬ IsPathOf SubSelect.name p.1) := by
  obtain ⟨l, sub, describes⟩ := Layout.exists_describes h hs
  have paths := isPathOf_of_mem_outerClauses h describes
  refine ⟨l, sub, describes, paths, ?_, fun values => ⟨describes.filled_join, ?_⟩⟩
  · constructor
    · rintro ⟨c, hc, path, hp, item⟩
      -- A path that points to the table and into the sub-select makes the names the same.
      have same : table = SubSelect.name :=
        (paths c hc path hp).eq (Selection.isIdentifier_of_compile h) (by decide) item
      exact ⟨same, c, hc, List.ne_nil_of_mem hp⟩
    · rintro ⟨rfl, c, hc, some⟩
      obtain ⟨path, hp⟩ := List.exists_mem_of_ne_nil _ some
      exact ⟨c, hc, path, hp, paths c hc path hp⟩
  · intro p hp
    refine ⟨describes.mem_aliases hp, fun free item => free ?_⟩
    exact ⟨sub.join, describes.join_mem_outerClauses, p.1,
      describes.mem_fieldPaths_of_isPathOf hp item, item⟩

theorem captures_iff_of_compile_datedQuotes :
    ∃ (compiled : CompiledSelection) (l : Layout) (sub : SubSelect),
      datedQuotes.compile "Stock" = .ok compiled ∧ l.Describes "Stock" datedQuotes compiled sub ∧
        ¬ compiled.Captures ∧ ∀ p ∈ l.comparisons [], ¬ IsPathOf SubSelect.name p.1 := by
  obtain ⟨compiled, h⟩ : ∃ compiled, datedQuotes.compile "Stock" = .ok compiled := ⟨_, rfl⟩
  obtain ⟨l, sub, describes, _, captures, join⟩ := captures_iff_of_compile h (by decide)
  have free : ¬ compiled.Captures := by
    intro taken
    have same : "Stock" = SubSelect.name := (captures.1 taken).1
    exact absurd same (by decide)
  exact ⟨compiled, l, sub, h, describes, free, fun p hp => ((join []).2 p hp).2 free⟩

/-- A table that is called as the sub-select is, is accepted.  The join then compares the items of
the sub-select with themselves. -/
theorem captures_datedQuotes :
    ∃ (t : Table ScriptedStore) (compiled : CompiledSelection) (sub : SubSelect),
      Table.connect ⟨"t2", [⟨"time", .long⟩, ⟨"symbol", .string⟩]⟩ (.ofDatabase "stocks")
        ScriptedStore.backend (fun _ => "id") = .ok t ∧
      datedQuotes.compile t.id = .ok compiled ∧ compiled.subSelect = some sub ∧
      sub.join.filled [] = "t2.time = t2.time AND t2.symbol = t2.symbol" ∧
      sub.join.fieldPaths = ["t2.time", "t2.symbol"] ∧ compiled.Captures := by
  obtain ⟨t, connected, id⟩ : ∃ t,
      Table.connect ⟨"t2", [⟨"time", .long⟩, ⟨"symbol", .string⟩]⟩ (.ofDatabase "stocks")
        ScriptedStore.backend (fun _ => "id") = .ok t ∧ t.id = "t2" := ⟨_, rfl, rfl⟩
  obtain ⟨compiled, h, joins⟩ : ∃ compiled, datedQuotes.compile "t2" = .ok compiled ∧
      ∀ sub, compiled.subSelect = some sub →
        sub.join.filled [] = "t2.time = t2.time AND t2.symbol = t2.symbol" ∧
          sub.join.fieldPaths = ["t2.time", "t2.symbol"] :=
    ⟨_, rfl, by rintro _ ⟨⟩; exact ⟨by decide, rfl⟩⟩
  obtain ⟨l, sub, describes⟩ := Layout.exists_describes h (by decide)
  obtain ⟨text, paths⟩ := joins sub describes.subSelect
  refine ⟨t, compiled, sub, connected, id ▸ h, describes.subSelect, text, paths, sub.join,
    describes.join_mem_outerClauses, "t2.time", ?_, "time", by decide⟩
  rw [paths]
  exact List.mem_cons_self

end StreamTable
