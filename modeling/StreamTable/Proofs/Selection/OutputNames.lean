import StreamTable.Proofs.Selection.Assembly

/-!
# Items under their output names

The rows of a result are read by the output names, so the item of a column has to deliver its value
under that name: it ends in an alias, or it is the field of the table that has the name
(`Delivers`).

In a query for last values every item has an alias.  In any other query an attribute that was given
no name keeps its own.  That is the name of the item if the attribute is one of the table; in the
place of an attribute of the stream stands a literal, and nothing in the query says its name.
`delivers_iff_of_compile` says that all other items are delivered.
-/

namespace StreamTable

open LastValue

/-- The item of a column delivers a value under the name. -/
def Delivers (table : String) (c : SelectColumn) (name : String) (item : Template Slot) : Prop :=
  (∃ t, item = aliased (t, name)) ∨
    c.rename = none ∧ ∃ type, c.expr = .field name type ∧
      item = .hole ⟨.field (table ++ "." ++ name) type, false⟩

/-- The column is no attribute of the stream, or was given a name. -/
def SelectColumn.IsNamed (c : SelectColumn) : Prop :=
  c.rename ≠ none ∨ ∀ name type, c.expr ≠ .attribute name type

/-- The item and the output attribute of a column with its output name. -/
structure IsItemOf (table : String) (joined : Bool) (p : String × SelectColumn)
    (x : CompiledCondition × Attribute) : Prop where
  name : x.2.name = p.1
  text : ∀ values, x.1.filled values =
    (if joined then selectedText else plainText) (Expr.writtenIn table values .selection) p

/-- A hole alone has no alias. -/
theorem hole_ne_aliased (slot : Slot) (t : Template Slot × String) : .hole slot ≠ aliased t := by
  intro same
  have text := congrArg (Template.filled fun _ => "") same
  rw [Template.filled_hole, Contribution.filled_aliased] at text
  have lengths := congrArg String.length text
  simp only [String.length_append] at lengths
  have added : " AS ".length = 4 := rfl
  have nothing : "".length = 0 := rfl
  omega

theorem template_of_compile {table : String} {clause : Clause} {e : Expr} {l : Leaf}
    {c : CompiledCondition} (hl : e.leaf? = some l) (h : compile table clause e = .ok c)
    (hc : clause ≠ .condition) : c.template = .hole ⟨l.parameter table clause, false⟩ := by
  obtain ⟨f, hf, rfl⟩ := emits_of_compile h (CompiledCondition.alwaysTrue_of_compile_ne h hc)
  have emitted := Target.emit_eq_ok_of_emits hf
  rw [Target.emit_of_leaf? hl] at emitted
  obtain rfl := Except.ok.inj emitted
  rfl

namespace Selection

variable {table : String} {s : Selection} {compiled : CompiledSelection}

/-! ### Queries without last values -/

theorem delivers_named {c : SelectColumn} {name : String} {item : CompiledCondition} :
    Delivers table c name (item.named name).template :=
  .inl ⟨item.template, CompiledCondition.template_wrap_empty _ _⟩

/-- An attribute that was given no name keeps its own. -/
theorem name_of_leafName? {c : SelectColumn} {own : String} (unnamed : c.rename = none)
    (leaf : c.expr.leafName? = some own) (position : Nat) : c.name position = own := by
  obtain ⟨expr, rename⟩ := c
  obtain rfl : rename = none := unnamed
  cases expr with
  | «attribute» a t => exact Option.some.inj leaf
  | field a t => exact Option.some.inj leaf
  | _ => cases leaf

/-- An attribute that was given no name is delivered if it is a field. -/
theorem delivers_iff_of_leafName? {c : SelectColumn} {own : String} {item : CompiledCondition}
    (unnamed : c.rename = none) (leaf : c.expr.leafName? = some own)
    (h : StreamTable.compile table .selection c.expr = .ok item) :
    Delivers table c own item.template ↔ c.IsNamed := by
  obtain ⟨expr, rename⟩ := c
  obtain rfl : rename = none := unnamed
  cases expr with
  | «attribute» a t =>
    have hole := template_of_compile (l := .attribute a t) rfl h (by decide)
    constructor
    · rintro (⟨t, same⟩ | ⟨_, _, other, _⟩)
      · exact absurd (hole.symm.trans same) (hole_ne_aliased _ _)
      · cases other
    · rintro (renamed | other)
      · exact absurd rfl renamed
      · exact absurd rfl (other a t)
  | field a t =>
    obtain rfl : a = own := Option.some.inj leaf
    have hole := template_of_compile (l := .field a t) rfl h (by decide)
    refine iff_of_true (.inr ⟨rfl, t, rfl, hole⟩) (.inr fun _ _ other => ?_)
    cases other
  | _ => cases leaf

theorem isItemOf_of_plainItem {p : String × SelectColumn} {x : CompiledCondition × Attribute}
    (hp : p ∈ s.named) (h : plainItem table p.1 p.2 = .ok x) :
    IsItemOf table false p x ∧ (Delivers table p.2 p.1 x.1.template ↔ p.2.IsNamed) := by
  obtain ⟨item, hi, output, cases⟩ := plainItem_cases h
  refine ⟨⟨congrArg Attribute.name output, fun values => (plainItem_eq_ok h).1⟩, ?_⟩
  rcases cases with ⟨named, same⟩ | ⟨⟨unnamed, own, leaf⟩, same⟩
  · rw [same]
    refine iff_of_true delivers_named ?_
    rcases named with given | computed
    · exact .inl given
    · refine .inr fun name type stream => ?_
      rw [stream] at computed
      cases computed
  · obtain ⟨⟨c, position⟩, _, rfl⟩ := List.mem_map.1 hp
    rw [same]
    show Delivers table c (c.name position) item.template ↔ c.IsNamed
    rw [name_of_leafName? unnamed leaf]
    exact delivers_iff_of_leafName? unnamed leaf hi

theorem exists_items_of_compilePlain {x : CompiledColumns}
    (h : compilePlain table s.named = .ok x) :
    ∃ items : List (CompiledCondition × Attribute),
      x.select.template = .join ", " (items.map (·.1.template)) ∧ x.output = items.map (·.2) ∧
      List.Forall₂ (fun p y => IsItemOf table false p y ∧
        (Delivers table p.2 p.1 y.1.template ↔ p.2.IsNamed)) s.named items := by
  simp only [compilePlain, bind_eq_ok, pure_eq_ok] at h
  obtain ⟨items, hitems, rfl⟩ := h
  refine ⟨items, ?_, rfl, ?_⟩
  · show Template.join ", " ((items.map (·.1)).map (·.template)) = _
    rw [List.map_map]
    rfl
  · have related := (List.forall₂_and_left (p := (· ∈ s.named)) _ _).2
      ⟨fun _ hp => hp, forall₂_of_mapM hitems⟩
    refine related.imp ?_
    rintro p y ⟨hp, item⟩
    exact isItemOf_of_plainItem hp item

/-! ### Queries for last values -/

theorem isItemOf_of_ofColumn {p : String × SelectColumn} {first : Bool} {x : Contribution}
    (h : Contribution.ofColumn table p.1 first p.2 = .ok x) :
    IsItemOf table true p (x.outer, x.output) ∧ Delivers table p.2 p.1 x.outer.template := by
  obtain ⟨part, name, _, adds⟩ := Contribution.ofColumn_eq_ok h
  refine ⟨⟨?_, fun values => (Contribution.filled_ofColumn h).1⟩, .inl ⟨part.selected.1, ?_⟩⟩
  · rw [adds.output]
    exact name
  · rw [adds.outer, aliased, aliased, ← name]
    cases hr : part.role with
    | last latest time => rw [Part.selected, hr]; rfl
    | aggregate => rw [Part.selected, hr]
    | key => rw [Part.selected, hr]; rfl

theorem exists_items_of_compileLastValue {columns : List (String × SelectColumn)}
    {x : CompiledColumns} (h : compileLastValue table columns = .ok x) :
    ∃ items : List (CompiledCondition × Attribute),
      x.select.template = .join ", " (items.map (·.1.template)) ∧ x.output = items.map (·.2) ∧
      List.Forall₂ (fun p y => IsItemOf table true p y ∧
        Delivers table p.2 p.1 y.1.template) columns items := by
  simp only [compileLastValue, bind_eq_ok, pure_eq_ok] at h
  obtain ⟨xs, hxs, rfl⟩ := h
  refine ⟨xs.map fun x => (x.outer, x.output), ?_, ?_, List.forall₂_map_right_iff.2 ?_⟩
  · show Template.join ", " ((xs.map (·.outer)).map (·.template)) = _
    rw [List.map_map, List.map_map]
    rfl
  · rw [List.map_map]
    rfl
  · refine (Contribution.forall₂_of_ofColumns hxs).imp ?_
    rintro p x ⟨_, adds⟩
    exact isItemOf_of_ofColumn adds

/-! ### All queries -/

/-- The items of a query, one for each column, deliver the values under the output names, save for
attributes of the stream that were given no name in a query without last values. -/
theorem delivers_iff_of_compile (h : s.compile table = .ok compiled) :
    SelectColumn.withNames 0 s.columns = .ok s.named ∧
    ∃ items : List (CompiledCondition × Attribute),
      compiled.select.template = .join ", " (items.map (·.1.template)) ∧
      compiled.output = items.map (·.2) ∧
      List.Forall₂ (fun p x => IsItemOf table s.hasLastValue p x ∧
        (Delivers table p.2 p.1 x.1.template ↔ s.hasLastValue = true ∨ p.2.IsNamed))
        s.named items := by
  obtain ⟨named, columns, _, _, _, hn, hx, _, _, _, rfl⟩ := compile_eq_ok h
  obtain rfl := named_of_withNames hn
  refine ⟨hn, ?_⟩
  -- With a last value every item has an alias; otherwise a renamed column or a field has.
  by_cases hs : s.hasLastValue = true
  · rw [if_pos hs] at hx
    obtain ⟨items, select, output, related⟩ := exists_items_of_compileLastValue hx
    refine ⟨items, select, output, related.imp ?_⟩
    rintro p x ⟨isItem, delivered⟩
    rw [hs]
    exact ⟨isItem, iff_of_true delivered (.inl rfl)⟩
  · rw [if_neg hs] at hx
    obtain ⟨items, select, output, related⟩ := exists_items_of_compilePlain hx
    refine ⟨items, select, output, related.imp ?_⟩
    rintro p x ⟨isItem, delivered⟩
    have plain : s.hasLastValue = false := by simpa using hs
    rw [plain, delivered]
    exact ⟨isItem, by simp⟩

/-- A field, a computed column, and an attribute of the stream that is given a name. -/
def labelledQuotes : Selection where
  columns := [
    ⟨.field "symbol" .string, none⟩,
    ⟨.math .mul (.field "price" .double) (.attribute "rate" .double), none⟩,
    ⟨.attribute "lot" .long, some "lot"⟩]

theorem delivers_iff_of_compile_labelledQuotes :
    ∃ (compiled : CompiledSelection) (items : List (CompiledCondition × Attribute)),
      labelledQuotes.compile "Stock" = .ok compiled ∧
      compiled.output.names = ["symbol", "_col2", "lot"] ∧
      compiled.select.template = .join ", " (items.map (·.1.template)) ∧
      List.Forall₂ (fun p x => Delivers "Stock" p.2 p.1 x.1.template) labelledQuotes.named items := by
  obtain ⟨compiled, h, names⟩ : ∃ compiled, labelledQuotes.compile "Stock" = .ok compiled ∧
      compiled.output.names = ["symbol", "_col2", "lot"] := ⟨_, rfl, rfl⟩
  obtain ⟨_, items, select, _, columns⟩ := delivers_iff_of_compile h
  have named : ∀ p ∈ labelledQuotes.named, p.2.IsNamed := by
    intro p hp
    have column : p.2 ∈ labelledQuotes.columns := by
      rw [← map_snd_named]
      exact List.mem_map_of_mem hp
    simp only [labelledQuotes, List.mem_cons, List.not_mem_nil, or_false] at column
    rcases column with same | same | same
    · exact .inr fun _ _ other => by cases same ▸ other
    · exact .inr fun _ _ other => by cases same ▸ other
    · exact .inl fun unnamed => by cases same ▸ unnamed
  refine ⟨compiled, items, h, names, select, ?_⟩
  have both := (List.forall₂_and_left _ _).2 ⟨named, columns⟩
  refine both.imp ?_
  rintro p x ⟨hp, _, delivered⟩
  exact delivered.2 (.inr hp)

/-- An attribute of the stream that is given no name. -/
def streamQuotes : Selection where
  columns := [⟨.attribute "symbol" .string, none⟩]

/-- The output has a symbol, but the query is for a literal without a name. -/
theorem not_delivers_streamQuotes :
    ∃ compiled : CompiledSelection, streamQuotes.compile "Stock" = .ok compiled ∧
      compiled.output = [⟨"symbol", .string⟩] ∧
      compiled.resolve [("symbol", .string "IBM")] "" = .ok "SELECT 'IBM' FROM Stock" ∧
      ¬ Delivers "Stock" ⟨.attribute "symbol" .string, none⟩ "symbol" compiled.select.template := by
  obtain ⟨compiled, h, output, text, select⟩ : ∃ compiled,
      streamQuotes.compile "Stock" = .ok compiled ∧ compiled.output = [⟨"symbol", .string⟩] ∧
      compiled.resolve [("symbol", .string "IBM")] "" = .ok "SELECT 'IBM' FROM Stock" ∧
      compiled.select.template = .hole ⟨.attribute "symbol" .string, false⟩ :=
    ⟨_, rfl, rfl, rfl, rfl⟩
  refine ⟨compiled, h, output, text, ?_⟩
  rw [select]
  rintro (⟨t, same⟩ | ⟨_, _, other, _⟩)
  · exact hole_ne_aliased _ _ same
  · cases other

end Selection

end StreamTable
