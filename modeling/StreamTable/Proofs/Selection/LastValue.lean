import StreamTable.Proofs.Selection.Layout
import StreamTable.Proofs.Selection.References

/-!
# The clauses of a query for last values

A selection with a last-value column is compiled to the clauses of the layout of its columns
(`clauses_of_hasLastValue`): the items of the query and of its sub-select, the conditions that join
them, the output attributes, and the sources of the holes of each clause.  What the fixed text of a
clause takes from the sub-select is one of the aliases in it.
-/

namespace StreamTable

/-! ### Output names -/

/-- Every column gets a name, in their order. -/
theorem SelectColumn.withNames_eq_ok {position : Nat} {cs : List SelectColumn}
    {named : List (String × SelectColumn)} (h : withNames position cs = .ok named) :
    named.length = cs.length ∧ ∀ (i : Nat) (c : SelectColumn), cs[i]? = some c →
      ∃ name, named[i]? = some (name, c) ∧ c.outputName (position + i) = .ok name := by
  induction cs generalizing position named with
  | nil =>
    cases h
    exact ⟨rfl, fun i c hc => by simp at hc⟩
  | cons c cs ih =>
    simp only [withNames, bind_eq_ok, pure_eq_ok] at h
    obtain ⟨name, hname, named, hnamed, rfl⟩ := h
    obtain ⟨length, rest⟩ := ih hnamed
    refine ⟨by simp [length], fun i d hd => ?_⟩
    cases i with
    | zero =>
      obtain rfl : c = d := by simpa using hd
      exact ⟨name, rfl, hname⟩
    | succ i =>
      have next : position + (i + 1) = position + 1 + i := by omega
      rw [next]
      exact rest i d hd

namespace LastValue.Layout

variable {l : Layout} {table : String} {s : Selection}

/-- The parts of the named columns are a layout of the selection. -/
theorem isOf_of_withNames {named : List (String × SelectColumn)}
    (hn : SelectColumn.withNames 0 s.columns = .ok named)
    (h : List.Forall₂ (fun c p => p.name = c.1 ∧ Part.IsOf p table c.2) named l.parts) :
    l.IsOf table s := by
  obtain ⟨length, names⟩ := SelectColumn.withNames_eq_ok hn
  refine ⟨h.length_eq.symm.trans length, fun i c p hc hp => ?_⟩
  obtain ⟨name, hname, output⟩ := names i c hc
  obtain ⟨hi, hnamed⟩ := List.getElem?_eq_some_iff.1 hname
  obtain ⟨hj, hpart⟩ := List.getElem?_eq_some_iff.1 hp
  have both := h.get hi hj
  simp only [List.get_eq_getElem, hnamed, hpart] at both
  rw [both.1, ← Nat.zero_add i]
  exact ⟨output, both.2⟩

theorem IsOf.exists_column (h : l.IsOf table s) {p : Part} (hp : p ∈ l.parts) :
    ∃ c, p.IsOf table c := by
  obtain ⟨i, hi, rfl⟩ := List.mem_iff_getElem.1 hp
  have bound : i < s.columns.length := h.length ▸ hi
  exact ⟨_, (h.part i _ _ (List.getElem?_eq_getElem bound) (List.getElem?_eq_getElem hi)).2⟩

/-- The timestamp has the name of a leaf, and no point stands in its text. -/
theorem IsOf.latest (h : l.IsOf table s) :
    Text.isIdentifier l.latest = true ∧ '.' ∉ l.time.template.shown.toList := by
  obtain ⟨c, hp⟩ := h.exists_column (p := ⟨l.name, l.item, .last l.latest l.time⟩) (by simp [parts])
  cases hp.role with
  | last _ _ identifier compiled => exact ⟨identifier, noPoint_of_compile compiled⟩

/-! ### References to the sub-select -/

/-- The aliases of the sub-select. -/
def aliases (l : Layout) : List String := l.projections.map (·.2)

theorem latest_mem_aliases : l.latest ∈ l.aliases := by
  simp [aliases, projections]

theorem name_mem_aliases {p : Part} (hp : p ∈ l.parts) (other : p.isLast = false) :
    p.name ∈ l.aliases :=
  List.mem_map.2 ⟨p.own, mem_projections.2 (.inr ⟨p, hp, other, rfl⟩), rfl⟩

theorem IsOf.isIdentifier_alias (h : l.IsOf table s) {n : String} (hn : n ∈ l.aliases) :
    Text.isIdentifier n = true := by
  obtain ⟨t, ht, rfl⟩ := List.mem_map.1 hn
  rcases mem_projections.1 ht with rfl | ⟨p, hp, _, rfl⟩
  · exact h.latest.1
  · obtain ⟨c, hc⟩ := h.exists_column hp
    exact hc.identifier

/-- The texts of items have no point: paths are in their holes. -/
theorem IsOf.noPoint (h : l.IsOf table s) {p : Part} (hp : p ∈ l.parts) :
    '.' ∉ p.item.template.shown.toList := by
  obtain ⟨c, hc⟩ := h.exists_column hp
  exact noPoint_of_compile hc.compiled

/-- The items of the query refer to aliases. -/
theorem IsOf.pointsInto_selected (h : l.IsOf table s) {p : Part} (hp : p ∈ l.parts) :
    PointsInto l.aliases (aliased p.selected).shown.toList := by
  obtain ⟨c, hc⟩ := h.exists_column hp
  have name : '.' ∉ p.name.toList := notMem_of_isIdentifier hc.identifier
  have own : PointsInto l.aliases (aliased p.own).shown.toList := by
    have item := h.noPoint hp
    rw [Template.shown_eq_filled] at item ⊢
    refine .of_notMem ?_
    simp [aliased, Part.own, item, name]
  -- Only an aggregate is written as a reference; the other items have no point in their texts.
  cases hr : p.role with
  | last latest time => rwa [Part.selected, hr]
  | key => rwa [Part.selected, hr]
  | aggregate =>
    have named : p.name ∈ l.aliases := name_mem_aliases hp (by rw [Part.isLast, hr])
    have text : (aliased p.selected).shown.toList =
        "MAX(t2".toList ++ '.' :: (p.name.toList ++ (") AS ".toList ++ p.name.toList)) := by
      rw [Part.selected, hr, Template.shown_eq_filled]
      simp [aliased]
    rw [text]
    refine .prepend (by decide) (.cons_point named hc.identifier ?_ ?_)
    · simp [name]
    · intro c hc
      obtain rfl : ')' = c := by simpa using hc
      decide

/-- The conditions of the join refer to aliases. -/
theorem IsOf.pointsInto_equated (h : l.IsOf table s) {t : Template Slot × String}
    (ht : t ∈ l.equations) : PointsInto l.aliases (equated t).shown.toList := by
  obtain ⟨named, item⟩ : t.2 ∈ l.aliases ∧ '.' ∉ t.1.shown.toList := by
    rcases exists_of_mem_equations ht with rfl | ⟨p, hp, isKey, rfl⟩
    · exact ⟨latest_mem_aliases, h.latest.2⟩
    · exact ⟨name_mem_aliases hp (Part.isLast_of_isKey isKey), h.noPoint hp⟩
  have text : (equated t).shown.toList =
      (t.1.shown.toList ++ " = t2".toList) ++ '.' :: (t.2.toList ++ []) := by
    simp [equated, Template.shown_eq_filled]
  rw [text]
  refine .prepend ?_ (.cons_point named (h.isIdentifier_alias named) (List.not_mem_nil) ?_)
  · simp [item]
  · intro c hc
    cases hc

/-! ### The clauses -/

/-- The clauses of a compiled selection are those of the layout. -/
structure Clauses (l : Layout) (compiled : CompiledSelection) (sub : SubSelect) : Prop where
  subSelect : compiled.subSelect = some sub
  select : compiled.select.template = .join ", " (l.parts.map fun p => aliased p.selected)
  inner : sub.inner.template = .join ", " (l.projections.map aliased)
  join : sub.join.template = .join " AND " (l.equations.map equated)
  output : compiled.output = l.parts.map (·.output)
  selectParameters : compiled.select.parameters =
    (l.parts.filter (!·.isAggregate)).flatMap (·.item.parameters)
  innerParameters : sub.inner.parameters = l.before.flatMap (·.item.parameters) ++
    l.time.parameters ++ (l.after.filter (!·.isLast)).flatMap (·.item.parameters)
  joinParameters : sub.join.parameters = (l.before.filter (·.isKey)).flatMap (·.item.parameters) ++
    l.time.parameters ++ (l.after.filter (·.isKey)).flatMap (·.item.parameters)
  selectReferences : SubSelect.RefersTo l.aliases compiled.select.shown
  joinReferences : SubSelect.RefersTo l.aliases sub.join.shown

/-- The sources of the holes of a template. -/
def sources (t : Template Slot) : List Parameter := t.holes.map (·.parameter)

theorem sources_join (separator : String) (ts : List (Template Slot)) :
    sources (.join separator ts) = ts.flatMap sources := by
  rw [sources, Template.holes_join, List.map_flatMap]
  rfl

theorem sources_aliased (t : Template Slot × String) : sources (aliased t) = sources t.1 := by
  simp [sources, aliased]

theorem sources_equated (t : Template Slot × String) : sources (equated t) = sources t.1 := by
  simp [sources, equated]

theorem flatMap_aliased (ps : List Part) :
    ((ps.map Part.own).map aliased).flatMap sources = ps.flatMap (·.item.parameters) := by
  rw [List.flatMap_map, List.flatMap_map]
  exact List.flatMap_congr fun p _ => sources_aliased p.own

theorem flatMap_equated (ps : List Part) :
    ((ps.map Part.own).map equated).flatMap sources = ps.flatMap (·.item.parameters) := by
  rw [List.flatMap_map, List.flatMap_map]
  exact List.flatMap_congr fun p _ => sources_equated p.own

theorem flatMap_selected (ps : List Part) :
    (ps.map fun p => aliased p.selected).flatMap sources =
      (ps.filter (!·.isAggregate)).flatMap (·.item.parameters) := by
  induction ps with
  | nil => rfl
  | cons p ps ih =>
    rw [List.map_cons, List.flatMap_cons, ih, sources_aliased, List.filter_cons]
    obtain ⟨name, item, role⟩ := p
    cases role with
    | last latest time => rfl
    | aggregate => rfl
    | key => rfl

/-- The holes of the sub-select are those of the columns before the last value, of the timestamp,
and of the other columns after it. -/
theorem sources_projections (l : Layout) :
    sources (.join ", " (l.projections.map aliased)) = l.before.flatMap (·.item.parameters) ++
      l.time.parameters ++ (l.after.filter (!·.isLast)).flatMap (·.item.parameters) := by
  have time : sources (aliased (.text "MAX(" ++ l.time.template ++ .text ")", l.latest)) =
      l.time.parameters := by
    rw [sources_aliased]
    simp [sources, CompiledCondition.parameters]
  rw [sources_join, projections, List.map_append, List.map_cons, List.flatMap_append,
    List.flatMap_cons, time, flatMap_aliased, flatMap_aliased, List.append_assoc]

/-- The holes of the join are those of the keys and of the timestamp between them. -/
theorem sources_equations (l : Layout) :
    sources (.join " AND " (l.equations.map equated)) =
      (l.before.filter (·.isKey)).flatMap (·.item.parameters) ++ l.time.parameters ++
        (l.after.filter (·.isKey)).flatMap (·.item.parameters) := by
  have time : sources (equated (l.time.template, l.latest)) = l.time.parameters :=
    sources_equated _
  rw [sources_join, equations, List.map_append, List.map_cons, List.flatMap_append,
    List.flatMap_cons, time, flatMap_equated, flatMap_equated, List.append_assoc]

/-- Texts that have only names that the sub-select projects behind a point can be joined by a text
that has no point and begins with no character of identifiers. -/
theorem IsOf.refersTo_joined (h : l.IsOf table s) {separator : String} {ts : List (Template Slot)}
    (noPoint : '.' ∉ separator.toList)
    (apart : separator.toList.head?.any (!Text.isIdentifierChar ·) = true)
    (points : ∀ t ∈ ts, PointsInto l.aliases (t.filled fun _ => Template.mark).toList) :
    SubSelect.RefersTo l.aliases (Template.join separator ts).shown := by
  refine PointsInto.refersTo ?_ fun n => h.isIdentifier_alias
  rw [Template.shown_eq_filled]
  refine PointsInto.join noPoint (fun cs c hc => ?_) points
  obtain ⟨d, hd, other⟩ := (Option.any_eq_true _ _).1 apart
  rw [List.head?_append, hd] at hc
  obtain rfl : d = c := Option.some.inj hc
  simpa using other

/-- Behind a point the outer clause has only names that the sub-select projects. -/
theorem IsOf.refersTo_select (h : l.IsOf table s) :
    SubSelect.RefersTo l.aliases
      (Template.join ", " (l.parts.map fun p => aliased p.selected)).shown := by
  refine h.refersTo_joined (by decide) (by decide) fun t ht => ?_
  obtain ⟨p, hp, rfl⟩ := List.mem_map.1 ht
  exact h.pointsInto_selected hp

/-- So has the join. -/
theorem IsOf.refersTo_join (h : l.IsOf table s) :
    SubSelect.RefersTo l.aliases (Template.join " AND " (l.equations.map equated)).shown := by
  refine h.refersTo_joined (by decide) (by decide) fun t ht => ?_
  obtain ⟨p, hp, rfl⟩ := List.mem_map.1 ht
  exact h.pointsInto_equated hp

end LastValue.Layout

theorem Selection.any_isLastValue {s : Selection} {named : List (String × SelectColumn)}
    (hs : s.hasLastValue = true) (hn : SelectColumn.withNames 0 s.columns = .ok named) :
    named.any (·.2.expr.isLastValue) = true := by
  obtain ⟨c, hc, isLast⟩ := List.any_eq_true.1 hs
  obtain ⟨i, hi⟩ := List.mem_iff_getElem?.1 hc
  obtain ⟨name, hname, _⟩ := (SelectColumn.withNames_eq_ok hn).2 i c hi
  exact List.any_eq_true.2 ⟨(name, c), List.mem_of_getElem? hname, isLast⟩

/-- What is compiled for the columns of a selection with a last-value column. -/
theorem Selection.contributions_of_compile {table : String} {s : Selection}
    {compiled : CompiledSelection} (h : s.compile table = .ok compiled)
    (hs : s.hasLastValue = true) :
    ∃ named xs sub, SelectColumn.withNames 0 s.columns = .ok named ∧
      Contribution.ofColumns table true named = .ok xs ∧ compiled.subSelect = some sub ∧
      compiled.select.template = .join ", " ((xs.map (·.outer)).map (·.template)) ∧
      sub.inner.template = .join ", " ((xs.filterMap (·.inner)).map (·.template)) ∧
      sub.join.template = .join " AND " ((xs.filterMap (·.join)).map (·.template)) ∧
      compiled.output = xs.map (·.output) := by
  unfold Selection.compile at h
  simp only [hs, if_true, bind_eq_ok] at h
  obtain ⟨_, _, h⟩ := h
  split at h
  · obtain ⟨_, refused, _⟩ := bind_eq_ok.1 h
    exact absurd refused (throw_ne_ok _ _)
  · simp only [compileLastValue, bind_eq_ok, pure_eq_ok] at h
    obtain ⟨named, hn, _, ⟨xs, hxs, rfl⟩, _, _, _, _, _, _, rfl⟩ := h
    exact ⟨named, xs, _, hn, hxs, rfl, rfl, rfl, rfl, rfl⟩

open LastValue

/-- A selection with a last-value column is compiled to the clauses of the layout of its columns. -/
theorem clauses_of_hasLastValue {table : String} {s : Selection} {compiled : CompiledSelection}
    (h : s.compile table = .ok compiled) (hs : s.hasLastValue = true) :
    ∃ (l : Layout) (sub : SubSelect), l.IsOf table s ∧ l.Clauses compiled sub := by
  obtain ⟨named, xs, sub, hn, hxs, subSelect, select, inner, join, output⟩ :=
    Selection.contributions_of_compile h hs
  obtain ⟨l, parts, outers, inners, joins, outputs⟩ :=
    Contribution.layout_of_ofColumns hxs (Selection.any_isLastValue hs hn)
  rw [outers] at select
  rw [inners] at inner
  rw [joins] at join
  have isOf := Layout.isOf_of_withNames hn parts
  refine ⟨l, sub, isOf, subSelect, select, inner, join, output.trans outputs, ?_, ?_, ?_, ?_, ?_⟩
  · show Layout.sources compiled.select.template = _
    rw [select, Layout.sources_join, Layout.flatMap_selected]
  · show Layout.sources sub.inner.template = _
    rw [inner, Layout.sources_projections]
  · show Layout.sources sub.join.template = _
    rw [join, Layout.sources_equations]
  · rw [CompiledCondition.shown, select]
    exact isOf.refersTo_select
  · rw [CompiledCondition.shown, join]
    exact isOf.refersTo_join

/-- Two last values among a key, an aggregate and a computed key. -/
def lastQuotes : Selection where
  columns := [
    ⟨.field "symbol" .string, none⟩,
    ⟨.call (some "incrementalAggregator") "last" [.field "price" .double, .field "time" .long],
      none⟩,
    ⟨.call none "sum" [.field "volume" .long], some "total"⟩,
    ⟨.call (some "incrementalAggregator") "last" [.attribute "fee" .double, .field "day" .long],
      none⟩,
    ⟨.math .add (.field "size" .long) (.attribute "extra" .long), none⟩]

theorem clauses_of_hasLastValue_lastQuotes :
    ∃ compiled l sub, lastQuotes.compile "Stock" = .ok compiled ∧ Layout.IsOf l "Stock" lastQuotes ∧
      Layout.Clauses l compiled sub ∧
      compiled.select.shown =
        "? AS symbol, ? AS price, MAX(t2.total) AS total, ? AS fee, (? + ?) AS _col5" ∧
      sub.inner.shown = "? AS symbol, MAX(?) AS time, SUM(?) AS total, (? + ?) AS _col5" ∧
      sub.join.shown = "? = t2.symbol AND ? = t2.time AND (? + ?) = t2._col5" := by
  obtain ⟨compiled, h, select, inner, join⟩ : ∃ compiled,
      lastQuotes.compile "Stock" = .ok compiled ∧
      compiled.select.shown =
        "? AS symbol, ? AS price, MAX(t2.total) AS total, ? AS fee, (? + ?) AS _col5" ∧
      (∀ sub, compiled.subSelect = some sub →
        sub.inner.shown = "? AS symbol, MAX(?) AS time, SUM(?) AS total, (? + ?) AS _col5") ∧
      ∀ sub, compiled.subSelect = some sub →
        sub.join.shown = "? = t2.symbol AND ? = t2.time AND (? + ?) = t2._col5" :=
    ⟨_, rfl, by rfl, by rintro _ ⟨⟩; rfl, by rintro _ ⟨⟩; rfl⟩
  obtain ⟨l, sub, isOf, clauses⟩ := clauses_of_hasLastValue h (by decide)
  exact ⟨compiled, l, sub, h, isOf, clauses, select, inner sub clauses.subSelect,
    join sub clauses.subSelect⟩

end StreamTable
