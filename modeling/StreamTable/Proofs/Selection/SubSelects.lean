import Mathlib.Data.List.Nodup
import Mathlib.Order.Bounds.Basic
import StreamTable.Proofs.Selection.Assembly

/-!
# The sub-select of a query for last values

A query for last values is described by the layout of its columns (`LastValue.Layout.Describes`).
Its sub-select has the columns that ask for no last value, each under its output name, and one
timestamp under a name of its own: that of the first last-value column.

* Only that timestamp ties the records of the table to the latest one of their group, so a
  last-value column has the value at its own timestamp just if it shares that one
  (`ties_timestamp_of_compile`).
* Its name is not compared with the output names.  The aliases of the sub-select are distinct just
  if no other column has that name (`nodup_aliases_iff_of_compile`).
-/

namespace StreamTable

/-- Every reference to the sub-select in the text is exactly one of the names. -/
def SubSelect.RefersOnce (names : List String) (text : String) : Prop :=
  ∀ u v, text.toList = u ++ "t2.".toList ++ v →
    names.count (String.ofList (v.takeWhile Text.isIdentifierChar)) = 1

/-- One of several joined templates stands at the end of the text or before a separator. -/
theorem Template.exists_filled_join {α : Type} (w : α → String) (separator : String)
    {ts : List (Template α)} {t : Template α} (ht : t ∈ ts) :
    ∃ before after, (join separator ts).filled w = before ++ t.filled w ++ after ∧
      (after = "" ∨ ∃ rest, after = separator ++ rest) := by
  induction ts with
  | nil => cases ht
  | cons u ts ih =>
    cases ts with
    | nil =>
      obtain rfl := List.mem_singleton.1 ht
      exact ⟨"", "", by simp [join], .inl rfl⟩
    | cons u' ts =>
      rw [join_cons _ _ (List.cons_ne_nil u' ts), filled_append, filled_append, filled_text]
      rcases List.mem_cons.1 ht with rfl | ht
      · exact ⟨"", _, by rw [String.empty_append, String.append_assoc], .inr ⟨_, rfl⟩⟩
      · obtain ⟨before, after, text, apart⟩ := ih ht
        refine ⟨u.filled w ++ separator ++ before, after, ?_, apart⟩
        rw [text]
        simp only [String.append_assoc]

namespace LastValue

/-- An expression and its alias, as texts for some runtime values. -/
def written (values : Values) (t : Template Slot × String) : String × String :=
  (t.1.filled (Slot.rendered fun a => (values.get? a).getD .null), t.2)

namespace Layout

section

variable (l : Layout) (values : Values)

/-- The layout has the columns of the selection, and the clauses are written from its parts. -/
structure Describes (table : String) (s : Selection) (compiled : CompiledSelection)
    (sub : SubSelect) : Prop where
  isOf : l.IsOf table s
  columns : List.Forall₂ (fun c p => p.name = c.1 ∧ Part.IsOf p table c.2) s.named l.parts
  subSelect : compiled.subSelect = some sub
  select : compiled.select.template = .join ", " (l.parts.map fun p => aliased p.selected)
  inner : sub.inner.template = .join ", " (l.projections.map aliased)
  join : sub.join.template = .join " AND " (l.equations.map equated)
  output : compiled.output = l.parts.map (·.output)

/-- The items of the sub-select with their aliases. -/
def items : List (String × String) := l.projections.map (written values)

/-- The expressions that the join compares with the sub-select, each with the alias. -/
def comparisons : List (String × String) := l.equations.map (written values)

/-- The sub-select has the greatest value of a timestamp under a name, and the join compares the
timestamp with it. -/
def Ties (time latest : String) : Prop :=
  ("MAX(" ++ time ++ ")", latest) ∈ l.items values ∧ (time, latest) ∈ l.comparisons values

/-- A record is joined with the row of a group: an alias of a maximum holds the greatest value that
the expression has in the group, and the record has the values that it is compared with. -/
structure Joins {ρ α : Type} [LE α] (value : String → ρ → α) (group : Set ρ) (row : String → α)
    (r : ρ) : Prop where
  greatest : ∀ x a, ("MAX(" ++ x ++ ")", a) ∈ l.items values → IsGreatest (value x '' group) (row a)
  equal : ∀ p ∈ l.comparisons values, value p.1 r = row p.2

end

variable {l : Layout} {table : String} {s : Selection} {compiled : CompiledSelection}
  {sub : SubSelect} {values : Values}

/-- Every selection with a last value compiles to one that a layout describes. -/
theorem exists_describes (h : s.compile table = .ok compiled) (hs : s.hasLastValue = true) :
    ∃ (l : Layout) (sub : SubSelect), l.Describes table s compiled sub := by
  obtain ⟨named, xs, sub, hn, hxs, subSelect, select, inner, join, output⟩ :=
    Selection.contributions_of_compile h hs
  obtain ⟨l, parts, outers, inners, joins, outputs⟩ :=
    Contribution.layout_of_ofColumns hxs (Selection.any_isLastValue hs hn)
  have isOf := isOf_of_withNames hn parts
  obtain rfl := Selection.named_of_withNames hn
  rw [outers] at select
  rw [inners] at inner
  rw [joins] at join
  exact ⟨l, sub, isOf, parts, subSelect, select, inner, join, output.trans outputs⟩

/-! ### What the sub-select has -/

theorem latest_mem_equations : (l.time.template, l.latest) ∈ l.equations :=
  List.mem_append_right _ List.mem_cons_self

namespace Describes

variable (h : l.Describes table s compiled sub)

include h

theorem names_output : compiled.output.names = l.parts.map (·.name) := by
  rw [h.output, Schema.names, List.map_map]
  rfl

/-- The timestamp of the sub-select is that of the first last-value column. -/
theorem exists_first (values : Values) : ∃ first, s.columns.findSome? (·.timestamp?) = some first ∧
    first.leafName? = some l.latest ∧
      l.time.filled values = first.writtenIn table values .selection := by
  obtain ⟨first, asked, named, time⟩ := exists_timestamp h.columns
  refine ⟨first, ?_, named, CompiledCondition.filled_of_compile time (by decide)⟩
  rw [← Selection.map_snd_named, List.findSome?_map]
  exact asked

/-- A last-value column has a timestamp with a name. -/
theorem exists_leafName {c : SelectColumn} (hc : c ∈ s.columns) {value time : Expr}
    (args : c.expr.lastValueArgs? = some [value, time]) :
    ∃ latest, time.leafName? = some latest := by
  rw [← Selection.map_snd_named] at hc
  obtain ⟨⟨name, c⟩, hn, rfl⟩ := List.mem_map.1 hc
  obtain ⟨p, _, _, isOf⟩ := exists_mem_of_forall₂ h.columns hn
  have isLast : p.isLast = true := by
    rw [isOf.isLast_eq, Expr.isLastValue, args]
    rfl
  cases hr : p.role with
  | aggregate =>
    rw [Part.isLast, hr] at isLast
    cases isLast
  | key =>
    rw [Part.isLast, hr] at isLast
    cases isLast
  | last latest stamp =>
    have role := isOf.role
    rw [hr] at role
    cases role with
    | last args' named _ _ =>
      obtain ⟨_, rfl⟩ : _ ∧ _ = time := by simpa using args'.symm.trans args
      exact ⟨latest, named⟩

/-- The sub-select lists its items under their aliases. -/
theorem filled_inner : sub.inner.filled values =
    ", ".intercalate ((l.items values).map fun p => p.1 ++ " AS " ++ p.2) := by
  rw [CompiledCondition.filled_of_template h.inner, Template.filled_join, items, List.map_map,
    List.map_map]
  exact congrArg _ (List.map_congr_left fun t _ => Contribution.filled_aliased _ t)

/-- The join compares each item with the alias of the sub-select. -/
theorem filled_join : sub.join.filled values =
    " AND ".intercalate ((l.comparisons values).map fun p => p.1 ++ " = t2." ++ p.2) := by
  rw [CompiledCondition.filled_of_template h.join, Template.filled_join, comparisons, List.map_map,
    List.map_map]
  exact congrArg _ (List.map_congr_left fun t _ => Contribution.filled_equated _ t)

end Describes

/-! ### Timestamps -/

/-- The first timestamp is tied. -/
theorem ties_latest : l.Ties values (l.time.filled values) l.latest := by
  constructor
  · refine List.mem_map.2 ⟨_, mem_projections.2 (.inl rfl), ?_⟩
    simp [written, CompiledCondition.filled]
  · exact List.mem_map.2 ⟨_, latest_mem_equations, rfl⟩

/-- With distinct names, no timestamp but the first is tied. -/
theorem Ties.eq_latest {time latest : String} (names : (l.parts.map (·.name)).Nodup)
    (h : l.Ties values time latest) : time = l.time.filled values ∧ latest = l.latest := by
  obtain ⟨t, ht, projected⟩ := List.mem_map.1 h.1
  obtain ⟨u, hu, compared⟩ := List.mem_map.1 h.2
  simp only [written, Prod.mk.injEq] at projected compared
  obtain ⟨left, rfl⟩ := compared
  rcases exists_of_mem_equations hu with rfl | ⟨q, hq, isKey, rfl⟩
  · exact ⟨left.symm, rfl⟩
  rcases mem_projections.1 ht with rfl | ⟨p, hp, _, rfl⟩
  · obtain ⟨maximum, same⟩ := projected
    refine ⟨?_, same.symm⟩
    have texts := congrArg String.toList maximum
    simp only [Template.filled_append, Template.filled_text, String.toList_append] at texts
    rw [List.append_assoc, List.append_assoc] at texts
    have inside := List.append_cancel_right (List.append_cancel_left texts)
    exact (String.toList_inj.1 inside).symm
  · obtain ⟨maximum, same⟩ := projected
    obtain rfl : p = q := List.inj_on_of_nodup_map names hp hq same
    -- One column would have the value and its maximum for a text.
    have texts : time = "MAX(" ++ time ++ ")" := left.symm.trans maximum
    have lengths := congrArg String.length texts
    simp only [String.length_append] at lengths
    have added : "MAX(".length = 4 := rfl
    omega

/-- No row of the group has a later timestamp than the one that is joined. -/
theorem Ties.le_of_joins {time latest : String} (h : l.Ties values time latest) {ρ α : Type}
    [LE α] {value : String → ρ → α} {group : Set ρ} {row : String → α} {r : ρ}
    (joined : l.Joins values value group row r) {r' : ρ} (hr : r' ∈ group) :
    value time r' ≤ value time r := by
  have greatest : IsGreatest (value time '' group) (row latest) := joined.greatest time latest h.1
  have equal : value time r = row latest := joined.equal _ h.2
  rw [equal]
  exact greatest.2 (Set.mem_image_of_mem _ hr)

/-! ### Aliases -/

theorem aliases_eq : l.aliases = l.before.map (·.name) ++ l.latest ::
    (l.after.filter (!·.isLast)).map (·.name) := by
  rw [aliases, projections, List.map_append, List.map_cons, List.map_map, List.map_map]
  rfl

theorem map_name_others : (l.parts.filter (!·.isLast)).map (·.name) =
    l.before.map (·.name) ++ (l.after.filter (!·.isLast)).map (·.name) := by
  have before : l.before.filter (!·.isLast) = l.before :=
    List.filter_eq_self.2 (by simpa using l.isLast_before)
  have first : Part.isLast ⟨l.name, l.item, .last l.latest l.time⟩ = true := rfl
  rw [parts, List.filter_append, List.filter_cons_of_neg (by simp [first]), before, List.map_append]

/-- The alias of the timestamp occurs once more than among the names of the other columns. -/
theorem count_latest : l.aliases.count l.latest =
    ((l.parts.filter (!·.isLast)).map (·.name)).count l.latest + 1 := by
  rw [aliases_eq, map_name_others, List.count_append, List.count_append, List.count_cons_self]
  rfl

/-- If the names of the columns differ, then the aliases differ unless a column has the name of the
timestamp. -/
theorem nodup_aliases_iff (names : (l.parts.map (·.name)).Nodup) :
    l.aliases.Nodup ↔ l.latest ∉ (l.parts.filter (!·.isLast)).map (·.name) := by
  have others : ((l.parts.filter (!·.isLast)).map (·.name)).Nodup :=
    names.sublist (List.filter_sublist.map _)
  rw [aliases_eq, List.nodup_middle, List.nodup_cons, ← map_name_others]
  exact and_iff_left others

/-- The join refers to the timestamp of the sub-select. -/
theorem Describes.exists_reference (h : l.Describes table s compiled sub) :
    ∃ u v, sub.join.shown.toList = u ++ "t2.".toList ++ v ∧
      String.ofList (v.takeWhile Text.isIdentifierChar) = l.latest := by
  have mem : equated (l.time.template, l.latest) ∈ l.equations.map equated :=
    List.mem_map_of_mem latest_mem_equations
  obtain ⟨before, after, text, apart⟩ :=
    Template.exists_filled_join (fun _ => Template.mark) " AND " mem
  refine ⟨(before ++ l.time.template.shown ++ " = ").toList, l.latest.toList ++ after.toList,
    ?_, ?_⟩
  · rw [CompiledCondition.shown, h.join, Template.shown_eq_filled, text,
      Contribution.filled_equated, ← Template.shown_eq_filled]
    simp
  · refine ofList_takeWhile_of_isIdentifier h.isOf.latest.1 ?_
    rcases apart with rfl | ⟨rest, rfl⟩
    · intro c hc
      cases hc
    · intro c hc
      obtain rfl : ' ' = c := by simpa using hc
      decide

/-- If the join refers to one item each time, no alias stands for two. -/
theorem Describes.nodup_of_refersOnce (h : l.Describes table s compiled sub)
    (names : (l.parts.map (·.name)).Nodup)
    (once : SubSelect.RefersOnce l.aliases sub.join.shown) : l.aliases.Nodup := by
  obtain ⟨u, v, text, latest⟩ := h.exists_reference
  have single := once u v text
  rw [latest, count_latest] at single
  have absent : ((l.parts.filter (!·.isLast)).map (·.name)).count l.latest = 0 := by omega
  exact (nodup_aliases_iff names).2 (List.count_eq_zero.1 absent)

/-- If the aliases differ, every reference to the sub-select means one item. -/
theorem Describes.refersOnce_of_nodup (h : l.Describes table s compiled sub)
    (distinct : l.aliases.Nodup) : SubSelect.RefersOnce l.aliases compiled.select.shown ∧
      SubSelect.RefersOnce l.aliases sub.join.shown := by
  have select : SubSelect.RefersTo l.aliases compiled.select.shown := by
    rw [CompiledCondition.shown, h.select]
    exact h.isOf.refersTo_select
  have join : SubSelect.RefersTo l.aliases sub.join.shown := by
    rw [CompiledCondition.shown, h.join]
    exact h.isOf.refersTo_join
  exact ⟨fun u v text => List.count_eq_one_of_mem distinct (select u v text),
    fun u v text => List.count_eq_one_of_mem distinct (join u v text)⟩

/-- The columns that ask for no last value, by their names. -/
theorem Describes.mem_others_iff (h : l.Describes table s compiled sub) {name : String} :
    name ∈ (l.parts.filter (!·.isLast)).map (·.name) ↔
      ∃ p ∈ s.named, p.2.expr.isLastValue = false ∧ p.1 = name := by
  constructor
  · intro hn
    obtain ⟨p, hp, rfl⟩ := List.mem_map.1 hn
    obtain ⟨hp, other⟩ := List.mem_filter.1 hp
    obtain ⟨c, hc, same, isOf⟩ := exists_mem_of_forall₂ h.columns.flip hp
    refine ⟨c, hc, ?_, same.symm⟩
    rw [← isOf.isLast_eq]
    simpa using other
  · rintro ⟨c, hc, other, rfl⟩
    obtain ⟨p, hp, same, isOf⟩ := exists_mem_of_forall₂ h.columns hc
    have kept : p ∈ l.parts.filter (!·.isLast) :=
      List.mem_filter.2 ⟨hp, by rw [isOf.isLast_eq, other]; rfl⟩
    exact List.mem_map.2 ⟨p, kept, same⟩

end Layout

end LastValue

open LastValue

variable {table : String} {s : Selection} {compiled : CompiledSelection}

/-- A last-value column is tied to its timestamp if that is the first timestamp of the selection: a
record that is joined with its group then has the latest one.  With distinct output names it is tied
to no other. -/
theorem ties_timestamp_of_compile (h : s.compile table = .ok compiled) {c : SelectColumn}
    (hc : c ∈ s.columns) {value time : Expr} (args : c.expr.lastValueArgs? = some [value, time])
    (values : Values) :
    ∃ (l : Layout) (sub : SubSelect) (first : Expr) (name latest : String),
      l.Describes table s compiled sub ∧
      sub.inner.filled values =
        ", ".intercalate ((l.items values).map fun p => p.1 ++ " AS " ++ p.2) ∧
      sub.join.filled values =
        " AND ".intercalate ((l.comparisons values).map fun p => p.1 ++ " = t2." ++ p.2) ∧
      s.columns.findSome? (·.timestamp?) = some first ∧ first.leafName? = some name ∧
      time.leafName? = some latest ∧
      let write := Expr.writtenIn table values .selection
      (write time = write first ∧ latest = name → l.Ties values (write time) latest ∧
        ∀ (ρ α : Type) [LE α] (value : String → ρ → α) (group : Set ρ) (row : String → α) (r : ρ),
          l.Joins values value group row r →
            ∀ r' ∈ group, value (write time) r' ≤ value (write time) r) ∧
      (compiled.output.names.Nodup → l.Ties values (write time) latest →
        write time = write first ∧ latest = name) := by
  have isLast : c.expr.isLastValue = true := by
    rw [Expr.isLastValue, args]
    rfl
  have hs : s.hasLastValue = true := List.any_eq_true.2 ⟨c, hc, isLast⟩
  obtain ⟨l, sub, describes⟩ := Layout.exists_describes h hs
  obtain ⟨first, asked, named, written⟩ := describes.exists_first values
  obtain ⟨latest, hl⟩ := describes.exists_leafName hc args
  refine ⟨l, sub, first, l.latest, latest, describes, describes.filled_inner,
    describes.filled_join, asked, named, hl, ?_, ?_⟩
  · -- The join has the timestamp of the first last value only.
    rintro ⟨same, rfl⟩
    rw [same, ← written]
    exact ⟨Layout.ties_latest, fun ρ α _ value group row r joined r' hr =>
      Layout.ties_latest.le_of_joins joined hr⟩
  · intro names ties
    rw [describes.names_output] at names
    obtain ⟨same, name⟩ := ties.eq_latest names
    exact ⟨same.trans written, name⟩

/-- Three last values, two by the time and one by the day. -/
def datedQuotes : Selection where
  columns := [
    ⟨.call (some "incrementalAggregator") "last" [.field "price" .double, .field "time" .long],
      none⟩,
    ⟨.field "symbol" .string, none⟩,
    ⟨.call (some "incrementalAggregator") "last" [.field "size" .long, .field "time" .long], none⟩,
    ⟨.call (some "incrementalAggregator") "last" [.field "fee" .double, .field "day" .long], none⟩]

theorem ties_timestamp_of_compile_datedQuotes :
    ∃ (compiled : CompiledSelection) (l : Layout) (sub : SubSelect),
      datedQuotes.compile "Stock" = .ok compiled ∧ l.Describes "Stock" datedQuotes compiled sub ∧
        l.Ties [] "Stock.time" "time" := by
  obtain ⟨compiled, h⟩ : ∃ compiled, datedQuotes.compile "Stock" = .ok compiled := ⟨_, rfl⟩
  have hc : ⟨.call (some "incrementalAggregator") "last" [.field "size" .long, .field "time" .long],
      none⟩ ∈ datedQuotes.columns := by simp [datedQuotes]
  obtain ⟨l, sub, first, name, latest, describes, _, _, asked, named, hl, ties, _⟩ :=
    ties_timestamp_of_compile h hc rfl []
  obtain rfl : Expr.field "time" .long = first := Option.some.inj asked
  obtain rfl : "time" = name := Option.some.inj named
  obtain rfl : "time" = latest := Option.some.inj hl
  have text : Expr.writtenIn "Stock" [] .selection (.field "time" .long) = "Stock.time" := by decide
  rw [text] at ties
  exact ⟨compiled, l, sub, h, describes, (ties ⟨rfl, rfl⟩).1⟩

/-- The fee is not tied to its day: the sub-select has no day, and the join compares none. -/
theorem not_ties_datedQuotes :
    ∃ (compiled : CompiledSelection) (l : Layout) (sub : SubSelect),
      datedQuotes.compile "Stock" = .ok compiled ∧ l.Describes "Stock" datedQuotes compiled sub ∧
        sub.inner.filled [] = "MAX(Stock.time) AS time, Stock.symbol AS symbol" ∧
        sub.join.filled [] = "Stock.time = t2.time AND Stock.symbol = t2.symbol" ∧
        ¬ l.Ties [] "Stock.day" "day" := by
  obtain ⟨compiled, h, names, inner, join⟩ : ∃ compiled, datedQuotes.compile "Stock" = .ok compiled ∧
      compiled.output.names = ["price", "symbol", "size", "fee"] ∧
      (∀ sub, compiled.subSelect = some sub →
        sub.inner.filled [] = "MAX(Stock.time) AS time, Stock.symbol AS symbol") ∧
      ∀ sub, compiled.subSelect = some sub →
        sub.join.filled [] = "Stock.time = t2.time AND Stock.symbol = t2.symbol" :=
    ⟨_, rfl, rfl, by rintro _ ⟨⟩; decide, by rintro _ ⟨⟩; decide⟩
  obtain ⟨l, sub, describes⟩ := Layout.exists_describes h (by decide)
  obtain ⟨first, asked, named, _⟩ := describes.exists_first []
  obtain rfl : Expr.field "time" .long = first := Option.some.inj asked
  have latest : "time" = l.latest := Option.some.inj named
  have distinct : (l.parts.map (·.name)).Nodup := by
    rw [← describes.names_output, names]
    decide
  refine ⟨compiled, l, sub, h, describes, inner sub describes.subSelect,
    join sub describes.subSelect, fun ties => ?_⟩
  have day : "day" = "time" := (ties.eq_latest distinct).2.trans latest.symm
  exact absurd day (by decide)

/-- With distinct output names, the aliases of the sub-select are distinct, and every reference to it
is one of them, just if the first timestamp does not have the name of a column that asks for no last
value. -/
theorem nodup_aliases_iff_of_compile (h : s.compile table = .ok compiled)
    (hs : s.hasLastValue = true) (distinct : compiled.output.names.Nodup) :
    ∃ (l : Layout) (sub : SubSelect) (first : Expr) (name : String),
      l.Describes table s compiled sub ∧ s.columns.findSome? (·.timestamp?) = some first ∧
      first.leafName? = some name ∧
      (l.aliases.Nodup ↔ ∀ p ∈ s.named, p.2.expr.isLastValue = false → p.1 ≠ name) ∧
      ((SubSelect.RefersOnce l.aliases compiled.select.shown ∧
        SubSelect.RefersOnce l.aliases sub.join.shown) ↔ l.aliases.Nodup) := by
  obtain ⟨l, sub, describes⟩ := Layout.exists_describes h hs
  obtain ⟨first, asked, named, _⟩ := describes.exists_first []
  rw [describes.names_output] at distinct
  refine ⟨l, sub, first, l.latest, describes, asked, named, ?_, ?_⟩
  · rw [Layout.nodup_aliases_iff distinct, describes.mem_others_iff]
    constructor
    · intro absent p hp other same
      exact absent ⟨p, hp, other, same⟩
    · rintro apart ⟨p, hp, other, same⟩
      exact apart p hp other same
  · exact ⟨fun once => describes.nodup_of_refersOnce distinct once.2,
      describes.refersOnce_of_nodup⟩

theorem nodup_aliases_iff_of_compile_datedQuotes :
    ∃ (compiled : CompiledSelection) (l : Layout) (sub : SubSelect),
      datedQuotes.compile "Stock" = .ok compiled ∧ l.Describes "Stock" datedQuotes compiled sub ∧
        compiled.output.names.Nodup ∧ l.aliases.Nodup ∧
        SubSelect.RefersOnce l.aliases sub.join.shown := by
  obtain ⟨compiled, h, names⟩ : ∃ compiled, datedQuotes.compile "Stock" = .ok compiled ∧
      compiled.output.names = ["price", "symbol", "size", "fee"] := ⟨_, rfl, rfl⟩
  have distinct : compiled.output.names.Nodup := by
    rw [names]
    decide
  obtain ⟨l, sub, first, name, describes, asked, named, aliases, references⟩ :=
    nodup_aliases_iff_of_compile h (by decide) distinct
  obtain rfl : Expr.field "time" .long = first := Option.some.inj asked
  obtain rfl : "time" = name := Option.some.inj named
  have nodup : l.aliases.Nodup := by
    rw [aliases]
    decide
  exact ⟨compiled, l, sub, h, describes, distinct, nodup, (references.2 nodup).2⟩

/-- The last price with its time. -/
def timedQuotes : Selection where
  columns := [
    ⟨.call (some "incrementalAggregator") "last" [.field "price" .double, .field "time" .long],
      none⟩,
    ⟨.field "time" .long, none⟩]

/-- The greatest time and the time itself have the same alias, and both conditions of the join are
the same text. -/
theorem not_nodup_aliases_timedQuotes :
    ∃ (compiled : CompiledSelection) (l : Layout) (sub : SubSelect),
      timedQuotes.compile "Stock" = .ok compiled ∧ l.Describes "Stock" timedQuotes compiled sub ∧
        compiled.output.names.Nodup ∧
        sub.inner.shown = "MAX(?) AS time, ? AS time" ∧
        sub.join.shown = "? = t2.time AND ? = t2.time" ∧
        ¬ l.aliases.Nodup ∧ ¬ SubSelect.RefersOnce l.aliases sub.join.shown := by
  obtain ⟨compiled, h, names, inner, join⟩ : ∃ compiled, timedQuotes.compile "Stock" = .ok compiled ∧
      compiled.output.names = ["price", "time"] ∧
      (∀ sub, compiled.subSelect = some sub → sub.inner.shown = "MAX(?) AS time, ? AS time") ∧
      ∀ sub, compiled.subSelect = some sub → sub.join.shown = "? = t2.time AND ? = t2.time" :=
    ⟨_, rfl, rfl, by rintro _ ⟨⟩; rfl, by rintro _ ⟨⟩; rfl⟩
  obtain ⟨l, sub, describes⟩ := Layout.exists_describes h (by decide)
  obtain ⟨first, asked, named, _⟩ := describes.exists_first []
  obtain rfl : Expr.field "time" .long = first := Option.some.inj asked
  have latest : "time" = l.latest := Option.some.inj named
  have distinct : compiled.output.names.Nodup := by
    rw [names]
    decide
  have parts : (l.parts.map (·.name)).Nodup := by
    rw [← describes.names_output]
    exact distinct
  have taken : l.latest ∈ (l.parts.filter (!·.isLast)).map (·.name) := by
    rw [← latest, describes.mem_others_iff]
    exact ⟨("time", ⟨.field "time" .long, none⟩), List.mem_of_getElem? (i := 1) rfl, rfl, rfl⟩
  have clash : ¬ l.aliases.Nodup := fun nodup =>
    (Layout.nodup_aliases_iff parts).1 nodup taken
  refine ⟨compiled, l, sub, h, describes, distinct, inner sub describes.subSelect,
    join sub describes.subSelect, clash, fun once => ?_⟩
  exact clash (describes.nodup_of_refersOnce parts once)

end StreamTable
