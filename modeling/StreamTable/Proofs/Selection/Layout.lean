import Mathlib.Data.List.Forall2
import StreamTable.Selection.Compile
import StreamTable.Proofs.Condition.Joining

/-!
# The columns of a query for last values

A column of such a query asks for a last value, or it aggregates, or it is a key of the join;
`LastValue.Part` is a column with its `Role`, its output name and its compiled value.  A `Layout` is
the list of all parts, split at the first last value.

The compiler goes through the columns once and remembers whether a last value has come up.  Before
the first one and behind it the flag does not change (`Contribution.ofColumns_eq_ok`), so what the
columns contribute can be read off the layout (`Contribution.layout_of_ofColumns`).
-/

namespace StreamTable

namespace LastValue

/-- What a column does in a query for last values. -/
inductive Role where
  /-- It asks for the last value by a timestamp, which has a name. -/
  | last (latest : String) (time : CompiledCondition)
  | aggregate
  | key

/-- The role is that of a column of a selection on a table. -/
inductive Role.IsOf (table : String) (c : SelectColumn) : Role → Prop where
  | last {value timestamp : Expr} {latest : String} {time : CompiledCondition}
      (args : c.expr.lastValueArgs? = some [value, timestamp])
      (named : timestamp.leafName? = some latest) (identifier : Text.isIdentifier latest = true)
      (compiled : compile table .selection timestamp = .ok time) : IsOf table c (.last latest time)
  | aggregate (other : c.expr.isLastValue = false) (aggregates : c.expr.callsAggregate = true) :
      IsOf table c .aggregate
  | key (other : c.expr.isLastValue = false) (plain : c.expr.callsAggregate = false) :
      IsOf table c .key

/-- A column of a query for last values. -/
structure Part where
  /-- The output name. -/
  name : String
  /-- The value of the column, compiled by itself. -/
  item : CompiledCondition
  role : Role

namespace Part

variable (p : Part)

def isLast : Bool := p.role matches .last _ _

def isAggregate : Bool := p.role matches .aggregate

def isKey : Bool := p.role matches .key

/-- The part is a column of a selection on a table.  The value of a last-value column is the first
argument of the call. -/
structure IsOf (table : String) (c : SelectColumn) : Prop where
  identifier : Text.isIdentifier p.name = true
  compiled : compile table .selection c.namedBy = .ok p.item
  role : p.role.IsOf table c

/-- The value of the part under its name. -/
def own : Template Slot × String := (p.item.template, p.name)

/-- The item of the query: an aggregate is aggregated by the sub-select. -/
def selected : Template Slot × String :=
  match p.role with
  | .aggregate => (.text ("MAX(t2." ++ p.name ++ ")"), p.name)
  | .last _ _ | .key => p.own

/-- The value that the sub-select has under an alias, if it has one for the part.  Only the `first`
last value adds the latest timestamp. -/
def projected (first : Bool) (p : Part) : Option (Template Slot × String) :=
  match p.role with
  | .last latest time =>
    if first then some (.text "MAX(" ++ time.template ++ .text ")", latest) else none
  | .aggregate | .key => some p.own

/-- The expression that is compared with an alias of the sub-select, if there is one. -/
def matched (first : Bool) (p : Part) : Option (Template Slot × String) :=
  match p.role with
  | .last latest time => if first then some (time.template, latest) else none
  | .aggregate => none
  | .key => some p.own

/-- The output attribute; a value without a type counts as an object. -/
def output : Attribute := ⟨p.name, p.item.resultType.getD .object⟩

end Part

/-- An expression under an alias. -/
def aliased (t : Template Slot × String) : Template Slot := t.1 ++ .text (" AS " ++ t.2)

/-- An expression compared with an alias of the sub-select. -/
def equated (t : Template Slot × String) : Template Slot := t.1 ++ .text (" = t2." ++ t.2)

/-- The columns of a query for last values, in their order: those before the first last value, the
first last value with its timestamp, and the others. -/
structure Layout where
  before : List Part
  name : String
  item : CompiledCondition
  latest : String
  time : CompiledCondition
  after : List Part
  isLast_before : ∀ p ∈ before, p.isLast = false

namespace Layout

variable (l : Layout)

/-- All columns. -/
def parts : List Part := l.before ++ ⟨l.name, l.item, .last l.latest l.time⟩ :: l.after

/-- The expressions of the sub-select with their aliases. -/
def projections : List (Template Slot × String) :=
  l.before.map Part.own ++ (.text "MAX(" ++ l.time.template ++ .text ")", l.latest) ::
    (l.after.filter (!·.isLast)).map Part.own

/-- The expressions that are compared with the sub-select, each with the alias. -/
def equations : List (Template Slot × String) :=
  (l.before.filter (·.isKey)).map Part.own ++ (l.time.template, l.latest) ::
    (l.after.filter (·.isKey)).map Part.own

/-- The layout is that of a selection on a table. -/
structure IsOf (table : String) (s : Selection) : Prop where
  length : l.parts.length = s.columns.length
  part : ∀ (i : Nat) (c : SelectColumn) (p : Part), s.columns[i]? = some c →
    l.parts[i]? = some p → c.outputName i = .ok p.name ∧ p.IsOf table c

end Layout

/-! ### What a part adds -/

namespace Part

variable {p : Part} {first : Bool} {ps : List Part}

theorem IsOf.isLast_eq {table : String} {c : SelectColumn} (h : p.IsOf table c) :
    p.isLast = c.expr.isLastValue := by
  obtain ⟨name, item, role⟩ := p
  cases h.role with
  | last args _ _ _ =>
    rw [Expr.isLastValue, args]
    rfl
  | aggregate other _ => exact other.symm
  | key other _ => exact other.symm

theorem isLast_of_isKey (h : p.isKey = true) : p.isLast = false := by
  obtain ⟨name, item, role⟩ := p
  cases role with
  | last latest time => cases h
  | aggregate => rfl
  | key => rfl

/-- Apart from the first last value, the sub-select projects the parts that are no last values, and
the join compares the keys. -/
theorem contributes_eq (steady : first = true → p.isLast = false) :
    p.projected first = (if !p.isLast then some p.own else none) ∧
      p.matched first = if p.isKey then some p.own else none := by
  obtain ⟨name, item, role⟩ := p
  cases role with
  | last latest time =>
    cases first with
    | false => exact ⟨rfl, rfl⟩
    | true => cases steady rfl
  | aggregate => exact ⟨rfl, rfl⟩
  | key => exact ⟨rfl, rfl⟩

/-- Parts of which some are taken, each by itself, are taken in their order. -/
theorem filterMap_of_taken {f : Part → Option (Template Slot × String)} {taken : Part → Bool}
    (h : ∀ p ∈ ps, f p = if taken p then some p.own else none) :
    ps.filterMap f = (ps.filter taken).map own := by
  rw [List.filterMap_congr h, ← List.filterMap_eq_map, List.filterMap_filter]
  rfl

theorem filterMap_projected (steady : first = true → ∀ p ∈ ps, p.isLast = false) :
    ps.filterMap (projected first) = (ps.filter (!·.isLast)).map own :=
  filterMap_of_taken fun p hp => (contributes_eq fun hf => steady hf p hp).1

theorem filterMap_matched (steady : first = true → ∀ p ∈ ps, p.isLast = false) :
    ps.filterMap (matched first) = (ps.filter (·.isKey)).map own :=
  filterMap_of_taken fun p hp => (contributes_eq fun hf => steady hf p hp).2

end Part

namespace Layout

variable {l : Layout} {t : Template Slot × String}

/-- A projection is that of the greatest timestamp or that of a part that is no last value. -/
theorem mem_projections :
    t ∈ l.projections ↔ t = (.text "MAX(" ++ l.time.template ++ .text ")", l.latest) ∨
      ∃ p ∈ l.parts, p.isLast = false ∧ t = p.own := by
  have first : Part.isLast ⟨l.name, l.item, .last l.latest l.time⟩ = true := rfl
  constructor
  · intro ht
    rcases List.mem_append.1 ht with ht | ht
    · obtain ⟨p, hp, rfl⟩ := List.mem_map.1 ht
      exact .inr ⟨p, List.mem_append_left _ hp, l.isLast_before p hp, rfl⟩
    · rcases List.mem_cons.1 ht with rfl | ht
      · exact .inl rfl
      · obtain ⟨p, hp, rfl⟩ := List.mem_map.1 ht
        obtain ⟨hp, other⟩ := List.mem_filter.1 hp
        exact .inr ⟨p, List.mem_append_right _ (List.mem_cons_of_mem _ hp), by simpa using other,
          rfl⟩
  · rintro (rfl | ⟨p, hp, other, rfl⟩)
    · exact List.mem_append_right _ List.mem_cons_self
    · rcases List.mem_append.1 hp with hp | hp
      · exact List.mem_append_left _ (List.mem_map_of_mem hp)
      · rcases List.mem_cons.1 hp with rfl | hp
        · exact absurd (first.symm.trans other) Bool.noConfusion
        · have kept : p ∈ l.after.filter (!·.isLast) := List.mem_filter.2 ⟨hp, by simp [other]⟩
          exact List.mem_append_right _ (List.mem_cons_of_mem _ (List.mem_map_of_mem kept))

/-- A comparison is that of the timestamp or that of a key. -/
theorem exists_of_mem_equations (ht : t ∈ l.equations) :
    t = (l.time.template, l.latest) ∨ ∃ p ∈ l.parts, p.isKey = true ∧ t = p.own := by
  rcases List.mem_append.1 ht with ht | ht
  · obtain ⟨p, hp, rfl⟩ := List.mem_map.1 ht
    obtain ⟨hp, isKey⟩ := List.mem_filter.1 hp
    exact .inr ⟨p, List.mem_append_left _ hp, isKey, rfl⟩
  · rcases List.mem_cons.1 ht with rfl | ht
    · exact .inl rfl
    · obtain ⟨p, hp, rfl⟩ := List.mem_map.1 ht
      obtain ⟨hp, isKey⟩ := List.mem_filter.1 hp
      exact .inr ⟨p, List.mem_append_right _ (List.mem_cons_of_mem _ hp), isKey, rfl⟩

end Layout

end LastValue

theorem checkIdentifier_eq_ok {name : String} {u : Unit} :
    checkIdentifier name = .ok u ↔ Text.isIdentifier name = true := by
  unfold checkIdentifier
  split
  · next h => simp [h]
  · next h => simp [h]

namespace Contribution

open LastValue

/-- A contribution is what a part adds; `first` tells whether no last value came before it. -/
structure IsOf (first : Bool) (p : Part) (x : Contribution) : Prop where
  outer : x.outer.template = aliased p.selected
  inner : x.inner.map (·.template) = (p.projected first).map aliased
  join : x.join.map (·.template) = (p.matched first).map equated
  output : x.output = p.output

theorem equals_joined (name : String) : " = " ++ joined name = " = t2." ++ name := by
  have dotted : " = " ++ (SubSelect.name ++ ".") = " = t2." := by decide
  rw [joined, ← String.append_assoc, dotted]

theorem max_joined (name : String) : "MAX(" ++ joined name ++ ")" = "MAX(t2." ++ name ++ ")" := by
  have dotted : "MAX(" ++ (SubSelect.name ++ ".") = "MAX(t2." := by decide
  rw [joined, ← String.append_assoc, dotted]

variable {table name : String} {first : Bool} {c : SelectColumn} {x : Contribution}

/-- A last value has a value and a named timestamp that both compile as select columns. -/
theorem ofLastValue_eq_ok {args : List Expr} (h : ofLastValue table name first args = .ok x) :
    ∃ value timestamp item latest time, args = [value, timestamp] ∧
      compile table .selection value = .ok item ∧ timestamp.leafName? = some latest ∧
      Text.isIdentifier latest = true ∧ compile table .selection timestamp = .ok time ∧
      IsOf first ⟨name, item, .last latest time⟩ x := by
  unfold ofLastValue at h
  split at h
  · next value timestamp =>
    split at h
    · next _ latest names =>
      simp only [bind_eq_ok, pure_eq_ok, checkIdentifier_eq_ok] at h
      obtain ⟨_, identifier, item, hi, time, htime, rfl⟩ := h
      have named : timestamp.leafName? = some latest := congrArg Prod.snd names
      refine ⟨value, timestamp, item, latest, time, rfl, hi, named, identifier, htime, ?_⟩
      constructor
      · exact CompiledCondition.template_wrap_empty _ _
      · -- Only the first last value has its timestamp projected and compared.
        cases first with
        | false => rfl
        | true =>
          have closed : ") AS " ++ latest = ")" ++ (" AS " ++ latest) := by
            rw [← String.append_assoc]
            rfl
          show some (Template.text "MAX(" ++ time.template ++ .text (") AS " ++ latest)) =
            some (Template.text "MAX(" ++ time.template ++ .text ")" ++ .text (" AS " ++ latest))
          rw [closed, Template.append_assoc _ (.text ")")]
          rfl
      · cases first with
        | false => rfl
        | true =>
          show some (time.wrap "" (" = " ++ joined latest)).template = _
          rw [CompiledCondition.template_wrap_empty, equals_joined]
          rfl
      · rfl
    · cases h
  · cases h

/-- Every column that is accepted is a part of one of the three roles, and contributes what the part
does. -/
theorem ofColumn_eq_ok (h : ofColumn table name first c = .ok x) :
    ∃ p : Part, p.name = name ∧ p.IsOf table c ∧ IsOf first p x := by
  unfold ofColumn at h
  simp only [bind_eq_ok, checkIdentifier_eq_ok] at h
  obtain ⟨_, identifier, h⟩ := h
  split at h
  · next args hargs =>
    obtain ⟨value, timestamp, item, latest, time, rfl, hi, hl, il, ht, adds⟩ :=
      ofLastValue_eq_ok h
    refine ⟨_, rfl, ⟨identifier, ?_, .last hargs hl il ht⟩, adds⟩
    rw [SelectColumn.namedBy, hargs]
    exact hi
  · next hargs =>
    have own : c.namedBy = c.expr := by
      rw [SelectColumn.namedBy, hargs]
      rfl
    have other : c.expr.isLastValue = false := by
      rw [Expr.isLastValue, hargs]
      rfl
    obtain ⟨item, hi, h⟩ := bind_eq_ok.1 h
    rw [← own] at hi
    split at h
    · next aggregates =>
      cases pure_eq_ok.1 h
      refine ⟨⟨name, item, .aggregate⟩, rfl, ⟨identifier, hi, .aggregate other aggregates⟩, ?_⟩
      constructor
      · rw [max_joined]
        exact CompiledCondition.template_wrap_empty _ _
      · exact congrArg some (CompiledCondition.template_wrap_empty _ _)
      · rfl
      · rfl
    · next plain =>
      cases pure_eq_ok.1 h
      have plain : c.expr.callsAggregate = false := by simpa using plain
      refine ⟨⟨name, item, .key⟩, rfl, ⟨identifier, hi, .key other plain⟩, ?_⟩
      constructor
      · exact CompiledCondition.template_wrap_empty _ _
      · exact congrArg some (CompiledCondition.template_wrap_empty _ _)
      · show some (item.wrap "" (" = " ++ joined name)).template = _
        rw [CompiledCondition.template_wrap_empty, equals_joined]
        rfl
      · rfl

/-! ### All columns -/

/-- Columns among which the flag does not change. -/
theorem ofColumns_eq_ok {columns : List (String × SelectColumn)} {xs : List Contribution}
    (steady : first = true → ∀ c ∈ columns, c.2.expr.isLastValue = false)
    (h : ofColumns table first columns = .ok xs) :
    ∃ ps, List.Forall₂ (fun c p => p.name = c.1 ∧ Part.IsOf p table c.2) columns ps ∧
      List.Forall₂ (IsOf first) ps xs ∧ (first = true → ∀ p ∈ ps, p.isLast = false) := by
  induction columns generalizing xs with
  | nil =>
    cases h
    exact ⟨[], .nil, .nil, fun _ => List.forall_mem_nil _⟩
  | cons c columns ih =>
    obtain ⟨name, c⟩ := c
    simp only [ofColumns, bind_eq_ok, pure_eq_ok] at h
    obtain ⟨x, hx, xs, hxs, rfl⟩ := h
    -- The flag passes from one column to the next as it is.
    have unchanged : (first && !c.expr.isLastValue) = first := by
      cases first with
      | false => rfl
      | true => simp [steady rfl (name, c) List.mem_cons_self]
    rw [unchanged] at hxs
    obtain ⟨p, hn, hp, hpx⟩ := ofColumn_eq_ok hx
    obtain ⟨ps, hps, hpxs, rest⟩ :=
      ih (fun hf d hd => steady hf d (List.mem_cons_of_mem _ hd)) hxs
    refine ⟨p :: ps, .cons ⟨hn, hp⟩ hps, .cons hpx hpxs, fun hf => ?_⟩
    have isLast : p.isLast = false := by
      rw [hp.isLast_eq]
      exact steady hf (name, c) List.mem_cons_self
    exact List.forall_mem_cons.2 ⟨isLast, rest hf⟩

/-- After a last value, the columns that follow are compiled as such. -/
theorem ofColumns_append {columns columns' : List (String × SelectColumn)}
    {xs : List Contribution} (h : ofColumns table first (columns ++ columns') = .ok xs) :
    ∃ ys zs, ofColumns table first columns = .ok ys ∧
      ofColumns table (first && !columns.any (·.2.expr.isLastValue)) columns' = .ok zs ∧
      xs = ys ++ zs := by
  induction columns generalizing first xs with
  | nil => exact ⟨[], xs, rfl, by simpa using h, rfl⟩
  | cons c columns ih =>
    obtain ⟨name, c⟩ := c
    simp only [List.cons_append, ofColumns, bind_eq_ok, pure_eq_ok] at h
    obtain ⟨x, hx, xs, hxs, rfl⟩ := h
    obtain ⟨ys, zs, hys, hzs, rfl⟩ := ih hxs
    refine ⟨x :: ys, zs, ?_, ?_, rfl⟩
    · simp only [ofColumns, bind_eq_ok, pure_eq_ok]
      exact ⟨x, hx, ys, hys, rfl⟩
    · rw [Bool.and_assoc, ← Bool.not_or] at hzs
      exact hzs

variable {ps : List Part} {xs : List Contribution}

theorem map_outer (h : List.Forall₂ (IsOf first) ps xs) :
    (xs.map (·.outer)).map (·.template) = ps.map fun p => aliased p.selected := by
  rw [List.map_map]
  induction h with
  | nil => rfl
  | cons hp _ ih => rw [List.map_cons, List.map_cons, Function.comp_apply, hp.outer, ih]

theorem map_output (h : List.Forall₂ (IsOf first) ps xs) :
    xs.map (·.output) = ps.map (·.output) := by
  induction h with
  | nil => rfl
  | cons hp _ ih => rw [List.map_cons, List.map_cons, hp.output, ih]

/-- What each contribution has of one kind, if any, is gathered in the order of the parts. -/
theorem filterMap_of_isOf {f : Contribution → Option CompiledCondition}
    {g : Part → Option (Template Slot × String)} {write : Template Slot × String → Template Slot}
    (adds : ∀ {p x}, IsOf first p x → (f x).map (·.template) = (g p).map write)
    (h : List.Forall₂ (IsOf first) ps xs) :
    (xs.filterMap f).map (·.template) = (ps.filterMap g).map write := by
  rw [List.map_filterMap, List.map_filterMap]
  induction h with
  | nil => rfl
  | cons hp _ ih => rw [List.filterMap_cons, List.filterMap_cons, adds hp, ih]

/-- The contributions of the columns of a layout, by the first last value. -/
structure Splits (l : Layout) (ys : List Contribution) (x : Contribution)
    (zs : List Contribution) : Prop where
  before : List.Forall₂ (IsOf true) l.before ys
  first : IsOf true ⟨l.name, l.item, .last l.latest l.time⟩ x
  after : List.Forall₂ (IsOf false) l.after zs

namespace Splits

variable {l : Layout} {ys zs : List Contribution} {x : Contribution} (h : Splits l ys x zs)

include h

theorem map_outer : ((ys ++ x :: zs).map (·.outer)).map (·.template) =
    l.parts.map fun p => aliased p.selected := by
  rw [List.map_append, List.map_append, List.map_cons, List.map_cons,
    Contribution.map_outer h.before, Contribution.map_outer h.after, h.first.outer, Layout.parts,
    List.map_append, List.map_cons]

theorem map_output : (ys ++ x :: zs).map (·.output) = l.parts.map (·.output) := by
  rw [List.map_append, List.map_cons, Contribution.map_output h.before,
    Contribution.map_output h.after, h.first.output, Layout.parts, List.map_append, List.map_cons]

/-- What is gathered comes from the parts before the first last value, from that, and from those
behind it. -/
theorem map_gathered {f : Contribution → Option CompiledCondition}
    {g : Bool → Part → Option (Template Slot × String)}
    {write : Template Slot × String → Template Slot}
    (adds : ∀ {first p x}, IsOf first p x → (f x).map (·.template) = (g first p).map write) :
    ((ys ++ x :: zs).filterMap f).map (·.template) =
      (l.before.filterMap (g true) ++
        ([⟨l.name, l.item, .last l.latest l.time⟩].filterMap (g true) ++
          l.after.filterMap (g false))).map write := by
  have first : List.Forall₂ (IsOf true) [_] [x] := .cons h.first .nil
  show ((ys ++ ([x] ++ zs)).filterMap f).map (·.template) = _
  rw [List.filterMap_append, List.filterMap_append, List.map_append, List.map_append,
    filterMap_of_isOf adds h.before, filterMap_of_isOf adds first, filterMap_of_isOf adds h.after,
    ← List.map_append, ← List.map_append]

theorem map_inner : ((ys ++ x :: zs).filterMap (·.inner)).map (·.template) =
    l.projections.map aliased := by
  have before : l.before.filterMap (Part.projected true) = l.before.map Part.own := by
    rw [Part.filterMap_projected fun _ => l.isLast_before,
      List.filter_eq_self.2 (by simpa using l.isLast_before)]
  have behind : l.after.filterMap (Part.projected false) =
      (l.after.filter (!·.isLast)).map Part.own :=
    Part.filterMap_projected fun hf => absurd hf Bool.false_ne_true
  rw [h.map_gathered IsOf.inner, before, behind]
  rfl

theorem map_join : ((ys ++ x :: zs).filterMap (·.join)).map (·.template) =
    l.equations.map equated := by
  have before : l.before.filterMap (Part.matched true) =
      (l.before.filter (·.isKey)).map Part.own :=
    Part.filterMap_matched fun _ => l.isLast_before
  have behind : l.after.filterMap (Part.matched false) =
      (l.after.filter (·.isKey)).map Part.own :=
    Part.filterMap_matched fun hf => absurd hf Bool.false_ne_true
  rw [h.map_gathered IsOf.join, before, behind]
  rfl

end Splits

/-- The first last value divides the columns into those before and those after it. -/
theorem splits_of_ofColumns {columns : List (String × SelectColumn)}
    (h : ofColumns table true columns = .ok xs)
    (hlast : columns.any (·.2.expr.isLastValue) = true) :
    ∃ (l : Layout) (ys : List Contribution) (x : Contribution) (zs : List Contribution),
      xs = ys ++ x :: zs ∧ Splits l ys x zs ∧
        List.Forall₂ (fun c p => p.name = c.1 ∧ Part.IsOf p table c.2) columns l.parts := by
  obtain ⟨c, hc⟩ := Option.isSome_iff_exists.1 (List.find?_isSome.2 (List.any_eq_true.1 hlast))
  obtain ⟨isLast, before, after, rfl, others⟩ := List.find?_eq_some_iff_append.1 hc
  have others : ∀ d ∈ before, d.2.expr.isLastValue = false := by simpa using others
  have unseen : before.any (·.2.expr.isLastValue) = false := by simpa using others
  obtain ⟨ys, zs, hys, hzs, rfl⟩ := ofColumns_append h
  obtain ⟨name, c⟩ := c
  simp only [unseen, ofColumns, bind_eq_ok, pure_eq_ok] at hzs
  obtain ⟨x, hx, zs, hzs, rfl⟩ := hzs
  have isLast : c.expr.isLastValue = true := isLast
  -- Before the first last value the flag stays set, behind it the flag stays unset.
  have hzs : ofColumns table false after = .ok zs := by
    rw [isLast] at hzs
    exact hzs
  obtain ⟨ps, hps, hpys, first⟩ := ofColumns_eq_ok (fun _ => others) hys
  obtain ⟨qs, hqs, hqzs, _⟩ := ofColumns_eq_ok (fun hf => absurd hf Bool.false_ne_true) hzs
  obtain ⟨⟨name, item, role⟩, rfl, hp, hpx⟩ := ofColumn_eq_ok hx
  obtain ⟨latest, time, rfl⟩ : ∃ latest time, role = .last latest time := by
    have : Part.isLast ⟨name, item, role⟩ = true := hp.isLast_eq.trans isLast
    cases role with
    | last latest time => exact ⟨latest, time, rfl⟩
    | aggregate => cases this
    | key => cases this
  exact ⟨⟨ps, name, item, latest, time, qs, first rfl⟩, ys, x, zs, rfl, ⟨hpys, hpx, hqzs⟩,
    List.rel_append hps (.cons ⟨rfl, hp⟩ hqs)⟩

/-- What the columns of a query for last values contribute to its clauses. -/
theorem layout_of_ofColumns {columns : List (String × SelectColumn)}
    (h : ofColumns table true columns = .ok xs)
    (hlast : columns.any (·.2.expr.isLastValue) = true) :
    ∃ l : Layout, List.Forall₂ (fun c p => p.name = c.1 ∧ Part.IsOf p table c.2) columns l.parts ∧
      (xs.map (·.outer)).map (·.template) = l.parts.map (fun p => aliased p.selected) ∧
      (xs.filterMap (·.inner)).map (·.template) = l.projections.map aliased ∧
      (xs.filterMap (·.join)).map (·.template) = l.equations.map equated ∧
      xs.map (·.output) = l.parts.map (·.output) := by
  obtain ⟨l, ys, x, zs, rfl, splits, parts⟩ := splits_of_ofColumns h hlast
  exact ⟨l, parts, splits.map_outer, splits.map_inner, splits.map_join, splits.map_output⟩

end Contribution

end StreamTable
