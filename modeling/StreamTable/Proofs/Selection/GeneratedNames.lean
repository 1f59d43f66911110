import Mathlib.Data.List.Nodup
import StreamTable.Proofs.Selection.OutputNames

/-!
# Explicit and generated output names

The output name of a column is explicit, given to the column or taken from an attribute, or it is
generated from the position of the column.  The output names of a selection are its explicit and
its generated names (`Selection.perm_names_of_compile`), and no name is generated twice.

Nothing keeps a column from being given a name that is generated for another one.  Unless that
happens, the output names are distinct just if the explicit ones are, and every output column then
reads a field of its own (`Selection.nodup_names_iff_of_compile`).
-/

namespace StreamTable

/-! ### Fields of columns -/

/-- No two attributes of the schema are read from one field: what is stored in the field of one
leaves all others as they are. -/
def Schema.ReadsApart (s : Schema) : Prop :=
  ∀ (fields : Members Json) (i j : Nat) (a : Attribute) (datum : Json), s[i]? = some a → i ≠ j →
    (s.project (fields.insert a.name datum))[j]? = (s.project fields)[j]?

/-- A truth value is never read as null. -/
theorem Value.ofJson_true_ne_null (t : AttributeType) : Value.ofJson (.bool true) t ≠ .null := by
  cases t <;> exact Value.noConfusion

namespace Schema

variable {s : Schema}

theorem getElem?_project (fields : Members Json) (j : Nat) :
    (s.project fields)[j]? = s[j]?.map fun a => match fields.get? a.name with
      | some datum => .ofJson datum a.type
      | none => .null :=
  List.getElem?_map

/-- Attributes with distinct names are read from distinct fields, and only they are. -/
theorem readsApart_iff : s.ReadsApart ↔ s.names.Nodup := by
  constructor
  · intro apart
    refine List.nodup_iff_getElem?_ne_getElem?.2 fun i j lt bound same => ?_
    rw [names, List.length_map] at bound
    have here : s[i]? = some s[i] := List.getElem?_eq_getElem (Nat.lt_trans lt bound)
    have there : s[j]? = some s[j] := List.getElem?_eq_getElem bound
    have shared : s[i].name = s[j].name := by
      simpa [names, here, there] using same
    -- A datum in the field of the one is seen by the other.
    have seen := apart [] i j s[i] (.bool true) here (Nat.ne_of_lt lt)
    rw [getElem?_project, getElem?_project, there, shared] at seen
    simp only [Option.map_some, Members.get?_insert_self, Members.get?_nil] at seen
    exact Value.ofJson_true_ne_null _ (Option.some.inj seen)
  · intro nodup fields i j a datum here ne
    rw [getElem?_project, getElem?_project]
    cases there : s[j]? with
    | none => rfl
    | some b =>
      have other : b.name ≠ a.name := by
        intro same
        have bound : i < s.names.length := by
          rw [names, List.length_map]
          exact (List.getElem?_eq_some_iff.1 here).1
        have named : s.names[i]? = s.names[j]? := by simp [names, here, there, same]
        exact ne ((List.getElem?_inj bound nodup).1 named)
      rw [Option.map_some, Option.map_some, Members.get?_insert_of_ne other]

end Schema

/-! ### The two kinds of names -/

namespace SelectColumn

/-- The name that a column is given, or else takes from the attribute that it consists of or asks
the last value of. -/
def explicitName? (c : SelectColumn) : Option String := c.rename.or c.namedBy.leafName?

theorem name_eq (c : SelectColumn) (position : Nat) :
    c.name position = c.explicitName?.getD (generatedName position) := by
  rw [name, explicitName?]
  cases c.rename <;> rfl

/-- Different positions have different generated names. -/
theorem generatedName_injective : Function.Injective generatedName := by
  intro i j same
  have text : toString (i + 1) = toString (j + 1) := (String.append_right_inj _).1 same
  have digits : Nat.toDigits 10 (i + 1) = Nat.toDigits 10 (j + 1) := by
    simpa [Nat.toString_eq_ofList_toDigits] using congrArg String.toList text
  -- The digits of a number are read back as the number.
  have numbers := congrArg (Nat.ofDigitChars 10 · 0) digits
  simpa [Nat.ofDigitChars_ten_toDigits] using numbers

end SelectColumn

namespace Selection

open SelectColumn (generatedName generatedName_injective name_eq)

variable (s : Selection)

/-- The explicit names of the columns. -/
def explicitNames : List String := s.columns.filterMap (·.explicitName?)

/-- The names that are generated for the columns without an explicit one. -/
def generatedNames : List String :=
  (s.columns.zipIdx.filter (·.1.explicitName?.isNone)).map fun p => generatedName p.2

variable {s} {table : String} {compiled : CompiledSelection}

theorem nodup_generatedNames : s.generatedNames.Nodup := by
  have positions : (s.columns.zipIdx.map (·.2)).Nodup := by
    rw [List.zipIdx_map_snd]
    exact List.nodup_range'
  have kept : ((s.columns.zipIdx.filter (·.1.explicitName?.isNone)).map (·.2)).Nodup :=
    positions.sublist (List.filter_sublist.map _)
  have names := kept.map generatedName_injective
  rwa [List.map_map] at names

/-- The names of columns that are counted from a position on. -/
theorem perm_names_from (cs : List SelectColumn) (position : Nat) :
    ((cs.zipIdx position).map fun p => p.1.name p.2).Perm
      (cs.filterMap (·.explicitName?) ++
        ((cs.zipIdx position).filter (·.1.explicitName?.isNone)).map fun p =>
          generatedName p.2) := by
  induction cs generalizing position with
  | nil => exact .nil
  | cons c cs ih =>
    rw [List.zipIdx_cons, List.map_cons, name_eq]
    cases explicit : c.explicitName? with
    | some name =>
      simpa [explicit] using ih (position + 1)
    | none =>
      simpa [explicit] using ((ih (position + 1)).cons (generatedName position)).trans
        List.perm_middle.symm

theorem names_of_compile (h : s.compile table = .ok compiled) :
    compiled.output.names = s.named.map (·.1) := by
  obtain ⟨named, columns, _, _, _, hn, hx, _, _, _, rfl⟩ := compile_eq_ok h
  obtain rfl := named_of_withNames hn
  show columns.output.names = _
  split at hx
  · obtain ⟨items, _, output, related⟩ := exists_items_of_compileLastValue hx
    rw [output, Schema.names, List.map_map]
    exact map_eq_map_of_forall₂ (fun p x item => item.1.name) related
  · obtain ⟨items, _, output, related⟩ := exists_items_of_compilePlain hx
    rw [output, Schema.names, List.map_map]
    exact map_eq_map_of_forall₂ (fun p x item => item.1.name) related

/-- The output names are the explicit and the generated names in some order. -/
theorem perm_names_of_compile (h : s.compile table = .ok compiled) :
    compiled.output.names.Perm (s.explicitNames ++ s.generatedNames) := by
  rw [names_of_compile h, named, List.map_map]
  exact perm_names_from s.columns 0

/-- The output names of a selection are distinct just if the explicit names are distinct and none of
them is generated for another column; and just then every output column reads a field of its own. -/
theorem nodup_names_iff_of_compile (h : s.compile table = .ok compiled) :
    (compiled.output.names.Nodup ↔
      s.explicitNames.Nodup ∧ ∀ name ∈ s.generatedNames, name ∉ s.explicitNames) ∧
    (compiled.output.ReadsApart ↔ compiled.output.names.Nodup) := by
  refine ⟨?_, Schema.readsApart_iff⟩
  rw [(perm_names_of_compile h).nodup_iff, List.nodup_append']
  constructor
  · rintro ⟨explicit, _, apart⟩
    exact ⟨explicit, fun name generated given => apart given generated⟩
  · rintro ⟨explicit, spared⟩
    exact ⟨explicit, nodup_generatedNames, fun name given generated => spared name generated given⟩

/-- A given name, two columns without one, and a field. -/
def countedQuotes : Selection where
  columns := [
    ⟨.call none "avg" [.field "price" .double], some "_col3"⟩,
    ⟨.call none "sum" [.field "volume" .long], none⟩,
    ⟨.field "symbol" .string, none⟩,
    ⟨.call none "count" [], none⟩]

theorem nodup_names_iff_of_compile_countedQuotes :
    ∃ compiled : CompiledSelection, countedQuotes.compile "Stock" = .ok compiled ∧
      compiled.output.names = ["_col3", "_col2", "symbol", "_col4"] ∧
      countedQuotes.explicitNames = ["_col3", "symbol"] ∧
      countedQuotes.generatedNames = ["_col2", "_col4"] ∧
      compiled.output.names.Nodup ∧ compiled.output.ReadsApart := by
  obtain ⟨compiled, h, names⟩ : ∃ compiled, countedQuotes.compile "Stock" = .ok compiled ∧
      compiled.output.names = ["_col3", "_col2", "symbol", "_col4"] := ⟨_, rfl, rfl⟩
  obtain ⟨distinct, apart⟩ := nodup_names_iff_of_compile h
  have nodup : compiled.output.names.Nodup := distinct.2 (by decide)
  exact ⟨compiled, h, names, rfl, rfl, nodup, apart.2 nodup⟩

/-- The symbol is given the name that is generated for the sum of the volumes. -/
def numberedQuotes : Selection where
  columns := [
    ⟨.call (some "incrementalAggregator") "last" [.field "price" .double, .field "time" .long],
      none⟩,
    ⟨.field "symbol" .string, some "_col3"⟩,
    ⟨.call none "sum" [.field "volume" .long], none⟩]

/-- The explicit names are distinct, but two columns have one name.  Both are read from one field,
and the join compares the symbol with whatever the sub-select has under the name. -/
theorem not_nodup_names_numberedQuotes :
    ∃ compiled : CompiledSelection, numberedQuotes.compile "Stock" = .ok compiled ∧
      numberedQuotes.explicitNames = ["price", "_col3"] ∧
      numberedQuotes.explicitNames.Nodup ∧
      compiled.output = [⟨"price", .double⟩, ⟨"_col3", .string⟩, ⟨"_col3", .long⟩] ∧
      compiled.resolve [] "" = .ok
        ("SELECT Stock.price AS price, Stock.symbol AS _col3, MAX(t2._col3) AS _col3 " ++
          "FROM Stock, (SELECT MAX(Stock.time) AS time, Stock.symbol AS _col3, " ++
          "SUM(Stock.volume) AS _col3 FROM Stock) AS t2 WHERE Stock.time = t2.time " ++
          "AND Stock.symbol = t2._col3") ∧
      ¬ compiled.output.names.Nodup ∧ ¬ compiled.output.ReadsApart := by
  obtain ⟨compiled, h, output, text⟩ : ∃ compiled, numberedQuotes.compile "Stock" = .ok compiled ∧
      compiled.output = [⟨"price", .double⟩, ⟨"_col3", .string⟩, ⟨"_col3", .long⟩] ∧
      compiled.resolve [] "" = .ok
        ("SELECT Stock.price AS price, Stock.symbol AS _col3, MAX(t2._col3) AS _col3 " ++
          "FROM Stock, (SELECT MAX(Stock.time) AS time, Stock.symbol AS _col3, " ++
          "SUM(Stock.volume) AS _col3 FROM Stock) AS t2 WHERE Stock.time = t2.time " ++
          "AND Stock.symbol = t2._col3") :=
    ⟨_, rfl, rfl, by decide +kernel⟩
  have twice : ¬ compiled.output.names.Nodup := by
    rw [output]
    decide
  exact ⟨compiled, h, rfl, by decide, output, text, twice, fun apart =>
    twice (Schema.readsApart_iff.1 apart)⟩

end Selection

end StreamTable
