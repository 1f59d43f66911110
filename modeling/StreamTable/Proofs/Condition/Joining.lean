import StreamTable.Proofs.Condition.Rendering

/-!
# Conditions put together

`CompiledCondition.wrap` puts fixed text around a condition, and `CompiledCondition.join` puts
conditions one after the other.  Binding a joined condition is binding its parts from left to right
and joining their texts, and its holes, its patterns and the text with marks are those of the parts
in order (`CompiledCondition.join_of_plain`).

A hole carries its label with it when templates are put together, so the positions of the patterns
are counted again in the whole: those of a part move by the number of holes before it
(`CompiledCondition.patternPositions_join`).  Where conditions are kept as lists, the numbers are
moved in one pass over the parts and the texts are merged in another (`Numbered.join`).
-/

namespace StreamTable

/-- Parts that give a text or an error each give all of their texts together, or the error of the
first part that has one. -/
theorem mapM_eq {α β ε : Type} {f : α → Except ε β} {error? : α → Option ε} {g : α → β}
    {xs : List α} (h : ∀ x ∈ xs, f x = (error? x).elim (.ok (g x)) .error) :
    xs.mapM f = (xs.findSome? error?).elim (.ok (xs.map g)) .error := by
  induction xs with
  | nil => rfl
  | cons x xs ih =>
    have first := h x List.mem_cons_self
    have rest := ih fun y hy => h y (List.mem_cons_of_mem x hy)
    rw [List.mapM_cons, first, rest, List.findSome?_cons]
    cases error? x with
    | some e => rfl
    | none => cases xs.findSome? error? <;> rfl

namespace CompiledCondition

variable {c : CompiledCondition} {cs : List CompiledCondition} {values : Values}

/-! ### Fixed text around a condition -/

theorem template_wrap (c : CompiledCondition) (before after : String) :
    (c.wrap before after).template = .text before ++ c.template ++ .text after := rfl

theorem template_wrap_empty (c : CompiledCondition) (after : String) :
    (c.wrap "" after).template = c.template ++ .text after := by
  rw [template_wrap, ← Template.empty, Template.empty_append]

/-- Fixed text stays what it is when the holes are filled. -/
theorem filled_wrap (before after : String) :
    (c.wrap before after).filled values = before ++ c.filled values ++ after := by
  simp [filled, template_wrap]

/-- Fixed text needs no values. -/
theorem bound_wrap {before after : String} :
    (c.wrap before after).Bound values ↔ c.Bound values := by
  simp [Bound, parameters, template_wrap]

/-! ### Conditions one after the other -/

/-- The holes of the whole are those of the parts, in order. -/
theorem parameters_join (separator : String) (cs : List CompiledCondition) :
    (join separator cs).parameters = cs.flatMap parameters := by
  rw [parameters, join, Template.holes_join, List.flatMap_map, List.map_flatMap]
  rfl

theorem filled_join (separator : String) (cs : List CompiledCondition) :
    (join separator cs).filled values = separator.intercalate (cs.map (·.filled values)) := by
  rw [filled, join, Template.filled_join, List.map_map]
  rfl

theorem shown_join (separator : String) (cs : List CompiledCondition) :
    (join separator cs).shown = separator.intercalate (cs.map shown) := by
  have marked : (join separator cs).shown =
      (Template.join separator (cs.map (·.template))).filled fun _ => Template.mark := rfl
  rw [marked, Template.filled_join, List.map_map]
  rfl

/-- The whole is bound just if all of its parts are. -/
theorem bound_join {separator : String} {cs : List CompiledCondition} :
    (join separator cs).Bound values ↔ ∀ c ∈ cs, c.Bound values := by
  simp only [Bound, parameters_join, List.mem_flatMap]
  constructor
  · intro h c hc p hp
    exact h p ⟨c, hc, hp⟩
  · rintro h p ⟨c, hc, hp⟩
    exact h c hc p hp

/-- The first hole of the whole that cannot be filled is the first one of the first part that has
such a hole. -/
theorem findSome?_parameters_join (separator : String) (cs : List CompiledCondition) :
    (join separator cs).parameters.findSome? (Parameter.unbound? values) =
      cs.findSome? fun c => c.parameters.findSome? (Parameter.unbound? values) := by
  rw [parameters_join]
  induction cs with
  | nil => rfl
  | cons c cs ih =>
    rw [List.flatMap_cons, List.findSome?_append, ih, List.findSome?_cons]
    cases c.parameters.findSome? (Parameter.unbound? values) <;> rfl

/-- Joining commutes with binding: the parts are bound from left to right, and their texts joined.
-/
theorem resolve_join (plain : ∀ c ∈ cs, c.alwaysTrue = false) (separator : String)
    (values : Values) :
    (join separator cs).resolve values =
      do return separator.intercalate (← cs.mapM (·.resolve values)) := by
  have parts := mapM_eq fun c hc => resolve_eq (plain c hc) values
  have whole := resolve_eq (c := join separator cs) rfl values
  rw [findSome?_parameters_join] at whole
  rw [whole, parts]
  cases cs.findSome? fun c => c.parameters.findSome? (Parameter.unbound? values) with
  | some e => rfl
  | none => exact congrArg Except.ok (filled_join separator cs)

/-! ### The positions of patterns -/

/-- The positions of the patterns in conditions that follow some number of holes. -/
def positionsFrom : Nat → List CompiledCondition → List Nat
  | _, [] => []
  | n, c :: cs => c.patternPositions.map (n + ·) ++ positionsFrom (n + c.size) cs

theorem size_eq (c : CompiledCondition) : c.size = c.template.holes.length := by
  rw [size, Template.size, Template.holes, List.length_map]

/-- The patterns of parts that follow some holes are at the moved positions of the patterns of each
part. -/
theorem map_patternPositions_holes (n : Nat) (cs : List CompiledCondition) :
    (Slot.patternPositions (cs.flatMap (·.template.holes))).map (n + ·) = positionsFrom n cs := by
  -- The statement is about any number of holes before the conditions, so that it passes from the
  -- conditions to those after the first one.
  induction cs generalizing n with
  | nil => rfl
  | cons c cs ih =>
    have rest := ih (n + c.template.holes.length)
    have moved : (n + ·) ∘ (c.template.holes.length + ·) = (n + c.template.holes.length + ·) := by
      funext i
      exact (Nat.add_assoc n _ i).symm
    rw [List.flatMap_cons, Slot.patternPositions_append, List.map_append, List.map_map, moved,
      rest, positionsFrom, size_eq]
    rfl

/-- The positions of the patterns in the whole are those in the parts, moved by the holes before
each part. -/
theorem patternPositions_join (separator : String) (cs : List CompiledCondition) :
    (join separator cs).patternPositions = positionsFrom 0 cs := by
  have holes : (join separator cs).template.holes = cs.flatMap (·.template.holes) := by
    rw [join, Template.holes_join, List.flatMap_map]
  have unmoved : (0 + · : Nat → Nat) = id := funext Nat.zero_add
  show Slot.patternPositions (join separator cs).template.holes = _
  rw [← map_patternPositions_holes, holes, unmoved, List.map_id]

end CompiledCondition

/-! ### Lists -/

namespace Numbered

/-- Fixed text before and after lists; the numbers of the patterns stay. -/
def wrap (n : Numbered) (before after : String) : Numbered :=
  { n with segments := (.ofText before ++ n.segments).pushText after }

/-- Add the numbers of the patterns of further lists, moved by the number of holes so far, and count
their holes. -/
def joinStep (joined : List Nat × Nat) (part : Numbered) : List Nat × Nat :=
  (joined.1 ++ part.ordinals.map (· + joined.2), joined.2 + part.segments.holes.length)

/-- Lists in order with a text between every two of them. -/
def join (separator : String) (parts : List Numbered) : Numbered :=
  ⟨.merge separator (parts.map (·.segments)), (parts.foldl joinStep ([], 0)).1⟩

end Numbered

namespace CompiledCondition

/-- Text around the lists of a condition gives the lists of the condition with text around it. -/
theorem numbered_wrap (c : CompiledCondition) (before after : String) :
    (c.wrap before after).numbered = c.numbered.wrap before after := by
  have holes : (c.wrap before after).template.holes = c.template.holes := by
    simp [template_wrap]
  have segments : ((c.wrap before after).template.map Slot.parameter).segmented =
      (.ofText before ++ (c.template.map Slot.parameter).segmented).pushText after := by
    rw [template_wrap, Template.map_append, Template.map_append, Template.map_text,
      Template.map_text, ← Template.pushText, Template.segmented_pushText,
      Template.segmented_append, Template.segmented_text]
  rw [numbered, Template.numbered, holes, segments]
  rfl

/-- The numbers that are added one condition after the other are the positions of the patterns. -/
theorem foldl_joinStep (cs : List CompiledCondition) (joined : List Nat × Nat) :
    ((cs.map numbered).foldl Numbered.joinStep joined).1 =
      joined.1 ++ positionsFrom joined.2 cs := by
  induction cs generalizing joined with
  | nil => simp [positionsFrom]
  | cons c cs ih =>
    have moved : c.numbered.ordinals.map (· + joined.2) = c.patternPositions.map (joined.2 + ·) :=
      List.map_congr_left fun i _ => Nat.add_comm i _
    have size : c.numbered.segments.holes.length = c.size := by
      rw [size_eq]
      exact Template.length_holes_numbered c.template
    rw [List.map_cons, List.foldl_cons, ih, Numbered.joinStep, moved, size, positionsFrom,
      List.append_assoc]

/-- The lists of joined conditions are their lists, joined. -/
theorem numbered_join (separator : String) (cs : List CompiledCondition) :
    (join separator cs).numbered = .join separator (cs.map numbered) := by
  have segments : ((join separator cs).template.map Slot.parameter).segmented =
      .merge separator ((cs.map numbered).map (·.segments)) := by
    rw [join, Template.map_join, Template.segmented_join, List.map_map, List.map_map, List.map_map]
    rfl
  have ordinals := foldl_joinStep cs ([], 0)
  rw [← patternPositions_join separator, List.nil_append] at ordinals
  rw [numbered, Template.numbered, segments, Numbered.join, ordinals]
  rfl

/-! ### Joined conditions -/

/-- Joining commutes with binding, for conditions other than the one that every record meets: the
joined condition resolves to the joined texts, or fails as the first of its parts that fails.  Its
holes are those of the parts in order, the positions of the patterns are moved by the number of
holes before their part, and the text with marks is that of the parts.  To join the lists of the
parts, or to put text around them, is the same. -/
theorem join_of_plain {cs : List CompiledCondition} (plain : ∀ c ∈ cs, c.alwaysTrue = false)
    (separator : String) (values : Values) :
    (join separator cs).resolve values =
        (do return separator.intercalate (← cs.mapM (·.resolve values))) ∧
      (join separator cs).parameters = cs.flatMap parameters ∧
      (join separator cs).patternPositions = positionsFrom 0 cs ∧
      (join separator cs).patternPositions.Pairwise (· < ·) ∧
      (∀ i ∈ (join separator cs).patternPositions, i < (join separator cs).size) ∧
      (join separator cs).shown = separator.intercalate (cs.map shown) ∧
      (join separator cs).numbered = .join separator (cs.map numbered) ∧
      ∀ c ∈ cs, ∀ before after, (c.wrap before after).numbered = c.numbered.wrap before after := by
  refine ⟨resolve_join plain separator values, parameters_join separator cs,
    patternPositions_join separator cs, Slot.pairwise_patternPositions _, ?_,
    shown_join separator cs, numbered_join separator cs, fun c _ => numbered_wrap c⟩
  intro i hi
  rw [size_eq]
  exact Slot.lt_of_mem_patternPositions hi

/-- A text search behind a comparison and behind a count, which has no holes. -/
theorem join_of_plain_countedSearch :
    ∃ limited counted searched cs,
      compile "Stock" .selection
        (.compare .lt (.field "price" .double) (.attribute "limit" .double)) = .ok limited ∧
      compile "Stock" .selection (.call none "count" []) = .ok counted ∧
      compile "Stock" .selection (.contains (.field "title" .string) (.attribute "word" .int)) =
        .ok searched ∧
      cs = [limited, counted.wrap "(" " > 1)", searched] ∧ (∀ c ∈ cs, c.alwaysTrue = false) ∧
      (join " AND " cs).patternPositions = [3] ∧
      (join " AND " cs).shown = "(? < ?) AND (COUNT(1) > 1) AND CONTAINS(?, ?)" ∧
      (join " AND " cs).resolve [("limit", .int 5)] = .error (.missingAttribute "word") ∧
      (join " AND " cs).resolve [("limit", .int 5), ("word", .int 7)] =
        .ok "(Stock.price < 5) AND (COUNT(1) > 1) AND CONTAINS(Stock.title, '7')" := by
  obtain ⟨limited, hl⟩ : ∃ c, compile "Stock" .selection
      (.compare .lt (.field "price" .double) (.attribute "limit" .double)) = .ok c := ⟨_, rfl⟩
  obtain ⟨counted, hc⟩ : ∃ c, compile "Stock" .selection (.call none "count" []) = .ok c := ⟨_, rfl⟩
  obtain ⟨searched, hs⟩ : ∃ c, compile "Stock" .selection
      (.contains (.field "title" .string) (.attribute "word" .int)) = .ok c := ⟨_, rfl⟩
  have plain : ∀ c ∈ [limited, counted.wrap "(" " > 1)", searched], c.alwaysTrue = false := by
    cases hl
    cases hc
    cases hs
    decide
  refine ⟨limited, counted, searched, _, hl, hc, hs, rfl, plain, ?_, ?_, ?_, ?_⟩
  · obtain ⟨_, _, positions, _⟩ := join_of_plain plain " AND " []
    rw [positions]
    cases hl
    cases hc
    cases hs
    decide
  · obtain ⟨_, _, _, _, _, shown, _⟩ := join_of_plain plain " AND " []
    rw [shown]
    cases hl
    cases hc
    cases hs
    decide
  · refine (join_of_plain plain " AND " _).1.trans ?_
    cases hl
    cases hc
    cases hs
    rfl
  · refine (join_of_plain plain " AND " _).1.trans ?_
    cases hl
    cases hc
    cases hs
    rfl

end CompiledCondition

end StreamTable
