import StreamTable.Proofs.Condition.Rendering

/-!
# Bindings that can be told apart

If the attributes of the stream are bound to texts, the resolved text of a condition tells to which:
two bindings give the same text exactly if they agree on the attributes that the condition needs
(`resolve_eq_iff_of_compile`).

The literal of a text ends where its closing quote is, whatever stands behind it, so no text begins
with the literals of two texts (`Text.Quoted.apart_encode`).  Hence a difference in one hole of a
template cannot be made up for in the holes behind it (`Template.filled_eq_iff`).
-/

namespace StreamTable

/-! ### Texts that begin with a literal -/

/-- No text begins with both, unless they are the same. -/
def Text.Apart (x y : String) : Prop := ∀ u v, x ++ u = y ++ v → x = y

theorem Text.apart_of_eq {x y : String} (h : x = y) : Apart x y := fun _ _ _ => h

/-- No text begins with the literals of two texts. -/
theorem Text.Quoted.apart_encode (s t : String) : Apart (encode s) (encode t) := by
  intro u v h
  have bodies : encodeBody s.toList ++ '\'' :: u.toList =
      encodeBody t.toList ++ '\'' :: v.toList := by
    simpa [encode] using congrArg String.toList h
  have decoded := congrArg decode? bodies
  rw [decode?_encodeBody, decode?_encodeBody] at decoded
  have same := (Prod.ext_iff.1 (Option.some.inj decoded)).1
  rw [String.toList_injective same]

namespace Template

variable {α : Type} {f g : α → String}

theorem filled_cons (lead : String) (a : α) (s : String) (rest : List (α × String)) :
    filled f ⟨lead, (a, s) :: rest⟩ = lead ++ (f a ++ filled f ⟨s, rest⟩) := by
  simp [filled, String.append_assoc]

/-- If no text begins with two fillings of a hole, the whole text tells how each hole is filled. -/
theorem filled_eq_iff (t : Template α) (apart : ∀ a ∈ t.holes, Text.Apart (f a) (g a)) :
    t.filled f = t.filled g ↔ ∀ a ∈ t.holes, f a = g a := by
  -- From left to right: once a hole is known to be filled alike, so are the texts behind it.
  obtain ⟨lead, rest⟩ := t
  induction rest generalizing lead with
  | nil => simp [filled, holes]
  | cons p rest ih =>
    obtain ⟨a, s⟩ := p
    obtain ⟨here, later⟩ := List.forall_mem_cons.1 apart
    have behind := ih s later
    rw [filled_cons, filled_cons, String.append_right_inj]
    show _ ↔ ∀ b ∈ a :: rest.map (·.1), f b = g b
    rw [List.forall_mem_cons]
    constructor
    · intro h
      have first := here _ _ h
      rw [first, String.append_right_inj] at h
      exact ⟨first, behind.1 h⟩
    · rintro ⟨first, others⟩
      rw [first, behind.2 others]

end Template

/-! ### Holes -/

theorem Leaf.boundAttribute?_parameter (table : String) (clause : Clause) (l : Leaf) :
    (l.parameter table clause).boundAttribute? = l.streamName? := by
  cases l <;> rfl

/-- The attributes that a fragment needs are those of its expression. -/
theorem Target.Emits.streamAttributes {c : Target} {e : Expr} {f : Fragment} (h : c.Emits e f) :
    f.template.holes.filterMap (·.parameter.boundAttribute?) = e.streamAttributes := by
  have bound := congrArg (List.filterMap Parameter.boundAttribute?) h.parameters
  have named : Parameter.boundAttribute? ∘ Leaf.parameter c.table c.clause = Leaf.streamName? :=
    funext (Leaf.boundAttribute?_parameter c.table c.clause)
  rw [List.filterMap_map, List.filterMap_map, named] at bound
  exact bound

namespace Slot

variable {slot : Slot} {value value' : String → Value}

theorem rendered_of_fixed (fixed : slot.parameter.boundAttribute? = none) :
    slot.rendered value = slot.rendered value' := by
  obtain ⟨p, isPattern⟩ := slot
  cases p with
  | constant v | field path t => rfl
  | «attribute» name t => cases fixed

/-- A text is quoted in every hole, be it a pattern or one for numbers. -/
theorem rendered_of_text {a s : String} (bound : slot.parameter.boundAttribute? = some a)
    (text : value a = .string s) : slot.rendered value = Text.Quoted.encode s := by
  obtain ⟨p, isPattern⟩ := slot
  cases p with
  | constant v | field path t => cases bound
  | «attribute» name t =>
    cases bound
    show write _ (value a) = _
    rw [text]
    cases isPattern <;> rfl

/-- Two texts that are bound to the attribute of a hole fill it in ways that are told apart. -/
theorem apart_rendered
    (texts : ∀ a, slot.parameter.boundAttribute? = some a → ∃ s, value a = .string s)
    (texts' : ∀ a, slot.parameter.boundAttribute? = some a → ∃ s, value' a = .string s) :
    Text.Apart (slot.rendered value) (slot.rendered value') := by
  cases bound : slot.parameter.boundAttribute? with
  | none => exact Text.apart_of_eq (rendered_of_fixed bound)
  | some a =>
    obtain ⟨s, hs⟩ := texts a bound
    obtain ⟨t, ht⟩ := texts' a bound
    rw [rendered_of_text bound hs, rendered_of_text bound ht]
    exact Text.Quoted.apart_encode s t

/-- A hole is filled alike exactly if its attribute, if it has one, is bound to the same text. -/
theorem rendered_eq_iff
    (texts : ∀ a, slot.parameter.boundAttribute? = some a → ∃ s, value a = .string s)
    (texts' : ∀ a, slot.parameter.boundAttribute? = some a → ∃ s, value' a = .string s) :
    slot.rendered value = slot.rendered value' ↔
      ∀ a, slot.parameter.boundAttribute? = some a → value a = value' a := by
  cases bound : slot.parameter.boundAttribute? with
  | none =>
    have same : slot.rendered value = slot.rendered value' := rendered_of_fixed bound
    simp [same]
  | some a =>
    obtain ⟨s, hs⟩ := texts a bound
    obtain ⟨t, ht⟩ := texts' a bound
    rw [rendered_of_text bound hs, rendered_of_text bound ht]
    simp only [Option.some.injEq, forall_eq', hs, ht, Value.string.injEq]
    exact ⟨Text.Quoted.encode_injective, fun h => by rw [h]⟩

end Slot

/-! ### Conditions -/

/-- The attributes of the stream that the expression reads are bound to texts. -/
def Expr.BoundToTexts (e : Expr) (values : Values) : Prop :=
  ∀ a ∈ e.streamAttributes, ∃ s, values.get? a = some (.string s)

namespace Expr.BoundToTexts

variable {e : Expr} {values : Values}

theorem isSome (h : e.BoundToTexts values) : ∀ a ∈ e.streamAttributes, (values.get? a).isSome := by
  intro a ha
  obtain ⟨s, hs⟩ := h a ha
  simp [hs]

theorem getD (h : e.BoundToTexts values) :
    ∀ a ∈ e.streamAttributes, ∃ s, (values.get? a).getD .null = .string s := by
  intro a ha
  obtain ⟨s, hs⟩ := h a ha
  exact ⟨s, by simp [hs]⟩

end Expr.BoundToTexts

/-- Two ways to bind the attributes of an expression to texts fill its fragment alike exactly if
they bind the same texts. -/
theorem Target.Emits.filled_eq_iff {c : Target} {e : Expr} {f : Fragment} (h : c.Emits e f)
    {value value' : String → Value} (texts : ∀ a ∈ e.streamAttributes, ∃ s, value a = .string s)
    (texts' : ∀ a ∈ e.streamAttributes, ∃ s, value' a = .string s) :
    f.template.filled (Slot.rendered value) = f.template.filled (Slot.rendered value') ↔
      ∀ a ∈ e.streamAttributes, value a = value' a := by
  have needed {slot : Slot} (hole : slot ∈ f.template.holes) (a : String)
      (bound : slot.parameter.boundAttribute? = some a) : a ∈ e.streamAttributes := by
    rw [← h.streamAttributes]
    exact List.mem_filterMap.2 ⟨slot, hole, bound⟩
  have apart : ∀ slot ∈ f.template.holes,
      Text.Apart (slot.rendered value) (slot.rendered value') := fun slot hole =>
    Slot.apart_rendered (fun a ha => texts a (needed hole a ha))
      fun a ha => texts' a (needed hole a ha)
  have alike (slot : Slot) (hole : slot ∈ f.template.holes) :=
    Slot.rendered_eq_iff (fun a ha => texts a (needed hole a ha))
      fun a ha => texts' a (needed hole a ha)
  rw [Template.filled_eq_iff f.template apart]
  constructor
  · intro same a ha
    rw [← h.streamAttributes] at ha
    obtain ⟨slot, hole, bound⟩ := List.mem_filterMap.1 ha
    exact (alike slot hole).1 (same slot hole) a bound
  · intro same slot hole
    exact (alike slot hole).2 fun a ha => same a (needed hole a ha)

/-- With texts bound to all attributes that it needs, a condition resolves to the same text exactly
for the bindings that agree on these attributes. -/
theorem resolve_eq_iff_of_compile {table : String} {clause : Clause} {e : Expr}
    {c : CompiledCondition} (h : compile table clause e = .ok c) (hc : c.alwaysTrue = false)
    {values values' : Values} (texts : e.BoundToTexts values) (texts' : e.BoundToTexts values') :
    ∃ text text', c.resolve values = .ok text ∧ c.resolve values' = .ok text' ∧
      (text = text' ↔ ∀ a ∈ e.streamAttributes, values.get? a = values'.get? a) := by
  obtain ⟨f, hf, rfl⟩ := emits_of_compile h hc
  refine ⟨_, _, hf.resolve texts.isSome, hf.resolve texts'.isSome, ?_⟩
  rw [hf.filled_eq_iff texts.getD texts'.getD]
  refine forall₂_congr fun a ha => ?_
  obtain ⟨s, hs⟩ := texts a ha
  obtain ⟨t, ht⟩ := texts' a ha
  simp [hs, ht]

/-- Characters of the quoting cannot be moved from one attribute to another, and an attribute that
is not needed has no influence. -/
theorem resolve_eq_iff_of_compile_nestedSearch :
    ∃ c text text', compile "Stock" .having nestedSearch = .ok c ∧
      c.resolve [("limit", .string "\\"), ("word", .string "a', '")] = .ok text ∧
      c.resolve [("limit", .string ""), ("word", .string "a\\', '")] = .ok text' ∧
      text ≠ text' ∧
      c.resolve [("limit", .string "\\"), ("word", .string "a', '"), ("year", .int 1)] =
        .ok text := by
  obtain ⟨c, h, hc⟩ : ∃ c, compile "Stock" .having nestedSearch = .ok c ∧
      c.alwaysTrue = false := ⟨_, rfl, rfl⟩
  have named {p : String → Prop} (hw : p "word") (hl : p "limit") :
      ∀ a ∈ nestedSearch.streamAttributes, p a := by
    show ∀ a ∈ ["word", "limit"], p a
    simp [hw, hl]
  have texts : nestedSearch.BoundToTexts [("limit", .string "\\"), ("word", .string "a', '")] :=
    named ⟨_, rfl⟩ ⟨_, rfl⟩
  have moved : nestedSearch.BoundToTexts [("limit", .string ""), ("word", .string "a\\', '")] :=
    named ⟨_, rfl⟩ ⟨_, rfl⟩
  have longer : nestedSearch.BoundToTexts
      [("limit", .string "\\"), ("word", .string "a', '"), ("year", .int 1)] :=
    named ⟨_, rfl⟩ ⟨_, rfl⟩
  obtain ⟨text, text', resolved, resolved', same⟩ := resolve_eq_iff_of_compile h hc texts moved
  obtain ⟨_, text'', again, resolved'', unneeded⟩ := resolve_eq_iff_of_compile h hc texts longer
  refine ⟨c, text, text', h, resolved, resolved', ?_, ?_⟩
  · intro equal
    have agree : some (Value.string "\\") = some (.string "") := same.1 equal "limit" (by decide)
    simp at agree
  · obtain rfl := Except.ok.inj (resolved.symm.trans again)
    rw [resolved'', ← unneeded.2 (named rfl rfl)]

end StreamTable
