import StreamTable.Template

/-!
# Filled templates

`Template.filled` fills the holes of a template by a function that cannot fail.  It turns appended
templates into appended texts (`filled_append`), so a statement about a text that was put together
part by part is an induction on the parts.

`Template.fill`, which can fail, is either the first failure or the filled text (`fill_eq`).  The
text with marks is the text filled with marks (`shown_eq_filled`).
-/

namespace StreamTable.Template

variable {α ε : Type}

/-- The text of a template whose holes are filled by a function that cannot fail. -/
def filled (f : α → String) (t : Template α) : String :=
  t.lead ++ .join (t.rest.map fun p => f p.1 ++ p.2)

@[simp] theorem filled_text (f : α → String) (s : String) : (text s).filled f = s := by
  simp [filled, text]

@[simp] theorem filled_hole (f : α → String) (a : α) : (hole a).filled f = f a := by
  simp [filled, hole]

theorem filled_appendRest (f : α → String) (lead : String) (rest : List (α × String))
    (t : Template α) :
    (appendRest lead rest t).filled f =
      lead ++ .join (rest.map fun p => f p.1 ++ p.2) ++ t.filled f := by
  induction rest generalizing lead with
  | nil => simp [appendRest, filled, String.append_assoc]
  | cons p rest ih =>
    have h := ih p.2
    simp only [filled] at h
    simp only [appendRest, filled, List.map_cons, String.join_cons, String.append_assoc] at h ⊢
    rw [h]

@[simp] theorem filled_append (f : α → String) (s t : Template α) :
    (s ++ t).filled f = s.filled f ++ t.filled f :=
  filled_appendRest f s.lead s.rest t

/-- Joined templates are filled to joined texts. -/
theorem filled_join (f : α → String) (separator : String) (ts : List (Template α)) :
    (join separator ts).filled f = separator.intercalate (ts.map (filled f)) := by
  induction ts with
  | nil => exact filled_text f ""
  | cons t ts ih =>
    cases ts with
    | nil => rw [List.map_singleton, String.intercalate_singleton, join]
    | cons u ts =>
      rw [join_cons _ _ (List.cons_ne_nil u ts), filled_append, filled_append, filled_text, ih]
      exact String.intercalate_cons_cons.symm

theorem shown_eq_filled (t : Template α) : t.shown = t.filled fun _ => mark := rfl

/-! ### Filling that can fail -/

theorem fillRest_eq {f : α → Except ε String} {error? : α → Option ε} {g : α → String}
    (h : ∀ a, f a = (error? a).elim (.ok (g a)) .error) (rest : List (α × String)) :
    fillRest f rest = ((rest.map (·.1)).findSome? error?).elim
      (.ok (.join (rest.map fun p => g p.1 ++ p.2))) .error := by
  induction rest with
  | nil => simp [fillRest]
  | cons p rest ih =>
    rw [fillRest, ih, h p.1]
    cases hp : error? p.1 with
    | some e => simp [hp, bind, Except.bind]
    | none =>
      cases hr : (rest.map (·.1)).findSome? error? with
      | some e => simp [hp, hr, bind, Except.bind]
      | none => simp [hp, hr, bind, Except.bind, pure, Except.pure, String.append_assoc]

/-- Filling fails with the first hole that fails, and otherwise gives the filled text. -/
theorem fill_eq {f : α → Except ε String} {error? : α → Option ε} {g : α → String}
    (h : ∀ a, f a = (error? a).elim (.ok (g a)) .error) (t : Template α) :
    t.fill f = (t.holes.findSome? error?).elim (.ok (t.filled g)) .error := by
  rw [fill, fillRest_eq h t.rest, holes]
  cases (t.rest.map (·.1)).findSome? error? with
  | some e => rfl
  | none => rfl

end StreamTable.Template
