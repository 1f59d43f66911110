/-!
# Templates

A `Template α` is a text with holes, each of them labelled by an `α`: a first piece of text, and
then holes, each followed by a piece of text.  So there is always one more piece of text than there
are holes, and a hole is known by its position.

Templates are joined by `Template.append`, which runs the last text of the one and the first text of
the other together, and by `Template.join` with a separator between them.

Main statements: appending is associative with the empty template as unit (`append_assoc`,
`append_empty`, `empty_append`), and the holes of templates put together are their holes in order
(`holes_append`, `holes_join`).
-/

namespace StreamTable

/-- A text with labelled holes. -/
structure Template (α : Type) where
  /-- The text before the first hole. -/
  lead : String
  /-- The holes, each with the text that follows it. -/
  rest : List (α × String)
  deriving DecidableEq, Repr

namespace Template

variable {α β : Type}

/-- A text without holes. -/
def text (s : String) : Template α := ⟨s, []⟩

/-- The template without text and holes. -/
def empty : Template α := text ""

instance : Inhabited (Template α) := ⟨empty⟩

/-- A single hole without any text. -/
def hole (a : α) : Template α := ⟨"", [(a, "")]⟩

/-- The pieces of a template whose first text is `lead`, followed by another template. -/
def appendRest (lead : String) : List (α × String) → Template α → Template α
  | [], t => ⟨lead ++ t.lead, t.rest⟩
  | (a, s) :: rest, t => let u := appendRest s rest t; ⟨lead, (a, u.lead) :: u.rest⟩

/-- One template after another. -/
def append (s t : Template α) : Template α := appendRest s.lead s.rest t

instance : Append (Template α) := ⟨append⟩

/-- Fixed text after a template. -/
def pushText (t : Template α) (s : String) : Template α := t ++ text s

/-- A hole after a template. -/
def pushHole (t : Template α) (a : α) : Template α := t ++ hole a

/-- Templates in order with a text between every two of them. -/
def join (separator : String) : List (Template α) → Template α
  | [] => empty
  | [t] => t
  | t :: u :: ts => t ++ text separator ++ join separator (u :: ts)

/-- The labels of the holes in their order. -/
def holes (t : Template α) : List α := t.rest.map (·.1)

/-- The pieces of text in their order. -/
def texts (t : Template α) : List String := t.lead :: t.rest.map (·.2)

/-- The number of holes. -/
def size (t : Template α) : Nat := t.rest.length

/-- The template has neither text nor holes. -/
def isEmpty (t : Template α) : Bool := t.rest.isEmpty && t.lead.isEmpty

/-- The template is one hole without any text. -/
def isHole (t : Template α) : Bool := t.rest.length == 1 && t.texts.all (·.isEmpty)

/-- The template with other labels. -/
def map (f : α → β) (t : Template α) : Template β := ⟨t.lead, t.rest.map fun (a, s) => (f a, s)⟩

/-- The text of the holes and pieces after the first piece, each hole filled by `f`. -/
def fillRest {ε : Type} (f : α → Except ε String) : List (α × String) → Except ε String
  | [] => .ok ""
  | (a, s) :: rest => do
    let filled ← f a
    let tail ← fillRest f rest
    return filled ++ s ++ tail

/-- The text of a template whose holes are filled by `f`, from left to right; the first hole that
cannot be filled decides the error. -/
def fill {ε : Type} (f : α → Except ε String) (t : Template α) : Except ε String := do
  return t.lead ++ (← fillRest f t.rest)

/-- How a hole is shown in a text that is not yet filled. -/
def mark : String := "?"

/-- The text with a mark in the place of each hole. -/
def shown (t : Template α) : String := t.lead ++ .join (t.rest.map fun p => mark ++ p.2)

/-! ### Appending and joining -/

theorem length_texts (t : Template α) : t.texts.length = t.holes.length + 1 := by
  simp [texts, holes]

@[simp] theorem holes_text (s : String) : (text s : Template α).holes = [] := rfl

@[simp] theorem holes_hole (a : α) : (hole a).holes = [a] := rfl

theorem append_def (s t : Template α) : s ++ t = appendRest s.lead s.rest t := rfl

theorem holes_appendRest (lead : String) (rest : List (α × String)) (t : Template α) :
    (appendRest lead rest t).holes = rest.map (·.1) ++ t.holes := by
  induction rest generalizing lead with
  | nil => rfl
  | cons p rest ih => exact congrArg (p.1 :: ·) (ih p.2)

@[simp] theorem holes_append (s t : Template α) : (s ++ t).holes = s.holes ++ t.holes :=
  holes_appendRest _ _ _

theorem appendRest_empty (lead : String) (rest : List (α × String)) :
    appendRest lead rest empty = ⟨lead, rest⟩ := by
  induction rest generalizing lead with
  | nil => simp [appendRest, empty, text]
  | cons p rest ih => simp [appendRest, ih]

@[simp] theorem append_empty (t : Template α) : t ++ empty = t := appendRest_empty _ _

@[simp] theorem empty_append (t : Template α) : empty ++ t = t := by
  simp [append_def, empty, text, appendRest]

theorem appendRest_append (lead : String) (rest : List (α × String)) (s t : Template α) :
    appendRest lead rest (s ++ t) = appendRest lead rest s ++ t := by
  induction rest generalizing lead with
  | nil =>
    obtain ⟨l, r⟩ := s
    cases r with
    | nil => simp [appendRest, append_def, String.append_assoc]
    | cons p r => simp [appendRest, append_def]
  | cons p rest ih =>
    simp only [appendRest, append_def] at ih ⊢
    rw [ih]

theorem append_assoc (s t u : Template α) : s ++ t ++ u = s ++ (t ++ u) :=
  (appendRest_append _ _ _ _).symm

theorem join_cons (separator : String) (t : Template α) {ts : List (Template α)} (h : ts ≠ []) :
    join separator (t :: ts) = t ++ text separator ++ join separator ts := by
  cases ts with
  | nil => exact absurd rfl h
  | cons u ts => rfl

theorem holes_join (separator : String) (ts : List (Template α)) :
    (join separator ts).holes = ts.flatMap holes := by
  induction ts with
  | nil => rfl
  | cons t ts ih =>
    cases ts with
    | nil => simp [join]
    | cons u ts => rw [join_cons _ _ (by simp)]; simp [ih]

end Template

end StreamTable
