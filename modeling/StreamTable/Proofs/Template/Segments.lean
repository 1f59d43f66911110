import Mathlib.Data.List.ModifyLast
import StreamTable.Condition.Basic
import StreamTable.Proofs.Template.Filling

/-!
# Templates as lists of texts

A template can be kept as two lists, its texts and the labels of its holes (`Segmented`).  Fixed
text is then added to the last text, a hole is added together with an empty text, and a template is
appended by adding its first text to the last one and moving the others over.  Templates are merged
one after the other, with a separator before all but the first.

Two lists need not belong to a template: without any text, added text is lost, and the empty
template is no unit.  But the operations on lists are those on templates
(`Template.segmented_append`, `Template.segmented_join`), and so whatever is built by them
(`Construction`) is a template (`Construction.segmented_build`).  Hence the laws of templates hold
for lists (`Construction.segments_monoid`).
-/

namespace StreamTable

variable {α : Type}

namespace Template

/-! ### Templates with other labels -/

section Map

variable {β : Type} (f : α → β)

@[simp] theorem map_text (s : String) : (text s).map f = text s := rfl

@[simp] theorem map_hole (a : α) : (hole a).map f = hole (f a) := rfl

/-- Other labels make no difference to how templates are put together. -/
@[simp] theorem map_append (s t : Template α) : (s ++ t).map f = s.map f ++ t.map f := by
  obtain ⟨lead, rest⟩ := s
  induction rest generalizing lead with
  | nil => rfl
  | cons p rest ih =>
    have tail := ih p.2
    simp only [append_def, map] at tail
    simp only [append_def, appendRest, map, List.map_cons] at tail ⊢
    rw [← tail]

theorem map_join (separator : String) (ts : List (Template α)) :
    (join separator ts).map f = join separator (ts.map (map f)) := by
  induction ts with
  | nil => rfl
  | cons t ts ih =>
    cases ts with
    | nil => rfl
    | cons u ts =>
      rw [join_cons _ _ (List.cons_ne_nil u ts), map_append, map_append, map_text, ih]
      rfl

theorem texts_map (t : Template α) : (t.map f).texts = t.texts := by
  rw [texts, texts, map, List.map_map]
  rfl

theorem holes_map (t : Template α) : (t.map f).holes = t.holes.map f := by
  rw [holes, holes, map, List.map_map, List.map_map]
  rfl

end Map

/-! ### Joined templates -/

theorem text_append (s s' : String) : (text (s ++ s') : Template α) = text s ++ text s' := rfl

theorem join_append_cons (separator : String) (s t : Template α) (ts : List (Template α)) :
    join separator ((s ++ t) :: ts) = s ++ join separator (t :: ts) := by
  cases ts with
  | nil => rfl
  | cons u ts =>
    rw [join_cons _ _ (List.cons_ne_nil u ts), join_cons _ _ (List.cons_ne_nil u ts)]
    simp only [append_assoc]

/-- Two lists of templates are joined with one separator between them. -/
theorem join_append (separator : String) {ss ts : List (Template α)} (hs : ss ≠ []) (ht : ts ≠ []) :
    join separator (ss ++ ts) = join separator ss ++ text separator ++ join separator ts := by
  induction ss with
  | nil => exact absurd rfl hs
  | cons s ss ih =>
    cases ss with
    | nil => exact join_cons separator s ht
    | cons s' ss =>
      have rest := ih (List.cons_ne_nil s' ss)
      rw [List.cons_append, join_cons _ _ (by simp), rest, join_cons _ s (List.cons_ne_nil s' ss)]
      simp only [append_assoc]

/-- Templates can be joined in groups, none of which is empty. -/
theorem join_flatten (separator : String) {tss : List (List (Template α))}
    (h : ∀ ts ∈ tss, ts ≠ []) :
    join separator (tss.map (join separator)) = join separator tss.flatten := by
  induction tss with
  | nil => rfl
  | cons ts tss ih =>
    obtain ⟨first, others⟩ := List.forall_mem_cons.1 h
    cases tss with
    | nil => simp [join]
    | cons us tss =>
      have rest : (us :: tss).flatten ≠ [] := by
        simpa using fun none => absurd none (others us List.mem_cons_self)
      rw [List.map_cons, join_cons _ _ (by simp), ih others, List.flatten_cons (l := ts),
        join_append _ first rest]

end Template

/-! ### Lists of texts and labels -/

/-- Texts and the labels of the holes between them. -/
structure Segmented (α : Type) where
  /-- The texts in their order. -/
  texts : List String
  /-- The labels in their order. -/
  holes : List α
  deriving DecidableEq, Repr

namespace Segmented

/-- A single text. -/
def ofText (s : String) : Segmented α := ⟨[s], []⟩

/-- A single text, which is empty. -/
def empty : Segmented α := ofText ""

instance : Inhabited (Segmented α) := ⟨empty⟩

/-- Fixed text added to the last text, if there is one. -/
def pushText (p : Segmented α) (s : String) : Segmented α :=
  { p with texts := p.texts.modifyLast (· ++ s) }

/-- A hole at the end, with an empty text after it. -/
def pushHole (p : Segmented α) (a : α) : Segmented α := ⟨p.texts ++ [""], p.holes ++ [a]⟩

/-- One after the other: the first text is added to the last one, the other texts and the labels are
moved over. -/
def append (p q : Segmented α) : Segmented α :=
  match q.texts with
  | [] => ⟨p.texts, p.holes ++ q.holes⟩
  | first :: others => ⟨(p.pushText first).texts ++ others, p.holes ++ q.holes⟩

instance : Append (Segmented α) := ⟨append⟩

/-- Add what comes at a position, with the separator before it unless it is the first. -/
def mergeStep (separator : String) (merged : Segmented α) (next : Segmented α × Nat) :
    Segmented α :=
  (if 0 < next.2 then merged.pushText separator else merged) ++ next.1

/-- All in order, with a separator between every two of them. -/
def merge (separator : String) (ps : List (Segmented α)) : Segmented α :=
  ps.zipIdx.foldl (mergeStep separator) empty

/-- The texts with a mark between every two of them. -/
def shown (p : Segmented α) : String := Template.mark.intercalate p.texts

/-- There is one more text than there are holes. -/
def Balanced (p : Segmented α) : Prop := p.texts.length = p.holes.length + 1

theorem append_def (p q : Segmented α) : p ++ q = p.append q := rfl

end Segmented

namespace Template

/-- The lists of a template. -/
def segmented (t : Template α) : Segmented α := ⟨t.texts, t.holes⟩

theorem rest_eq_zip (t : Template α) : t.rest = t.holes.zip (t.rest.map (·.2)) := by
  rw [holes, List.zip_map']
  simp

/-- A template is known by its lists. -/
theorem segmented_injective : Function.Injective (segmented (α := α)) := by
  intro s t h
  obtain ⟨texts, holes⟩ := Segmented.mk.inj h
  obtain ⟨lead, afters⟩ := List.cons.inj texts
  have rest : s.rest = t.rest := by rw [rest_eq_zip s, rest_eq_zip t, holes, afters]
  obtain ⟨l, r⟩ := s
  obtain ⟨l', r'⟩ := t
  exact congr (congrArg mk lead) rest

/-- The lists of templates are those with one more text than holes. -/
theorem exists_segmented_iff {p : Segmented α} :
    (∃ t : Template α, t.segmented = p) ↔ p.Balanced := by
  constructor
  · rintro ⟨t, rfl⟩
    exact t.length_texts
  · intro balanced
    obtain ⟨texts, holes⟩ := p
    cases texts with
    | nil => cases balanced
    | cons lead afters =>
      have same : afters.length = holes.length := Nat.succ.inj balanced
      refine ⟨⟨lead, holes.zip afters⟩, ?_⟩
      simp [segmented, Template.texts, Template.holes, List.map_fst_zip, List.map_snd_zip, same]

theorem texts_appendRest (lead : String) (rest : List (α × String)) (t : Template α) :
    (appendRest lead rest t).texts =
      (lead :: rest.map (·.2)).modifyLast (· ++ t.lead) ++ t.rest.map (·.2) := by
  induction rest generalizing lead with
  | nil => rfl
  | cons p rest ih =>
    have last : (lead :: p.2 :: rest.map (·.2)).modifyLast (· ++ t.lead) =
        lead :: (p.2 :: rest.map (·.2)).modifyLast (· ++ t.lead) :=
      List.modifyLast_append_of_right_ne_nil _ [lead] _ (List.cons_ne_nil _ _)
    rw [List.map_cons, last, List.cons_append, ← ih p.2]
    rfl

@[simp] theorem segmented_text (s : String) : (text s : Template α).segmented = .ofText s := rfl

@[simp] theorem segmented_empty : (empty : Template α).segmented = .empty := rfl

/-- Appending adds the first text of the one to the last text of the other, for lists as for
templates. -/
@[simp] theorem segmented_append (s t : Template α) :
    (s ++ t).segmented = s.segmented ++ t.segmented := by
  have texts : (s ++ t).texts = _ := texts_appendRest s.lead s.rest t
  rw [segmented, texts, holes_append]
  rfl

@[simp] theorem segmented_pushText (t : Template α) (s : String) :
    (t.pushText s).segmented = t.segmented.pushText s := by
  rw [pushText, segmented_append]
  simp [Segmented.append_def, Segmented.append, Segmented.ofText, Segmented.pushText]

/-- An empty text makes no difference. -/
theorem modifyLast_texts (t : Template α) : t.texts.modifyLast (· ++ "") = t.texts := by
  have last := List.dropLast_concat_getLast (List.cons_ne_nil t.lead (t.rest.map (·.2)))
  show List.modifyLast _ (t.lead :: t.rest.map (·.2)) = t.lead :: t.rest.map (·.2)
  rw [← last, List.modifyLast_concat, String.append_empty]

/-- A hole after a template is one after its lists, with an empty text behind it. -/
@[simp] theorem segmented_pushHole (t : Template α) (a : α) :
    (t.pushHole a).segmented = t.segmented.pushHole a := by
  rw [pushHole, segmented_append]
  show Segmented.mk (t.texts.modifyLast (· ++ "") ++ [""]) _ = _
  rw [modifyLast_texts]
  rfl

/-- Templates that are merged one after the other, after a first one. -/
theorem foldl_mergeStep (separator : String) (t : Template α) (ts : List (Template α)) {n : Nat}
    (later : 0 < n) :
    ((ts.map segmented).zipIdx n).foldl (Segmented.mergeStep separator) t.segmented =
      (join separator (t :: ts)).segmented := by
  induction ts generalizing t n with
  | nil => rfl
  | cons u ts ih =>
    have step : Segmented.mergeStep separator t.segmented (u.segmented, n) =
        (t ++ text separator ++ u).segmented := by
      rw [Segmented.mergeStep, if_pos later, ← segmented_pushText, ← segmented_append]
      rfl
    rw [List.map_cons, List.zipIdx_cons, List.foldl_cons, step, ih _ (Nat.succ_pos n),
      join_append_cons, ← join_cons separator t (List.cons_ne_nil u ts)]

/-- Merging the lists of templates gives the lists of the joined template. -/
@[simp] theorem segmented_join (separator : String) (ts : List (Template α)) :
    (join separator ts).segmented = .merge separator (ts.map segmented) := by
  cases ts with
  | nil => rfl
  | cons t ts =>
    have first : Segmented.mergeStep separator .empty (t.segmented, 0) = t.segmented := by
      rw [Segmented.mergeStep, if_neg (Nat.lt_irrefl 0), ← segmented_empty, ← segmented_append,
        empty_append]
    rw [Segmented.merge, List.map_cons, List.zipIdx_cons, List.foldl_cons, first,
      foldl_mergeStep separator t ts (Nat.succ_pos 0)]

theorem intercalate_cons_eq_join (separator lead : String) (afters : List String) :
    separator.intercalate (lead :: afters) = lead ++ .join (afters.map (separator ++ ·)) := by
  induction afters generalizing lead with
  | nil => simp
  | cons after afters ih =>
    rw [String.intercalate_cons_cons, ih]
    simp [String.append_assoc]

/-- The texts with marks between them are the template with its marks. -/
theorem shown_segmented (t : Template α) : t.segmented.shown = t.shown := by
  show mark.intercalate (t.lead :: t.rest.map (·.2)) = _
  rw [intercalate_cons_eq_join, List.map_map, shown]
  rfl

/-- Templates are compared as lists: the texts have to be equal, and the labels the same. -/
theorem sameBy_iff (same : α → α → Bool) (s t : Template α) :
    s.sameBy same t = true ↔
      s.texts = t.texts ∧ List.Forall₂ (fun a b => same a b = true) s.holes t.holes := by
  obtain ⟨lead, rest⟩ := s
  obtain ⟨lead', rest'⟩ := t
  induction rest generalizing rest' with
  | nil => cases rest' <;> simp [sameBy, texts, holes]
  | cons p rest ih =>
    cases rest' with
    | nil => simp [sameBy, texts, holes]
    | cons p' rest' =>
      have others := ih rest'
      simp only [sameBy, texts, holes, Bool.and_eq_true, beq_iff_eq, List.cons.injEq] at others
      simp only [sameBy, texts, holes, List.length_cons, Nat.add_right_cancel_iff,
        List.zip_cons_cons, List.all_cons, Bool.and_eq_true, beq_iff_eq, List.map_cons,
        List.cons.injEq, List.forall₂_cons]
      rw [and_left_comm, others]
      constructor
      · rintro ⟨⟨label, text⟩, ⟨lead, texts⟩, labels⟩
        exact ⟨⟨lead, text, texts⟩, label, labels⟩
      · rintro ⟨⟨lead, text, texts⟩, label, labels⟩
        exact ⟨⟨label, text⟩, ⟨lead, texts⟩, labels⟩

end Template

/-! ### Steps -/

/-- How a template is put together. -/
inductive Construction (α : Type) where
  /-- The template without text and holes. -/
  | new
  /-- The template that is there by default. -/
  | initial
  /-- Fixed text only. -/
  | text (s : String)
  /-- Fixed text after a template. -/
  | pushText (c : Construction α) (s : String)
  /-- A hole after a template. -/
  | pushHole (c : Construction α) (a : α)
  /-- One template after another. -/
  | append (c d : Construction α)
  /-- Templates in order, with a text between every two of them. -/
  | merge (cs : List (Construction α)) (separator : String)

namespace Construction

mutual

/-- The template that is built. -/
def build : Construction α → Template α
  | new => .empty
  | initial => default
  | text s => .text s
  | pushText c s => c.build.pushText s
  | pushHole c a => c.build.pushHole a
  | append c d => c.build ++ d.build
  | merge cs separator => .join separator (buildAll cs)

/-- The templates that are built. -/
def buildAll : List (Construction α) → List (Template α)
  | [] => []
  | c :: cs => c.build :: buildAll cs

end

mutual

/-- The lists that are built. -/
def segments : Construction α → Segmented α
  | new => .empty
  | initial => default
  | text s => .ofText s
  | pushText c s => c.segments.pushText s
  | pushHole c a => c.segments.pushHole a
  | append c d => c.segments ++ d.segments
  | merge cs separator => .merge separator (segmentsAll cs)

/-- The lists that are built, in order. -/
def segmentsAll : List (Construction α) → List (Segmented α)
  | [] => []
  | c :: cs => c.segments :: segmentsAll cs

end

theorem buildAll_eq (cs : List (Construction α)) : buildAll cs = cs.map build := by
  induction cs with
  | nil => rfl
  | cons c cs ih => rw [buildAll, ih, List.map_cons]

mutual

/-- The lists that are built are those of the template that is built. -/
theorem segmented_build : ∀ c : Construction α, c.build.segmented = c.segments
  | new | initial | text _ => rfl
  | pushText c s => by rw [build, segments, Template.segmented_pushText, segmented_build c]
  | pushHole c a => by rw [build, segments, Template.segmented_pushHole, segmented_build c]
  | append c d => by
    rw [build, segments, Template.segmented_append, segmented_build c, segmented_build d]
  | merge cs separator => by
    rw [build, segments, Template.segmented_join, map_segmented_buildAll cs]

theorem map_segmented_buildAll :
    ∀ cs : List (Construction α), (buildAll cs).map Template.segmented = segmentsAll cs
  | [] => rfl
  | c :: cs => by
    rw [buildAll, segmentsAll, List.map_cons, segmented_build c, map_segmented_buildAll cs]

end

/-- Two constructions give the same lists if they give the same template, and only then. -/
theorem segments_eq_iff {c d : Construction α} : c.segments = d.segments ↔ c.build = d.build := by
  rw [← segmented_build, ← segmented_build, Template.segmented_injective.eq_iff]

theorem holes_segments (c : Construction α) : c.segments.holes = c.build.holes := by
  rw [← segmented_build]
  rfl

theorem texts_segments (c : Construction α) : c.segments.texts = c.build.texts := by
  rw [← segmented_build]
  rfl

theorem shown_segments (c : Construction α) : c.segments.shown = c.build.shown := by
  rw [← segmented_build, Template.shown_segmented]

/-- Whatever is built by the steps has one more text than holes. -/
theorem balanced_segments (c : Construction α) : c.segments.Balanced := by
  rw [← segmented_build]
  exact Template.exists_segmented_iff.1 ⟨c.build, rfl⟩

theorem segments_append_assoc (c d e : Construction α) :
    ((c.append d).append e).segments = (c.append (d.append e)).segments :=
  segments_eq_iff.2 (Template.append_assoc _ _ _)

theorem segments_new_append (c : Construction α) : (new.append c).segments = c.segments :=
  segments_eq_iff.2 (Template.empty_append _)

theorem segments_append_new (c : Construction α) : (c.append new).segments = c.segments :=
  segments_eq_iff.2 (Template.append_empty _)

theorem holes_append (c d : Construction α) :
    (c.append d).segments.holes = c.segments.holes ++ d.segments.holes := by
  simp only [holes_segments, build, Template.holes_append]

theorem shown_append (c d : Construction α) :
    (c.append d).segments.shown = c.segments.shown ++ d.segments.shown := by
  simp only [shown_segments, build, Template.shown_eq_filled, Template.filled_append]

theorem segments_pushText (c : Construction α) (s : String) :
    (c.pushText s).segments = (c.append (text s)).segments :=
  segments_eq_iff.2 rfl

theorem segments_pushHole (c : Construction α) (a : α) :
    (c.pushHole a).segments = (c.append (new.pushHole a)).segments :=
  segments_eq_iff.2 rfl

theorem holes_merge (cs : List (Construction α)) (separator : String) :
    (merge cs separator).segments.holes = cs.flatMap (·.segments.holes) := by
  simp only [holes_segments, build, buildAll_eq, Template.holes_join, List.flatMap_map]

theorem shown_merge (cs : List (Construction α)) (separator : String) :
    (merge cs separator).segments.shown = separator.intercalate (cs.map (·.segments.shown)) := by
  simp only [shown_segments, build, buildAll_eq, Template.shown_eq_filled, Template.filled_join,
    List.map_map]
  rfl

/-- Constructions can be merged in groups, none of which is empty. -/
theorem segments_merge_flatten {css : List (List (Construction α))} (h : ∀ cs ∈ css, cs ≠ [])
    (separator : String) :
    (merge (css.map (merge · separator)) separator).segments =
      (merge css.flatten separator).segments := by
  refine segments_eq_iff.2 ?_
  have groups : ∀ ts ∈ css.map (List.map build), ts ≠ [] := by
    simpa using h
  have merged : build ∘ (merge · separator) = Template.join separator ∘ List.map (@build α) := by
    funext cs
    exact congrArg (Template.join separator) (buildAll_eq cs)
  have joined := Template.join_flatten separator groups
  rw [List.map_map, ← merged, ← List.map_flatten] at joined
  rw [build, build, buildAll_eq, buildAll_eq, List.map_map]
  exact joined

/-- Templates that are built by steps are a monoid, and merging respects it.  The lists that the
steps make are those of the template; there is one more text than there are holes; appending is
associative and has the empty template as its unit; the holes and the shown text of an append are
those of its parts in order, as they are with separators for a merge; added text and holes are
templates that are appended; and merges are merged like their parts.  All equations are between
lists of texts and labels, and templates are compared as such lists. -/
theorem segments_monoid (c d e : Construction α) (cs ds : List (Construction α))
    (s separator : String) (a : α) :
    c.build.segmented = c.segments ∧ c.segments.texts.length = c.segments.holes.length + 1 ∧
    ((c.append d).append e).segments = (c.append (d.append e)).segments ∧
    ((new.append c).segments = c.segments ∧ (c.append new).segments = c.segments ∧
      (initial : Construction α).segments = new.segments) ∧
    ((c.append d).segments.holes = c.segments.holes ++ d.segments.holes ∧
      (c.append d).segments.shown = c.segments.shown ++ d.segments.shown) ∧
    ((c.pushText s).segments = (c.append (text s)).segments ∧
      (c.pushHole a).segments = (c.append (new.pushHole a)).segments) ∧
    ((merge cs separator).segments.holes = cs.flatMap (·.segments.holes) ∧
      (merge cs separator).segments.shown = separator.intercalate (cs.map (·.segments.shown))) ∧
    (cs ≠ [] → ds ≠ [] →
      (merge [merge cs separator, merge ds separator] separator).segments =
        (merge (cs ++ ds) separator).segments) ∧
    ∀ same : α → α → Bool, c.build.sameBy same d.build = true ↔
      c.segments.texts = d.segments.texts ∧
        List.Forall₂ (fun a b => same a b = true) c.segments.holes d.segments.holes := by
  refine ⟨c.segmented_build, c.balanced_segments, segments_append_assoc c d e,
    ⟨segments_new_append c, segments_append_new c, rfl⟩, ⟨holes_append c d, shown_append c d⟩,
    ⟨segments_pushText c s, segments_pushHole c a⟩, ⟨holes_merge cs separator,
    shown_merge cs separator⟩, fun hcs hds => ?_, fun same => ?_⟩
  · have groups : ∀ es ∈ [cs, ds], es ≠ [] := by
      simpa using ⟨hcs, hds⟩
    simpa using segments_merge_flatten groups separator
  · simp only [texts_segments, holes_segments]
    exact Template.sameBy_iff same c.build d.build

/-- The test of a field against an attribute of the same name. -/
def fieldTest (name : String) : Construction Parameter :=
  ((new.pushHole (.field name .string)).pushText " = ").pushHole (.attribute name .string)

/-- Two tests, and an empty template between two others. -/
theorem segments_monoid_fieldTests :
    let tests := [fieldTest "symbol", fieldTest "venue"]
    let parts := [fieldTest "side", new, text "true"]
    (merge [merge tests " AND ", merge parts " AND "] " AND ").segments =
        (merge (tests ++ parts) " AND ").segments ∧
      (merge (tests ++ parts) " AND ").segments.texts =
        ["", " = ", " AND ", " = ", " AND ", " = ", " AND  AND true"] ∧
      (merge (tests ++ parts) " AND ").segments.shown =
        "? = ? AND ? = ? AND ? = ? AND  AND true" := by
  intro tests parts
  obtain ⟨-, -, -, -, -, -, -, merged, -⟩ := segments_monoid new new new tests parts "" " AND "
    (.attribute "symbol" .string)
  refine ⟨merged (List.cons_ne_nil _ _) (List.cons_ne_nil _ _), ?_, ?_⟩
  · rw [texts_segments]
    decide
  · rw [shown_segments]
    decide

end Construction

end StreamTable
