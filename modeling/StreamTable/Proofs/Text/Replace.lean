import Mathlib.Data.List.Infix
import StreamTable.Text.Replace

/-!
# Texts with replaced parts

A text in which the pattern does not occur is left as it is (`replaceFrom_of_notInfix`), and apart
from putting a pattern in its own place these are the only texts that are
(`replaceAll_eq_self_iff`).  A character that the pattern does not have divides a text into parts
that are replaced on their own (`replaceFrom_append_cons`).
-/

namespace StreamTable.Text

variable {pattern new : List Char}

theorem replaceFrom_skip (n : Nat) (cs : List Char) :
    replaceFrom pattern new n cs = replaceFrom pattern new 0 (cs.drop n) := by
  induction cs generalizing n with
  | nil => rw [List.drop_nil]; cases n <;> rfl
  | cons c cs ih =>
    cases n with
    | zero => rfl
    | succ n => exact ih n

theorem replaceFrom_of_isPrefixOf {c : Char} {cs : List Char} (h : pattern <+: c :: cs) :
    replaceFrom pattern new 0 (c :: cs) =
      new ++ replaceFrom pattern new (pattern.length - 1) cs :=
  if_pos (List.isPrefixOf_iff_prefix.2 h)

theorem replaceFrom_of_not_isPrefixOf {c : Char} {cs : List Char} (h : ¬ pattern <+: c :: cs) :
    replaceFrom pattern new 0 (c :: cs) = c :: replaceFrom pattern new 0 cs :=
  if_neg fun hp => h (List.isPrefixOf_iff_prefix.1 hp)

/-- An occurrence at the beginning is replaced as a whole. -/
theorem replaceFrom_append (h : pattern ≠ []) (cs : List Char) :
    replaceFrom pattern new 0 (pattern ++ cs) = new ++ replaceFrom pattern new 0 cs := by
  obtain ⟨c, rest, rfl⟩ := List.exists_cons_of_ne_nil h
  rw [List.cons_append, replaceFrom_of_isPrefixOf (List.prefix_append _ _), replaceFrom_skip,
    List.length_cons, Nat.add_sub_cancel, List.drop_left]

theorem replaceFrom_of_notInfix {cs : List Char} (h : ¬ pattern <:+: cs) :
    replaceFrom pattern new 0 cs = cs := by
  induction cs with
  | nil => rfl
  | cons c cs ih =>
    rw [List.infix_cons_iff, not_or] at h
    rw [replaceFrom_of_not_isPrefixOf h.1, ih h.2]

/-! ### Divided texts -/

/-- A prefix that lacks a character ends before it. -/
theorem prefix_append_cons_iff {c : Char} (hc : c ∉ pattern) (cs ds : List Char) :
    pattern <+: cs ++ c :: ds ↔ pattern <+: cs := by
  constructor
  · rintro ⟨rest, h⟩
    rcases List.append_eq_append_iff.1 h with ⟨as, rfl, _⟩ | ⟨bs, rfl, hb⟩
    · exact List.prefix_append _ _
    · cases bs with
      | nil => rw [List.append_nil]
      | cons b bs =>
        obtain ⟨rfl, _⟩ := List.cons.inj hb
        exact absurd (List.mem_append_right cs List.mem_cons_self) hc
  · intro h
    exact h.trans (List.prefix_append _ _)

/-- A character that is not in the pattern divides the text, and both sides are replaced by
themselves. -/
theorem replaceFrom_append_cons (h : pattern ≠ []) {c : Char} (hc : c ∉ pattern) {n : Nat}
    {cs : List Char} (hn : n ≤ cs.length) (ds : List Char) :
    replaceFrom pattern new n (cs ++ c :: ds) =
      replaceFrom pattern new n cs ++ c :: replaceFrom pattern new 0 ds := by
  -- What is skipped is the rest of an occurrence, so it never reaches the dividing character.
  induction cs generalizing n with
  | nil =>
    obtain rfl : n = 0 := Nat.le_zero.1 hn
    refine replaceFrom_of_not_isPrefixOf fun hp => h ?_
    exact List.prefix_nil.1 ((prefix_append_cons_iff hc [] ds).1 hp)
  | cons d cs ih =>
    cases n with
    | succ n => exact ih (Nat.le_of_succ_le_succ hn)
    | zero =>
      by_cases hp : pattern <+: d :: cs
      · have short : pattern.length - 1 ≤ cs.length := by
          have := hp.length_le
          rw [List.length_cons] at this
          omega
        have long : pattern <+: d :: (cs ++ c :: ds) := hp.trans (List.prefix_append _ _)
        rw [List.cons_append, replaceFrom_of_isPrefixOf long, replaceFrom_of_isPrefixOf hp,
          ih short, List.append_assoc]
      · have long : ¬ pattern <+: d :: (cs ++ c :: ds) :=
          fun hl => hp ((prefix_append_cons_iff hc (d :: cs) ds).1 hl)
        rw [List.cons_append, replaceFrom_of_not_isPrefixOf long, replaceFrom_of_not_isPrefixOf hp,
          ih (Nat.zero_le _), List.cons_append]

/-- The parts of a text before and after a character that the pattern does not have are replaced
alone. -/
theorem replaceAll_divided {pattern : String} (h : pattern ≠ "") {c : Char}
    (hc : c ∉ pattern.toList) (new s t : String) :
    replaceAll pattern new (s ++ String.singleton c ++ t) =
      replaceAll pattern new s ++ String.singleton c ++ replaceAll pattern new t := by
  have nonempty : pattern.toList ≠ [] := fun hn => h (String.toList_eq_nil_iff.1 hn)
  have text : (s ++ String.singleton c ++ t).toList = s.toList ++ c :: t.toList := by simp
  rw [← String.toList_inj, replaceAll, String.toList_ofList, text,
    replaceFrom_append_cons nonempty hc (Nat.zero_le _)]
  simp [replaceAll]

theorem replaceAll_pattern {pattern : String} (h : pattern ≠ "") (new : String) :
    replaceAll pattern new pattern = new := by
  have nonempty : pattern.toList ≠ [] := fun hn => h (String.toList_eq_nil_iff.1 hn)
  have whole : replaceFrom pattern.toList new.toList 0 (pattern.toList ++ []) =
      new.toList ++ [] := replaceFrom_append nonempty []
  rw [List.append_nil, List.append_nil] at whole
  rw [← String.toList_inj, replaceAll, String.toList_ofList, whole]

/-! ### Texts that stay as they are -/

/-- The first occurrence is replaced, whatever is put in, and the search goes on after it. -/
theorem exists_replaceFrom_of_infix (h : pattern ≠ []) {cs : List Char} (hi : pattern <:+: cs) :
    ∃ before following, cs = before ++ (pattern ++ following) ∧
      ∀ new, replaceFrom pattern new 0 cs =
        before ++ (new ++ replaceFrom pattern new 0 following) := by
  induction cs with
  | nil => exact absurd (List.infix_nil.1 hi) h
  | cons c cs ih =>
    by_cases hp : pattern <+: c :: cs
    · obtain ⟨following, hf⟩ := hp
      refine ⟨[], following, hf.symm, fun new => ?_⟩
      rw [← hf, replaceFrom_append h]
      rfl
    · obtain ⟨before, following, rfl, replaced⟩ := ih ((List.infix_cons_iff.1 hi).resolve_left hp)
      refine ⟨c :: before, following, rfl, fun new => ?_⟩
      rw [replaceFrom_of_not_isPrefixOf hp, replaced new, List.cons_append]

/-- A text is one without an occurrence, or what follows its first occurrence is a shorter text. -/
theorem induction_on_occurrences (h : pattern ≠ []) {P : List Char → Prop}
    (absent : ∀ cs, ¬ pattern <:+: cs → P cs)
    (first : ∀ before following,
      (∀ new, replaceFrom pattern new 0 (before ++ (pattern ++ following)) =
        before ++ (new ++ replaceFrom pattern new 0 following)) →
      P following → P (before ++ (pattern ++ following))) (cs : List Char) : P cs := by
  induction hn : cs.length using Nat.strong_induction_on generalizing cs with
  | _ n ih =>
    by_cases hi : pattern <:+: cs
    · obtain ⟨before, following, rfl, replaced⟩ := exists_replaceFrom_of_infix h hi
      have positive := List.length_pos_of_ne_nil h
      have shorter : following.length < n := by
        simp only [List.length_append] at hn
        omega
      exact first before following replaced (ih following.length shorter following rfl)
    · exact absent cs hi

/-- Every replacement changes the length by as much as the first one. -/
theorem length_replaceFrom (h : pattern ≠ []) (cs : List Char) :
    ∃ k, ∀ new, (replaceFrom pattern new 0 cs).length + k * pattern.length =
      cs.length + k * new.length := by
  induction cs using induction_on_occurrences h with
  | absent cs hi =>
    exact ⟨0, fun new => by rw [replaceFrom_of_notInfix hi, Nat.zero_mul, Nat.zero_mul]⟩
  | first before following replaced ih =>
    obtain ⟨k, hk⟩ := ih
    refine ⟨k + 1, fun new => ?_⟩
    have rest := hk new
    simp only [replaced new, List.length_append, Nat.succ_mul]
    omega

theorem replaceFrom_self (h : pattern ≠ []) (cs : List Char) :
    replaceFrom pattern pattern 0 cs = cs := by
  induction cs using induction_on_occurrences h with
  | absent cs hi => exact replaceFrom_of_notInfix hi
  | first before following replaced ih => rw [replaced pattern, ih]

theorem replaceFrom_eq_self_iff (h : pattern ≠ []) {cs : List Char} :
    replaceFrom pattern new 0 cs = cs ↔ ¬ pattern <:+: cs ∨ new = pattern := by
  constructor
  · intro same
    by_cases hi : pattern <:+: cs
    · obtain ⟨before, following, rfl, replaced⟩ := exists_replaceFrom_of_infix h hi
      rw [replaced new] at same
      have first := List.append_cancel_left same
      -- With so many further replacements the lengths can only agree if each keeps its own.
      obtain ⟨k, hk⟩ := length_replaceFrom h following
      have rest := hk new
      have whole := congrArg List.length first
      simp only [List.length_append] at whole
      have multiple : (k + 1) * new.length = (k + 1) * pattern.length := by
        rw [Nat.succ_mul, Nat.succ_mul]
        omega
      exact .inr (List.append_inj first (Nat.eq_of_mul_eq_mul_left k.succ_pos multiple)).1
    · exact .inl hi
  · rintro (hi | rfl)
    · exact replaceFrom_of_notInfix hi
    · exact replaceFrom_self h cs

/-- A text stays as it is just if the pattern is not in it, or is replaced by itself. -/
theorem replaceAll_eq_self_iff {pattern new s : String} (h : pattern ≠ "") :
    replaceAll pattern new s = s ↔ ¬ pattern.toList <:+: s.toList ∨ new = pattern := by
  have nonempty : pattern.toList ≠ [] := fun hn => h (String.toList_eq_nil_iff.1 hn)
  rw [replaceAll, ← String.toList_inj, String.toList_ofList, replaceFrom_eq_self_iff nonempty,
    String.toList_inj]

/-- A text that lacks a character of the pattern is left as it is. -/
theorem replaceAll_of_notMem {pattern s : String} {c : Char} (hp : c ∈ pattern.toList)
    (hs : c ∉ s.toList) (new : String) : replaceAll pattern new s = s := by
  have nonempty : pattern ≠ "" := by
    rintro rfl
    cases hp
  exact (replaceAll_eq_self_iff nonempty).2 (.inl fun infixed => hs (infixed.subset hp))

end StreamTable.Text
