import StreamTable.Proofs.Query.Tokens
import StreamTable.Proofs.Value.Literals

/-!
# The tokens of literals

No literal has a token that decides how a query is read, and none has a blank outside of quotes,
whatever the value and the type of its placeholder (`Value.silent_literal`,
`Value.silent_textLiteral`).  Quoted text is a single token that gives the text back
(`Token.tokens?_encode`).  JSON text is marks, numbers, the three constants and texts in double
quotes (`Json.silent_chars`), and numbers are written with characters that no keyword is made of
(`Token.silent_of_isNumeral`).
-/

namespace StreamTable

open Value (isNumeral)

namespace Token

open Scanner

/-! ### Silent texts -/

/-- The token has no part in how a query is read, and is no blank. -/
def isSilent (t : Token) : Bool := !t.isStructural && t != .mark ' '

/-- The text ends outside of quotes, and all of its tokens are silent. -/
def Silent (cs : List Char) : Prop := (tokens? cs).any (·.all isSilent) = true

instance (cs : List Char) : Decidable (Silent cs) := inferInstanceAs (Decidable (_ = true))

/-- A text is silent if it can be scanned, and has only tokens without structure. -/
theorem silent_iff {cs : List Char} :
    Silent cs ↔ ∃ ts, tokens? cs = some ts ∧ ∀ t ∈ ts, isSilent t = true := by
  simp [Silent, Option.any_eq_true, List.all_eq_true]

theorem isStructural_of_isSilent {t : Token} (h : isSilent t = true) : t.isStructural = false := by
  rw [isSilent, Bool.and_eq_true, Bool.not_eq_true'] at h
  exact h.1

theorem Silent.outline? {cs : List Char} (h : Silent cs) : Token.outline? cs = some [] := by
  obtain ⟨ts, scanned, silent⟩ := silent_iff.1 h
  rw [Token.outline?, scanned, Option.map_some, List.filter_eq_nil_iff.2]
  intro t ht
  simp [isStructural_of_isSilent (silent t ht)]

/-- Silent texts can be put together where they do not run into one another. -/
theorem Silent.append {cs ds : List Char} (hs : Silent cs) (ht : Silent ds) (seam : Seam cs ds) :
    Silent (cs ++ ds) := by
  obtain ⟨ts, hts, left⟩ := silent_iff.1 hs
  obtain ⟨us, hus, right⟩ := silent_iff.1 ht
  exact silent_iff.2
    ⟨ts ++ us, tokens?_append hts hus seam, List.forall_mem_append.2 ⟨left, right⟩⟩

/-! ### Quoted text -/

/-- Inside of a quoted text nothing is escaped twice, so the scanner stays in it up to the closing
quote. -/
theorem scan_encodeBody (run : List Char) (ts : List Token) (cs : List Char) :
    scan ⟨.text, run, ts⟩ (Text.Quoted.encodeBody cs) = ⟨.text, run ++ cs, ts⟩ := by
  induction cs generalizing run with
  | nil => rw [List.append_nil]; rfl
  | cons c cs ih =>
    have pushed : run ++ c :: cs = run ++ [c] ++ cs := by simp
    rw [pushed, ← ih, Text.Quoted.encodeBody]
    split
    · -- The escape and the character after it are two steps.
      rfl
    · next plain =>
      obtain ⟨quote, backslash⟩ : c ≠ '\'' ∧ c ≠ '\\' := by
        simpa [Text.Quoted.isSpecial] using plain
      have same : step ⟨.text, run, ts⟩ c = ⟨.text, run ++ [c], ts⟩ :=
        (if_neg backslash).trans (if_neg quote)
      show scan (step ⟨.text, run, ts⟩ c) _ = _
      rw [same]

/-- A quoted text is a single token. -/
theorem tokens?_encode (s : String) :
    tokens? (Text.Quoted.encode s).toList = some [.text s.toList] := by
  have scanned : (idle []).scan (Text.Quoted.encode s).toList = idle [.text s.toList] := by
    rw [Text.Quoted.encode, String.toList_ofList, List.cons_append]
    show scan ⟨.text, [], []⟩ (Text.Quoted.encodeBody s.toList ++ ['\'']) = _
    rw [scan_append, scan_encodeBody]
    rfl
  rw [tokens?_eq_some, scanned]
  exact ⟨rfl, rfl⟩

theorem silent_encode (s : String) : Silent (Text.Quoted.encode s).toList :=
  silent_iff.2 ⟨_, tokens?_encode s, List.forall_mem_singleton.2 rfl⟩

/-- The character does not end a text of JSON and escapes nothing in it. -/
def IsPlain (c : Char) : Prop := c ≠ '"' ∧ c ≠ '\\'

/-- The characters are an escape, perhaps with digits after it, or a plain character itself. -/
def Writes (c : Char) (cs : List Char) : Prop :=
  (∃ d ds, cs = '\\' :: d :: ds ∧ ∀ d ∈ ds, IsPlain d) ∨ cs = [c] ∧ IsPlain c

theorem writes_escape (c d : Char) : Writes c ['\\', d] :=
  .inl ⟨d, [], rfl, List.forall_mem_nil _⟩

theorem writes_escapeChar (c : Char) : Writes c (Json.escapeChar c) := by
  have digit : ∀ n < 16, Json.hexDigit n ≠ '"' ∧ Json.hexDigit n ≠ '\\' := by decide
  unfold Json.escapeChar
  refine iteInduction (motive := Writes c) (fun _ => writes_escape c _) fun quote => ?_
  refine iteInduction (motive := Writes c) (fun _ => writes_escape c _) fun backslash => ?_
  iterate 5
    refine iteInduction (motive := Writes c) (fun _ => writes_escape c _) fun _ => ?_
  refine iteInduction (motive := Writes c) (fun _ => .inl ⟨_, _, rfl, ?_⟩) fun _ =>
    .inr ⟨rfl, quote, backslash⟩
  have zero : IsPlain '0' := ⟨by decide, by decide⟩
  have first := digit (c.toNat / 16) (by omega)
  have second := digit (c.toNat % 16) (by omega)
  intro d hd
  rcases List.mem_cons.1 hd with rfl | hd
  · exact zero
  rcases List.mem_cons.1 hd with rfl | hd
  · exact zero
  rcases List.mem_cons.1 hd with rfl | hd
  · exact first
  · rwa [List.mem_singleton.1 hd]

theorem scan_plain (run : List Char) (ts : List Token) {cs : List Char}
    (h : ∀ c ∈ cs, IsPlain c) : scan ⟨.datum, run, ts⟩ cs = ⟨.datum, run ++ cs, ts⟩ := by
  have continues (run : List Char) (c : Char) (plain : IsPlain c) :
      step ⟨.datum, run, ts⟩ c = ⟨.datum, run ++ [c], ts⟩ :=
    (if_neg plain.2).trans (if_neg plain.1)
  exact scan_of_continues continues h run

theorem scan_escapeChar (run : List Char) (ts : List Token) (c : Char) :
    scan ⟨.datum, run, ts⟩ (Json.escapeChar c) = ⟨.datum, run ++ Json.escapeChar c, ts⟩ := by
  rcases writes_escapeChar c with ⟨d, ds, escape, plain⟩ | ⟨same, plain⟩
  · have both : scan ⟨.datum, run, ts⟩ ['\\', d] = ⟨.datum, run ++ ['\\'] ++ [d], ts⟩ := rfl
    have split : '\\' :: d :: ds = ['\\', d] ++ ds := rfl
    rw [escape, split, scan_append, both, scan_plain _ _ plain]
    simp
  · rw [same]
    exact scan_plain run ts (List.forall_mem_singleton.2 plain)

/-- A quoted JSON text is one token, whatever characters it has. -/
theorem tokens?_quote (s : String) :
    tokens? (Json.quote s) = some [.datum (s.toList.flatMap Json.escapeChar)] := by
  have body : ∀ (run cs : List Char), scan ⟨.datum, run, []⟩ (cs.flatMap Json.escapeChar) =
      ⟨.datum, run ++ cs.flatMap Json.escapeChar, []⟩ := by
    intro run cs
    induction cs generalizing run with
    | nil => rw [List.flatMap_nil, List.append_nil]; rfl
    | cons c cs ih =>
      rw [List.flatMap_cons, scan_append, scan_escapeChar, ih, List.append_assoc]
  have scanned : (idle []).scan (Json.quote s) =
      idle [.datum (s.toList.flatMap Json.escapeChar)] := by
    rw [Json.quote, List.cons_append]
    show scan ⟨.datum, [], []⟩ (s.toList.flatMap Json.escapeChar ++ ['"']) = _
    rw [scan_append, body]
    rfl
  rw [tokens?_eq_some, scanned]
  exact ⟨rfl, rfl⟩

theorem silent_quote (s : String) : Silent (Json.quote s) :=
  silent_iff.2 ⟨_, tokens?_quote s, List.forall_mem_singleton.2 rfl⟩

/-! ### Numbers -/

theorem toUpper_of_isDigit {c : Char} (h : c.isDigit = true) : c.toUpper = c := by
  obtain ⟨_, high⟩ : 48 ≤ c.val ∧ c.val ≤ 57 := by simpa [Char.isDigit] using h
  refine dif_neg fun lower => ?_
  have : (97 : UInt32) ≤ 57 := UInt32.le_trans lower.1 high
  exact absurd this (by decide)

theorem isNumeral_toUpper {c : Char} (h : isNumeral c = true) : isNumeral c.toUpper = true := by
  rcases isDigit_or_of_isNumeral h with digit | rfl | rfl | rfl | rfl | rfl
  · rwa [toUpper_of_isDigit digit]
  all_goals decide

/-- A word of a number is no keyword, whatever its case. -/
theorem isSilent_word {cs : List Char} (h : ∀ c ∈ cs, isNumeral c = true) :
    isSilent (.word cs) = true := by
  have letters : keywords.all (·.any fun c => !isNumeral c) = true := by decide
  rw [isSilent, Bool.and_eq_true, Bool.not_eq_true', ← Bool.not_eq_true]
  refine ⟨fun structural => ?_, rfl⟩
  have letter := List.all_eq_true.1 letters _ (List.contains_iff_mem.1 structural)
  obtain ⟨c, hc, other⟩ := List.any_eq_true.1 letter
  obtain ⟨d, hd, rfl⟩ := List.mem_map.1 hc
  simp [isNumeral_toUpper (h d hd)] at other

/-- A character of a number is a sign or belongs to a word. -/
theorem isNumeral_cases {c : Char} (h : isNumeral c = true) :
    isWordChar c = true ∨ c = '-' ∨ c = '+' := by
  rcases isDigit_or_of_isNumeral h with digit | rfl | rfl | rfl | rfl | rfl
  · simp [isWordChar, Text.isIdentifierChar, Char.isAlphanum, digit]
  all_goals decide

namespace Scanner

/-- A scanner in the middle of a number. -/
structure InNumber (q : Scanner) : Prop where
  mode : q.mode = .outside ∨ q.mode = .word
  run : ∀ c ∈ q.run, isNumeral c = true
  tokens : ∀ t ∈ q.tokens, isSilent t = true

variable {q : Scanner}

theorem InNumber.settled (h : q.InNumber) : ∀ t ∈ q.settled, isSilent t = true := by
  obtain ⟨mode, run, tokens⟩ := q
  obtain ⟨rfl | rfl, hr, ht⟩ := h
  · exact ht
  · intro t mem
    rcases List.mem_append.1 mem with mem | mem
    · exact ht t mem
    · rw [List.mem_singleton.1 mem]
      exact isSilent_word hr

theorem InNumber.start (h : q.InNumber) {c : Char} (hc : isNumeral c = true) :
    (start q.settled c).InNumber := by
  have single : ∀ d ∈ [c], isNumeral d = true := List.forall_mem_singleton.2 hc
  rcases isNumeral_cases hc with word | sign
  · rw [Scanner.start, if_pos word]
    exact ⟨.inr rfl, single, h.settled⟩
  · have marked : Scanner.start q.settled c = idle (q.settled ++ [.mark c]) := by
      rcases sign with rfl | rfl <;> rfl
    have silent : isSilent (.mark c) = true := by rcases sign with rfl | rfl <;> decide
    rw [marked]
    refine ⟨.inl rfl, List.forall_mem_nil _, ?_⟩
    intro t mem
    rcases List.mem_append.1 mem with mem | mem
    · exact h.settled t mem
    · rw [List.mem_singleton.1 mem]
      exact silent

/-- A further character of a number leaves the scanner in the number. -/
theorem InNumber.step (h : q.InNumber) {c : Char} (hc : isNumeral c = true) :
    (q.step c).InNumber := by
  have started := h.start hc
  obtain ⟨mode, run, tokens⟩ := q
  obtain ⟨rfl | rfl, hr, ht⟩ := h
  · exact started
  · show InNumber (if isWordChar c then _ else _)
    split
    · refine ⟨.inr rfl, ?_, ht⟩
      intro d mem
      rcases List.mem_append.1 mem with mem | mem
      · exact hr d mem
      · rw [List.mem_singleton.1 mem]
        exact hc
    · exact started

/-- All characters of a number leave the scanner in the number. -/
theorem InNumber.scan (h : q.InNumber) {cs : List Char} (hcs : ∀ c ∈ cs, isNumeral c = true) :
    (q.scan cs).InNumber := by
  induction cs generalizing q with
  | nil => exact h
  | cons c cs ih =>
    exact ih (h.step (hcs c List.mem_cons_self)) fun d hd => hcs d (List.mem_cons_of_mem _ hd)

end Scanner

theorem silent_of_isNumeral {cs : List Char} (h : ∀ c ∈ cs, isNumeral c = true) : Silent cs := by
  have start : (idle []).InNumber := ⟨.inl rfl, List.forall_mem_nil _, List.forall_mem_nil _⟩
  have scanned := start.scan h
  have outside : ((idle []).scan cs).mode.isQuoted = false := by
    rcases scanned.mode with mode | mode <;> rw [mode] <;> rfl
  exact silent_iff.2 ⟨_, tokens?_eq_some.2 ⟨outside, rfl⟩, scanned.settled⟩

end Token

/-! ### JSON text -/

namespace Json

open Token

theorem head?_itemChars (xs : List Json) : (itemChars xs).head?.any isDelimiter = true := by
  cases xs with
  | nil => decide
  | cons x xs => exact (by decide : isDelimiter ',' = true)

theorem head?_memberChars (ms : List (String × Json)) :
    (memberChars ms).head?.any isDelimiter = true := by
  rcases ms with _ | ⟨⟨k, x⟩, ms⟩
  · decide
  · exact (by decide : isDelimiter ',' = true)

/-- A mark before a text of JSON. -/
theorem silent_cons {c : Char} {cs : List Char} (hc : c ∈ [',', ':', '[', '\x7b'])
    (h : Silent cs) : Silent (c :: cs) := by
  have silent : [',', ':', '[', '\x7b'].all (Silent [·]) = true := by decide
  have delimiters : [',', ':', '[', '\x7b'].all isDelimiter = true := by decide
  have here : Silent [c] := of_decide_eq_true (List.all_eq_true.1 silent c hc)
  exact here.append h (.inl (List.all_eq_true.1 delimiters c hc))

/-- The key and the value of a member, and what follows them. -/
theorem silent_member {k : String} {cs ds : List Char} (hc : Silent cs) (hd : Silent ds)
    (seam : ds.head?.any isDelimiter = true) : Silent (quote k ++ ':' :: cs ++ ds) := by
  have value : Silent (':' :: (cs ++ ds)) := silent_cons (by decide) (hc.append hd (.inr seam))
  have seam : Seam (quote k) (':' :: (cs ++ ds)) := .inr (by decide : isDelimiter ':' = true)
  have member := (silent_quote k).append value seam
  simpa using member

mutual

/-- The text of a datum is silent. -/
theorem silent_chars (j : Json) : Silent j.chars := by
  match j with
  | .null | .bool true | .bool false | .array [] | .object [] => decide
  | .int n => exact silent_of_isNumeral fun _ => isNumeral_of_mem_intText
  | .float x => exact silent_of_isNumeral fun _ => Decimal.isNumeral_of_mem_jsonText
  | .string s => exact silent_quote s
  | .array (x :: xs) =>
    have items := (silent_chars x).append (silent_itemChars xs) (.inr (head?_itemChars xs))
    exact silent_cons (by decide) items
  | .object ((k, x) :: ms) =>
    have members := silent_member (k := k) (silent_chars x) (silent_memberChars ms)
      (head?_memberChars ms)
    exact silent_cons (by decide) members

theorem silent_itemChars (xs : List Json) : Silent (itemChars xs) := by
  match xs with
  | [] => decide
  | x :: xs =>
    have items := (silent_chars x).append (silent_itemChars xs) (.inr (head?_itemChars xs))
    exact silent_cons (by decide) items

theorem silent_memberChars (ms : List (String × Json)) : Silent (memberChars ms) := by
  match ms with
  | [] => decide
  | (k, x) :: ms =>
    have members := silent_member (k := k) (silent_chars x) (silent_memberChars ms)
      (head?_memberChars ms)
    exact silent_cons (by decide) members

end

end Json

/-! ### Literals -/

namespace Value

open Token

variable (v : Value)

theorem silent_float {f : Format} (x : BinaryFloat f) : Silent x.text.toList := by
  cases x with
  | nan => exact (by decide : Silent "NaN".toList)
  | infinite negative =>
    cases negative with
    | true => exact (by decide : Silent "-inf".toList)
    | false => exact (by decide : Silent "inf".toList)
  | finite x =>
    rw [BinaryFloat.text, String.toList_ofList]
    exact silent_of_isNumeral fun _ => Decimal.isNumeral_of_mem_plain

/-- Of the plain texts of values, only those of texts can have other tokens. -/
theorem silent_text (h : ∀ s, v ≠ .string s) : Silent v.text.toList := by
  have integer : ∀ n : Int, Silent (String.ofList (Json.intText n)).toList := by
    intro n
    rw [String.toList_ofList]
    exact silent_of_isNumeral fun _ => Json.isNumeral_of_mem_intText
  cases v with
  | null => decide
  | bool b => cases b <;> decide
  | int n => exact integer _
  | long n => exact integer _
  | float x => exact silent_float x
  | double x => exact silent_float x
  | string s => exact absurd rfl (h s)
  | object j =>
    rw [text, Json.write, String.toList_ofList]
    exact j.silent_chars

/-- The literal of a value is silent, whatever type it is written for. -/
theorem silent_literal (t : AttributeType) : Silent (v.literal t).toList := by
  have null : Silent nullLiteral.toList := by decide
  have unquoted (h : ∀ s, v ≠ .string s) :
      Silent (if t.isQuoted then Text.Quoted.encode v.text
        else if v.isNonFinite then nullLiteral else v.text).toList := by
    split
    · exact silent_encode _
    · split
      · exact null
      · exact silent_text v h
  cases v with
  | null => exact null
  | string s => exact silent_encode s
  | _ => exact unquoted fun s h => by cases h

theorem silent_textLiteral : Silent v.textLiteral.toList := by
  cases v with
  | null => decide
  | _ => exact silent_encode _

/-- No token of a literal decides how a query is read. -/
theorem outline?_literal (t : AttributeType) : outline? (v.literal t).toList = some [] :=
  (v.silent_literal t).outline?

theorem outline?_textLiteral : outline? v.textLiteral.toList = some [] :=
  v.silent_textLiteral.outline?

end Value

end StreamTable
