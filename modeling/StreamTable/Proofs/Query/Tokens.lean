import StreamTable.Text.Identifier

/-!
# The tokens of query text

A scanner goes over query text character by character.  Text between single quotes and JSON text
between double quotes is skipped, with a backslash escaping the character after it; outside of
quotes stand words, comparison symbols, parentheses and other marks.  `Token.tokens?` gives the
tokens of a text that does not end inside quotes, and `Token.outline?` those of them that decide how
a query is read: parentheses, comparisons, and the words of `Token.keywords` in upper or lower case.

Texts can be scanned one after the other where a token cannot run over from one into the other
(`Token.tokens?_append`, `Token.outline?_append`).
-/

namespace StreamTable

/-- A token of query text. -/
inductive Token where
  | opening
  | closing
  /-- A keyword, a name, a path or a number without its sign. -/
  | word (cs : List Char)
  | comparison (cs : List Char)
  /-- A literal in single quotes, with the escapes undone. -/
  | text (cs : List Char)
  /-- A text of JSON in double quotes, as it stands. -/
  | datum (cs : List Char)
  /-- Any other character. -/
  | mark (c : Char)
  deriving DecidableEq, Repr

namespace Token

def isWordChar (c : Char) : Bool := Text.isIdentifierChar c || c = '.'

def isComparisonChar (c : Char) : Bool := c = '<' || c = '=' || c = '>'

/-- The character is a token by itself. -/
def isDelimiter (c : Char) : Bool :=
  !(isWordChar c || isComparisonChar c || c = '\'' || c = '"')

/-- Where a scanner stands. -/
inductive Mode where
  | outside
  | word
  | comparison
  | text
  | textEscape
  | datum
  | datumEscape
  deriving DecidableEq, Repr

/-- The scanner stands inside quotes. -/
def Mode.isQuoted : Mode → Bool
  | .text | .textEscape | .datum | .datumEscape => true
  | .outside | .word | .comparison => false

/-- A scanner in the middle of a text. -/
structure Scanner where
  mode : Mode
  /-- The characters of the token that is not finished. -/
  run : List Char
  /-- The finished tokens. -/
  tokens : List Token
  deriving DecidableEq

namespace Scanner

/-- A scanner between two tokens. -/
def idle (ts : List Token) : Scanner := ⟨.outside, [], ts⟩

/-- The tokens, if the text ends here. -/
def settled (q : Scanner) : List Token :=
  match q.mode with
  | .word => q.tokens ++ [.word q.run]
  | .comparison => q.tokens ++ [.comparison q.run]
  | _ => q.tokens

/-- The first character of a token. -/
def start (ts : List Token) (c : Char) : Scanner :=
  if isWordChar c then ⟨.word, [c], ts⟩
  else if isComparisonChar c then ⟨.comparison, [c], ts⟩
  else if c = '\'' then ⟨.text, [], ts⟩
  else if c = '"' then ⟨.datum, [], ts⟩
  else if c = '(' then idle (ts ++ [.opening])
  else if c = ')' then idle (ts ++ [.closing])
  else idle (ts ++ [.mark c])

/-- A further character of the unfinished token. -/
def push (q : Scanner) (mode : Mode) (c : Char) : Scanner := ⟨mode, q.run ++ [c], q.tokens⟩

def step (q : Scanner) (c : Char) : Scanner :=
  match q.mode with
  | .outside => start q.settled c
  | .word => if isWordChar c then q.push .word c else start q.settled c
  | .comparison => if isComparisonChar c then q.push .comparison c else start q.settled c
  | .text =>
    if c = '\\' then ⟨.textEscape, q.run, q.tokens⟩
    else if c = '\'' then idle (q.tokens ++ [.text q.run])
    else q.push .text c
  | .textEscape => q.push .text c
  | .datum =>
    if c = '\\' then q.push .datumEscape c
    else if c = '"' then idle (q.tokens ++ [.datum q.run])
    else q.push .datum c
  | .datumEscape => q.push .datum c

def scan (q : Scanner) (cs : List Char) : Scanner := cs.foldl step q

end Scanner

open Scanner

/-- The tokens of a text; nothing if it ends inside quotes. -/
def tokens? (cs : List Char) : Option (List Token) :=
  let q := scan (idle []) cs
  if q.mode.isQuoted then none else some q.settled

/-- The words that operators and functions are written with. -/
def keywords : List (List Char) :=
  ["AND", "OR", "NOT", "IS", "CONTAINS", "SUM", "COUNT", "AVG", "MIN", "MAX"].map String.toList

/-- The token has a part in how a query is read. -/
def isStructural : Token → Bool
  | .opening | .closing | .comparison _ => true
  | .word cs => keywords.contains (cs.map Char.toUpper)
  | .text _ | .datum _ | .mark _ => false

/-- The structural tokens of a text; nothing if it ends inside quotes. -/
def outline? (cs : List Char) : Option (List Token) := (tokens? cs).map (·.filter isStructural)

/-! ### Texts one after the other -/

namespace Scanner

/-- A scanner that has seen some tokens before. -/
def after (seen : List Token) (q : Scanner) : Scanner := ⟨q.mode, q.run, seen ++ q.tokens⟩

theorem settled_after (seen : List Token) (q : Scanner) :
    (q.after seen).settled = seen ++ q.settled := by
  obtain ⟨mode, run, tokens⟩ := q
  cases mode <;> simp [after, settled]

theorem start_after (seen ts : List Token) (c : Char) :
    start (seen ++ ts) c = (start ts c).after seen := by
  unfold start
  repeat' split
  all_goals simp [after, idle]

/-- Tokens that were seen before have no influence. -/
theorem step_after (seen : List Token) (q : Scanner) (c : Char) :
    (q.after seen).step c = (q.step c).after seen := by
  have settled := settled_after seen q
  obtain ⟨mode, run, tokens⟩ := q
  -- The modes in which a run can end hand the tokens over to `start`; in the others the tokens are
  -- not touched.
  cases mode with
  | outside => exact start_after seen tokens c
  | word =>
    simp only [step, after] at settled ⊢
    split
    · rfl
    · rw [settled]
      exact start_after seen _ c
  | comparison =>
    simp only [step, after] at settled ⊢
    split
    · rfl
    · rw [settled]
      exact start_after seen _ c
  | text | datum =>
    simp only [step, after]
    split
    · rfl
    · split
      · simp [idle]
      · rfl
  | textEscape | datumEscape => rfl

/-- What was scanned before makes no difference to what is scanned next. -/
theorem scan_after (seen : List Token) (q : Scanner) (cs : List Char) :
    (q.after seen).scan cs = (q.scan cs).after seen := by
  induction cs generalizing q with
  | nil => rfl
  | cons c cs ih =>
    show ((q.after seen).step c).scan cs = _
    rw [step_after, ih]
    rfl

theorem scan_append (q : Scanner) (cs ds : List Char) :
    q.scan (cs ++ ds) = (q.scan cs).scan ds :=
  List.foldl_append

/-- Characters that only continue the token that is not finished are added to it in their order. -/
theorem scan_of_continues {mode : Mode} {P : Char → Prop} {ts : List Token} {cs : List Char}
    (continues : ∀ run c, P c → step ⟨mode, run, ts⟩ c = ⟨mode, run ++ [c], ts⟩)
    (h : ∀ c ∈ cs, P c) (run : List Char) :
    scan ⟨mode, run, ts⟩ cs = ⟨mode, run ++ cs, ts⟩ := by
  induction cs generalizing run with
  | nil =>
    rw [List.append_nil]
    rfl
  | cons c cs ih =>
    obtain ⟨hc, rest⟩ := List.forall_mem_cons.1 h
    show scan (step ⟨mode, run, ts⟩ c) cs = _
    rw [continues run c hc, ih rest, List.append_assoc]
    rfl

theorem ne_of_isDelimiter {c : Char} (h : isDelimiter c = true) :
    isWordChar c = false ∧ isComparisonChar c = false ∧ c ≠ '\'' ∧ c ≠ '"' := by
  simpa [isDelimiter, and_assoc] using h

/-- A delimiter ends the token before it. -/
theorem step_of_isDelimiter {q : Scanner} {c : Char} (hq : q.mode.isQuoted = false)
    (hc : isDelimiter c = true) : q.step c = start q.settled c := by
  obtain ⟨word, comparison, _⟩ := ne_of_isDelimiter hc
  obtain ⟨mode, run, tokens⟩ := q
  cases mode with
  | outside => rfl
  | word => exact if_neg (by simp [word])
  | comparison => exact if_neg (by simp [comparison])
  | text | textEscape | datum | datumEscape => cases hq

theorem start_of_isDelimiter (ts : List Token) {c : Char} (hc : isDelimiter c = true) :
    start ts c = idle (start ts c).settled := by
  obtain ⟨word, comparison, quote, doubleQuote⟩ := ne_of_isDelimiter hc
  rw [start, if_neg (by simp [word]), if_neg (by simp [comparison]), if_neg quote,
    if_neg doubleQuote]
  split
  · rfl
  · split <;> rfl

/-- No delimiter leads out of quotes. -/
theorem isQuoted_step {q : Scanner} {c : Char} (hq : q.mode.isQuoted = true)
    (hc : isDelimiter c = true) : (q.step c).mode.isQuoted = true := by
  obtain ⟨_, _, quote, doubleQuote⟩ := ne_of_isDelimiter hc
  obtain ⟨mode, run, tokens⟩ := q
  cases mode with
  | outside | word | comparison => cases hq
  | textEscape | datumEscape => rfl
  | text =>
    simp only [step, if_neg quote]
    split <;> rfl
  | datum =>
    simp only [step, if_neg doubleQuote]
    split <;> rfl

/-- After a delimiter the scanner stands between two tokens. -/
theorem step_eq_idle {q : Scanner} {c : Char} (hq : (q.step c).mode.isQuoted = false)
    (hc : isDelimiter c = true) : q.step c = idle (q.step c).settled := by
  cases h : q.mode.isQuoted with
  | true => simp [isQuoted_step h hc] at hq
  | false =>
    rw [step_of_isDelimiter h hc]
    exact start_of_isDelimiter _ hc

end Scanner

theorem tokens?_eq_some {cs : List Char} {ts : List Token} :
    tokens? cs = some ts ↔
      ((idle []).scan cs).mode.isQuoted = false ∧ ((idle []).scan cs).settled = ts := by
  unfold tokens?
  cases h : ((idle []).scan cs).mode.isQuoted <;> simp [h]

/-- A token cannot run over from the one text into the other. -/
def Seam (cs ds : List Char) : Prop :=
  cs.getLast?.any isDelimiter = true ∨ ds.head?.any isDelimiter = true

instance (cs ds : List Char) : Decidable (Seam cs ds) := inferInstanceAs (Decidable (_ ∨ _))

/-- Behind a seam the scanner goes on as if it had only the finished tokens before it. -/
theorem scan_of_seam {cs ds : List Char} {ts : List Token} (hs : tokens? cs = some ts)
    (hd : ds ≠ []) (seam : Seam cs ds) : (idle []).scan (cs ++ ds) = (idle ts).scan ds := by
  obtain ⟨outside, settled⟩ := tokens?_eq_some.1 hs
  obtain ⟨d, ds, rfl⟩ := List.exists_cons_of_ne_nil hd
  rw [scan_append]
  rcases seam with seam | seam
  · -- The scanner is between two tokens after the last character of the first text.
    obtain ⟨c, hc, delimiter⟩ : ∃ c, cs.getLast? = some c ∧ isDelimiter c = true := by
      simpa [Option.any_eq_true] using seam
    obtain ⟨cs, rfl⟩ := List.getLast?_eq_some_iff.1 hc
    have between : (idle []).scan (cs ++ [c]) = idle ts := by
      rw [← settled]
      rw [scan_append] at outside ⊢
      exact step_eq_idle outside delimiter
    rw [between]
  · have first : ((idle []).scan cs).step d = (idle ts).step d := by
      rw [step_of_isDelimiter outside seam, settled]
      rfl
    show (((idle []).scan cs).step d).scan ds = ((idle ts).step d).scan ds
    rw [first]

/-- Texts that do not run into one another have the tokens of both. -/
theorem tokens?_append {cs ds : List Char} {ts us : List Token} (hs : tokens? cs = some ts)
    (ht : tokens? ds = some us) (seam : Seam cs ds) : tokens? (cs ++ ds) = some (ts ++ us) := by
  cases ds with
  | nil =>
    cases ht
    rw [List.append_nil, hs]
    simp [settled, idle, scan]
  | cons d ds =>
    obtain ⟨outside, settled⟩ := tokens?_eq_some.1 ht
    have seen : idle ts = (idle []).after ts := by simp [idle, after]
    rw [tokens?_eq_some, scan_of_seam hs (List.cons_ne_nil d ds) seam, seen, scan_after,
      settled_after, settled]
    exact ⟨outside, rfl⟩

theorem outline?_append {cs ds : List Char} {ts us : List Token} (hs : outline? cs = some ts)
    (ht : outline? ds = some us) (seam : Seam cs ds) :
    outline? (cs ++ ds) = some (ts ++ us) := by
  obtain ⟨ts, hts, rfl⟩ := Option.map_eq_some_iff.1 hs
  obtain ⟨us, hus, rfl⟩ := Option.map_eq_some_iff.1 ht
  rw [outline?, tokens?_append hts hus seam, Option.map_some, List.filter_append]

end Token

end StreamTable
