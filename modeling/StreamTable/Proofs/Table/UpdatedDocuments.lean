import StreamTable.Proofs.Table.Handling
import StreamTable.Proofs.Table.Replacements

/-!
# Updated documents

An update replaces the documents that the query of a record returned, in their order, up to the
first one that the store refuses (`Table.ReplacesEach`).  What is handed to the store has the
assigned values and is otherwise the document that was found (`Document.Updates`): of several
assignments to one field the last one counts, and no field is removed.

One document is replaced after the other (`Table.replacesEach_writeEach`), from which it follows
what is asked of the store for a record (`Table.UpdatesFound`) and then for the batches
(`Table.updates_exactly`).
-/

namespace StreamTable

open Operation

/-! ### Values of assignments -/

/-- The value that an assignment gives for some runtime values: a constant, or the value of an
attribute of the stream. -/
def Expr.given? (set : Values) : Expr → Option Value
  | .constant v => some v
  | .attribute name _ => set.get? name
  | _ => none

/-- The assignments of attributes that have a value. -/
def givenAssignments (assigned : List (String × Expr)) (set : Values) : List (String × Value) :=
  assigned.filterMap fun a => (a.2.given? set).map fun v => (a.1, v)

/-- All assignments have a value. -/
def AllGiven (assigned : List (String × Expr)) (set : Values) : Prop :=
  ∀ a ∈ assigned, (a.2.given? set).isSome = true

/-- Only attributes that are to be assigned are. -/
theorem mem_names_of_mem_givenAssignments {assigned : List (String × Expr)} {set : Values}
    {name : String} (h : name ∈ (givenAssignments assigned set).map (·.1)) :
    name ∈ assigned.map (·.1) := by
  obtain ⟨p, hp, rfl⟩ := List.mem_map.1 h
  obtain ⟨a, ha, given⟩ := List.mem_filterMap.1 hp
  obtain ⟨v, _, rfl⟩ := Option.map_eq_some_iff.1 given
  exact List.mem_map_of_mem ha

/-- The second document is the first one after the assignments. -/
structure Document.Updates (assigned : List (String × Expr)) (set : Values) (d d' : Document) :
    Prop where
  /-- An assigned field holds the value of the last assignment to it. -/
  last : ∀ before name e after, assigned = before ++ (name, e) :: after →
    name ∉ after.map (·.1) → ∃ v, e.given? set = some v ∧ d'.get? name = some v.toJson
  /-- Every other field holds what it held. -/
  others : ∀ name, name ∉ assigned.map (·.1) → d'.get? name = d.get? name
  /-- No field is removed. -/
  kept : ∀ name, (d.get? name).isSome = true → (d'.get? name).isSome = true

namespace Table

variable {σ : Type} {t : Table σ} {assigned : List (String × Expr)}
  {clauses : List SetClause} {set : Values}

/-! ### Accepted clauses -/

/-- The clauses are those that the table makes of the assignments. -/
def Accepts (t : Table σ) (assigned : List (String × Expr)) (clauses : List SetClause) : Prop :=
  List.Forall₂ (fun a clause => t.setClause a.1 a.2 = .ok clause) assigned clauses

/-- The value of a clause is the one that its expression gives. -/
theorem scalar_eq_ok_iff {table : String} {e : Expr} {c : CompiledCondition}
    (compiled : compile table .setAttribute e = .ok c) (v : Value) :
    c.scalar set = .ok v ↔ e.given? set = some v := by
  cases e with
  | constant u =>
    cases compiled
    show Except.ok u = Except.ok v ↔ some u = some v
    rw [Except.ok.injEq, Option.some.injEq]
  | «attribute» a type =>
    cases compiled
    show Values.lookup set a = .ok v ↔ set.get? a = some v
    unfold Values.lookup
    cases set.get? a with
    | none => exact iff_of_false (fun h => by cases h) (fun h => by cases h)
    | some u => rw [Except.ok.injEq, Option.some.injEq]
  | _ => cases compiled

/-- Accepted clauses that are bound evaluate to their assignments, and all of these have a value. -/
theorem evaluate_of_accepted
    (accepted : t.Accepts assigned clauses) {assignments : List (String × Value)}
    (bound : SetClause.evaluate clauses set = .ok assignments) :
    AllGiven assigned set ∧ assignments = givenAssignments assigned set := by
  induction accepted generalizing assignments with
  | nil =>
    cases bound
    exact ⟨List.forall_mem_nil _, rfl⟩
  | @cons a clause assigned clauses first _ ih =>
    rw [SetClause.evaluate_cons] at bound
    obtain ⟨v, value, bound⟩ := bind_eq_ok.1 bound
    obtain ⟨others, evaluated, made⟩ := bind_eq_ok.1 bound
    cases pure_eq_ok.1 made
    obtain ⟨later, rfl⟩ := ih evaluated
    obtain ⟨name, compiled⟩ := compile_of_setClause first
    have here : a.2.given? set = some v := (scalar_eq_ok_iff compiled v).1 value
    refine ⟨List.forall_mem_cons.2 ⟨Option.isSome_iff_exists.2 ⟨v, here⟩, later⟩, ?_⟩
    rw [name, givenAssignments, givenAssignments, List.filterMap_cons, here]
    rfl

/-! ### Documents -/

/-- To assign the given values is to update the document: the last value for an attribute counts,
and other fields stay. -/
theorem updates_assign (given : AllGiven assigned set) (d : Document) :
    d.Updates assigned set (assign d (givenAssignments assigned set)) := by
  -- The list is divided at the last assignment to the attribute; those after it are to other
  -- attributes.
  have last (before : List (String × Expr)) (name : String) (e : Expr)
      (after : List (String × Expr)) (split : assigned = before ++ (name, e) :: after)
      (apart : name ∉ after.map (·.1)) :
      ∃ v, e.given? set = some v ∧
        (assign d (givenAssignments assigned set)).get? name = some v.toJson := by
    have mem : (name, e) ∈ assigned := split ▸ List.mem_append_right _ List.mem_cons_self
    obtain ⟨v, hv⟩ := Option.isSome_iff_exists.1 (given _ mem)
    have assignments : givenAssignments assigned set =
        givenAssignments before set ++ (name, v) :: givenAssignments after set := by
      rw [split, givenAssignments, List.filterMap_append, List.filterMap_cons, hv]
      rfl
    have apart' : name ∉ (givenAssignments after set).map (·.1) := fun h =>
      apart (mem_names_of_mem_givenAssignments h)
    rw [assignments]
    exact ⟨v, hv, get?_assign_last apart' d⟩
  have others (name : String) (apart : name ∉ assigned.map (·.1)) :
      (assign d (givenAssignments assigned set)).get? name = d.get? name :=
    get?_assign (fun h => apart (mem_names_of_mem_givenAssignments h)) d
  refine ⟨last, others, fun name there => ?_⟩
  by_cases mem : name ∈ assigned.map (·.1)
  · obtain ⟨before, e, after, split, apart⟩ := Members.exists_last_of_mem mem
    obtain ⟨v, _, holds⟩ := last before name e after split apart
    rw [holds]
    rfl
  · rw [others name mem]
    exact there

variable (t)

/-- The requests replace the documents in their order, each by one to which it is in the relation,
up to the first one that the store refuses. -/
inductive ReplacesEach (P : Document → Document → Prop) : List Document → Trace → Prop
  /-- All documents were replaced. -/
  | done : ReplacesEach P [] []
  /-- The store refuses to replace the document, and the others are left alone. -/
  | refused {d d' : Document} {ds : List Document} {e : BackendError} (made : P d d') :
      ReplacesEach P (d :: ds) [.replace t.container d' (.error e)]
  /-- The document is replaced, and the others follow. -/
  | granted {d d' : Document} {ds : List Document} {replaced : Trace} (made : P d d')
      (others : ReplacesEach P ds replaced) :
      ReplacesEach P (d :: ds) (.replace t.container d' (.ok ()) :: replaced)

variable {t}

/-- A weaker relation holds of the same replacements. -/
theorem ReplacesEach.mono {P P' : Document → Document → Prop} (h : ∀ d d', P d d' → P' d d')
    {ds : List Document} {replaced : Trace} (hr : t.ReplacesEach P ds replaced) :
    t.ReplacesEach P' ds replaced := by
  induction hr with
  | done => exact .done
  | refused made => exact .refused (h _ _ made)
  | granted made _ ih => exact .granted (h _ _ made) ih

variable (t)

/-- Documents that are replaced one after the other are replaced each by its own new form, up to the
first refusal. -/
theorem replacesEach_writeEach (f : Document → Document) (ds : List Document) (n : Nat)
    (w : World σ) :
    t.ReplacesEach (fun d d' => d' = f d) ds
      (writeEach (fun d => t.replace (f d)) n ds w).trace.requests := by
  induction ds generalizing n w with
  | nil => exact .done
  | cons d ds ih =>
    obtain ⟨answer, asked, result⟩ : ∃ answer,
        (t.replace (f d) w).trace = [.replace t.container (f d) answer] ∧
          (t.replace (f d) w).value = answer.mapError .backend := ⟨_, rfl, rfl⟩
    rw [writeEach, trace_bind, Trace.requests_append, asked, result]
    cases answer with
    | ok u => exact .granted rfl (ih (n + 1) _)
    | error e => exact .refused rfl

/-- The documents of a record whose clauses are bound are replaced by their updates. -/
theorem replacesEach_replaceAll
    (accepted : t.Accepts assigned clauses) {assignments : List (String × Value)}
    (bound : SetClause.evaluate clauses set = .ok assignments) (ds : List Document)
    (w : World σ) :
    t.ReplacesEach (Document.Updates assigned set) ds
      (t.replaceAll clauses set ds w).trace.requests := by
  obtain ⟨given, rfl⟩ := evaluate_of_accepted accepted bound
  unfold replaceAll
  rw [bound]
  have made (d d' : Document) (h : d' = assign d (givenAssignments assigned set)) :
      d.Updates assigned set d' := h ▸ updates_assign given d
  exact (t.replacesEach_writeEach (assign · (givenAssignments assigned set)) ds 0 w).mono made

/-! ### Records -/

/-- The documents of a filter are asked for, and those that are found are replaced by their
updates. -/
def UpdatesFound (assigned : List (String × Expr)) (set : Values) (f : String)
    (requests : Trace) : Prop :=
  ∃ answer replaced, requests = .query t.container (findQuery t.id f) answer :: replaced ∧
    t.ReplacesEach (Document.Updates assigned set) (answer.toOption.getD []) replaced

/-- It is enough to say what follows for the documents that are found, and that nothing follows
without any. -/
theorem updatesFound_of_matching {c : CompiledCondition} {values : Values} {f : String} {α : Type}
    {next : Except TableError (List Document) → Operation σ α} (bound : c.resolve values = .ok f)
    (refused : ∀ e w, (next (.error e) w).trace.requests = [])
    (answered : ∀ ds w, t.ReplacesEach (Document.Updates assigned set) ds
      (next (.ok ds) w).trace.requests) (w : World σ) :
    t.UpdatesFound assigned set f ((t.matching c values >>= next) w).trace.requests := by
  rcases t.matching_cases c values w with ⟨e, failed, _⟩ | ⟨f', answer, bound', asked, result⟩
  · cases bound.symm.trans failed
  · cases bound.symm.trans bound'
    rw [trace_bind, Trace.requests_append, asked, result]
    refine ⟨answer, _, rfl, ?_⟩
    cases answer with
    | error e =>
      show t.ReplacesEach _ [] (Trace.requests (next (.error (.backend e)) _).trace)
      rw [refused]
      exact .done
    | ok ds => exact answered ds _

section

variable (accepted : t.Accepts assigned clauses) {c : CompiledCondition}
  {assignments : List (String × Value)} {f : String}

include accepted

/-- Updating a record updates what its filter finds. -/
theorem updatesFound_updateRecord {values : Values}
    (evaluated : SetClause.evaluate clauses set = .ok assignments)
    (bound : c.resolve values = .ok f) (w : World σ) :
    t.UpdatesFound assigned set f (t.updateRecord c clauses values set w).trace.requests :=
  t.updatesFound_of_matching bound (fun _ _ => rfl)
    (t.replacesEach_replaceAll accepted evaluated) w

/-- A record that no waiting row stands for updates what its filter finds. -/
theorem updatesFound_upsertRecord {r : UpsertRecord} {pending : List PendingInsert}
    (evaluated : SetClause.evaluate clauses r.set = .ok assignments)
    (bound : c.resolve r.values = .ok f) (apart : ∀ p ∈ pending, ¬ c.StandsFor r p.values)
    (index : Nat) (w : World σ) :
    t.UpdatesFound assigned r.set f
      (t.upsertRecord c clauses index r pending w).trace.requests := by
  have alone : t.mergePending? c clauses r pending = none := by
    rcases t.mergePending?_cases c clauses r pending with
      ⟨_, result⟩ | ⟨before, p, after, rfl, _, here, _⟩
    · exact result
    · exact absurd here (apart p (List.mem_append_right _ List.mem_cons_self))
  unfold upsertRecord
  rw [alone]
  refine t.updatesFound_of_matching bound (fun _ _ => rfl) (fun ds w => ?_) w
  cases ds with
  | nil =>
    -- The row waits or does not fit; nothing is replaced for it.
    cases t.schema.bind r.row with
    | error e => exact .done
    | ok values => exact .done
  | cons d ds =>
    show t.ReplacesEach (Document.Updates assigned r.set) (d :: ds) (Trace.requests (_ ++ []))
    rw [List.append_nil]
    exact t.replacesEach_replaceAll accepted evaluated (d :: ds) w

end

/-! ### Batches -/

/-- In every batch of updates the documents that the query of a record returned are replaced by
their updates, in their order and up to the first one that the store refuses, whenever the condition
and the clauses are bound; nothing else is asked of the store.  So it is for the records of
`Table.updateOrAdd` that no waiting row stands for. -/
theorem updates_exactly
    (accepted : t.Accepts assigned clauses)
    (c : CompiledCondition) (batch setValues : List Values) (rows : List Row) (w : World σ) :
    (batch.length = setValues.length →
      let records := handled (fun x => t.updateRecord c clauses x.1 x.2) (batch.zip setValues) w
      records.map (·.1) = batch.zip setValues ∧
      (t.update c clauses batch setValues w).trace.requests =
        records.flatMap (·.2.trace.requests) ∧
      ∀ x ∈ records, ∀ f assignments, c.resolve x.1.1 = .ok f →
        SetClause.evaluate clauses x.1.2 = .ok assignments →
          t.UpdatesFound assigned x.1.2 f x.2.trace.requests) ∧
    (batch.length = setValues.length → batch.length = rows.length →
      let records := t.handledUpserts c clauses 0 [] (upsertRecords batch setValues rows) w
      records.map (·.record) = upsertRecords batch setValues rows ∧
      (∃ creates, (t.updateOrAdd c clauses batch setValues rows w).trace.requests =
          records.flatMap (·.run.trace.requests) ++ creates ∧
        t.Inserts (t.upsertAll c clauses 0 [] (upsertRecords batch setValues rows) w).value.2
          creates) ∧
      ∀ u ∈ records, (∀ p ∈ u.waiting, ¬ c.StandsFor u.record p.values) →
        ∀ f assignments, c.resolve u.record.values = .ok f →
          SetClause.evaluate clauses u.record.set = .ok assignments →
            t.UpdatesFound assigned u.record.set f u.run.trace.requests) := by
  constructor
  · intro length records
    refine ⟨map_fst_handled _ w, ?_, fun x mem f assignments bound evaluated => ?_⟩
    · rw [t.update_of_length c clauses batch setValues length, trace_map, requests_reported,
        requests_writeBatch]
    · -- A record that was handled ran in some world, and what it does is known for every world.
      obtain ⟨i, here⟩ := List.mem_iff_getElem?.1 mem
      obtain ⟨w', run⟩ := exists_run_handled here
      rw [run]
      exact t.updatesFound_updateRecord accepted evaluated bound w'
  · intro lengths lengthr records
    refine ⟨t.map_record_handledUpserts c clauses 0 [] _ w, ?_,
      fun u mem apart f assignments bound evaluated => ?_⟩
    · obtain ⟨creates, all, inserted⟩ :=
        t.requests_upsertBatch c clauses w (upsertRecords batch setValues rows)
      refine ⟨creates, ?_, inserted⟩
      rw [t.updateOrAdd_of_length c clauses batch setValues lengths lengthr, trace_map,
        requests_reported]
      exact all
    · obtain ⟨i, here⟩ := List.mem_iff_getElem?.1 mem
      obtain ⟨w', run⟩ := t.exists_run_handledUpserts c clauses here
      rw [run]
      exact t.updatesFound_upsertRecord accepted evaluated bound apart _ w'

/-- The quote of IBM is renamed twice, and the second name stays. -/
theorem updates_exactly_quotes :
    let assigned : List (String × Expr) :=
      [("symbol", .constant (.string "A")), ("symbol", .attribute "renamed" .string)]
    let set : Values := [("renamed", .string "B")]
    ∃ clauses, quotes.Accepts assigned clauses ∧
      quotes.UpdatesFound assigned set ""
        (quotes.update .everyRecord clauses [[]] [set] ⟨(), 0⟩).trace.requests ∧
      (quotes.update .everyRecord clauses [[]] [set] ⟨(), 0⟩).trace.replacements [] =
        [(some ibm, ⟨[("id", .string "1"), ("symbol", .string "B")]⟩)] := by
  intro assigned set
  obtain ⟨clauses, accepted, evaluated⟩ : ∃ clauses,
      quotes.Accepts assigned clauses ∧
        SetClause.evaluate clauses set =
          .ok [("symbol", .string "A"), ("symbol", .string "B")] :=
    ⟨_, .cons rfl (.cons rfl .nil), rfl⟩
  refine ⟨clauses, accepted, ?_, quotes.replacements_update_offering clauses evaluated ibm⟩
  obtain ⟨_, requests, updates⟩ :=
    (quotes.updates_exactly accepted .everyRecord [[]] [set] [] ⟨(), 0⟩).1 rfl
  have record := updates _ List.mem_cons_self "" _ rfl evaluated
  rw [requests]
  show quotes.UpdatesFound assigned set "" (_ ++ [])
  rw [List.append_nil]
  exact record

end Table

end StreamTable
