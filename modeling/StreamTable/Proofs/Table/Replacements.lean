import StreamTable.Proofs.Table.KeyedRecords
import StreamTable.Proofs.Table.Traces

/-!
# Replaced documents

`Trace.replacements` pairs every document that is handed to the store as a replacement with the
document that it was made from, one of those that the last query returned.  In every batch of
updates each replacement is its document with the assignments of its record
(`Table.replaces_update`, `Table.replaces_updateOrAdd`).

So replacements go to the addresses of the documents they were made from (`Trace.KeepsAddresses`) as
long as no set clause assigns the field `id`.  A clause that does sends them elsewhere, for some
store and some values (`Table.keepsAddresses_iff`).
-/

namespace StreamTable

open Document (idField)
open Operation

/-! ### Sources of replacements -/

namespace Trace

/-- The replacing documents of a trace, each with the document that it was made from: the documents
of the last answer are taken in their order. -/
def replacements (matched : List Document) : Trace → List (Option Document × Document)
  | [] => []
  | .query _ _ answer :: t => replacements (answer.toOption.getD []) t
  | .replace _ d _ :: t => (matched.head?, d) :: replacements matched.tail t
  | .event _ :: t | .create _ _ _ :: t | .delete _ _ _ :: t => replacements matched t

/-- The documents of the last answer that were not taken yet. -/
def unreplaced (matched : List Document) : Trace → List Document
  | [] => matched
  | .query _ _ answer :: t => unreplaced (answer.toOption.getD []) t
  | .replace _ _ _ :: t => unreplaced matched.tail t
  | .event _ :: t | .create _ _ _ :: t | .delete _ _ _ :: t => unreplaced matched t

/-- Replacements go on with the documents that those before them left over. -/
theorem replacements_append (matched : List Document) (s t : Trace) :
    (s ++ t).replacements matched =
      s.replacements matched ++ t.replacements (s.unreplaced matched) := by
  induction s generalizing matched with
  | nil => rfl
  | cons a s ih =>
    cases a with
    | replace container d answer => exact congrArg (_ :: ·) (ih matched.tail)
    | query container text answer => exact ih _
    | event e => exact ih matched
    | create container d answer => exact ih matched
    | delete container id answer => exact ih matched

/-- Every replacement is made from a document to which it is in a relation. -/
def Replaces (P : Document → Document → Prop) (t : Trace) : Prop :=
  ∀ matched, ∀ p ∈ t.replacements matched, ∃ d, p.1 = some d ∧ P d p.2

/-- A weaker relation holds of the same replacements. -/
theorem Replaces.mono {P P' : Document → Document → Prop} (h : ∀ d d', P d d' → P' d d')
    {t : Trace} (ht : t.Replaces P) : t.Replaces P' := by
  intro matched p hp
  obtain ⟨d, source, made⟩ := ht matched p hp
  exact ⟨d, source, h d p.2 made⟩

/-- Traces whose replacements are in the relation can be put together. -/
theorem closed_replaces (P : Document → Document → Prop) : Closed (Replaces P) where
  nil := fun matched p hp => by cases hp
  event := fun e matched p hp => by cases hp
  append := by
    intro s t hs ht matched p hp
    rw [replacements_append] at hp
    rcases List.mem_append.1 hp with hp | hp
    · exact hs matched p hp
    · exact ht _ p hp

/-- Every document that is handed to the store as a replacement has the address of the document that
it was made from, one that the last query returned. -/
def KeepsAddresses (t : Trace) : Prop :=
  ∀ p ∈ t.replacements [], ∃ d, p.1 = some d ∧ p.2.get? idField = d.get? idField

end Trace

/-- The second document is the first one with the values that the clauses give to its attributes. -/
def SetClause.Changes (clauses : List SetClause) (set : Values) (d d' : Document) : Prop :=
  ∃ assignments, evaluate clauses set = .ok assignments ∧ d' = Table.assign d assignments

namespace Table

variable {σ : Type} (t : Table σ)

/-! ### Records -/

/-- A replacement is one request, with the answer of the store. -/
theorem trace_replace (d : Document) (w : World σ) :
    ∃ answer, (t.replace d w).trace = [.replace t.container d answer] :=
  ⟨_, rfl⟩

/-- Documents that are replaced one after the other are replaced each by its own new form. -/
theorem replacements_writeEach (f : Document → Document) (ds : List Document) (n : Nat)
    (w : World σ) :
    ∀ p ∈ (writeEach (fun d => t.replace (f d)) n ds w).trace.replacements ds,
      ∃ d, p.1 = some d ∧ p.2 = f d := by
  -- After a replacement was granted the documents that are left are those that are still to come.
  induction ds generalizing n w with
  | nil =>
    intro p hp
    cases hp
  | cons d ds ih =>
    obtain ⟨answer, replaced⟩ := t.trace_replace (f d) w
    intro p hp
    rw [writeEach, trace_bind, Trace.replacements_append, replaced] at hp
    rcases List.mem_append.1 hp with hp | hp
    · rw [List.mem_singleton.1 hp]
      exact ⟨d, rfl, rfl⟩
    · cases hr : (t.replace (f d) w).value with
      | ok u =>
        rw [hr] at hp
        exact ih (n + 1) _ p hp
      | error e =>
        rw [hr] at hp
        cases hp

/-- After a query nothing is replaced yet, and the documents that it returned are those to take. -/
theorem replacements_ask (text : String) (matched : List Document) (w : World σ) :
    (t.ask text w).trace.replacements matched = [] ∧
      ∀ ds, (t.ask text w).value = .ok ds → (t.ask text w).trace.unreplaced matched = ds := by
  rcases t.ask_cases text w with ⟨documents, _, value, trace⟩ | ⟨e, _, value, trace⟩
  · rw [value, trace]
    refine ⟨rfl, fun ds h => ?_⟩
    cases h
    rfl
  · rw [value, trace]
    exact ⟨rfl, fun ds h => by cases h⟩

/-- Looking for documents replaces nothing, and what it finds is what there is to be replaced. -/
theorem replacements_matching (c : CompiledCondition) (values : Values) (matched : List Document)
    (w : World σ) :
    (t.matching c values w).trace.replacements matched = [] ∧
      ∀ ds, (t.matching c values w).value = .ok ds →
        (t.matching c values w).trace.unreplaced matched = ds := by
  unfold matching andThen filter
  cases c.resolve values with
  | ok f => exact t.replacements_ask (findQuery t.id f) matched w
  | error e => exact ⟨rfl, fun ds h => by cases h⟩

/-- The documents that a query returned are replaced by themselves with the assignments. -/
theorem replacements_replaceAll (clauses : List SetClause) (set : Values) (ds : List Document)
    (w : World σ) :
    ∀ p ∈ (t.replaceAll clauses set ds w).trace.replacements ds,
      ∃ d, p.1 = some d ∧ SetClause.Changes clauses set d p.2 := by
  unfold replaceAll
  cases h : SetClause.evaluate clauses set with
  | error e =>
    intro p hp
    cases hp
  | ok assignments =>
    intro p hp
    obtain ⟨d, source, made⟩ := t.replacements_writeEach (assign · assignments) ds 0 w p hp
    exact ⟨d, source, assignments, h, made⟩

variable {α : Type} (c : CompiledCondition) (clauses : List SetClause)

/-- Of what comes after a query only the replacements of the documents that it returned matter. -/
theorem replaces_of_matching {P : Document → Document → Prop}
    {next : Except TableError (List Document) → Operation σ α} (values : Values)
    (refused : ∀ e, (next (.error e)).Leaves (· = []))
    (answered : ∀ ds w, ∀ p ∈ (next (.ok ds) w).trace.replacements ds,
      ∃ d, p.1 = some d ∧ P d p.2) :
    (t.matching c values >>= next).Leaves (Trace.Replaces P) := by
  intro w matched p hp
  obtain ⟨nothing, left⟩ := t.replacements_matching c values matched w
  rw [trace_bind, Trace.replacements_append, nothing, List.nil_append] at hp
  cases h : (t.matching c values w).value with
  | ok ds =>
    rw [h, left ds h] at hp
    exact answered ds _ p hp
  | error e =>
    rw [h, refused e] at hp
    cases hp

/-- Updating a record replaces what it finds by the changed documents. -/
theorem replaces_updateRecord (values set : Values) :
    (t.updateRecord c clauses values set).Leaves
      (Trace.Replaces (SetClause.Changes clauses set)) :=
  t.replaces_of_matching c values (fun _ _ => rfl) (t.replacements_replaceAll clauses set)

/-- So does a record that no waiting row stands for. -/
theorem replaces_updateOrWait (index : Nat) (r : UpsertRecord) (pending : List PendingInsert) :
    (t.updateOrWait c clauses index r pending).Leaves
      (Trace.Replaces (SetClause.Changes clauses r.set)) := by
  refine t.replaces_of_matching c r.values (fun _ _ => rfl) fun ds w => ?_
  cases ds with
  | nil =>
    -- The row waits or does not fit; nothing is written for it yet.
    cases t.schema.bind r.row with
    | ok values =>
      intro p hp
      cases hp
    | error e =>
      intro p hp
      cases hp
  | cons d ds =>
    intro p hp
    exact t.replacements_replaceAll clauses r.set (d :: ds) w p (by simpa using hp)

/-! ### Batches -/

/-- Every replacement of a batch is its document with the values of some record of the batch. -/
theorem replaces_update (batch setValues : List Values) :
    (t.update c clauses batch setValues).Leaves
      (Trace.Replaces fun d d' => ∃ set ∈ setValues, SetClause.Changes clauses set d d') := by
  refine t.leaves_update (Trace.closed_replaces _) fun x hx => ?_
  have set : x.2 ∈ setValues := (List.of_mem_zip hx).2
  exact (t.replaces_updateRecord c clauses x.1 x.2).imp fun trace h =>
    h.mono fun d d' made => ⟨x.2, set, made⟩

/-- An update or addition replaces documents by what one of the records makes of them. -/
theorem replaces_updateOrAdd (batch setValues : List Values) (rows : List Row) :
    (t.updateOrAdd c clauses batch setValues rows).Leaves
      (Trace.Replaces fun d d' => ∃ set ∈ setValues, SetClause.Changes clauses set d d') := by
  refine t.leaves_updateOrAdd (Trace.closed_replaces _) (fun r hr index pending => ?_) ?_
  · obtain ⟨x, hx, same⟩ := List.mem_map.1 hr
    have set : r.set ∈ setValues := by
      rw [← same]
      exact (List.of_mem_zip (List.of_mem_zip hx).2).1
    refine t.leaves_upsertRecord (Trace.closed_replaces _) ?_
    exact (t.replaces_updateOrWait c clauses index r pending).imp fun trace h =>
      h.mono fun d d' made => ⟨r.set, set, made⟩
  · intro d answer matched p hp
    cases hp

/-! ### Addresses -/

/-- What is assigned to a field does not depend on the document. -/
theorem exists_get?_assign {name : String} {assignments : List (String × Value)}
    (h : name ∈ assignments.map (·.1)) :
    ∃ j, ∀ d, (assign d assignments).get? name = some j := by
  obtain ⟨before, v, after, rfl, last⟩ := Members.exists_last_of_mem h
  exact ⟨v.toJson, fun d => get?_assign_last last d⟩

/-- An accepted clause has the name of its assignment and the value that the expression compiles
to. -/
theorem compile_of_setClause {t : Table σ} {name : String} {e : Expr}
    {clause : SetClause} (accepted : t.setClause name e = .ok clause) :
    clause.name = name ∧ compile t.id .setAttribute e = .ok clause.value := by
  unfold setClause at accepted
  split at accepted
  · cases accepted
  · obtain ⟨c, compiled, made⟩ := bind_eq_ok.1 accepted
    cases pure_eq_ok.1 made
    exact ⟨rfl, compiled⟩

/-- A set clause has its value from the start, or it is the value of an attribute of the stream. -/
theorem scalar_of_setClause {t : Table σ} {name : String} {e : Expr} {clause : SetClause}
    (h : t.setClause name e = .ok clause) :
    (∃ v, ∀ set, clause.value.scalar set = .ok v) ∨
      ∃ a, ∀ set, clause.value.scalar set = Values.lookup set a := by
  obtain ⟨_, compiled⟩ := compile_of_setClause h
  generalize clause.value = c at compiled ⊢
  cases e with
  | constant v =>
    cases compiled
    exact .inl ⟨v, fun set => rfl⟩
  | «attribute» a type =>
    cases compiled
    exact .inr ⟨a, fun set => rfl⟩
  | _ => cases compiled

/-- A further value leaves those that are there bound. -/
theorem exists_lookup_insert {set : Values} {a : String}
    (h : ∃ v, Values.lookup set a = .ok v) (name : String) (v : Value) :
    ∃ v', Values.lookup (set.insert name v) a = .ok v' := by
  unfold Values.lookup at h ⊢
  by_cases same : a = name
  · rw [same, Members.get?_insert_self]
    exact ⟨v, rfl⟩
  · rw [Members.get?_insert_of_ne same]
    exact h

/-- There are values that bind all clauses. -/
theorem exists_bound {t : Table σ} {clauses : List SetClause}
    (accepted : ∀ clause ∈ clauses, ∃ e, t.setClause clause.name e = .ok clause) :
    ∃ set, ∀ clause ∈ clauses, ∃ v, clause.value.scalar set = .ok v := by
  induction clauses with
  | nil => exact ⟨[], fun _ h => by cases h⟩
  | cons clause clauses ih =>
    obtain ⟨⟨e, he⟩, others⟩ := List.forall_mem_cons.1 accepted
    obtain ⟨set, bound⟩ := ih others
    rcases scalar_of_setClause he with ⟨v, hv⟩ | ⟨a, ha⟩
    · exact ⟨set, List.forall_mem_cons.2 ⟨⟨v, hv set⟩, bound⟩⟩
    · refine ⟨set.insert a .null, List.forall_mem_cons.2 ⟨?_, fun clause' mem => ?_⟩⟩
      · rw [ha, Values.lookup, Members.get?_insert_self]
        exact ⟨.null, rfl⟩
      · obtain ⟨e', he'⟩ := others clause' mem
        have before := bound clause' mem
        rcases scalar_of_setClause he' with ⟨v, hv⟩ | ⟨a', ha'⟩
        · exact ⟨v, hv _⟩
        · rw [ha'] at before ⊢
          exact exists_lookup_insert before a .null

/-- The table over another store. -/
def withBackend {τ : Type} (backend : Backend τ) : Table τ where
  definition := t.definition
  collection := t.collection
  container := t.container
  backend := backend
  freshIds := t.freshIds

/-- A property of the traces of all updates with the clauses, whatever the store, the condition and
the batch are; it may depend on the values for the clauses. -/
def EveryUpdate (Q : List Values → Trace → Prop) : Prop :=
  ∀ (τ : Type) (backend : Backend τ) (c : CompiledCondition) (batch setValues : List Values)
    (w : World τ),
    Q setValues ((t.withBackend backend).update c clauses batch setValues w).trace ∧
    ∀ rows, Q setValues ((t.withBackend backend).updateOrAdd c clauses batch setValues rows w).trace

/-- A store that answers every query with one document. -/
def offering (d : Document) : Backend Unit where
  query _ _ _ := (.ok [d], ())
  create _ _ _ := (.ok (), ())
  replace _ _ _ := (.ok (), ())
  delete _ _ _ := (.ok (), ())

/-- A store that offers a document for every query has it replaced by the updated one. -/
theorem replacements_update_offering {set : Values} {assignments : List (String × Value)}
    (h : SetClause.evaluate clauses set = .ok assignments) (d : Document) :
    ((t.withBackend (offering d)).update .everyRecord clauses [[]] [set]
      ⟨(), 0⟩).trace.replacements [] = [(some d, assign d assignments)] := by
  have record : (t.withBackend (offering d)).updateRecord .everyRecord clauses [] set ⟨(), 0⟩ =
      ⟨{ written := 1 }, [.event (.resolved t.id 0),
        .query t.container (findQuery t.id "") (.ok [d]), .event (.rowsReturned t.id 1),
        .replace t.container (assign d assignments) (.ok ())], ⟨(), 0⟩⟩ := by
    unfold updateRecord replaceAll
    rw [h]
    rfl
  simp [update, checkLength, reported, writeBatch, settle, emit, record, Trace.replacements,
    Except.toOption]

/-- A clause for the field `id` sends the replacement of some document to another address. -/
theorem exists_not_keepsAddresses {clauses : List SetClause}
    (accepted : ∀ clause ∈ clauses, ∃ e, t.setClause clause.name e = .ok clause)
    (assigned : idField ∈ clauses.map (·.name)) :
    ∃ set d, ¬ ((t.withBackend (offering d)).update .everyRecord clauses [[]] [set]
      ⟨(), 0⟩).trace.KeepsAddresses := by
  obtain ⟨set, bound⟩ := exists_bound accepted
  obtain ⟨assignments, ha⟩ := SetClause.exists_evaluate bound
  rw [← SetClause.map_fst_evaluate ha] at assigned
  obtain ⟨j, hj⟩ := exists_get?_assign assigned
  -- All documents get the same address, so one that had another address is sent elsewhere.
  obtain ⟨id, other⟩ : ∃ id, Json.string id ≠ j := by
    by_cases first : Json.string "1" = j
    · refine ⟨"2", fun second => ?_⟩
      exact absurd (Json.string.inj (second.trans first.symm)) (by decide)
    · exact ⟨"1", first⟩
  refine ⟨set, ⟨[(idField, .string id)]⟩, fun keeps => ?_⟩
  rw [Trace.KeepsAddresses, t.replacements_update_offering clauses ha] at keeps
  obtain ⟨d, same, address⟩ := keeps _ (List.mem_singleton_self _)
  cases same
  rw [hj] at address
  cases address
  exact other rfl

/-- A replacement is always its document with the values of some record, and it goes to the address
of that document just if no clause assigns the field `id`. -/
theorem keepsAddresses_iff
    (accepted : ∀ clause ∈ clauses, ∃ e, t.setClause clause.name e = .ok clause) :
    t.EveryUpdate clauses (fun setValues =>
      Trace.Replaces fun d d' => ∃ set ∈ setValues, SetClause.Changes clauses set d d') ∧
    (t.EveryUpdate clauses (fun _ => Trace.KeepsAddresses) ↔ idField ∉ clauses.map (·.name)) := by
  have replaced : t.EveryUpdate clauses fun setValues =>
      Trace.Replaces fun d d' => ∃ set ∈ setValues, SetClause.Changes clauses set d d' :=
    fun τ backend c batch setValues w =>
      ⟨(t.withBackend backend).replaces_update c clauses batch setValues w,
        fun rows => (t.withBackend backend).replaces_updateOrAdd c clauses batch setValues rows w⟩
  refine ⟨replaced, fun keeps assigned => ?_, fun apart τ backend c batch setValues w => ?_⟩
  · obtain ⟨set, d, moved⟩ := t.exists_not_keepsAddresses accepted assigned
    exact moved (keeps Unit (offering d) .everyRecord [[]] [set] ⟨(), 0⟩).1
  · have keeps (d d' : Document) (h : ∃ set ∈ setValues, SetClause.Changes clauses set d d') :
        d'.get? idField = d.get? idField := by
      obtain ⟨set, _, assignments, ha, rfl⟩ := h
      rw [← SetClause.map_fst_evaluate ha] at apart
      exact get?_assign apart d
    obtain ⟨updated, upserted⟩ := replaced τ backend c batch setValues w
    exact ⟨updated.mono keeps [], fun rows => (upserted rows).mono keeps []⟩

/-- A quote of IBM. -/
def ibm : Document := ⟨[("id", .string "1"), ("symbol", .string "IBM")]⟩

/-- A table of quotes in a store that answers every query with the quote of IBM. -/
def quotes : Table Unit where
  definition := ⟨"Quotes", [⟨"id", .string⟩, ⟨"symbol", .string⟩]⟩
  collection := "Quotes"
  container := "/dbs/db/colls/Quotes"
  backend := offering ibm
  freshIds := fun n => toString n

theorem keepsAddresses_quotes :
    ∃ clause, quotes.setClause "symbol" (.attribute "renamed" .string) = .ok clause ∧
      idField ∉ [clause].map (·.name) ∧
      ∀ (c : CompiledCondition) (batch setValues : List Values) (w : World Unit),
        (quotes.update c [clause] batch setValues w).trace.KeepsAddresses := by
  obtain ⟨clause, h, name⟩ : ∃ clause,
      quotes.setClause "symbol" (.attribute "renamed" .string) = .ok clause ∧
        clause.name = "symbol" := ⟨_, rfl, rfl⟩
  have accepted : ∀ clause' ∈ [clause], ∃ e, quotes.setClause clause'.name e = .ok clause' := by
    intro clause' mem
    rw [List.mem_singleton.1 mem, name]
    exact ⟨_, h⟩
  have apart : idField ∉ [clause].map (·.name) := by
    rw [List.map_singleton, name]
    decide
  refine ⟨clause, h, apart, fun c batch setValues w => ?_⟩
  have keeps := (keepsAddresses_iff quotes [clause] accepted).2.2 apart
  exact (keeps Unit quotes.backend c batch setValues w).1

/-- The quote of IBM is written to the address of another quote. -/
theorem not_keepsAddresses_quotes :
    ∃ clause, quotes.setClause "id" (.constant (.string "2")) = .ok clause ∧
      ¬ (quotes.update .everyRecord [clause] [[]] [[]] ⟨(), 0⟩).trace.KeepsAddresses := by
  obtain ⟨clause, h, evaluated⟩ : ∃ clause,
      quotes.setClause "id" (.constant (.string "2")) = .ok clause ∧
        SetClause.evaluate [clause] [] = .ok [(idField, .string "2")] := ⟨_, rfl, rfl⟩
  refine ⟨clause, h, fun keeps => ?_⟩
  have made : (quotes.update .everyRecord [clause] [[]] [[]] ⟨(), 0⟩).trace.replacements [] =
      [(some ibm, assign ibm [(idField, .string "2")])] :=
    quotes.replacements_update_offering [clause] evaluated ibm
  rw [Trace.KeepsAddresses, made] at keeps
  obtain ⟨d, source, same⟩ := keeps _ (List.mem_singleton_self _)
  cases source
  exact absurd (Json.string.inj (Option.some.inj same)) (by decide)

end Table

end StreamTable
