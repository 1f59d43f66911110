import StreamTable.Proofs.Table.Accounting
import StreamTable.Proofs.Table.Records

/-!
# Batches one after the other

A batch in two parts is written like two batches, the second of them in the world that the first one
leaves behind (`Table.batches_append`).  What goes wrong with a record of the first part is of no
consequence for the second part, except for what the store makes of it.

Operations obey the laws of a monad, so a batch in two parts is its first part
followed by its second (`Table.writeBatch_append`).  The position that a batch starts at only shows
in the positions of its failures (`Table.writeBatch_add`).
-/

namespace StreamTable

/-- A trace has no end that would have to be put somewhere, so operations obey the laws of a
monad. -/
instance {σ : Type} : LawfulMonad (Operation σ) :=
  .mk' _
    (by
      intro α x
      funext w
      exact congrArg (Run.mk (x w).value · (x w).world) (List.append_nil _))
    (by
      intro α β a f
      rfl)
    (by
      intro α β γ x f g
      funext w
      simp only [Operation.bind_apply, List.append_assoc])

namespace BatchOutcome

/-- The outcome of a batch that starts so many positions later. -/
def shift (o : BatchOutcome) (n : Nat) : BatchOutcome :=
  { o with failures := o.failures.map fun f => { f with index := n + f.index } }

/-- Outcomes can be moved before or after they are put together. -/
theorem shift_append (a b : BatchOutcome) (n : Nat) :
    (a ++ b).shift n = a.shift n ++ b.shift n := by
  simp [shift, append_def, append]

end BatchOutcome

/-- A record that comes later has the same outcome, only later. -/
theorem Progress.outcome_add (p : Progress) (n index : Nat) :
    p.outcome (n + index) = (p.outcome index).shift n := by
  unfold Progress.outcome
  split <;> rfl

/-- The first run and the second one, which goes on in the world that the first one leaves behind,
make the whole: the store is asked the same, it comes to the same state, and the outcomes are put
together, with the failures of the second run `n` positions later.  The results are the outcomes in
some form. -/
structure Run.Joins {σ α : Type} (form : BatchOutcome → α) (n : Nat)
    (first second whole : Run σ α) : Prop where
  /-- The requests are those of the first run and then those of the second one. -/
  requests : whole.trace.requests = first.trace.requests ++ second.trace.requests
  /-- The state of the store and the number of generated identifiers are those after both. -/
  world : whole.world = second.world
  /-- Completed records and changed documents are added up, and the failures come one after the
  other. -/
  value : ∃ a b, first.value = form a ∧ second.value = form b ∧ whole.value = form {
    processed := a.processed + b.processed
    affected := a.affected + b.affected
    failures := a.failures ++ b.failures.map fun f => { f with index := n + f.index } }

namespace Table

open Operation

variable {σ α β : Type} (t : Table σ)

/-! ### Records from a position on -/

/-- To settle a record that comes later is to settle it where it is, and to move the outcome. -/
theorem settle_add (kind : ExecKind) (n index : Nat) (p : Progress) :
    t.settle kind (n + index) p = (·.shift n) <$> t.settle kind index p := by
  unfold settle
  rw [Progress.outcome_add]
  split <;> rfl

/-- The failures of a batch are on the positions that follow its start. -/
theorem writeBatch_add (kind : ExecKind) (write : α → Operation σ Progress) (n index : Nat)
    (xs : List α) :
    t.writeBatch kind write (n + index) xs =
      (·.shift n) <$> t.writeBatch kind write index xs := by
  induction xs generalizing index with
  | nil => rfl
  | cons x xs ih =>
    have rest := ih (index + 1)
    rw [← Nat.add_assoc] at rest
    simp only [writeBatch, rest, settle_add, map_eq_pure_bind, bind_assoc, pure_bind,
      BatchOutcome.shift_append]

/-- A batch in two parts: the second part starts where the first one ends. -/
theorem writeBatch_append (kind : ExecKind) (write : α → Operation σ Progress) (index : Nat)
    (xs ys : List α) :
    t.writeBatch kind write index (xs ++ ys) = do
      let first ← t.writeBatch kind write index xs
      let second ← t.writeBatch kind write (index + xs.length) ys
      return first ++ second := by
  induction xs generalizing index with
  | nil =>
    show t.writeBatch kind write index ys = _
    simp only [writeBatch, pure_bind, BatchOutcome.empty_append, List.length_nil, Nat.add_zero,
      bind_pure]
  | cons x xs ih =>
    have next : index + 1 + xs.length = index + (x :: xs).length := by
      rw [List.length_cons]
      omega
    rw [List.cons_append, writeBatch, ih (index + 1), next, writeBatch]
    simp only [bind_assoc, pure_bind, BatchOutcome.append_assoc]

/-! ### Reported batches -/

/-- A reported batch in two parts, in whatever form its outcome is given. -/
theorem joins_writeBatch (form : BatchOutcome → β) (kind : ExecKind)
    (write : α → Operation σ Progress) (xs ys : List α) (w : World σ) :
    let batch (zs : List α) : Operation σ β :=
      form <$> t.reported kind (·.affected) (t.writeBatch kind write 0 zs)
    Run.Joins form xs.length (batch xs w) (batch ys (batch xs w).world) (batch (xs ++ ys) w) := by
  intro batch
  let plain (zs : List α) : Operation σ BatchOutcome := t.writeBatch kind write 0 zs
  -- Both parts start at the position 0 when they are written as batches of their own.
  have later : t.writeBatch kind write (0 + xs.length) ys = (·.shift xs.length) <$> plain ys := by
    rw [Nat.zero_add]
    exact t.writeBatch_add kind write xs.length 0 ys
  have parts : plain (xs ++ ys) = do
      let first ← plain xs
      let second ← plain ys
      return first ++ second.shift xs.length := by
    have appended := t.writeBatch_append kind write 0 xs ys
    rw [later] at appended
    simpa only [map_eq_pure_bind, bind_assoc, pure_bind] using appended
  have requests (zs : List α) (w : World σ) :
      (batch zs w).trace.requests = (plain zs w).trace.requests := by
    show ((form <$> t.reported kind (·.affected) (plain zs)) w).trace.requests = _
    rw [trace_map, requests_reported]
  constructor
  · rw [requests, requests, requests, parts, trace_bind, trace_bind, pure_apply, List.append_nil,
      Trace.requests_append]
    rfl
  · show (plain (xs ++ ys) w).world = (plain ys (plain xs w).world).world
    rw [parts]
    rfl
  · refine ⟨(plain xs w).value, (plain ys (plain xs w).world).value, rfl, rfl, ?_⟩
    show form (plain (xs ++ ys) w).value = _
    rw [parts]
    rfl

/-- To add, delete or update a batch in two parts is to do so with the first part and then with the
second one. -/
theorem batches_append (c : CompiledCondition) (clauses : List SetClause) (w : World σ) :
    (∀ xs ys : List Row,
      let first := t.add xs w
      Run.Joins (fun o => o) xs.length first (t.add ys first.world) (t.add (xs ++ ys) w)) ∧
    (∀ xs ys : List Values,
      let first := t.delete c xs w
      Run.Joins (fun o => o) xs.length first (t.delete c ys first.world)
        (t.delete c (xs ++ ys) w)) ∧
    ∀ xs ys xs' ys' : List Values, xs.length = xs'.length → ys.length = ys'.length →
      let first := t.update c clauses xs xs' w
      Run.Joins .ok xs.length first (t.update c clauses ys ys' first.world)
        (t.update c clauses (xs ++ ys) (xs' ++ ys') w) := by
  refine ⟨fun xs ys => ?_, fun xs ys => ?_, fun xs ys xs' ys' hx hy => ?_⟩
  · have joins := t.joins_writeBatch (fun o => o) .add t.addRecord xs ys w
    simp only [id_map'] at joins
    exact joins
  · have joins := t.joins_writeBatch (fun o => o) .delete (t.deleteRecord c) xs ys w
    simp only [id_map'] at joins
    exact joins
  · -- The records of an update are pairs, and pairing can be exchanged with appending.
    let write (x : Values × Values) : Operation σ Progress := t.updateRecord c clauses x.1 x.2
    have joins := t.joins_writeBatch (Except.ok (ε := TableError)) .update write (xs.zip xs')
      (ys.zip ys') w
    have zip : (xs ++ ys).zip (xs' ++ ys') = xs.zip xs' ++ ys.zip ys' := List.zip_append hx
    have length : (xs.zip xs').length = xs.length := by
      rw [List.length_zip, ← hx, Nat.min_self]
    have both : (xs ++ ys).length = (xs' ++ ys').length := by
      rw [List.length_append, List.length_append, hx, hy]
    rw [length, ← zip] at joins
    rw [t.update_of_length c clauses xs xs' hx, t.update_of_length c clauses ys ys' hy,
      t.update_of_length c clauses _ _ both]
    exact joins

end Table

end StreamTable
