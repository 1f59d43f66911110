import Mathlib.Data.List.Forall2
import StreamTable.Cursor

/-!
# A cursor is a queue of rows

`Cursor.queue` are the rows that a cursor has not handed out yet, be the next one built already or
not.  Every use of the cursor does with them what a queue does (`Cursor.run_refines`), so a sequence
of uses answers as the queue does, and the rows that are taken afterwards are those left in it
(`Cursor.runAll_refines`).

No row is lost and none is handed out twice: unless the queue was closed, the number of rows that
were asked for tells which ones are left (`RowQueue.snd_runAll`).
-/

namespace StreamTable

/-- The value of an attribute that is read from a document: null if the document lacks the field. -/
structure Attribute.ReadFrom (d : Document) (a : Attribute) (v : Value) : Prop where
  absent : d.get? a.name = none → v = .null
  present : ∀ j, d.get? a.name = some j → v = .ofJson j a.type

/-- Projection reads one value for each attribute, in the order of the schema. -/
theorem Schema.readFrom_project (s : Schema) (d : Document) :
    List.Forall₂ (Attribute.ReadFrom d) s (s.project d.fields) := by
  induction s with
  | nil => exact .nil
  | cons a s ih =>
    refine .cons ⟨fun absent => ?_, fun j present => ?_⟩ ih
    · rw [Document.get?] at absent
      simp only [absent]
    · rw [Document.get?] at present
      simp only [present]

/-! ### Queues -/

/-- Rows that are taken from the front. -/
abbrev RowQueue := List Row

namespace RowQueue

open Cursor (Step Answer)

/-- What a queue answers when it is used like a cursor, and what is left of it. -/
def run (q : RowQueue) : Step → Answer × RowQueue
  | .hasNext => (.flag !q.isEmpty, q)
  | .next => (.row (q.headD []), q.tail)
  | .remove => (.done, q)
  | .close => (.done, [])

/-- The answers to a sequence of uses, and what is left after them. -/
def runAll (q : RowQueue) : List Step → List Answer × RowQueue
  | [] => ([], q)
  | step :: steps => ((q.run step).1 :: ((q.run step).2.runAll steps).1,
      ((q.run step).2.runAll steps).2)

/-- What is left depends on how often a row was asked for, not on the uses between. -/
theorem snd_runAll (q : RowQueue) (steps : List Step) :
    (q.runAll steps).2 = if .close ∈ steps then [] else q.drop (steps.count .next) := by
  induction steps generalizing q with
  | nil => rfl
  | cons step steps ih =>
    rw [runAll, ih]
    cases step with
    | hasNext => simp [run]
    | next => simp [run]
    | remove => simp [run]
    | close => simp [run]

end RowQueue

namespace Cursor

/-- The rows that are not handed out yet. -/
def queue (c : Cursor) : RowQueue :=
  match c.state with
  | .pending ds => ds.map fun d => c.schema.project d.fields
  | .buffered row ds => row :: ds.map fun d => c.schema.project d.fields
  | .closed => []

/-! ### Single uses -/

-- A cursor that has built its next row and one that has not are the same queue, so each of these
-- facts is looked at in every state.

theorem hasNext_refines (c : Cursor) :
    c.hasNext.1 = !c.queue.isEmpty ∧ c.hasNext.2.queue = c.queue := by
  obtain ⟨schema, state⟩ := c
  cases state with
  | pending ds => cases ds <;> exact ⟨rfl, rfl⟩
  | buffered row ds => exact ⟨rfl, rfl⟩
  | closed => exact ⟨rfl, rfl⟩

theorem next_refines (c : Cursor) :
    c.next.1 = c.queue.headD [] ∧ c.next.2.queue = c.queue.tail := by
  obtain ⟨schema, state⟩ := c
  cases state with
  | pending ds => cases ds <;> exact ⟨rfl, rfl⟩
  | buffered row ds => exact ⟨rfl, rfl⟩
  | closed => exact ⟨rfl, rfl⟩

theorem run_refines (c : Cursor) (step : Step) :
    (c.run step).1 = (c.queue.run step).1 ∧ (c.run step).2.queue = (c.queue.run step).2 := by
  cases step with
  | hasNext =>
    obtain ⟨answer, queue⟩ := c.hasNext_refines
    exact ⟨congrArg Answer.flag answer, queue⟩
  | next =>
    obtain ⟨answer, queue⟩ := c.next_refines
    exact ⟨congrArg Answer.row answer, queue⟩
  | remove => exact ⟨rfl, rfl⟩
  | close => exact ⟨rfl, rfl⟩

/-! ### Taking the further rows -/

theorem take_eq (n : Nat) (c : Cursor) : take n c = c.queue.take n := by
  induction n generalizing c with
  | zero => rfl
  | succ n ih =>
    obtain ⟨flag, same⟩ := c.hasNext_refines
    rw [take]
    split
    · next c' h =>
      rw [h] at flag
      have none : c.queue = [] := by simpa using flag.symm
      rw [none, List.take_nil]
    · next c' h =>
      rw [h] at flag same
      obtain ⟨row, rows, hq⟩ := List.exists_cons_of_ne_nil (l := c.queue) (by simpa using flag.symm)
      obtain ⟨head, tail⟩ := c'.next_refines
      rw [show c'.queue = row :: rows from same.trans hq] at head tail
      show c'.next.1 :: take n c'.next.2 = c.queue.take (n + 1)
      rw [hq, List.take_succ_cons, ih, head, tail]
      rfl

theorem bound_eq (c : Cursor) : c.bound = c.queue.length := by
  obtain ⟨schema, state⟩ := c
  cases state <;> simp [bound, queue]

theorem rows_eq (c : Cursor) : c.rows = c.queue := by
  rw [rows, take_eq, bound_eq, List.take_length]

/-- One demand for a further row.  The cursor is closed when there is none. -/
def demand (c : Cursor) : Option Row × Cursor :=
  if c.hasNext.1 then (some c.hasNext.2.next.1, c.hasNext.2.next.2) else (none, c.hasNext.2.close)

/-- What so many demands give, one after the other. -/
def demands : Nat → Cursor → List (Option Row)
  | 0, _ => []
  | n + 1, c => c.demand.1 :: demands n c.demand.2

theorem demand_refines (c : Cursor) :
    c.demand.1 = c.queue.head? ∧ c.demand.2.queue = c.queue.tail := by
  obtain ⟨flag, same⟩ := c.hasNext_refines
  obtain ⟨head, tail⟩ := c.hasNext.2.next_refines
  rw [same] at head tail
  unfold demand
  cases hq : c.queue with
  | nil =>
    rw [hq] at flag
    rw [flag]
    exact ⟨rfl, rfl⟩
  | cons row rows =>
    rw [hq] at flag head tail
    rw [flag]
    exact ⟨congrArg some head, tail⟩

/-- The rows come in their order, and after the last one nothing comes any more. -/
theorem demands_eq (n : Nat) (c : Cursor) :
    c.demands n = (List.range n).map fun i => c.queue[i]? := by
  induction n generalizing c with
  | zero => rfl
  | succ n ih =>
    obtain ⟨first, rest⟩ := c.demand_refines
    rw [demands, ih, first, rest, List.range_succ_eq_map, List.map_cons, List.map_map,
      List.head?_eq_getElem?]
    simp only [List.getElem?_tail, Function.comp_def]

/-! ### Sequences of uses -/

theorem runAll_queue (c : Cursor) (steps : List Step) :
    (c.runAll steps).1 = (c.queue.runAll steps).1 ∧
      (c.runAll steps).2.queue = (c.queue.runAll steps).2 := by
  induction steps generalizing c with
  | nil => exact ⟨rfl, rfl⟩
  | cons step steps ih =>
    obtain ⟨answer, queue⟩ := c.run_refines step
    obtain ⟨answers, left⟩ := ih (c.run step).2
    rw [queue] at answers left
    exact ⟨congrArg₂ List.cons answer answers, left⟩

/-- However a cursor over documents is used, it answers as the queue of their rows does; and then
the further rows, taken all at once or one by one, are those left in the queue: all but as many as
were asked for, and none once it was closed. -/
theorem runAll_refines (documents : List Document) (schema : Schema) (steps : List Step) :
    let all : RowQueue := documents.map fun d => schema.project d.fields
    let used := (ofDocuments documents schema).runAll steps
    let left := (all.runAll steps).2
    used.1 = (all.runAll steps).1 ∧
      used.2.rows = left ∧ (∀ n, used.2.demands n = (List.range n).map fun i => left[i]?) ∧
      List.Forall₂ (fun d row => List.Forall₂ (Attribute.ReadFrom d) schema row) documents all ∧
      left = if .close ∈ steps then [] else all.drop (steps.count .next) := by
  intro all used left
  obtain ⟨answers, queue⟩ := runAll_queue (ofDocuments documents schema) steps
  refine ⟨answers, ?_, fun n => ?_, ?_, all.snd_runAll steps⟩
  · rw [rows_eq]
    exact queue
  · rw [demands_eq]
    exact congrArg (fun q : RowQueue => (List.range n).map fun i => q[i]?) queue
  · rw [List.forall₂_map_right_iff]
    exact List.forall₂_same.2 fun d _ => schema.readFrom_project d

end Cursor

end StreamTable
