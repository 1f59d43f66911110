import StreamTable.Error
import StreamTable.Metrics.Event

/-!
# Operations on a store

An `Operation σ α` computes an `α` with the help of a store whose states are `σ`.  Beside its result
it gives its trace, the events and the store's answers in the order in which they came about, and
the world that it leaves behind: the state of the store and the number of identifiers generated so
far.

The trace of a sequence of operations is the sequence of their traces (`trace_bind`).
-/

namespace StreamTable

/-- What an operation does that can be seen from outside. -/
inductive Action where
  /-- It reports an event. -/
  | event (e : Event)
  /-- It sends a query. -/
  | query (container text : String) (answer : Except BackendError (List Document))
  /-- It adds a document. -/
  | create (container : String) (document : Document) (answer : Except BackendError Unit)
  /-- It replaces a document. -/
  | replace (container : String) (document : Document) (answer : Except BackendError Unit)
  /-- It removes a document. -/
  | delete (container id : String) (answer : Except BackendError Unit)

namespace Action

/-- The event that is reported, if one is. -/
def event? : Action → Option Event
  | .event e => some e
  | _ => none

/-- The action is a request to the store. -/
def isRequest (a : Action) : Bool := a.event?.isNone

end Action

/-- The actions of an operation in their order. -/
abbrev Trace := List Action

namespace Trace

/-- The events of a trace. -/
def events (t : Trace) : List Event := t.filterMap Action.event?

/-- The requests of a trace. -/
def requests (t : Trace) : Trace := t.filter Action.isRequest

@[simp] theorem events_append (s t : Trace) : events (s ++ t) = s.events ++ t.events :=
  List.filterMap_append

@[simp] theorem requests_append (s t : Trace) :
    requests (s ++ t) = s.requests ++ t.requests :=
  List.filter_append s t

end Trace

/-- What operations change. -/
structure World (σ : Type) where
  /-- The state of the store. -/
  store : σ
  /-- The number of identifiers generated so far. -/
  issued : Nat

/-- What an operation leaves behind. -/
structure Run (σ α : Type) where
  /-- The result. -/
  value : α
  /-- The actions. -/
  trace : Trace
  /-- The world after them. -/
  world : World σ

/-- A computation with the help of a store. -/
def Operation (σ α : Type) : Type := World σ → Run σ α

namespace Operation

variable {σ α β : Type}

/-- The operation that only gives a result. -/
protected def pure (a : α) : Operation σ α := fun w => ⟨a, [], w⟩

/-- One operation after another. -/
protected def bind (x : Operation σ α) (f : α → Operation σ β) : Operation σ β := fun w =>
  let r := x w
  let s := f r.value r.world
  ⟨s.value, r.trace ++ s.trace, s.world⟩

instance : Monad (Operation σ) where
  pure := Operation.pure
  bind := Operation.bind

@[simp] theorem pure_apply (a : α) (w : World σ) : (pure a : Operation σ α) w = ⟨a, [], w⟩ := rfl

theorem bind_apply (x : Operation σ α) (f : α → Operation σ β) (w : World σ) :
    (x >>= f) w =
      ⟨(f (x w).value (x w).world).value, (x w).trace ++ (f (x w).value (x w).world).trace,
        (f (x w).value (x w).world).world⟩ := rfl

@[simp] theorem trace_bind (x : Operation σ α) (f : α → Operation σ β) (w : World σ) :
    ((x >>= f) w).trace = (x w).trace ++ (f (x w).value (x w).world).trace := rfl

@[simp] theorem value_bind (x : Operation σ α) (f : α → Operation σ β) (w : World σ) :
    ((x >>= f) w).value = (f (x w).value (x w).world).value := rfl

@[simp] theorem world_bind (x : Operation σ α) (f : α → Operation σ β) (w : World σ) :
    ((x >>= f) w).world = (f (x w).value (x w).world).world := rfl

@[simp] theorem value_map (f : α → β) (x : Operation σ α) (w : World σ) :
    ((f <$> x) w).value = f (x w).value := rfl

@[simp] theorem trace_map (f : α → β) (x : Operation σ α) (w : World σ) :
    ((f <$> x) w).trace = (x w).trace :=
  List.append_nil _

/-- Report an event. -/
def emit (e : Event) : Operation σ Unit := fun w => ⟨(), [.event e], w⟩

/-- A request to the store, given its answer and the action that it is. -/
def request (ask : σ → α × σ) (action : α → Action) : Operation σ α := fun w =>
  let (answer, store) := ask w.store
  ⟨answer, [action answer], { w with store }⟩

/-- Generate an identifier: the next one of a sequence. -/
def generate (ids : Nat → String) : Operation σ String := fun w =>
  ⟨ids w.issued, [], { w with issued := w.issued + 1 }⟩

end Operation

end StreamTable
