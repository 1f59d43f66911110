import StreamTable.Metrics.Counters

/-!
# Delivery of events

Events go to the global counters, unless a sink is installed.  `Dispatcher.within` installs a sink
for the time of an activity and then restores what was there before, so the innermost of nested
sinks receives the events and the counters do not see them, except for what the sink itself writes
into them.
-/

namespace StreamTable

/-- A receiver of events, known by a number. -/
abbrev Sink := Nat

/-- Where events are delivered and what was delivered so far. -/
structure Dispatcher where
  /-- The sink that receives the events, if one is installed. -/
  installed : Option Sink := none
  /-- The global counters. -/
  counters : Counters
  /-- The events that sinks received, in the order of their delivery. -/
  received : List (Sink × Event) := []
  /-- What a sink makes of the global counters when it receives an event, after all that sinks
  received before. -/
  writes : Sink → List (Sink × Event) → Event → Counters → Counters := fun _ _ _ c => c

namespace Dispatcher

/-- Deliver an event. -/
def record (d : Dispatcher) (e : Event) : Dispatcher :=
  match d.installed with
  | none => { d with counters := d.counters.record e }
  | some sink =>
    { d with
      counters := d.writes sink d.received e d.counters
      received := d.received ++ [(sink, e)] }

/-- Deliver a list of events. -/
def recordAll (d : Dispatcher) (es : List Event) : Dispatcher := es.foldl record d

/-- Install a sink. -/
def install (d : Dispatcher) (sink : Option Sink) : Dispatcher := { d with installed := sink }

/-- The events that a sink received. -/
def receivedBy (d : Dispatcher) (sink : Sink) : List Event :=
  d.received.filterMap fun (s, e) => if s = sink then some e else none

/-- Carry out an activity under a sink. -/
def within {α : Type} (sink : Sink) (activity : Dispatcher → α × Dispatcher) (d : Dispatcher) :
    α × Dispatcher :=
  let (a, d') := activity (d.install (some sink))
  (a, d'.install d.installed)

/-- Begin a new window of time with all global counters at zero. -/
def reset (d : Dispatcher) (now : UInt64) : Dispatcher :=
  { d with counters := { windowStart := now } }

end Dispatcher

end StreamTable
