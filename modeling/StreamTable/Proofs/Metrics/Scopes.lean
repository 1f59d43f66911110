import StreamTable.Metrics.Dispatch

/-!
# Scopes of sinks

An `Activity` records events, and installs sinks for parts of it; these scopes can be nested in any
way.  Only one sink is kept as installed, and no list of the scopes that are open.  But an activity
leaves the sink as it was (`Activity.installed_run`), and every event of it is delivered once, to
the sink of the innermost scope around it (`Activity.run_eq`).  An event outside of all scopes goes
where it would have gone before the activity, whatever scopes were closed in the meantime.

The scopes around an event are read off the activity (`Activity.occurrences`).  What is delivered
follows from the list of deliveries alone: the events that a sink receives
(`Dispatcher.receivedBy_deliverAll`), and those that are counted, as long as the sinks leave the
counters alone (`Dispatcher.counters_deliverAll`).
-/

namespace StreamTable

/-! ### Activities -/

/-- Events that are recorded one after the other, partly under sinks.  If a sink itself records
events when it receives one, they are part of the activity, after the one that it received. -/
inductive Activity where
  /-- Nothing happens. -/
  | idle
  /-- An event is recorded. -/
  | event (e : Event)
  /-- One activity after another. -/
  | seq (a b : Activity)
  /-- An activity under a sink. -/
  | scope (sink : Sink) (a : Activity)

/-- An event of an activity, and where it stands. -/
structure Occurrence where
  /-- The sinks of the scopes around the event, the outermost first. -/
  scopes : List Sink
  /-- The event. -/
  event : Event

namespace Occurrence

/-- The occurrence with a scope around all others. -/
def inside (sink : Sink) (o : Occurrence) : Occurrence := { o with scopes := sink :: o.scopes }

/-- Where the event is to be delivered: to the sink of the innermost scope, and without a scope to
what is installed at the beginning. -/
def target (installed : Option Sink) (o : Occurrence) : Option Sink :=
  o.scopes.getLast?.or installed

theorem target_inside (installed : Option Sink) (sink : Sink) (o : Occurrence) :
    (o.inside sink).target installed = o.target (some sink) := by
  rw [target, inside, List.getLast?_cons, target]
  cases o.scopes.getLast? <;> rfl

theorem target_inside_ne_none (installed : Option Sink) (sink : Sink) (o : Occurrence) :
    (o.inside sink).target installed ≠ none := by
  rw [target, inside, List.getLast?_cons]
  exact Option.some_ne_none _

end Occurrence

/-- A target, which is a sink or else the global counters, and an event for it. -/
abbrev Delivery := Option Sink × Event

/-- The events for a target. -/
def deliveredTo (target : Option Sink) (ds : List Delivery) : List Event :=
  (ds.filter (·.1 = target)).map (·.2)

theorem deliveredTo_cons (target : Option Sink) (x : Delivery) (ds : List Delivery) :
    deliveredTo target (x :: ds) =
      (if x.1 = target then [x.2] else []) ++ deliveredTo target ds := by
  unfold deliveredTo
  by_cases own : x.1 = target <;> simp [own]

namespace Activity

/-- Carry out an activity. -/
def run : Activity → Dispatcher → Dispatcher
  | idle, d => d
  | event e, d => d.record e
  | seq a b, d => b.run (a.run d)
  | scope sink a, d => (d.within sink fun d' => ((), a.run d')).2

/-- The events in their order, each with the scopes around it. -/
def occurrences : Activity → List Occurrence
  | idle => []
  | event e => [⟨[], e⟩]
  | seq a b => a.occurrences ++ b.occurrences
  | scope sink a => a.occurrences.map (·.inside sink)

/-- The events in their order with their targets, if this is what is installed at the beginning. -/
def deliveries (installed : Option Sink) (a : Activity) : List Delivery :=
  a.occurrences.map fun o => (o.target installed, o.event)

variable (installed : Option Sink) (a b : Activity)

/-- What is delivered first comes first. -/
theorem deliveries_seq :
    (seq a b).deliveries installed = a.deliveries installed ++ b.deliveries installed :=
  List.map_append

/-- In a scope, it makes no difference what was installed around it. -/
theorem deliveries_scope (sink : Sink) :
    (scope sink a).deliveries installed = a.deliveries (some sink) := by
  simp only [deliveries, occurrences, List.map_map, Function.comp_def, Occurrence.target_inside]
  rfl

/-- Inside of a scope, nothing is delivered to the counters. -/
theorem target_ne_none_of_mem_scope {installed : Option Sink} {a : Activity} {sink : Sink}
    {x : Delivery} (h : x ∈ (scope sink a).deliveries installed) : x.1 ≠ none := by
  simp only [deliveries, occurrences, List.mem_map] at h
  obtain ⟨_, ⟨o, -, rfl⟩, rfl⟩ := h
  exact o.target_inside_ne_none installed sink

/-- An activity between two events, like an operation on a table that opens scopes. -/
def between (first last : Event) (a : Activity) : Activity := seq (event first) (seq a (event last))

/-- Both events have the same target, whatever happens between them. -/
theorem deliveries_between (first last : Event) :
    (between first last a).deliveries installed =
      (installed, first) :: (a.deliveries installed ++ [(installed, last)]) := by
  rw [between, deliveries_seq, deliveries_seq]
  rfl

end Activity

/-! ### Deliveries -/

namespace Dispatcher

/-- Deliver an event to a target, whatever is installed. -/
def deliver (d : Dispatcher) : Delivery → Dispatcher
  | (none, e) => { d with counters := d.counters.record e }
  | (some sink, e) =>
    { d with
      counters := d.writes sink d.received e d.counters
      received := d.received ++ [(sink, e)] }

/-- Deliver one event after the other. -/
def deliverAll (d : Dispatcher) (ds : List Delivery) : Dispatcher := ds.foldl deliver d

/-- A sink writes nothing into the global counters. -/
def Spares (d : Dispatcher) (sink : Sink) : Prop :=
  ∀ before e c, d.writes sink before e c = c

variable (d : Dispatcher)

theorem record_eq_deliver (e : Event) : d.record e = d.deliver (d.installed, e) := by
  obtain ⟨_ | sink, counters, received, writes⟩ := d <;> rfl

@[simp] theorem installed_deliver (x : Delivery) : (d.deliver x).installed = d.installed := by
  obtain ⟨_ | sink, e⟩ := x <;> rfl

@[simp] theorem writes_deliver (x : Delivery) : (d.deliver x).writes = d.writes := by
  obtain ⟨_ | sink, e⟩ := x <;> rfl

theorem install_installed : d.install d.installed = d := rfl

theorem install_install (sink other : Option Sink) :
    (d.install sink).install other = d.install other := rfl

/-- A delivery is the same under any installed sink. -/
theorem install_deliver (sink : Option Sink) (x : Delivery) :
    (d.install sink).deliver x = (d.deliver x).install sink := by
  obtain ⟨_ | sink, e⟩ := x <;> rfl

theorem receivedBy_deliver (sink : Sink) (x : Delivery) :
    (d.deliver x).receivedBy sink =
      d.receivedBy sink ++ if x.1 = some sink then [x.2] else [] := by
  obtain ⟨_ | other, e⟩ := x
  · simp [deliver, receivedBy]
  · by_cases own : other = sink <;> simp [deliver, receivedBy, own]

theorem counters_deliver_of_spares {sink : Sink} (spares : d.Spares sink) (e : Event) :
    (d.deliver (some sink, e)).counters = d.counters :=
  spares d.received e d.counters

theorem deliverAll_append (ds ds' : List Delivery) :
    d.deliverAll (ds ++ ds') = (d.deliverAll ds).deliverAll ds' :=
  List.foldl_append

theorem deliverAll_cons (x : Delivery) (ds : List Delivery) :
    d.deliverAll (x :: ds) = (d.deliver x).deliverAll ds := rfl

/-- Deliveries leave the installed sink alone. -/
theorem installed_deliverAll (ds : List Delivery) : (d.deliverAll ds).installed = d.installed := by
  induction ds generalizing d with
  | nil => rfl
  | cons x ds ih => rw [deliverAll_cons, ih, installed_deliver]

theorem writes_deliverAll (ds : List Delivery) : (d.deliverAll ds).writes = d.writes := by
  induction ds generalizing d with
  | nil => rfl
  | cons x ds ih => rw [deliverAll_cons, ih, writes_deliver]

/-- Any number of deliveries are the same under any installed sink. -/
theorem install_deliverAll (sink : Option Sink) (ds : List Delivery) :
    (d.install sink).deliverAll ds = (d.deliverAll ds).install sink := by
  induction ds generalizing d with
  | nil => rfl
  | cons x ds ih => rw [deliverAll_cons, install_deliver, ih, deliverAll_cons]

/-- A sink receives the events for it, in their order. -/
theorem receivedBy_deliverAll (sink : Sink) (ds : List Delivery) :
    (d.deliverAll ds).receivedBy sink = d.receivedBy sink ++ deliveredTo (some sink) ds := by
  induction ds generalizing d with
  | nil => exact (List.append_nil _).symm
  | cons x ds ih =>
    rw [deliverAll_cons, ih, receivedBy_deliver, deliveredTo_cons, List.append_assoc]

variable {d}

/-- An event for a sink that leaves the counters alone changes nothing about them. -/
theorem counters_deliverAll_concat {sink : Sink} (spares : d.Spares sink) (ds : List Delivery)
    (e : Event) :
    (d.deliverAll (ds ++ [(some sink, e)])).counters = (d.deliverAll ds).counters := by
  rw [deliverAll_append]
  refine counters_deliver_of_spares _ ?_ e
  rw [Spares, writes_deliverAll]
  exact spares

/-- If the sinks leave the counters alone, just the events for the counters are counted. -/
theorem counters_deliverAll {ds : List Delivery}
    (spared : ∀ sink e, (some sink, e) ∈ ds → d.Spares sink) :
    (d.deliverAll ds).counters = d.counters.recordAll (deliveredTo none ds) := by
  induction ds generalizing d with
  | nil => rfl
  | cons x ds ih =>
    have rest : ∀ sink e, (some sink, e) ∈ ds → (d.deliver x).Spares sink := by
      intro sink e he
      rw [Spares, writes_deliver]
      exact spared sink e (List.mem_cons_of_mem _ he)
    rw [deliverAll_cons, ih rest, deliveredTo_cons]
    obtain ⟨_ | sink, e⟩ := x
    · rfl
    · rw [counters_deliver_of_spares d (spared sink e List.mem_cons_self)]
      rfl

end Dispatcher

/-! ### Runs -/

namespace Activity

variable (a b : Activity) (d : Dispatcher)

/-- An activity delivers its events to their targets. -/
theorem run_eq : a.run d = d.deliverAll (a.deliveries d.installed) := by
  induction a generalizing d with
  | idle => rfl
  | event e => exact d.record_eq_deliver e
  | seq a b ihA ihB =>
    rw [run, ihA, ihB, d.installed_deliverAll, deliveries_seq, d.deliverAll_append]
  | scope sink a ih =>
    let ds := a.deliveries (some sink)
    -- What was installed before has no part in the events of the scope, and is put back after them.
    calc (a.run (d.install (some sink))).install d.installed
        = ((d.install (some sink)).deliverAll ds).install d.installed := by rw [ih]; rfl
      _ = (d.deliverAll ds).install d.installed := by
          rw [d.install_deliverAll, Dispatcher.install_install]
      _ = (d.deliverAll ds).install (d.deliverAll ds).installed := by rw [d.installed_deliverAll]
      _ = d.deliverAll ((scope sink a).deliveries d.installed) := by
          rw [Dispatcher.install_installed, deliveries_scope]

/-- After an activity the same sink is installed as before. -/
theorem installed_run : (a.run d).installed = d.installed := by
  rw [run_eq, d.installed_deliverAll]

/-- An activity after another one delivers its events as if there had not been the other. -/
theorem run_run : b.run (a.run d) = (a.run d).deliverAll (b.deliveries d.installed) := by
  rw [b.run_eq, installed_run]

variable {a d}

/-- If the sinks leave the counters alone, an activity under a sink does so, too. -/
theorem counters_run_scope {sink : Sink}
    (spared : ∀ s e, (some s, e) ∈ (scope sink a).deliveries d.installed → d.Spares s) :
    ((scope sink a).run d).counters = d.counters := by
  have others : deliveredTo none ((scope sink a).deliveries d.installed) = [] := by
    rw [deliveredTo, List.map_eq_nil_iff, List.filter_eq_nil_iff]
    intro x hx
    simpa using target_ne_none_of_mem_scope hx
  rw [run_eq, Dispatcher.counters_deliverAll spared, others]
  rfl

/-- The events of an activity follow its scopes.  Each is delivered once, to the sink of the
innermost scope around it, and those outside of all scopes to what is installed: to the counters if
there is no sink.  What is installed stays the same, also after each scope, so it makes no
difference what was done before.  An event for a sink changes the counters only if the sink writes
into them.  The events before and after an activity have the same target, whatever scopes the
activity has. -/
theorem run_delivers (a : Activity) (d : Dispatcher) :
    a.run d = d.deliverAll (a.deliveries d.installed) ∧
    (∀ sink, (a.run d).receivedBy sink =
      d.receivedBy sink ++ deliveredTo (some sink) (a.deliveries d.installed)) ∧
    (a.run d).installed = d.installed ∧
    (∀ sink, ((scope sink a).run d).installed = d.installed) ∧
    (∀ before : Activity,
      a.run (before.run d) = (before.run d).deliverAll (a.deliveries d.installed)) ∧
    (∀ ds sink e, d.Spares sink →
      (d.deliverAll (ds ++ [(some sink, e)])).counters = (d.deliverAll ds).counters) ∧
    (∀ sink, (∀ s e, (some s, e) ∈ (scope sink a).deliveries d.installed → d.Spares s) →
      ((scope sink a).run d).counters = d.counters) ∧
    ((∀ s e, (some s, e) ∈ a.deliveries d.installed → d.Spares s) →
      (a.run d).counters = d.counters.recordAll (deliveredTo none (a.deliveries d.installed))) ∧
    ∀ first last, (between first last a).deliveries d.installed =
      (d.installed, first) :: (a.deliveries d.installed ++ [(d.installed, last)]) := by
  refine ⟨a.run_eq d, fun sink => ?_, a.installed_run d, fun sink => (scope sink a).installed_run d,
    fun before => before.run_run a d, fun ds sink e spares => ?_, fun sink => counters_run_scope,
    fun spared => ?_, fun first last => a.deliveries_between d.installed first last⟩
  · rw [run_eq, d.receivedBy_deliverAll]
  · exact Dispatcher.counters_deliverAll_concat spares ds e
  · rw [run_eq, Dispatcher.counters_deliverAll spared]

/-- A find, in the course of which sinks are installed, one of them within itself. -/
def nestedFind : Activity :=
  between (.started .find "Quotes") (.finished .find "Quotes" 0)
    (scope 0 (seq (event (.resolved "Quotes" 2))
      (seq (scope 1 (seq (scope 1 (event (.compiled .condition "Trades")))
          (seq (scope 0 (event (.resolved "Trades" 1))) (event (.rowsReturned "Trades" 5)))))
        (event (.rowsReturned "Quotes" 3)))))

/-- Sinks of which one resets the counters whenever it receives an event. -/
def resettingSinks : Dispatcher where
  counters := { windowStart := 5 }
  writes sink _ _ c := if sink = 2 then { windowStart := 7 } else c

theorem run_delivers_nestedFind :
    let d := resettingSinks
    (∀ s e, (some s, e) ∈ nestedFind.deliveries d.installed → d.Spares s) ∧
      (nestedFind.run d).counters =
        d.counters.recordAll [.started .find "Quotes", .finished .find "Quotes" 0] ∧
      (nestedFind.run d).receivedBy 0 =
        [.resolved "Quotes" 2, .resolved "Trades" 1, .rowsReturned "Quotes" 3] ∧
      (nestedFind.run d).receivedBy 1 =
        [.compiled .condition "Trades", .rowsReturned "Trades" 5] ∧
      d.Spares 1 ∧ ((scope 1 nestedFind).run d).counters = d.counters ∧
      (d.deliverAll [(none, .started .add "Quotes"), (some 1, .resolved "Quotes" 2)]).counters =
        (d.deliverAll [(none, .started .add "Quotes")]).counters ∧
      ((scope 2 nestedFind).run d).counters.windowStart = 7 := by
  intro d
  have spares (s : Sink) (other : s ≠ 2) : d.Spares s := fun _ _ _ => if_neg other
  have outside : ∀ x ∈ nestedFind.deliveries d.installed, x.1 ≠ some 2 := by decide
  have inside : ∀ x ∈ (scope 1 nestedFind).deliveries d.installed, x.1 ≠ some 2 := by decide
  have spared (s : Sink) (e : Event) (h : (some s, e) ∈ nestedFind.deliveries d.installed) :
      d.Spares s :=
    spares s fun same => outside _ h (congrArg some same)
  obtain ⟨-, received, -, -, -, step, within, counted, -⟩ := run_delivers nestedFind d
  refine ⟨spared, counted spared, received 0, received 1, spares 1 (by decide), ?_, ?_, by decide⟩
  · exact within 1 fun s e h => spares s fun same => inside _ h (congrArg some same)
  · exact step [(none, .started .add "Quotes")] 1 _ (spares 1 (by decide))

end Activity

end StreamTable
