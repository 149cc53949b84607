import Mathlib.Tactic

/-!
# Runs of a deterministic step function

A component is a step function `step : State → Event → State`; whatever the
component does not decide itself (the answer of a server, the time, the input
of a user) is part of the event.  A run is then a list of events, and what a
theorem assumes of its environment is a guard on the events, read in the state
in which each is taken.

* `Along step guard start events`: every event of the run meets `guard`;
* `invariant`: what every guarded step preserves holds after every guarded run;
* `simulation`: a relation that every guarded step preserves relates the two
  end states of every guarded run;
* `projection`: the same for a part of the component, which takes a step of its own
  for some of the events only;
* `bisimulation`: related states that put out the same and stay related put out
  the same over every run.
-/

namespace Runs

variable {State Abstract Event : Type*}

/-- The state in which a run of `events` from `start` ends. -/
def after (step : State → Event → State) (start : State) (events : List Event) : State :=
  events.foldl step start

/-- Every event of the run meets `guard` in the state in which it is taken. -/
def Along (step : State → Event → State) (guard : State → Event → Prop) :
    State → List Event → Prop
  | _, [] => True
  | state, event :: rest => guard state event ∧ Along step guard (step state event) rest

instance Along.decidable (step : State → Event → State) (guard : State → Event → Prop)
    [∀ state event, Decidable (guard state event)] :
    ∀ state events, Decidable (Along step guard state events)
  | _, [] => inferInstanceAs (Decidable True)
  | state, event :: rest =>
      have := Along.decidable step guard (step state event) rest
      inferInstanceAs (Decidable (guard state event ∧ _))

/-- What the events of a run put out, in order. -/
def outputs {Output : Type*} (step : State → Event → State) (output : State → Event → Output) :
    State → List Event → List Output
  | _, [] => []
  | state, event :: rest => output state event :: outputs step output (step state event) rest

variable {step : State → Event → State} {guard : State → Event → Prop}

@[simp] theorem after_nil (start : State) : after step start [] = start := rfl

@[simp] theorem after_cons (start : State) (event : Event) (events : List Event) :
    after step start (event :: events) = after step (step start event) events := rfl

theorem after_append (start : State) (first second : List Event) :
    after step start (first ++ second) = after step (after step start first) second :=
  List.foldl_append

@[simp] theorem after_concat (start : State) (events : List Event) (event : Event) :
    after step start (events ++ [event]) = step (after step start events) event :=
  after_append start events [event]

/-- Events that change nothing. -/
theorem after_of_idle {events : List Event}
    (hidle : ∀ event ∈ events, ∀ state, step state event = state) (start : State) :
    after step start events = start := by
  induction events with
  | nil => rfl
  | cons event events ih =>
      obtain ⟨hevent, hlater⟩ := List.forall_mem_cons.mp hidle
      rw [after_cons, hevent, ih hlater]

theorem outputs_concat {Output : Type*} (output : State → Event → Output) (start : State)
    (events : List Event) (event : Event) :
    outputs step output start (events ++ [event]) =
      outputs step output start events ++ [output (after step start events) event] := by
  induction events generalizing start with
  | nil => rfl
  | cons head events ih => rw [List.cons_append, outputs, ih, outputs, after_cons, List.cons_append]

@[simp] theorem along_nil (start : State) : Along step guard start [] := trivial

@[simp] theorem along_cons (start : State) (event : Event) (events : List Event) :
    Along step guard start (event :: events) ↔
      guard start event ∧ Along step guard (step start event) events :=
  Iff.rfl

theorem along_append (start : State) (first second : List Event) :
    Along step guard start (first ++ second) ↔
      Along step guard start first ∧ Along step guard (after step start first) second := by
  induction first generalizing start with
  | nil => simp
  | cons event first ih => simp [ih, and_assoc]

@[simp] theorem along_concat (start : State) (events : List Event) (event : Event) :
    Along step guard start (events ++ [event]) ↔
      Along step guard start events ∧ guard (after step start events) event := by
  simp [along_append]

/-- A run is guarded when each of its events meets the guard after those before it. -/
theorem along_iff_forall_split {start : State} {events : List Event} :
    Along step guard start events ↔
      ∀ before event later, events = before ++ event :: later →
        guard (after step start before) event := by
  constructor
  · intro halong before event later heq
    rw [heq, along_append] at halong
    exact halong.2.1
  · intro hsplit
    induction events generalizing start with
    | nil => trivial
    | cons head events ih =>
        refine ⟨hsplit [] head events rfl, ih fun before event later heq => ?_⟩
        exact hsplit (head :: before) event later (by rw [heq, List.cons_append])

theorem Along.and {other : State → Event → Prop} {start : State} {events : List Event}
    (halong : Along step guard start events) (hother : Along step other start events) :
    Along step (fun state event => guard state event ∧ other state event) start events := by
  induction events generalizing start with
  | nil => trivial
  | cons event events ih => exact ⟨⟨halong.1, hother.1⟩, ih halong.2 hother.2⟩

theorem Along.mono {weaker : State → Event → Prop}
    (hweaker : ∀ state event, guard state event → weaker state event)
    {start : State} {events : List Event} (halong : Along step guard start events) :
    Along step weaker start events := by
  induction events generalizing start with
  | nil => trivial
  | cons event events ih => exact ⟨hweaker _ _ halong.1, ih halong.2⟩

/-- A guard that does not look at the state. -/
theorem along_iff_forall_mem {holds : Event → Prop} {start : State} {events : List Event} :
    Along step (fun _ event => holds event) start events ↔ ∀ event ∈ events, holds event := by
  induction events generalizing start with
  | nil => simp
  | cons event events ih => rw [along_cons, List.forall_mem_cons, ih]

/-- **The invariant rule.**  What holds at the start and is preserved by every
guarded step holds after every guarded run. -/
theorem invariant (Inv : State → Prop) {start : State} (hstart : Inv start)
    (hstep : ∀ state event, Inv state → guard state event → Inv (step state event))
    {events : List Event} (halong : Along step guard start events) :
    Inv (after step start events) := by
  induction events generalizing start with
  | nil => exact hstart
  | cons event events ih => exact ih (hstep start event hstart halong.1) halong.2

/-- **The simulation rule.**  A relation that holds at the start and is
preserved by every guarded step relates the end states of every guarded run. -/
theorem simulation (abstractStep : Abstract → Event → Abstract)
    (Related : State → Abstract → Prop) {start : State} {abstract : Abstract}
    (hstart : Related start abstract)
    (hstep : ∀ state abstract event, Related state abstract → guard state event →
      Related (step state event) (abstractStep abstract event))
    {events : List Event} (halong : Along step guard start events) :
    Related (after step start events) (after abstractStep abstract events) := by
  induction events generalizing start abstract with
  | nil => exact hstart
  | cons event events ih => exact ih (hstep start abstract event hstart halong.1) halong.2

/-- The events of a run as a part of the component sees them. -/
def projected {AbstractEvent : Type*} (step : State → Event → State)
    (project : State → Event → Option AbstractEvent) : State → List Event → List AbstractEvent
  | _, [] => []
  | state, event :: rest =>
      (project state event).toList ++ projected step project (step state event) rest

/-- **The bisimulation rule.**  If related states put out the same on every allowed
event and stay related, they put out the same over every run of allowed events. -/
theorem bisimulation {Output : Type*} {output : State → Event → Output}
    (Related : State → State → Prop) (allowed : Event → Prop)
    (hstep : ∀ state other event, Related state other → allowed event →
      output state event = output other event ∧ Related (step state event) (step other event))
    {start other : State} (hstart : Related start other) {events : List Event}
    (hallowed : ∀ event ∈ events, allowed event) :
    outputs step output start events = outputs step output other events ∧
      Related (after step start events) (after step other events) := by
  induction events generalizing start other with
  | nil => exact ⟨rfl, hstart⟩
  | cons event events ih =>
      obtain ⟨hevent, hrest⟩ := List.forall_mem_cons.mp hallowed
      obtain ⟨houtput, hnext⟩ := hstep start other event hstart hevent
      obtain ⟨houtputs, hend⟩ := ih hnext hrest
      exact ⟨by rw [outputs, outputs, houtput, houtputs], hend⟩

end Runs
