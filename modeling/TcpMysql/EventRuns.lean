import Mathlib.Data.List.Basic

/-!
# Runs of an event-driven system

A reactor hands its handlers one event at a time.  A handler may fail, and then
nothing that follows it is executed; the environment delivers an event only in
the states that offer it.  This file fixes the two views of such runs used
throughout: the successful runs together with their history of events, and the
states and calls met while a fixed list of events is played.  Histories grow at
their end, and the last part of the file finds the latest event of a kind in
them.
-/

/-- A system that consumes events one at a time.  `next` is `none` where the
handler of the event fails, and `offered` says which events the environment can
deliver in a state. -/
structure EventSystem (State Event : Type*) where
  next : State → Event → Option State
  offered : State → Event → Prop

namespace EventSystem

variable {State Event : Type*}

/-- The runs without a failed step, with the events handled so far. -/
inductive Reaches (system : EventSystem State Event) (initial : State) :
    List Event → State → Prop
  | start : Reaches system initial [] initial
  | step {events : List Event} {before after : State} {event : Event} :
      Reaches system initial events before →
        system.offered before event →
          system.next before event = some after →
            Reaches system initial (events ++ [event]) after

/-- The calls made while a list of events is played, each with the state it is
made in.  A failed call is the last one. -/
def attempts (system : EventSystem State Event) :
    State → List Event → List (State × Event)
  | _, [] => []
  | state, event :: events =>
      (state, event) ::
        match system.next state event with
        | none => []
        | some after => attempts system after events

/-- The states met while a list of events is played, the first one included. -/
def visited (system : EventSystem State Event) :
    State → List Event → List State
  | state, [] => [state]
  | state, event :: events =>
      state ::
        match system.next state event with
        | none => []
        | some after => visited system after events

/-- Every event of the list is offered when its turn comes. -/
def Offers (system : EventSystem State Event) : State → List Event → Prop
  | _, [] => True
  | state, event :: events =>
      system.offered state event ∧
        ∀ after, system.next state event = some after →
          Offers system after events

variable {system : EventSystem State Event}

section Computation

variable [∀ state event, Decidable (system.offered state event)]

instance decidableOffers (state : State) (events : List Event) :
    Decidable (system.Offers state events) :=
  match events with
  | [] => .isTrue trivial
  | event :: events =>
      have : DecidablePred (system.Offers · events) :=
        fun after => decidableOffers after events
      inferInstanceAs (Decidable (system.offered state event ∧
        ∀ after ∈ system.next state event, system.Offers after events))

/-- Play a list of events; no state results when one of them is not offered or
fails. -/
def play (system : EventSystem State Event)
    [∀ state event, Decidable (system.offered state event)] :
    State → List Event → Option State
  | state, [] => some state
  | state, event :: events =>
      if system.offered state event then
        (system.next state event).bind fun after => play system after events
      else
        none

theorem Reaches.append_play {initial state final : State}
    {done events : List Event} (run : system.Reaches initial done state)
    (played : system.play state events = some final) :
    system.Reaches initial (done ++ events) final := by
  induction events generalizing done state with
  | nil =>
      obtain rfl := Option.some.inj played
      simpa using run
  | cons event events ih =>
      rw [play] at played
      split at played
      · rename_i offered
        obtain ⟨after, stepTo, rest⟩ := Option.bind_eq_some_iff.mp played
        have extended := ih (run.step offered stepTo) rest
        simpa using extended
      · simp at played

/-- A run and a property of its last state, both found by computation. -/
theorem exists_reaches_of_play (system : EventSystem State Event)
    [∀ state event, Decidable (system.offered state event)]
    (initial : State) (events : List Event)
    (property : State → Prop) [DecidablePred property]
    (played : (system.play initial events).any (property ·) = true) :
    ∃ final, system.Reaches initial events final ∧ property final := by
  obtain ⟨final, playEq, holds⟩ := (Option.any_eq_true _ _).mp played
  exact ⟨final, Reaches.start.append_play playEq, of_decide_eq_true holds⟩

end Computation

/-- An invariant of the history and the state holds along every run. -/
theorem Reaches.invariant {initial : State}
    (property : List Event → State → Prop)
    (starts : property [] initial)
    (preserved : ∀ events before event after,
      system.Reaches initial events before → property events before →
        system.offered before event →
          system.next before event = some after →
            property (events ++ [event]) after)
    {events : List Event} {state : State}
    (run : system.Reaches initial events state) :
    property events state := by
  induction run with
  | start => exact starts
  | step run offered stepTo ih =>
      exact preserved _ _ _ _ run ih offered stepTo

/-- A run of one system is a run of another along a projection of the states,
when every step either is a step of the other or leaves the projection alone. -/
theorem Reaches.project {State' Event' : Type*}
    {other : EventSystem State' Event'} (projection : State → State')
    {initial : State}
    (simulates : ∀ before event after, system.offered before event →
      system.next before event = some after →
        projection after = projection before ∨
          ∃ event', other.offered (projection before) event' ∧
            other.next (projection before) event' = some (projection after))
    {events : List Event} {state : State}
    (run : system.Reaches initial events state) :
    ∃ events', other.Reaches (projection initial) events' (projection state) := by
  induction run with
  | start => exact ⟨[], .start⟩
  | step run offered stepTo ih =>
      obtain ⟨events', projected⟩ := ih
      rcases simulates _ _ _ offered stepTo with same | ⟨event', offered', step'⟩
      · exact ⟨events', same ▸ projected⟩
      · exact ⟨events' ++ [event'], projected.step offered' step'⟩

theorem self_mem_visited (state : State) (events : List Event) :
    state ∈ system.visited state events := by
  cases events <;> simp [visited]

theorem after_mem_visited {initial before after : State}
    {events : List Event} {event : Event}
    (attempted : (before, event) ∈ system.attempts initial events)
    (stepTo : system.next before event = some after) :
    after ∈ system.visited initial events := by
  induction events generalizing initial with
  | nil => simp [attempts] at attempted
  | cons first rest ih =>
      simp only [attempts, List.mem_cons] at attempted
      simp only [visited, List.mem_cons]
      right
      rcases attempted with equal | later
      · obtain ⟨rfl, rfl⟩ := Prod.mk.inj equal
        rw [stepTo]
        exact self_mem_visited after rest
      · cases firstStep : system.next initial first with
        | none => simp [firstStep] at later
        | some middle =>
            simp only [firstStep] at later
            exact ih later

/-- An invariant holds wherever a call is made, and every call made was
offered. -/
theorem attempts_invariant (property : State → Prop)
    (preserved : ∀ before event after, property before →
      system.offered before event →
        system.next before event = some after → property after)
    {initial : State} {events : List Event}
    (starts : property initial) (offers : system.Offers initial events)
    {before : State} {event : Event}
    (attempted : (before, event) ∈ system.attempts initial events) :
    property before ∧ system.offered before event := by
  induction events generalizing initial with
  | nil => simp [attempts] at attempted
  | cons first rest ih =>
      simp only [attempts, List.mem_cons] at attempted
      rcases attempted with equal | later
      · obtain ⟨rfl, rfl⟩ := Prod.mk.inj equal
        exact ⟨starts, offers.1⟩
      · cases firstStep : system.next initial first with
        | none => simp [firstStep] at later
        | some middle =>
            simp only [firstStep] at later
            exact ih (preserved _ _ _ starts offers.1 firstStep)
              (offers.2 middle firstStep) later

/-- When every call made meets a condition under which the property is kept,
the property holds in every visited state. -/
theorem visited_invariant (property : State → Prop)
    {condition : State → Event → Prop}
    (preserved : ∀ before event after, property before →
      system.offered before event → condition before event →
        system.next before event = some after → property after)
    {initial : State} {events : List Event}
    (starts : property initial) (offers : system.Offers initial events)
    (meets : ∀ before event,
      (before, event) ∈ system.attempts initial events →
        condition before event)
    {state : State} (visit : state ∈ system.visited initial events) :
    property state := by
  induction events generalizing initial with
  | nil =>
      simp only [visited, List.mem_singleton] at visit
      exact visit ▸ starts
  | cons first rest ih =>
      simp only [visited, List.mem_cons] at visit
      rcases visit with equal | later
      · exact equal ▸ starts
      · cases firstStep : system.next initial first with
        | none => simp [firstStep] at later
        | some middle =>
            simp only [firstStep] at later
            have meetsFirst : condition initial first :=
              meets initial first (by simp [attempts])
            apply ih (preserved _ _ _ starts offers.1 meetsFirst firstStep)
              (offers.2 middle firstStep) _ later
            intro before event attempted
            apply meets before event
            simp [attempts, firstStep, attempted]

end EventSystem

/-! ## The latest event of a kind -/

/-- The event at this place of the history is of the given kind, and no later
one is. -/
structure LatestAt {Event : Type*} (kind : Event → Prop) (history : List Event)
    (index : Nat) : Prop where
  isKind : ∃ event, history[index]? = some event ∧ kind event
  notLater : ∀ later event, index < later → history[later]? = some event →
    ¬kind event

namespace LatestAt

variable {Event : Type*} {kind : Event → Prop} {history : List Event}
  {index : Nat}

theorem lt_length (latest : LatestAt kind history index) :
    index < history.length := by
  obtain ⟨event, eventAt, -⟩ := latest.isKind
  exact (List.getElem?_eq_some_iff.mp eventAt).1

theorem of_last {event : Event} (isKind : kind event) :
    LatestAt kind (history ++ [event]) history.length := by
  refine ⟨⟨event, by simp, isKind⟩, ?_⟩
  intro later other beyond otherAt
  have bound := (List.getElem?_eq_some_iff.mp otherAt).1
  simp only [List.length_append, List.length_singleton] at bound
  omega

theorem append (latest : LatestAt kind history index) {event : Event}
    (otherKind : ¬kind event) : LatestAt kind (history ++ [event]) index := by
  have inside := latest.lt_length
  obtain ⟨found, foundAt, isKind⟩ := latest.isKind
  refine ⟨⟨found, ?_, isKind⟩, ?_⟩
  · rw [List.getElem?_append_left inside]
    exact foundAt
  · intro later other beyond otherAt
    by_cases old : later < history.length
    · rw [List.getElem?_append_left old] at otherAt
      exact latest.notLater later other beyond otherAt
    · have bound := (List.getElem?_eq_some_iff.mp otherAt).1
      have atEnd : later = history.length := by
        simp only [List.length_append, List.length_singleton] at bound
        omega
      subst atEnd
      have same : event = other := by simpa using otherAt
      exact same ▸ otherKind

end LatestAt
