import Mathlib.Data.List.Basic

/-!
# Runs

Machines that take one event after the other and answer each of them. A run keeps
an invariant that every single step keeps (`run_keeps`), where each event may be
required to be good in the state that it meets (`Meets`).
-/
namespace Zasper.Runs
set_option linter.unusedSimpArgs false
universe u v w

section
variable {State : Type u} {Event : Type v} {Output : Type w}

/-- The state after the events, and their outputs. -/
def run (step : State → Event → State × Output) : State → List Event → State × List Output
  | s, [] => (s,[])
  | s, e :: events =>
    let next := step s e
    let rest := run step next.1 events
    (rest.1,next.2 :: rest.2)

theorem run_append (step : State → Event → State × Output) (s : State) (first second : List Event) :
    (run step s (first ++ second)).1 = (run step (run step s first).1 second).1 := by
  induction first generalizing s with
  | nil => rfl
  | cons e first ih => exact ih _

/-- Every event is good in the state that it meets. -/
def Meets (step : State → Event → State × Output) (Good : State → Event → Prop) : State → List Event → Prop
  | _, [] => True
  | s, e :: events => Good s e ∧ Meets step Good (step s e).1 events

instance decidableMeets (step : State → Event → State × Output) (Good : State → Event → Prop)
    [∀ s e, Decidable (Good s e)] : (s : State) → (events : List Event) → Decidable (Meets step Good s events)
  | _, [] => isTrue trivial
  | s, e :: events =>
    have := decidableMeets step Good (step s e).1 events
    inferInstanceAs (Decidable (Good s e ∧ Meets step Good (step s e).1 events))

variable {step : State → Event → State × Output} {Good : State → Event → Prop}

/-- Events that are good in every state. -/
theorem meets_of_forall {s : State} {events : List Event} (all : ∀ e ∈ events, ∀ s, Good s e) : Meets step Good s events := by
  induction events generalizing s with
  | nil => trivial
  | cons e events ih =>
    obtain ⟨here,later⟩ := List.forall_mem_cons.mp all
    exact ⟨here s,ih later⟩

/-- What good events are where the invariant holds, which they keep, the events of a run
    of good ones are. -/
theorem meets_of_meets {Inv : State → Prop} {Lawful : State → Event → Prop}
    (implies : ∀ s e, Inv s → Good s e → Lawful s e) (keeps : ∀ s e, Inv s → Good s e → Inv (step s e).1) {s : State}
    (start : Inv s) {events : List Event} (good : Meets step Good s events) : Meets step Lawful s events := by
  induction events generalizing s with
  | nil => trivial
  | cons e events ih => exact ⟨implies s e start good.1,ih (keeps s e start good.1) good.2⟩

/-- Two demands that agree where the invariant holds, which good events keep, are met by
    the same runs. -/
theorem meets_iff_meets {Inv : State → Prop} {Lawful : State → Event → Prop}
    (same : ∀ s e, Inv s → (Lawful s e ↔ Good s e)) (keeps : ∀ s e, Inv s → Good s e → Inv (step s e).1) {s : State}
    (start : Inv s) (events : List Event) : Meets step Lawful s events ↔ Meets step Good s events := by
  constructor
  · apply meets_of_meets (fun s e inv => (same s e inv).mp) _ start
    intro s e inv lawful
    exact keeps s e inv ((same s e inv).mp lawful)
  · exact meets_of_meets (fun s e inv => (same s e inv).mpr) keeps start

/-- Along a run of good events, which keep the invariant, two demands that agree there are
    met alike. -/
theorem Meets.iff {Inv : State → Prop} {Lawful Fair : State → Event → Prop}
    (same : ∀ s e, Inv s → Good s e → (Lawful s e ↔ Fair s e)) (keeps : ∀ s e, Inv s → Good s e → Inv (step s e).1) {s : State}
    (start : Inv s) {events : List Event} (good : Meets step Good s events) :
    Meets step Lawful s events ↔ Meets step Fair s events := by
  induction events generalizing s with
  | nil => exact Iff.rfl
  | cons e events ih => exact and_congr (same s e start good.1) (ih (keeps s e start good.1) good.2)

/-- What holds of every event may be asked of it along the run. -/
theorem Meets.and {P : Event → Prop} {s : State} {events : List Event} (meets : Meets step Good s events)
    (all : ∀ e ∈ events, P e) : Meets step (fun s e => P e ∧ Good s e) s events := by
  induction events generalizing s with
  | nil => trivial
  | cons e events ih =>
    obtain ⟨here,later⟩ := List.forall_mem_cons.mp all
    exact ⟨⟨here,meets.1⟩,ih meets.2 later⟩

/-- What every good step keeps, and every good step's output satisfies, holds of runs
    of good steps. -/
theorem run_keeps {Inv : State → Prop} {Out : Output → Prop}
    (keeps : ∀ s e, Inv s → Good s e → Inv (step s e).1 ∧ Out (step s e).2) {s : State} (start : Inv s)
    {events : List Event} (good : Meets step Good s events) :
    Inv (run step s events).1 ∧ ∀ o ∈ (run step s events).2, Out o := by
  induction events generalizing s with
  | nil => exact ⟨start,by simp [run]⟩
  | cons e events ih =>
    obtain ⟨inv,out⟩ := keeps s e start good.1
    obtain ⟨invRest,outRest⟩ := ih inv good.2
    exact ⟨invRest,List.forall_mem_cons.mpr ⟨out,outRest⟩⟩

/-- What every step keeps holds of every run. -/
theorem run_invariant {Inv : State → Prop} (keeps : ∀ s e, Inv s → Inv (step s e).1) {s : State} (start : Inv s)
    (events : List Event) : Inv (run step s events).1 := by
  induction events generalizing s with
  | nil => exact start
  | cons e events ih => exact ih (keeps s e start)

/-- `P` holds in every state that the run passes, from the first to the last. -/
def Always (step : State → Event → State × Output) (P : State → Prop) : State → List Event → Prop
  | s, [] => P s
  | s, e :: events => P s ∧ Always step P (step s e).1 events

/-- Where a good step keeps the invariant, and a step after which `P` holds was a good
    one, `P` always holds if and only if every event is good. -/
theorem always_iff_meets {Inv P : State → Prop} (holds : ∀ s, Inv s → P s)
    (keeps : ∀ s e, Inv s → Good s e → Inv (step s e).1) (breaks : ∀ s e, Inv s → P (step s e).1 → Good s e) {s : State}
    (start : Inv s) (events : List Event) : Always step P s events ↔ Meets step Good s events := by
  induction events generalizing s with
  | nil => exact ⟨fun _ => trivial,fun _ => holds s start⟩
  | cons e events ih =>
    constructor
    · rintro ⟨_,always⟩
      have next : P (step s e).1 := by
        cases events with
        | nil => exact always
        | cons _ _ => exact always.1
      have good := breaks s e start next
      exact ⟨good,(ih (keeps s e start good)).mp always⟩
    · rintro ⟨good,meets⟩
      exact ⟨holds s start,(ih (keeps s e start good)).mpr meets⟩

/-- The same of runs whose events are all fit to come. -/
theorem always_iff_meets_of_fit {Inv P : State → Prop} {Fit : Event → Prop} (holds : ∀ s, Inv s → P s)
    (keeps : ∀ s e, Fit e → Inv s → Good s e → Inv (step s e).1)
    (breaks : ∀ s e, Fit e → Inv s → P (step s e).1 → Good s e) {s : State} (start : Inv s) {events : List Event}
    (fit : ∀ e ∈ events, Fit e) : Always step P s events ↔ Meets step Good s events := by
  induction events generalizing s with
  | nil => exact ⟨fun _ => trivial,fun _ => holds s start⟩
  | cons e events ih =>
    obtain ⟨here,later⟩ := List.forall_mem_cons.mp fit
    constructor
    · rintro ⟨_,always⟩
      have next : P (step s e).1 := by
        cases events with
        | nil => exact always
        | cons _ _ => exact always.1
      have good := breaks s e here start next
      exact ⟨good,(ih (keeps s e here start good) later).mp always⟩
    · rintro ⟨good,meets⟩
      exact ⟨holds s start,(ih (keeps s e here start good) later).mpr meets⟩

/-- The states that the run passes, from the first to the last. -/
def states (step : State → Event → State × Output) : State → List Event → List State
  | s, [] => [s]
  | s, e :: events => s :: states step (step s e).1 events

theorem head_states (step : State → Event → State × Output) (s : State) (events : List Event) :
    (states step s events).head? = some s := by
  cases events <;> rfl

/-- Seen through `view`, a run passes the states of the other machine if and only if
    each of its steps is one of that machine. -/
theorem map_states_iff {Seen : Type*} {Answer : Type*} {view : State → Seen} {seenStep : Seen → Event → Seen × Answer}
    {s : State} {events : List Event} :
    (states step s events).map view = states seenStep (view s) events ↔
      Meets step (fun s e => view (step s e).1 = (seenStep (view s) e).1) s events := by
  induction events generalizing s with
  | nil => exact ⟨fun _ => trivial,fun _ => rfl⟩
  | cons e events ih =>
    simp only [states,List.map_cons,List.cons.injEq,true_and,Meets]
    constructor
    · intro same
      have next : view (step s e).1 = (seenStep (view s) e).1 := by
        have heads := congrArg List.head? same
        simpa only [List.head?_map,head_states,Option.map_some,Option.some.injEq] using heads
      exact ⟨next,ih.mp (by rw [same,next])⟩
    · rintro ⟨next,meets⟩
      rw [ih.mpr meets,next]

end
end Zasper.Runs
