import ByteTape.Proofs.Machine.Steps

/-! The events of a run: what the observer is shown, and every call to the device with its
answer, in the order in which they happen. -/

namespace ByteTape

def Event.isObserved : Event → Bool
  | .observed _ => true
  | _ => false

def Event.view? : Event → Option MachineView
  | .observed view => some view
  | _ => none

structure Traced (σ : Type) where
  outside : σ
  events : List Event

variable {σ : Type}

namespace Traced

def start (outside : σ) : Traced σ := ⟨outside, []⟩

def observations (traced : Traced σ) : Nat := traced.events.countP Event.isObserved

def views (traced : Traced σ) : List MachineView := traced.events.filterMap Event.view?

theorem length_views (traced : Traced σ) : traced.views.length = traced.observations := by
  rw [views, List.length_filterMap_eq_countP, observations]
  congr 1
  funext event
  cases event <;> rfl

def calls (traced : Traced σ) : List Event :=
  traced.events.filter fun event => !event.isObserved

end Traced

def Device.traced (device : Device σ) : Device (Traced σ) where
  read stopped traced :=
    let reply := device.read stopped traced.outside
    ⟨reply.value, ⟨reply.outside, traced.events ++ [.read reply.value]⟩, reply.raised⟩
  write byte stopped traced :=
    let reply := device.write byte stopped traced.outside
    ⟨reply.value, ⟨reply.outside, traced.events ++ [.wrote byte reply.value]⟩, reply.raised⟩

def Observer.traced (observer : Observer σ) : Observer (Traced σ) := fun view traced =>
  let reply := observer view traced.outside
  ⟨(), ⟨reply.outside, traced.events ++ [.observed view]⟩, reply.raised⟩

private theorem Device.Answers.events {device : Device σ} {world later : World (Traced σ)}
    {calls : List Event} (answers : device.traced.Answers world calls later) :
    later.outside.events = world.outside.events ++ calls := by
  cases answers with
  | nothing => exact (List.append_nil _).symm
  | read asked =>
    cases asked
    rfl
  | write asked =>
    cases asked
    rfl

private theorem Device.Answers.not_observed {device : Device σ} {world later : World σ}
    {calls : List Event} (answers : device.Answers world calls later) :
    ∀ event ∈ calls, event.isObserved = false := by
  cases answers with
  | nothing => simp
  | read => simp [Event.isObserved]
  | write => simp [Event.isObserved]

namespace Machine

def traced (machine : Machine σ) : Machine (Traced σ) :=
  { machine with
    device := machine.device.traced
    observer := machine.observer.map Observer.traced }

theorem events_observe (machine : Machine σ) (view : MachineView) (world : World (Traced σ)) :
    (machine.traced.observe view world).outside.events =
      world.outside.events ++ if machine.observer.isSome then [.observed view] else [] := by
  obtain ⟨program, jumps, device, observer⟩ := machine
  cases observer with
  | none => exact (List.append_nil _).symm
  | some observer => rfl

end Machine

namespace Engine

theorem machine_traced (engine : Engine) (program : Program) (device : Device σ)
    (observer : Option (Observer σ)) :
    engine.machine program device.traced (observer.map Observer.traced) =
      (engine.machine program device observer).traced := by
  simp only [machine, Machine.ofProgram, Machine.traced]
  cases engine.config.display <;> rfl

private theorem isSome_observer_machine (engine : Engine) (program : Program) (device : Device σ)
    (observer : Option (Observer σ)) :
    (engine.machine program device observer).observer.isSome =
      (engine.config.display && observer.isSome) := by
  simp only [machine, Machine.ofProgram]
  cases engine.config.display <;> rfl

/-- What is added to the events by showing the machine to the observer, if it is shown. -/
def shown (engine : Engine) (observer : Option (Observer σ)) (view : MachineView) : List Event :=
  if engine.config.display && observer.isSome then [.observed view] else []

private theorem events_of_answers {engine : Engine} {program : Program} {device : Device σ}
    {observer : Option (Observer σ)} {view : MachineView} {world later : World (Traced σ)}
    {calls : List Event}
    (answers : device.traced.Answers
      ((engine.machine program device.traced (observer.map Observer.traced)).observe view world)
      calls later) :
    later.outside.events = world.outside.events ++ (engine.shown observer view ++ calls) := by
  rw [answers.events, machine_traced, Machine.events_observe, isSome_observer_machine,
    List.append_assoc]
  rfl

private theorem calls_shown (engine : Engine) (observer : Option (Observer σ))
    (view : MachineView) :
    (engine.shown observer view).filter (fun event => !event.isObserved) = [] := by
  rw [shown]
  split
  · rfl
  · rfl

theorem calls_of_answers {engine : Engine} {program : Program} {device : Device σ}
    {observer : Option (Observer σ)} {view : MachineView} {world later : World (Traced σ)}
    {calls : List Event}
    (answers : device.traced.Answers
      ((engine.machine program device.traced (observer.map Observer.traced)).observe view world)
      calls later) :
    later.outside.calls = world.outside.calls ++ calls := by
  have whole : calls.filter (fun event => !event.isObserved) = calls := by
    simpa [List.filter_eq_self] using answers.not_observed
  rw [Traced.calls, events_of_answers answers, List.filter_append, List.filter_append,
    calls_shown, whole, List.nil_append]
  rfl

theorem views_of_answers {engine : Engine} {program : Program} {device : Device σ}
    {observer : Option (Observer σ)} {view : MachineView} {world later : World (Traced σ)}
    {calls : List Event}
    (answers : device.traced.Answers
      ((engine.machine program device.traced (observer.map Observer.traced)).observe view world)
      calls later) :
    later.outside.views =
      world.outside.views ++ if engine.config.display && observer.isSome then [view] else [] := by
  have hidden : calls.filterMap Event.view? = [] := by
    cases answers <;> rfl
  rw [Traced.views, events_of_answers answers, List.filterMap_append, List.filterMap_append,
    hidden, List.append_nil, shown, apply_ite (List.filterMap Event.view?)]
  rfl

/-- As long as the run goes on, the observer has been called once for each step. -/
theorem observations_after {engine : Engine} {program : Program} {device : Device σ}
    {observer : Option (Observer σ)} {outside : σ} {turns : Nat} {state : RunState}
    {world : World (Traced σ)}
    (running : (engine.machine program device observer).traced.after
      (engine.start (.start outside)) turns = .running state world) :
    world.outside.observations =
      if engine.config.display && observer.isSome then turns else 0 := by
  rw [← machine_traced] at running
  induction turns generalizing state world with
  | zero =>
    cases running
    exact (ite_self 0).symm
  | succ turns ih =>
    obtain ⟨before, earlier, instruction, calls, ran, -, -, answers⟩ := executes_of_after running
    have quiet : calls.countP Event.isObserved = 0 := by
      simpa [List.countP_eq_zero] using answers.not_observed
    have before := ih ran
    rw [Traced.observations] at before ⊢
    rw [events_of_answers answers, List.countP_append, List.countP_append, quiet, before, shown]
    split
    · rfl
    · rfl

end Engine
end ByteTape
