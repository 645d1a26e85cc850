import ByteTape.Proofs.Machine.Cancellation

/-! Who asks for a stop. A request stands at the end of a run exactly if the observer or the
device has made it in answer to a call of that run. -/

namespace ByteTape

variable {σ : Type}

namespace Machine

def observerAsks (machine : Machine σ) (view : MachineView) (world : World σ) : Bool :=
  match machine.observer with
  | none => false
  | some observer => (observer view world.outside).raised

def deviceAsks (machine : Machine σ) (state : RunState) (world : World σ) : Instruction → Bool
  | .output => (machine.device.write state.tape.current world.stopped world.outside).raised
  | .input => (machine.device.read world.stopped world.outside).raised
  | _ => false

/-- Somebody who is called in the turn from here asks for a stop. -/
def Asks (machine : Machine σ) (state : RunState) (world : World σ) : Prop :=
  world.stopped = false ∧ ∃ instruction, machine.program.get? state.pc = some instruction ∧
    (machine.observerAsks (state.view instruction) world ||
      machine.deviceAsks state (machine.observe (state.view instruction) world) instruction) = true

variable {machine : Machine σ} {state : RunState} {world : World σ}

private theorem stopped_observe (machine : Machine σ) (view : MachineView) (world : World σ) :
    (machine.observe view world).stopped = (world.stopped || machine.observerAsks view world) := by
  rw [observe, observerAsks]
  cases machine.observer with
  | none => exact (Bool.or_false _).symm
  | some observer => rfl

private theorem stopped_execute (machine : Machine σ) (state : RunState) (world : World σ)
    (instruction : Instruction) :
    (machine.execute state world instruction).2.stopped =
      (world.stopped || machine.deviceAsks state world instruction) := by
  cases instruction with
  | right | left | increment | decrement => exact (Bool.or_false _).symm
  | output =>
    have called : (world.write machine.device state.tape.current).2.stopped =
      (world.stopped || machine.deviceAsks state world .output) := rfl
    rw [← called, execute]
    cases world.write machine.device state.tape.current with
    | mk answer later => cases answer <;> rfl
  | input =>
    have called : (world.read machine.device).2.stopped =
      (world.stopped || machine.deviceAsks state world .input) := rfl
    rw [← called, execute]
    cases world.read machine.device with
    | mk answer later => cases answer <;> rfl
  | loopStart | loopEnd =>
    rw [execute, apply_ite Prod.snd, ite_self]
    exact (Bool.or_false _).symm

/-- A turn leaves a request to stop standing, or somebody makes one. -/
theorem stopped_advance_iff (machine : Machine σ) (state : RunState) (world : World σ) :
    (machine.advance state world).world.stopped = true ↔
      world.stopped = true ∨ machine.Asks state world := by
  cases here : machine.program.get? state.pc with
  | none => simp [advance_past here, Asks, here, Progress.world]
  | some instruction =>
    cases going : world.stopped with
    | true => simp [advance_stopped here going, Progress.world, going]
    | false =>
      rw [advance_execute here going, world_concluded, stopped_execute, stopped_observe, going]
      simp [Asks, here, going]

theorem requestedDuring_iff {start : Progress σ} {count : Nat} :
    machine.RequestedDuring start count ↔
      ∃ state world, machine.after start count = .running state world ∧
        machine.Asks state world := by
  have turn {state : RunState} {world : World σ}
      (ran : machine.after start count = .running state world) (going : world.stopped = false) :
      (machine.after start (count + 1)).world.stopped = true ↔ machine.Asks state world := by
    rw [after, ran, resume, stopped_advance_iff, going]
    simp
  constructor
  · rintro ⟨state, world, ran, going, raised⟩
    exact ⟨state, world, ran, (turn ran going).mp raised⟩
  · rintro ⟨state, world, ran, asks⟩
    exact ⟨state, world, ran, asks.1, (turn ran asks.1).mpr asks⟩

end Machine

namespace Engine

def AskedDuring (engine : Engine) (program : Program) (device : Device σ)
    (observer : Option (Observer σ)) (outside : σ) : Prop :=
  ∃ state world, engine.Reaches program device observer outside state world ∧
    (engine.machine program device observer).Asks state world

/-- Every run begins with no request standing, and so what stands at its end was made in it. -/
theorem stopRequested_of_returns {engine : Engine} {program : Program} {device : Device σ}
    {observer : Option (Observer σ)} {outside : σ} {finished : Finished σ}
    (returns : engine.Returns program device observer outside finished) :
    finished.engine.stopRequested = true ↔
      engine.AskedDuring program device observer outside := by
  obtain ⟨turns, result, final, ended, rfl⟩ := (returns_iff ..).mp returns
  constructor
  · intro stopped
    obtain ⟨count, state, world, -, ran, advanced⟩ := Machine.ended_of_after ended
    have last := Machine.stopped_advance_iff (engine.machine program device observer) state world
    rw [advanced] at last
    rcases last.mp stopped with before | asks
    · obtain ⟨earlier, -, requested⟩ := Machine.requested_of_stopped rfl ran before
      obtain ⟨state, world, ran, asks⟩ := Machine.requestedDuring_iff.mp requested
      exact ⟨state, world, ⟨earlier, ran⟩, asks⟩
    · exact ⟨state, world, ⟨count, ran⟩, asks⟩
  · rintro ⟨state, world, ⟨count, ran⟩, asks⟩
    obtain ⟨_, _, _, -, raised⟩ := Machine.requestedDuring_iff.mpr ⟨state, world, ran, asks⟩
    rcases Nat.lt_or_ge count turns with before | past
    · have standing := Machine.stopped_after raised (Nat.succ_le_of_lt before)
      rw [ended] at standing
      exact standing
    · rw [Machine.after_of_ended ended past] at ran
      cases ran

end Engine
end ByteTape
