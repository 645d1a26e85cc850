import ByteTape.Proofs.Machine.Rules

/-! What a run has come to at every place. Each turn but the last executes one instruction, which
counts as one step and never leads beyond the end of the program. -/

namespace ByteTape

variable {σ : Type}

namespace Machine

theorem going_of_advance {machine : Machine σ} {state next : RunState} {world later : World σ}
    (advanced : machine.advance state world = .running next later) : world.stopped = false := by
  cases here : machine.program.get? state.pc with
  | none =>
    rw [advance_past here] at advanced
    cases advanced
  | some instruction =>
    cases stopped : world.stopped with
    | false => rfl
    | true =>
      rw [advance_stopped here stopped] at advanced
      cases advanced

theorem report_of_advance {machine : Machine σ} {state : RunState} {world later : World σ}
    {report : Report} (advanced : machine.advance state world = .ended (.ok report) later) :
    later = world ∧
      (machine.program.get? state.pc = none ∧ report = state.report .completed ∨
        world.stopped = true ∧ report = state.report .stopped) := by
  cases here : machine.program.get? state.pc with
  | none =>
    rw [advance_past here] at advanced
    cases advanced
    exact ⟨rfl, .inl ⟨rfl, rfl⟩⟩
  | some instruction =>
    cases stopped : world.stopped with
    | true =>
      rw [advance_stopped here stopped] at advanced
      cases advanced
      exact ⟨rfl, .inr ⟨rfl, rfl⟩⟩
    | false =>
      rw [advance_execute here stopped] at advanced
      cases result : machine.execute state (machine.observe (state.view instruction) world)
        instruction with
      | mk next later' =>
        rw [result] at advanced
        cases next <;> cases advanced

end Machine

namespace Engine
variable {engine : Engine} {program : Program} {device : Device σ}
  {observer : Option (Observer σ)} {outside : σ} {turns : Nat} {state : RunState}
  {world : World σ}

theorem executes_of_after
    (running : (engine.machine program device observer).after (engine.start outside)
      (turns + 1) = .running state world) :
    ∃ before earlier instruction calls,
      (engine.machine program device observer).after (engine.start outside) turns =
        .running before earlier ∧
      program.get? before.pc = some instruction ∧ Executes program before calls state ∧
      device.Answers ((engine.machine program device observer).observe (before.view instruction)
        earlier) calls world := by
  obtain ⟨before, earlier, ran, advanced⟩ := Machine.running_of_after running
  obtain ⟨instruction, calls, here, -, executes, answers⟩ :=
    Machine.executes_of_advance (jumps_machine ..) advanced
  exact ⟨before, earlier, instruction, calls, ran, here, executes, answers⟩

theorem steps_after
    (running : (engine.machine program device observer).after (engine.start outside) turns =
      .running state world) : state.steps = turns := by
  induction turns generalizing state world with
  | zero =>
    cases running
    rfl
  | succ turns ih =>
    obtain ⟨before, earlier, instruction, calls, ran, -, executes, -⟩ := executes_of_after running
    rw [executes.steps, ih ran]

theorem pc_le_size
    (running : (engine.machine program device observer).after (engine.start outside) turns =
      .running state world) : state.pc ≤ program.size := by
  cases turns with
  | zero =>
    cases running
    exact Nat.zero_le _
  | succ turns =>
    obtain ⟨before, earlier, instruction, calls, -, -, executes, -⟩ := executes_of_after running
    exact executes.pc_le_size

def Reaches (engine : Engine) (program : Program) (device : Device σ)
    (observer : Option (Observer σ)) (outside : σ) (state : RunState) (world : World σ) : Prop :=
  ∃ turns, (engine.machine program device observer).after (engine.start outside) turns =
    .running state world

/-- A run that reports is past the end of the program, or has been asked to stop. -/
theorem reaches_of_report {finished : Finished σ} {report : Report}
    (returns : engine.Returns program device observer outside finished)
    (result : finished.result = .ok report) :
    ∃ state, engine.Reaches program device observer outside state
        ⟨finished.outside, finished.engine.stopRequested⟩ ∧
      (program.get? state.pc = none ∧ report = state.report .completed ∨
        (∃ instruction, program.get? state.pc = some instruction) ∧
          finished.engine.stopRequested = true ∧ report = state.report .stopped) := by
  obtain ⟨turns, _, world, ended, rfl⟩ := (returns_iff ..).mp returns
  cases result
  obtain ⟨count, state, earlier, -, ran, advanced⟩ := Machine.ended_of_after ended
  have turn := Machine.turn_advance (jumps_machine engine program device observer) state earlier
  rw [advanced] at turn
  cases turn with
  | completed past => exact ⟨state, ⟨count, ran⟩, .inl ⟨past, rfl⟩⟩
  | stopped here asked => exact ⟨state, ⟨count, ran⟩, .inr ⟨⟨_, here⟩, asked, rfl⟩⟩

/-- A run that returns a fault has come to an instruction that breaks off with it. -/
theorem reaches_of_fault {finished : Finished σ} {fault : Fault}
    (returns : engine.Returns program device observer outside finished)
    (result : finished.result = .error fault) :
    ∃ state world instruction calls, engine.Reaches program device observer outside state world ∧
      (engine.machine program device observer).advance state world =
        .ended (.error fault) ⟨finished.outside, finished.engine.stopRequested⟩ ∧
      program.get? state.pc = some instruction ∧ world.stopped = false ∧
      Breaks program state calls fault ∧
      device.Answers ((engine.machine program device observer).observe (state.view instruction)
        world) calls ⟨finished.outside, finished.engine.stopRequested⟩ := by
  obtain ⟨turns, _, world, ended, rfl⟩ := (returns_iff ..).mp returns
  cases result
  obtain ⟨count, state, earlier, -, ran, advanced⟩ := Machine.ended_of_after ended
  obtain ⟨instruction, calls, here, going, breaks, answers⟩ :=
    Machine.breaks_of_advance (jumps_machine ..) advanced
  exact ⟨state, earlier, instruction, calls, ⟨count, ran⟩, advanced, here, going, breaks, answers⟩

theorem returns_of_breaks {fault : Fault}
    (reaches : engine.Reaches program device observer outside state world)
    (going : world.stopped = false) (breaks : Breaks program state [] fault) :
    ∃ finished, engine.Returns program device observer outside finished ∧
      finished.result = .error fault := by
  obtain ⟨turns, ran⟩ := reaches
  obtain ⟨later, advanced⟩ :=
    Machine.advance_of_breaks (jumps_machine engine program device observer) breaks going
  refine ⟨_, (returns_iff ..).mpr ⟨turns + 1, _, later, ?_, rfl⟩, rfl⟩
  rw [Machine.after, ran, Machine.resume, advanced]

end Engine
end ByteTape
