import ByteTape.Device.Buffer
import ByteTape.Proofs.Machine.Executions
import ByteTape.Proofs.Program.Acceptance

/-! The limits of a run. The tape keeps its size and the pointer stays on it; a move beyond an end
of the tape is refused where it is tried, with everything before it done. -/

namespace ByteTape

variable {σ : Type}

structure RunState.InBounds (cells : Nat) (program : Program) (state : RunState) : Prop where
  size : state.tape.size = cells
  pointer : state.tape.pointer < cells
  pc : state.pc ≤ program.size

section
variable {program : Program} {state : RunState} {calls : List Event}

theorem breaks_pointerOverflow_iff {pc pointer cells : Nat} {location : Option Location} :
    Breaks program state calls (.pointerOverflow pc location pointer cells) ↔
      calls = [] ∧ program.get? state.pc = some .right ∧
        state.tape.pointer + 1 = state.tape.size ∧ pc = state.pc ∧
        location = program.location? state.pc ∧ pointer = state.tape.pointer ∧
        cells = state.tape.size := by
  constructor
  · intro breaks
    cases breaks with
    | right here last => exact ⟨rfl, here, last, rfl, rfl, rfl, rfl⟩
  · rintro ⟨rfl, here, last, rfl, rfl, rfl, rfl⟩
    exact .right here last

theorem breaks_pointerUnderflow_iff {pc : Nat} {location : Option Location} :
    Breaks program state calls (.pointerUnderflow pc location) ↔
      calls = [] ∧ program.get? state.pc = some .left ∧ state.tape.pointer = 0 ∧
        pc = state.pc ∧ location = program.location? state.pc := by
  constructor
  · intro breaks
    cases breaks with
    | left here first => exact ⟨rfl, here, first, rfl, rfl⟩
  · rintro ⟨rfl, here, first, rfl, rfl⟩
    exact .left here first

theorem Breaks.pc? {fault : Fault} (breaks : Breaks program state calls fault) :
    fault.pc? = some state.pc := by
  cases breaks <;> rfl

private theorem Breaks.calls_of_move {instruction : Instruction} {fault : Fault}
    (breaks : Breaks program state calls fault)
    (here : program.get? state.pc = some instruction)
    (move : instruction = .right ∨ instruction = .left) : calls = [] := by
  cases breaks with
  | output there | input there =>
    rw [here] at there
    cases there
    cases move <;> contradiction
  | _ => rfl

end

namespace Engine
variable {engine : Engine} {program : Program} {device : Device σ}
  {observer : Option (Observer σ)} {outside : σ} {state : RunState} {world : World σ}

private theorem size_of_reaches
    (reaches : engine.Reaches program device observer outside state world) :
    state.tape.size = engine.config.memorySize := by
  obtain ⟨turns, ran⟩ := reaches
  induction turns generalizing state world with
  | zero =>
    cases ran
    exact Tape.size_blank _ engine.valid.memory
  | succ turns ih =>
    obtain ⟨before, earlier, instruction, calls, ran, -, executes, -⟩ := executes_of_after ran
    rw [executes.size_tape, ih ran]

theorem inBounds_of_reaches
    (reaches : engine.Reaches program device observer outside state world) :
    state.InBounds engine.config.memorySize program := by
  have size := size_of_reaches reaches
  obtain ⟨turns, ran⟩ := reaches
  exact ⟨size, size ▸ state.tape.pointer_lt_size, pc_le_size ran⟩

private theorem completed_iff {report : Report} {finished : Finished σ}
    (returns : engine.Returns program device observer outside finished)
    (result : finished.result = .ok report) :
    ∃ state, engine.Reaches program device observer outside state
        ⟨finished.outside, finished.engine.stopRequested⟩ ∧
      report = state.report report.ending ∧
      (report.ending = .completed ↔ state.pc = program.size) := by
  obtain ⟨state, reaches, choice⟩ := reaches_of_report returns result
  have bound := (inBounds_of_reaches reaches).pc
  refine ⟨state, reaches, ?_⟩
  rcases choice with ⟨past, rfl⟩ | ⟨⟨instruction, here⟩, -, rfl⟩
  · rw [Program.get?_eq_none_iff] at past
    exact ⟨rfl, fun _ => Nat.le_antisymm bound past, fun _ => rfl⟩
  · refine ⟨rfl, ?_, ?_⟩
    · intro impossible
      cases impossible
    · intro last
      rw [(Program.get?_eq_none_iff ..).mpr (Nat.le_of_eq last.symm)] at here
      cases here

private theorem returns_pointerOverflow_iff (pc : Nat) (location : Option Location)
    (pointer cells : Nat) :
    (∃ finished, engine.Returns program device observer outside finished ∧
      finished.result = .error (.pointerOverflow pc location pointer cells)) ↔
    ∃ state world, engine.Reaches program device observer outside state world ∧
      world.stopped = false ∧ program.get? state.pc = some .right ∧
      state.tape.pointer = engine.config.memorySize - 1 ∧ pc = state.pc ∧
      location = program.location? pc ∧ pointer = engine.config.memorySize - 1 ∧
      cells = engine.config.memorySize := by
  have positive := engine.valid.memory
  constructor
  · rintro ⟨finished, returns, result⟩
    obtain ⟨state, world, _, calls, reaches, -, -, going, breaks, -⟩ :=
      reaches_of_fault returns result
    obtain ⟨-, here, last, rfl, rfl, rfl, rfl⟩ := breaks_pointerOverflow_iff.mp breaks
    rw [size_of_reaches reaches] at last
    have there : state.tape.pointer = engine.config.memorySize - 1 := by omega
    exact ⟨state, world, reaches, going, here, there, rfl, rfl, there, size_of_reaches reaches⟩
  · rintro ⟨state, world, reaches, going, here, there, rfl, rfl, rfl, rfl⟩
    have size := size_of_reaches reaches
    refine returns_of_breaks reaches going (breaks_pointerOverflow_iff.mpr ?_)
    exact ⟨rfl, here, by omega, rfl, rfl, there.symm, size.symm⟩

private theorem returns_pointerUnderflow_iff (pc : Nat) (location : Option Location) :
    (∃ finished, engine.Returns program device observer outside finished ∧
      finished.result = .error (.pointerUnderflow pc location)) ↔
    ∃ state world, engine.Reaches program device observer outside state world ∧
      world.stopped = false ∧ program.get? state.pc = some .left ∧ state.tape.pointer = 0 ∧
      pc = state.pc ∧ location = program.location? pc := by
  constructor
  · rintro ⟨finished, returns, result⟩
    obtain ⟨state, world, _, calls, reaches, -, -, going, breaks, -⟩ :=
      reaches_of_fault returns result
    obtain ⟨-, here, first, rfl, rfl⟩ := breaks_pointerUnderflow_iff.mp breaks
    exact ⟨state, world, reaches, going, here, first, rfl, rfl⟩
  · rintro ⟨state, world, reaches, going, here, first, rfl, rfl⟩
    exact returns_of_breaks reaches going
      (breaks_pointerUnderflow_iff.mpr ⟨rfl, here, first, rfl, rfl⟩)

/-- A run never leaves the tape or the program, and what it reports is in bounds too. It returns a
pointer fault exactly when it comes to a move beyond an end of the tape, with the place of that
very letter; what it then leaves behind is what the instructions before have done, and the move
itself has asked for nothing. The device can only fail where it is called. -/
theorem pointer_faults_at_the_ends_of_the_tape (engine : Engine) {source : String}
    {rule : BracketRule} {program : Program} (parsed : Program.parse source rule = .ok program)
    (device : Device σ) (observer : Option (Observer σ)) (outside : σ) :
    let size := engine.config.memorySize
    let reaches := engine.Reaches program device observer outside
    let returns := engine.Returns program device observer outside
    (∀ state world, reaches state world → state.InBounds size program) ∧
    (∀ finished report, returns finished → finished.result = .ok report →
      report.tape.size = size ∧ report.tape.pointer < size ∧
      ∃ state, reaches state ⟨finished.outside, finished.engine.stopRequested⟩ ∧
        report = state.report report.ending ∧
        (report.ending = .completed ↔ state.pc = program.size)) ∧
    (∀ pc location pointer cells,
      (∃ finished, returns finished ∧
        finished.result = .error (.pointerOverflow pc location pointer cells)) ↔
      ∃ state world, reaches state world ∧ world.stopped = false ∧
        program.get? state.pc = some .right ∧ state.tape.pointer = size - 1 ∧ pc = state.pc ∧
        location = program.location? pc ∧ pointer = size - 1 ∧ cells = size) ∧
    (∀ pc location,
      (∃ finished, returns finished ∧
        finished.result = .error (.pointerUnderflow pc location)) ↔
      ∃ state world, reaches state world ∧ world.stopped = false ∧
        program.get? state.pc = some .left ∧ state.tape.pointer = 0 ∧ pc = state.pc ∧
        location = program.location? pc) ∧
    (∀ index instruction, program.get? index = some instruction →
      ∃ place, program.location? index = some place ∧
        Source.Places source.toList index instruction place) ∧
    (∀ finished pc reason, returns finished → finished.result = .error (.device pc reason) →
      program.get? pc = some .output ∨ program.get? pc = some .input) ∧
    (∀ finished fault,
      engine.Returns program device.traced (observer.map Observer.traced) (.start outside)
        finished → finished.result = .error fault →
      ∃ state world instruction,
        engine.Reaches program device.traced (observer.map Observer.traced) (.start outside)
          state world ∧
        (engine.machine program device.traced (observer.map Observer.traced)).advance state
          world = .ended (.error fault) ⟨finished.outside, finished.engine.stopRequested⟩ ∧
        program.get? state.pc = some instruction ∧ fault.pc? = some state.pc ∧
        Performs program (.start engine.config engine.valid) world.outside.calls state ∧
        (instruction = .right ∨ instruction = .left →
          finished.outside.calls = world.outside.calls ∧
          ⟨finished.outside, finished.engine.stopRequested⟩ =
            (engine.machine program device.traced (observer.map Observer.traced)).observe
              (state.view instruction) world)) := by
  intro size reaches returns
  refine ⟨?_, ?_, returns_pointerOverflow_iff, returns_pointerUnderflow_iff, ?_, ?_, ?_⟩
  · intro state world reached
    exact inBounds_of_reaches reached
  · intro finished report returned result
    obtain ⟨state, reached, same, completed⟩ := completed_iff returned result
    have bounds := inBounds_of_reaches reached
    refine ⟨?_, ?_, state, reached, same, completed⟩
    · rw [same]
      exact bounds.size
    · rw [same]
      exact bounds.pointer
  · intro index instruction here
    exact Program.places_of_parse parsed here
  · intro finished pc reason returned result
    obtain ⟨state, world, _, calls, -, -, -, -, breaks, -⟩ := reaches_of_fault returned result
    cases breaks with
    | output here => exact .inl here
    | input here => exact .inr here
  · intro finished fault returned result
    obtain ⟨state, world, instruction, calls, reached, advanced, here, -, breaks, answers⟩ :=
      reaches_of_fault returned result
    refine ⟨state, world, instruction, reached, advanced, here, breaks.pc?,
      performs_of_reaches reached, ?_⟩
    intro move
    cases breaks.calls_of_move here move
    exact ⟨(calls_of_answers answers).trans (List.append_nil _), answers.eq_of_nothing⟩

theorem pointer_faults_at_the_ends_of_the_tape_second_line :
    let engine : Engine := ⟨.ofMemory 2, ⟨by decide, by decide, by decide⟩, none, false⟩
    ∃ program, Program.parse "+>\n >" .counted = .ok program ∧
      ∃ finished, engine.Returns program Buffer.device none (.ofInput []) finished ∧
        finished.result = .error (.pointerOverflow 2 (some ⟨2, 2⟩) 1 2) := by
  intro engine
  have parsed : Program.parse "+>\n >" .counted = .ok ⟨Token.ofSource "+>\n >"⟩ :=
    Program.parse_counted rfl
  obtain ⟨-, -, overflow, -⟩ :=
    pointer_faults_at_the_ends_of_the_tape engine parsed Buffer.device none (.ofInput [])
  have faulted := (overflow 2 (some ⟨2, 2⟩) 1 2).mpr
    ⟨_, _, ⟨2, rfl⟩, rfl, rfl, rfl, rfl, rfl, rfl, rfl⟩
  exact ⟨_, parsed, faulted⟩

end Engine
end ByteTape
