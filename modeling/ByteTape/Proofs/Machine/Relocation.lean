import ByteTape.Proofs.Machine.JumpStrategies

/-! Places ride along. A run looks at the places of its instructions only to put them into a fault,
so moving every instruction of a program elsewhere moves the place of the fault and nothing else. -/

namespace ByteTape

variable {σ : Type} (move : Location → Location)

def Token.relocate (token : Token) : Token := { token with location := move token.location }

def Program.relocate (program : Program) : Program := ⟨program.tokens.map (Token.relocate move)⟩

def Fault.relocate : Fault → Fault
  | pointerOverflow pc location pointer memorySize =>
    pointerOverflow pc (location.map move) pointer memorySize
  | pointerUnderflow pc location => pointerUnderflow pc (location.map move)
  | unmatchedBracket pc location => unmatchedBracket pc (location.map move)
  | programNotLoaded => programNotLoaded
  | device pc reason => device pc reason

namespace Program

@[simp] theorem instructions_relocate (program : Program) :
    (program.relocate move).instructions = program.instructions := by
  rw [instructions, relocate, Array.map_map]
  rfl

@[simp] theorem get?_relocate (program : Program) (index : Nat) :
    (program.relocate move).get? index = program.get? index := by
  rw [get?_eq_getElem?, get?_eq_getElem?, instructions_relocate]

@[simp] theorem location?_relocate (program : Program) (index : Nat) :
    (program.relocate move).location? index = (program.location? index).map move := by
  rw [location?, location?, relocate, Array.getElem?_map, Option.map_map, Option.map_map]
  rfl

/-- Programs with the same instructions cannot be told apart when they are all in one place. -/
theorem relocate_eq_of_instructions {first second : Program}
    (same : first.instructions = second.instructions) (place : Location) :
    first.relocate (fun _ => place) = second.relocate fun _ => place := by
  have rebuilt (program : Program) : program.relocate (fun _ => place) =
      ⟨(program.instructions.map (⟨·, place⟩)).toArray⟩ := by
    rw [relocate, instructions, ← Array.toList_map, Array.map_map]
    rfl
  rw [rebuilt, rebuilt, same]

end Program

def Progress.relocate : Progress σ → Progress σ
  | .running state world => .running state world
  | .ended result world => .ended (result.mapError (Fault.relocate move)) world

private theorem Progress.world_relocate (progress : Progress σ) :
    (progress.relocate move).world = progress.world := by
  cases progress <;> rfl

namespace Machine

def relocate (machine : Machine σ) : Machine σ :=
  { machine with program := machine.program.relocate move }

variable (machine : Machine σ) (state : RunState)

private theorem settle_relocate (moved : Except MoveError Tape) :
    (machine.relocate move).settle state moved =
      (machine.settle state moved).mapError (Fault.relocate move) := by
  cases moved with
  | ok tape => rfl
  | error refused =>
    rw [settle, settle, relocate, Program.location?_relocate]
    cases refused <;> rfl

private theorem land_relocate (partner : Option Nat) :
    (machine.relocate move).land state partner =
      (machine.land state partner).mapError (Fault.relocate move) := by
  cases partner with
  | some target => rfl
  | none =>
    rw [land, land, relocate, Program.location?_relocate]
    rfl

theorem execute_relocate (world : World σ) (instruction : Instruction) :
    (machine.relocate move).execute state world instruction =
      ((machine.execute state world instruction).1.mapError (Fault.relocate move),
        (machine.execute state world instruction).2) := by
  cases instruction with
  | right | left => exact congrArg (·, world) (settle_relocate move machine state _)
  | increment | decrement => rfl
  | output =>
    have same : (machine.relocate move).device = machine.device := rfl
    simp only [execute, same]
    rcases world.write machine.device state.tape.current with ⟨_ | _, later⟩ <;> rfl
  | input =>
    have same : (machine.relocate move).device = machine.device := rfl
    simp only [execute, same]
    rcases world.read machine.device with ⟨_ | _, later⟩ <;> rfl
  | loopStart =>
    have landed := land_relocate move machine state (machine.jumps.closing? state.pc)
    rw [execute, execute]
    split
    · exact congrArg (·, world) landed
    · rfl
  | loopEnd =>
    have landed := land_relocate move machine state (machine.jumps.opening? state.pc)
    rw [execute, execute]
    split
    · rfl
    · exact congrArg (·, world) landed

private theorem concluded_relocate (conclusion : Except Fault RunState × World σ) :
    concluded (conclusion.1.mapError (Fault.relocate move), conclusion.2) =
      (concluded conclusion).relocate move := by
  obtain ⟨_ | _, world⟩ := conclusion <;> rfl

theorem advance_relocate (world : World σ) :
    (machine.relocate move).advance state world = (machine.advance state world).relocate move := by
  have same := machine.program.get?_relocate move state.pc
  cases here : machine.program.get? state.pc with
  | none =>
    rw [here] at same
    rw [advance_past here, advance_past same]
    rfl
  | some instruction =>
    rw [here] at same
    cases stopped : world.stopped with
    | true =>
      rw [advance_stopped here stopped, advance_stopped same stopped]
      rfl
    | false =>
      rw [advance_execute here stopped, advance_execute same stopped, execute_relocate,
        concluded_relocate]
      rfl

theorem after_relocate (start : Progress σ) (turns : Nat) :
    (machine.relocate move).after (start.relocate move) turns =
      (machine.after start turns).relocate move := by
  apply after_related (fun left right => left = right.relocate move) _ rfl
  rintro _ right rfl
  cases right with
  | running state world => exact advance_relocate move machine state world
  | ended result world => rfl

end Machine

def Finished.relocate (finished : Finished σ) : Finished σ :=
  { finished with result := finished.result.mapError (Fault.relocate move) }

namespace Engine
variable (engine : Engine) (program : Program) (device : Device σ)
  (observer : Option (Observer σ)) (outside : σ)

private theorem machine_relocate :
    engine.machine (program.relocate move) device observer =
      (engine.machine program device observer).relocate move := by
  have jumps : Brackets.Jumps.ofProgram engine.config.jumpStrategy (program.relocate move) =
      .ofProgram engine.config.jumpStrategy program := by
    have code := program.instructions_relocate move
    cases engine.config.jumpStrategy with
    | scan => exact congrArg Brackets.Jumps.scan code
    | table => exact congrArg (fun code => Brackets.Jumps.table (.ofCode code)) code
  rw [machine, Machine.ofProgram, jumps]
  rfl

private theorem after_start_relocate (turns : Nat) :
    (engine.machine (program.relocate move) device observer).after (engine.start outside) turns =
      ((engine.machine program device observer).after (engine.start outside) turns).relocate
        move := by
  rw [machine_relocate]
  exact Machine.after_relocate move _ (engine.start outside) turns

/-- A program that has been moved elsewhere runs as it does here, but for the place of a fault. -/
theorem runProgram_relocate (fuel : Nat) :
    engine.runProgram fuel (program.relocate move) device observer outside =
      (engine.runProgram fuel program device observer outside).map (Finished.relocate move) := by
  rw [runProgram_eq, runProgram_eq, after_start_relocate]
  cases (engine.machine program device observer).after (engine.start outside) fuel <;> rfl

/-- Nobody who is called during the run can tell where the program was found. -/
theorem eventsWithin_relocate (turns : Nat) :
    engine.eventsWithin turns (program.relocate move) device observer outside =
      engine.eventsWithin turns program device observer outside := by
  rw [eventsWithin, eventsWithin, after_start_relocate, Progress.world_relocate]

end Engine
end ByteTape
