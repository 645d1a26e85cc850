import ByteTape.Device
import ByteTape.Failure
import ByteTape.Machine.State

/-! Running a program. Before each instruction the request to stop is looked at, then
the observer is shown the machine, then the instruction takes effect; one that has
begun is never cut short by a stop. -/

namespace ByteTape

/-- Somebody who watches a run, and may ask for a stop while watching. -/
abbrev Observer (σ : Type) := MachineView → σ → Reply Unit σ

/-- A program with all that it needs to run but the state of the run. -/
structure Machine (σ : Type) where
  program : Program
  jumps : Brackets.Jumps
  device : Device σ
  observer : Option (Observer σ)

inductive Progress (σ : Type) where
  | running (state : RunState) (world : World σ)
  | ended (result : Except Fault Report) (world : World σ)

namespace Machine

variable {σ : Type}

/-- The observer is only ever called when the settings ask for a display. -/
def ofProgram (config : Config) (program : Program) (device : Device σ)
    (observer : Option (Observer σ)) : Machine σ where
  program := program
  jumps := .ofProgram config.jumpStrategy program
  device := device
  observer := if config.display then observer else none

def observe (machine : Machine σ) (view : MachineView) (world : World σ) : World σ :=
  match machine.observer with
  | none => world
  | some observer => (world.call fun _ outside => observer view outside).2

/-- The machine after a move, or the fault of a move that is refused. -/
def settle (machine : Machine σ) (state : RunState) : Except MoveError Tape → Except Fault RunState
  | .ok tape => .ok (state.withTape tape)
  | .error refused =>
    .error (.ofMove state.pc (machine.program.location? state.pc) refused)

/-- The machine after a jump, or the fault of a bracket without a partner. -/
def land (machine : Machine σ) (state : RunState) : Option Nat → Except Fault RunState
  | some target => .ok (state.jump target)
  | none => .error (.unmatchedBracket state.pc (machine.program.location? state.pc))

/-- Executes one instruction. The end of the input is read as zero. -/
def execute (machine : Machine σ) (state : RunState) (world : World σ) :
    Instruction → Except Fault RunState × World σ
  | .right => (machine.settle state state.tape.moveRight, world)
  | .left => (machine.settle state state.tape.moveLeft, world)
  | .increment => (.ok (state.next Tape.increment), world)
  | .decrement => (.ok (state.next Tape.decrement), world)
  | .output =>
    let byte := state.tape.current
    match world.write machine.device byte with
    | (.ok (), world) => (.ok (state.wrote byte), world)
    | (.error reason, world) => (.error (.device state.pc reason), world)
  | .input =>
    match world.read machine.device with
    | (.ok byte, world) => (.ok (state.next (·.setCurrent (byte.getD 0))), world)
    | (.error reason, world) => (.error (.device state.pc reason), world)
  | .loopStart =>
    if state.tape.current = 0 then
      (machine.land state (machine.jumps.closing? state.pc), world)
    else (.ok (state.next id), world)
  | .loopEnd =>
    if state.tape.current = 0 then (.ok (state.next id), world)
    else (machine.land state (machine.jumps.opening? state.pc), world)

def advance (machine : Machine σ) (state : RunState) (world : World σ) : Progress σ :=
  match machine.program.get? state.pc with
  | none => .ended (.ok (state.report .completed)) world
  | some instruction =>
    if world.stopped then .ended (.ok (state.report .stopped)) world
    else
      let world := machine.observe (state.view instruction) world
      match machine.execute state world instruction with
      | (.ok state, world) => .running state world
      | (.error fault, world) => .ended (.error fault) world

/-- Runs for at most as many turns as there is fuel, `none` if that is not enough. -/
def run (machine : Machine σ) :
    Nat → RunState → World σ → Option (Except Fault Report × World σ)
  | 0, _, _ => none
  | fuel + 1, state, world =>
    match machine.advance state world with
    | .running state world => machine.run fuel state world
    | .ended result world => some (result, world)

end Machine
end ByteTape
