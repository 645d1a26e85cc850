import ByteTape.Config
import ByteTape.Output.Column
import ByteTape.Tape

/-! The state of one run between two instructions, what an observer may see of it,
and what is reported of it at the end. -/

namespace ByteTape

structure MachineView where
  cells : Array UInt8
  pointer : Nat
  outputColumn : Nat
  pc : Nat
  instruction : Instruction
  /-- How many instructions have been executed before this one. -/
  step : Nat
  deriving DecidableEq, Repr

def MachineView.current (view : MachineView) : UInt8 := view.cells[view.pointer]?.getD 0

inductive Ending where
  | completed
  | stopped
  deriving DecidableEq, Repr

/-- What a run that met no fault leaves behind. -/
structure Report where
  ending : Ending
  steps : Nat
  outputBytes : Nat
  tape : Tape
  deriving DecidableEq

structure RunState where
  tape : Tape
  pc : Nat
  column : Column
  steps : Nat
  outputBytes : Nat
  deriving DecidableEq

namespace RunState

def start (config : Config) (valid : config.Valid) : RunState where
  tape := .blank config.memorySize valid.memory
  pc := 0
  column := .start config.outputWidth
  steps := 0
  outputBytes := 0

def view (state : RunState) (instruction : Instruction) : MachineView where
  cells := state.tape.cells
  pointer := state.tape.pointer
  outputColumn := state.column.position
  pc := state.pc
  instruction := instruction
  step := state.steps

def report (state : RunState) (ending : Ending) : Report :=
  ⟨ending, state.steps, state.outputBytes, state.tape⟩

/-- After an instruction that changes the tape at most. -/
def next (change : Tape → Tape) : RunState → RunState
  | ⟨tape, pc, column, steps, outputBytes⟩ =>
    ⟨change tape, pc + 1, column, steps + 1, outputBytes⟩

def withTape (tape : Tape) : RunState → RunState
  | ⟨_, pc, column, steps, outputBytes⟩ => ⟨tape, pc + 1, column, steps + 1, outputBytes⟩

/-- After a jump: the instruction after the target is next. -/
def jump (target : Nat) : RunState → RunState
  | ⟨tape, _, column, steps, outputBytes⟩ => ⟨tape, target + 1, column, steps + 1, outputBytes⟩

def wrote (byte : UInt8) : RunState → RunState
  | ⟨tape, pc, column, steps, outputBytes⟩ =>
    ⟨tape, pc + 1, column.advance byte, steps + 1, outputBytes + 1⟩

end RunState
end ByteTape
