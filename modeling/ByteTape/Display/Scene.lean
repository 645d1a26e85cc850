import ByteTape.Display.OutputPane
import ByteTape.Display.ProgramPane
import ByteTape.Display.StatusBar
import ByteTape.Display.TapePane
import ByteTape.Machine.State

/-! All that one frame of the display shows, and where on the screen. -/

namespace ByteTape

structure Scene where
  program : Program
  cells : Array UInt8
  pointer : Nat
  pc : Option Nat
  instruction : Option Instruction
  step : Nat
  output : OutputLines
  message : String
  activity : Activity

structure Layout where
  tape : Area
  program : Area
  output : Area
  status : Area
  deriving DecidableEq, Repr

/-- The status bar gives way first on a low screen, then the output, then the tape; the
program keeps three rows for as long as there are three. On a high one the output has
thirty-five rows of a hundred. -/
def Layout.ofSize (width height : Nat) : Layout :=
  let statusHeight := if height < 7 then 0 else 1
  let statusTop := height - statusHeight
  let tapeHeight := min 4 (height - 3 - statusHeight)
  let outputTop := max (min 7 statusTop) ((65 * height - 50) / 100)
  { tape := ⟨0, 0, width, tapeHeight⟩
    program := ⟨0, tapeHeight, width, outputTop - tapeHeight⟩
    output := ⟨0, outputTop, width, statusTop - outputTop⟩
    status := ⟨0, statusTop, width, statusHeight⟩ }

namespace Scene

def start (program : Program) (memorySize : Nat) (outputWidth : Option Nat) : Scene where
  program := program
  cells := Array.replicate memorySize 0
  pointer := 0
  pc := none
  instruction := none
  step := 0
  output := .start outputWidth
  message := "Running..."
  activity := .running

def record (scene : Scene) (view : MachineView) : Scene :=
  { scene with
    cells := view.cells
    pointer := view.pointer
    pc := some view.pc
    instruction := some view.instruction
    step := view.step }

def conclude (scene : Scene) (cells : Array UInt8) (pointer steps : Nat) : Scene :=
  { scene with cells, pointer, step := steps, pc := none, instruction := none }

def announce (scene : Scene) (activity : Activity) (message : String) : Scene :=
  { scene with activity, message }

def note (scene : Scene) (problem reason : String) : Scene :=
  { scene with message := s!"{problem}: {reason}" }

/-- Without a next instruction the run is behind the last one. -/
def statusBar (scene : Scene) : StatusBar where
  message := scene.message
  step := scene.step
  pc := scene.pc.getD scene.program.size
  instruction := scene.instruction
  pointer := scene.pointer
  cell := scene.cells[scene.pointer]?.getD 0
  activity := scene.activity

def paint {width height : Nat} (scene : Scene) (grid : Grid width height) : Grid width height :=
  let layout := Layout.ofSize width height
  grid
    |> TapePane.paint scene.cells scene.pointer layout.tape
    |> ProgramPane.paint scene.program scene.pc layout.program
    |> OutputPane.paint scene.output layout.output
    |> scene.statusBar.paint layout.status

end Scene
end ByteTape
