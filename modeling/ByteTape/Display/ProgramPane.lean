import ByteTape.Display.Drawing
import ByteTape.Program

/-! The pane that shows the instructions in rows, with the next one highlighted.
When there are too many rows, those around the next instruction are shown. -/

namespace ByteTape.ProgramPane

def inkOf : Instruction → Color
  | .right | .left => Theme.primary
  | .increment | .decrement => Theme.number
  | .output | .input => Theme.success
  | .loopStart | .loopEnd => Theme.text

def highlight : Style where
  foreground := Theme.instruction
  background := Theme.bar
  bold := true
  reversed := true

def glyph (instruction : Instruction) (current : Bool) : Cell :=
  ⟨instruction.toChar, if current then highlight else .ink (inkOf instruction)⟩

/-- The row to start with so that the current one is on screen, in the middle if it can be. -/
def firstRow (current total visible : Nat) : Nat :=
  if total ≤ visible then 0 else min (current - visible / 2) (total - visible)

def rowCount (size width : Nat) : Nat := (size + width - 1) / width

def title (instructions : Nat) : List Char := (s!" Program ({instructions} instructions) ").toList

/-- Where the view of a program starts in a pane of that size. -/
def scroll (size : Nat) (pc : Option Nat) (columns rows : Nat) : Nat :=
  firstRow (pc.getD 0 / columns) (rowCount size columns) rows

def paint {width height : Nat} (program : Program) (pc : Option Nat) (area : Area)
    (grid : Grid width height) : Grid width height :=
  let shown := area.clip width height
  let edge := Style.ink Theme.border
  if program.isEmpty then
    grid.note shown (title 0) "(empty program)".toList edge (.ink Theme.muted)
  else
    let columns := max (area.width - 2) 1
    let first := scroll program.size pc columns (max (area.height - 2) 1)
    (grid.box shown (title program.size) edge).paint shown.inside fun x y cell =>
      let index := (first + y) * columns + x
      match program.get? index with
      | some instruction => (glyph instruction (pc == some index)).drawnOn cell
      | none => cell

end ByteTape.ProgramPane
