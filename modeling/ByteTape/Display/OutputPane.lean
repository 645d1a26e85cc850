import ByteTape.Display.Drawing
import ByteTape.Output.Lines

/-! The pane that shows the last lines of the output. -/

namespace ByteTape.OutputPane

def title : List Char := " Output ".toList

/-- The lines that fit, and always the last one. -/
def visible (lines : Array String) (rows : Nat) : List String :=
  lines.toList.drop (lines.size - max rows 1)

def paint {width height : Nat} (output : OutputLines) (area : Area)
    (grid : Grid width height) : Grid width height :=
  let shown := area.clip width height
  let edge := Style.ink Theme.border
  if output.isBlank then
    grid.note shown title "(no output)".toList edge (.ink Theme.muted)
  else
    let room := shown.inside.indent 1
    let lines := visible output.lines (area.height - 2)
    let used := { room with height := min room.height lines.length }
    ((grid.box shown title edge).tint used (.ink Theme.text)).write room
      (lines.map fun line => span .plain (line.toList.take room.width))

end ByteTape.OutputPane
