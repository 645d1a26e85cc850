import ByteTape.Display.Drawing
import ByteTape.Instruction

/-! The bar below the panes: counters and a message on the left, keys and a badge on the
right. -/

namespace ByteTape

inductive Activity where
  | running
  | waitingForInput
  | stopping
  | finished
  | failed
  deriving DecidableEq, Repr

namespace Activity

def badge : Activity → String
  | running => " ▶ RUNNING "
  | waitingForInput => " ⌨ INPUT "
  | stopping => " ■ STOPPING "
  | finished => " END "
  | failed => " ERROR "

def color : Activity → Color
  | running => Theme.primary
  | waitingForInput | stopping => Theme.secondary
  | finished => Theme.success
  | failed => Theme.error

/-- Whether the run is over, so that all a key can do is close the display. -/
def isOver : Activity → Bool
  | finished | failed => true
  | running | waitingForInput | stopping => false

end Activity

structure StatusBar where
  message : String
  step : Nat
  pc : Nat
  instruction : Option Instruction
  pointer : Nat
  cell : UInt8
  activity : Activity

namespace StatusBar

def base : Style := { Style.plain with background := Theme.bar }

def bar : Style := base.withInk Theme.muted

def plate (color : Color) : Style := { Style.ink .black with background := color }

def left (status : StatusBar) : List Cell :=
  let instruction := match status.instruction with
    | some instruction => s!"'{instruction.toChar}'"
    | none => "-"
  let cell := String.ofList ((decimal status.cell.toNat).leftpad 3 '0')
  let tone := if status.activity = .failed then Theme.error else Theme.text
  span (plate status.activity.color).emphasized (s!" Step {status.step} ").toList ++
    span bar " | ".toList ++
    span (base.withInk Theme.instruction) (s!"pc {status.pc} {instruction} ").toList ++
    span bar "| ".toList ++
    span (base.withInk Theme.pointer) (s!"ptr {status.pointer} = {cell} ").toList ++
    span bar "| ".toList ++
    span (base.withInk tone) (status.message ++ " ").toList

def right (status : StatusBar) : List Cell :=
  let keys := if status.activity.isOver then " q / ↵ " else " q / Esc "
  let effect := if status.activity.isOver then " quit " else " stop "
  span (plate Theme.muted) keys.toList ++
    span (base.withInk Theme.text) effect.toList ++
    span bar "│".toList ++
    span (plate status.activity.color).emphasized status.activity.badge.toList

/-- The width of the left part: three fifths, rounded to the nearest column. -/
def leftWidth (width : Nat) : Nat := (60 * width + 50) / 100

def paint {width height : Nat} (status : StatusBar) (area : Area) (grid : Grid width height) :
    Grid width height :=
  let split := leftWidth area.width
  let leftArea := Area.clip { area with width := split } width height
  let rightArea := Area.clip (area.indent split) width height
  ((grid.tint leftArea base).write leftArea [status.left]).tint rightArea base
    |>.writeRight rightArea status.right

end StatusBar
end ByteTape
