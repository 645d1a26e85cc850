import ByteTape.Display.Drawing

/-! The pane that shows the cells around the pointer. Each cell has a slot with its value
in three digits, and its index in the row below. -/

namespace ByteTape

structure Window where
  start : Nat
  stop : Nat
  deriving DecidableEq, Repr

/-- The cells to show of a tape of that length when there is room for `slots` of them. The
pointer is in the middle unless an end of the tape is in sight; one cell is always shown. -/
def Window.around (pointer length slots : Nat) : Window :=
  let slots := max slots 1
  if length ≤ slots then ⟨0, length⟩
  else
    let start := min (pointer - slots / 2) (length - slots)
    ⟨start, start + slots⟩

def Window.indices (window : Window) : List Nat :=
  List.range' window.start (window.stop - window.start)

namespace TapePane

def slotWidth : Nat := 6

def separator : Style := .ink Theme.muted

def valueStyle (current : Bool) : Style :=
  if current then (Style.ink Theme.pointer).emphasized else .ink Theme.number

def indexStyle (current : Bool) : Style :=
  .ink (if current then Theme.pointer else Theme.muted)

/-- One slot of the upper row: a separator and the value of the cell. -/
def valueSlot (cells : Array UInt8) (pointer index : Nat) : List Cell :=
  let value := decimal (cells[index]?.getD 0).toNat
  span separator ['│', ' '] ++
    span (valueStyle (index == pointer)) (value.leftpad 3 '0' ++ [' '])

/-- One slot of the lower row. An index of more than five digits takes more room. -/
def indexSlot (pointer index : Nat) : List Cell :=
  span (indexStyle (index == pointer)) ((decimal index).leftpad 5 ' ' ++ [' '])

def valueRow (cells : Array UInt8) (pointer : Nat) (window : Window) : List Cell :=
  window.indices.flatMap (valueSlot cells pointer) ++ span separator ['│']

def indexRow (pointer : Nat) (window : Window) : List Cell :=
  window.indices.flatMap (indexSlot pointer)

def title (cells : Nat) : List Char := (s!" Tape ({cells} cells) ").toList

/-- The window for a pane of that width: between the edges, one column is for the last
separator. -/
def window (cells pointer width : Nat) : Window :=
  .around pointer cells ((width - 3) / slotWidth)

def paint {width height : Nat} (cells : Array UInt8) (pointer : Nat) (area : Area)
    (grid : Grid width height) : Grid width height :=
  let window := window cells.size pointer area.width
  let shown := area.clip width height
  (grid.box shown (title cells.size) (Style.ink Theme.focusedBorder).emphasized).write shown.inside
    [valueRow cells pointer window, indexRow pointer window]

end TapePane
end ByteTape
