import ByteTape.Display.Grid

/-! The shapes that the panes are made of: tinted areas, framed boxes and rows of text. -/

namespace ByteTape

/-- Text in one style, as the cells it is drawn with. -/
def span (style : Style) (text : List Char) : List Cell := text.map (⟨·, style⟩)

def decimal (n : Nat) : List Char := Nat.toDigits 10 n

/-- The part of a box's outline that runs through a cell, if any does. In a box too small for
its corners the upper one wins, then the left one. -/
def outline? (width height x y : Nat) : Option Char :=
  if x = 0 ∧ y = 0 then some '┌'
  else if x = 0 ∧ y + 1 = height then some '└'
  else if x + 1 = width ∧ y = 0 then some '┐'
  else if x + 1 = width ∧ y + 1 = height then some '┘'
  else if y = 0 ∨ y + 1 = height then some '─'
  else if x = 0 ∨ x + 1 = width then some '│'
  else none

namespace Grid

variable {width height : Nat}

def tint (grid : Grid width height) (area : Area) (style : Style) : Grid width height :=
  grid.paint area fun _ _ cell => cell.restyle style

def box (grid : Grid width height) (area : Area) (title : List Char) (style : Style) :
    Grid width height :=
  let title := title.take (area.width - 2)
  grid.paint area fun x y cell =>
    match outline? area.width area.height x y with
    | none => cell
    | some symbol =>
      let symbol := if x = 0 ∨ y ≠ 0 then symbol else title[x - 1]?.getD symbol
      (Cell.mk symbol style).drawnOn cell

/-- Writes lines of text from the upper left corner of an area on, as far as they fit. -/
def write (grid : Grid width height) (area : Area) (lines : List (List Cell)) :
    Grid width height :=
  grid.paint area fun x y cell =>
    match lines[y]?.bind (·[x]?) with
    | some drawn => drawn.drawnOn cell
    | none => cell

/-- Writes one line so that it ends at the right edge of an area, or from the left if it is
too long. -/
def writeRight (grid : Grid width height) (area : Area) (line : List Cell) :
    Grid width height :=
  grid.write (area.indent (area.width - line.length)) [line]

def note (grid : Grid width height) (area : Area) (title text : List Char)
    (edge tone : Style) : Grid width height :=
  ((grid.tint area tone).box area title edge).tint area.inside tone
    |>.write area.inside [span .plain text]

end Grid
end ByteTape
