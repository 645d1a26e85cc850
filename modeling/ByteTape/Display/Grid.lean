import ByteTape.Display.Style

/-! The cells of a screen and what it means to draw on an area of them. -/

namespace ByteTape

structure Cell where
  symbol : Char
  style : Style
  deriving DecidableEq, Repr

namespace Cell

def blank : Cell := ⟨' ', .plain⟩

def restyle (style : Style) (cell : Cell) : Cell := { cell with style := style.drawnOn cell.style }

/-- The cell `under` with `cell` drawn on it. -/
def drawnOn (cell under : Cell) : Cell := ⟨cell.symbol, cell.style.drawnOn under.style⟩

end Cell

structure Area where
  left : Nat
  top : Nat
  width : Nat
  height : Nat
  deriving DecidableEq, Repr

namespace Area

def Contains (area : Area) (x y : Nat) : Prop :=
  area.left ≤ x ∧ x < area.left + area.width ∧ area.top ≤ y ∧ y < area.top + area.height

instance (area : Area) (x y : Nat) : Decidable (area.Contains x y) :=
  inferInstanceAs (Decidable (_ ∧ _ ∧ _ ∧ _))

/-- The part of the area that lies on a screen of that size. -/
def clip (area : Area) (width height : Nat) : Area where
  left := area.left
  top := area.top
  width := min (area.left + area.width) width - area.left
  height := min (area.top + area.height) height - area.top

def inside (area : Area) : Area :=
  ⟨area.left + 1, area.top + 1, area.width - 2, area.height - 2⟩

def indent (area : Area) (columns : Nat) : Area :=
  ⟨area.left + columns, area.top, area.width - columns, area.height⟩

end Area

/-- A screen, row by row from the top. -/
structure Grid (width height : Nat) where
  rows : Vector (Vector Cell width) height
  deriving DecidableEq, Repr

/-- What becomes of a cell, by its column and row in the area that is drawn on. -/
abbrev Painter := Nat → Nat → Cell → Cell

namespace Grid

variable {width height : Nat}

def blank (width height : Nat) : Grid width height :=
  ⟨Vector.replicate height (Vector.replicate width .blank)⟩

def get (grid : Grid width height) (x y : Nat) (column : x < width) (row : y < height) : Cell :=
  grid.rows[y][x]

/-- Draws on the cells of an area that are on the screen, and leaves the others alone. -/
def paint (grid : Grid width height) (area : Area) (painter : Painter) : Grid width height where
  rows := grid.rows.mapIdx fun y row =>
    if area.top ≤ y ∧ y < area.top + area.height then
      row.mapIdx fun x cell =>
        if area.left ≤ x ∧ x < area.left + area.width then
          painter (x - area.left) (y - area.top) cell
        else cell
    else row

theorem get_paint (grid : Grid width height) (area : Area) (painter : Painter) {x y : Nat}
    (column : x < width) (row : y < height) :
    (grid.paint area painter).get x y column row =
      if area.Contains x y then
        painter (x - area.left) (y - area.top) (grid.get x y column row)
      else grid.get x y column row := by
  simp only [paint, get, Area.Contains, Vector.getElem_mapIdx]
  by_cases rows : area.top ≤ y ∧ y < area.top + area.height
  · by_cases columns : area.left ≤ x ∧ x < area.left + area.width
    · simp [rows, columns]
    · simp [rows, columns]
  · simp [rows]

end Grid
end ByteTape
