import ByteTape.Display.Drawing
import Mathlib.Data.List.Basic

/-! What a pane looks like from outside: the cells of the screen at given places, once a box has been
drawn where the screen was blank and the inside of it has been painted. -/

namespace ByteTape

theorem map_symbol_span (style : Style) (text : List Char) :
    (span style text).map Cell.symbol = text := by
  rw [span, List.map_map]
  exact List.map_id text

variable {width height : Nat}

@[simp] theorem Style.drawnOn_plain (style : Style) : style.drawnOn .plain = style := by
  simp [drawnOn, plain]

@[simp] theorem Style.plain_drawnOn (style : Style) : plain.drawnOn style = style := by
  simp [drawnOn, plain]

@[simp] theorem Cell.drawnOn_blank (cell : Cell) : cell.drawnOn .blank = cell := by
  simp [drawnOn, blank]

theorem outline?_eq_none_iff {columns rows x y : Nat} :
    outline? columns rows x y = none ↔ x ≠ 0 ∧ x + 1 ≠ columns ∧ y ≠ 0 ∧ y + 1 ≠ rows := by
  grind [outline?]

theorem Area.exists_of_inside {area : Area} {x y : Nat} (inside : area.inside.Contains x y) :
    ∃ row column, row < area.height - 2 ∧ column < area.width - 2 ∧
      x = area.left + 1 + column ∧ y = area.top + 1 + row := by
  obtain ⟨left, right, top, bottom⟩ := inside
  simp only [Area.inside] at left right top bottom
  exact ⟨y - (area.top + 1), x - (area.left + 1), by omega⟩

theorem Area.inside_contains {area : Area} {row column : Nat} (left : column < area.width - 2)
    (above : row < area.height - 2) :
    area.inside.Contains (area.left + 1 + column) (area.top + 1 + row) := by
  simp only [Contains, inside]
  omega

namespace Grid

def cell? (grid : Grid width height) (x y : Nat) : Option Cell :=
  if place : x < width ∧ y < height then some (grid.get x y place.1 place.2) else none

/-- The cells of a row from a column on, both counted inside the edges of an area. -/
def inner (grid : Grid width height) (area : Area) (row column count : Nat) : List Cell :=
  (List.range' column count).filterMap fun column =>
    grid.cell? (area.left + 1 + column) (area.top + 1 + row)

theorem inner_succ {grid : Grid width height} {area : Area} {row column : Nat} {cell : Cell}
    (first : grid.cell? (area.left + 1 + column) (area.top + 1 + row) = some cell) (count : Nat) :
    grid.inner area row column (count + 1) = cell :: grid.inner area row (column + 1) count := by
  rw [inner, List.range'_succ, List.filterMap_cons, first]
  rfl

theorem inner_eq {grid : Grid width height} {area : Area} {row column : Nat} {cells : List Cell}
    (stand : ∀ i < cells.length,
      grid.cell? (area.left + 1 + (column + i)) (area.top + 1 + row) = cells[i]?) :
    grid.inner area row column cells.length = cells := by
  induction cells generalizing column with
  | nil => rfl
  | cons cell cells ih =>
    have first : grid.cell? (area.left + 1 + column) (area.top + 1 + row) = some cell :=
      stand 0 (Nat.zero_lt_succ _)
    have rest : grid.inner area row (column + 1) cells.length = cells := by
      apply ih
      intro i inside
      rw [Nat.add_right_comm column 1 i]
      exact stand (i + 1) (Nat.succ_lt_succ inside)
    rw [List.length_cons, inner_succ first, rest]

theorem inner_congr {first second : Grid width height} {area : Area}
    (same : ∀ x y, area.Contains x y → first.cell? x y = second.cell? x y) {row column count : Nat}
    (above : row < area.height - 2) (left : column + count ≤ area.width - 2) :
    first.inner area row column count = second.inner area row column count := by
  apply List.filterMap_congr
  intro place member
  obtain ⟨-, before⟩ := List.mem_range'_1.mp member
  apply same
  simp only [Area.Contains]
  omega

theorem length_inner_le (grid : Grid width height) (area : Area) (row column count : Nat) :
    (grid.inner area row column count).length ≤ count :=
  Nat.le_trans (List.length_filterMap_le ..) (Nat.le_of_eq List.length_range')

/-- The area is on the screen, and nothing has been drawn there. -/
structure Vacant (grid : Grid width height) (area : Area) : Prop where
  right : area.left + area.width ≤ width
  bottom : area.top + area.height ≤ height
  blank : ∀ x y, area.Contains x y → grid.cell? x y = some .blank

theorem cell?_paint (grid : Grid width height) (area : Area) (painter : Painter) (x y : Nat) :
    (grid.paint area painter).cell? x y =
      if area.Contains x y then
        (grid.cell? x y).map (painter (x - area.left) (y - area.top))
      else grid.cell? x y := by
  by_cases place : x < width ∧ y < height
  · simp only [cell?, place, and_self, dif_pos, get_paint]
    split <;> rfl
  · simp [cell?, place]

theorem vacant_blank {area : Area} (right : area.left + area.width ≤ width)
    (bottom : area.top + area.height ≤ height) : (blank width height).Vacant area := by
  refine ⟨right, bottom, ?_⟩
  rintro x y ⟨-, before, -, above⟩
  have place : x < width ∧ y < height := by omega
  simp [cell?, place, get, blank]

section
variable (grid : Grid width height) {area : Area} {x y : Nat} (title : List Char) (edge : Style)

theorem cell?_box_inside (inside : area.inside.Contains x y) :
    (grid.box area title edge).cell? x y = grid.cell? x y := by
  obtain ⟨left, right, top, bottom⟩ := inside
  simp only [Area.inside] at left right top bottom
  have clear : outline? area.width area.height (x - area.left) (y - area.top) = none := by
    rw [outline?_eq_none_iff]
    omega
  rw [box, cell?_paint]
  split
  · simp [clear]
  · rfl

/-- The edge of a box is one cell wide, and goes all round it. -/
theorem cell?_box_edge (contains : area.Contains x y) (outside : ¬ area.inside.Contains x y) :
    ∃ symbol, (grid.box area title edge).cell? x y =
      (grid.cell? x y).map (Cell.mk symbol edge).drawnOn := by
  have drawn : outline? area.width area.height (x - area.left) (y - area.top) ≠ none := by
    rw [Ne, outline?_eq_none_iff]
    simp only [Area.Contains, Area.inside] at contains outside
    omega
  obtain ⟨symbol, runs⟩ := Option.ne_none_iff_exists'.mp drawn
  rw [box, cell?_paint, if_pos contains]
  simp only [runs]
  exact ⟨_, rfl⟩

end

namespace Vacant

variable {grid : Grid width height} {area : Area} (vacant : grid.Vacant area)
include vacant

theorem clip : area.clip width height = area := by
  obtain ⟨right, bottom, -⟩ := vacant
  simp only [Area.clip, Nat.min_eq_left right, Nat.min_eq_left bottom, Nat.add_sub_cancel_left]

variable (title : List Char) (edge : Style) (painter : Painter)

theorem cell?_box {x y : Nat} (inside : area.inside.Contains x y) :
    (grid.box area title edge).cell? x y = some .blank := by
  have contains : area.Contains x y := by
    simp only [Area.Contains, Area.inside] at inside ⊢
    omega
  rw [cell?_box_inside grid title edge inside]
  exact vacant.blank x y contains

theorem cell?_inside {column row : Nat} (left : column < area.width - 2)
    (above : row < area.height - 2) :
    ((grid.box area title edge).paint area.inside painter).cell?
      (area.left + 1 + column) (area.top + 1 + row) = some (painter column row .blank) := by
  have inside := Area.inside_contains left above
  rw [cell?_paint, if_pos inside, vacant.cell?_box title edge inside]
  simp [Area.inside]

theorem style_edge {x y : Nat} (contains : area.Contains x y)
    (outside : ¬ area.inside.Contains x y) :
    (((grid.box area title edge).paint area.inside painter).cell? x y).map Cell.style =
      some edge := by
  obtain ⟨symbol, drawn⟩ := grid.cell?_box_edge title edge contains outside
  rw [cell?_paint, if_neg outside, drawn, vacant.blank x y contains, Option.map_some,
    Cell.drawnOn_blank, Option.map_some]

/-- Behind the end of a line, and below the last one, the inside stays blank. -/
theorem cell?_write (lines : List (List Cell)) {column row : Nat} (left : column < area.width - 2)
    (above : row < area.height - 2) :
    ((grid.box area title edge).write area.inside lines).cell?
      (area.left + 1 + column) (area.top + 1 + row) =
        some ((lines[row]?.bind (·[column]?)).getD .blank) := by
  rw [write, vacant.cell?_inside title edge _ left above]
  cases lines[row]?.bind (·[column]?) with
  | none => rfl
  | some cell => exact congrArg some cell.drawnOn_blank

/-- What has been written is read again, as far as it fits. -/
theorem inner_write {lines : List (List Cell)} {line : List Cell} {row column count : Nat}
    (held : lines[row]? = some line) (left : column + count ≤ area.width - 2)
    (above : row < area.height - 2) (long : column + count ≤ line.length) :
    ((grid.box area title edge).write area.inside lines).inner area row column count =
      (line.drop column).take count := by
  induction count generalizing column with
  | zero => rfl
  | succ count ih =>
    have inside : column < line.length := by omega
    have fits : column < area.width - 2 := by omega
    have first := vacant.cell?_write title edge lines fits above
    rw [held, Option.bind_some, List.getElem?_eq_getElem inside, Option.getD_some] at first
    have rest := @ih (column + 1) (by omega) (by omega)
    rw [inner_succ first, rest, List.drop_eq_getElem_cons inside, List.take_succ_cons]

theorem inner_of_drop {lines : List (List Cell)} {line part rest : List Cell} {row column : Nat}
    (held : lines[row]? = some line) (begins : line.drop column = part ++ rest) (nonempty : part ≠ [])
    (left : column + part.length ≤ area.width - 2) (above : row < area.height - 2) :
    ((grid.box area title edge).write area.inside lines).inner area row column part.length =
      part := by
  have positive : 0 < part.length := List.length_pos_iff.mpr nonempty
  have long := congrArg List.length begins
  rw [List.length_drop, List.length_append] at long
  rw [vacant.inner_write title edge held left above (by omega), begins, List.take_left]

end Vacant
end Grid
end ByteTape
