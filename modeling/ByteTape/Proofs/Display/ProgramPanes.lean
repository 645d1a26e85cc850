import ByteTape.Display.ProgramPane
import ByteTape.Proofs.Display.Frames

/-! What the program pane shows. The rows that are on screen always have the next instruction among
them, and it is the one cell of the pane that is highlighted. -/

namespace ByteTape.ProgramPane

section
variable {current total visible : Nat}

theorem firstRow_le : firstRow current total visible ≤ current := by
  rw [firstRow]
  split <;> omega

theorem lt_firstRow_add (inside : current < total) (room : 0 < visible) :
    current < firstRow current total visible + visible := by
  rw [firstRow]
  split <;> omega

/-- Rows below the last one are shown only if all rows are. -/
theorem firstRow_add_le : firstRow current total visible + visible ≤ max visible total := by
  rw [firstRow]
  split <;> omega

private theorem firstRow_zero : firstRow 0 total visible = 0 := Nat.le_zero.mp firstRow_le

end

private theorem div_lt_rowCount {size columns index : Nat} (wide : 0 < columns)
    (inside : index < size) :
    index / columns < rowCount size columns := by
  have next : index / columns + 1 = (index + columns) / columns :=
    (Nat.add_div_right index wide).symm
  have most : (index + columns) / columns ≤ (size + columns - 1) / columns :=
    Nat.div_le_div_right (by omega)
  rw [rowCount]
  omega

theorem scroll_le (size pc columns rows : Nat) : scroll size (some pc) columns rows ≤ pc / columns :=
  firstRow_le

theorem lt_scroll_add {size pc columns rows : Nat} (inside : pc < size) (wide : 0 < columns)
    (room : 0 < rows) : pc / columns < scroll size (some pc) columns rows + rows :=
  lt_firstRow_add (div_lt_rowCount wide inside) room

private theorem style_glyph_eq_highlight_iff (instruction : Instruction) (current : Bool) :
    (glyph instruction current).style = highlight ↔ current = true := by
  cases current with
  | true => simp [glyph]
  | false => simp [glyph, highlight, Style.ink, Style.plain]

variable {width height : Nat}

/-- The instruction in that row and column inside a pane that starts with the row `first`. -/
def indexAt (area : Area) (first row column : Nat) : Nat :=
  (first + row) * (area.width - 2) + column

def Shows (frame : Grid width height) (area : Area) (program : Program) (first : Nat) : Prop :=
  ∀ row column, row < area.height - 2 → column < area.width - 2 →
    (frame.cell? (area.left + 1 + column) (area.top + 1 + row)).map Cell.symbol =
      some ((program.get? (indexAt area first row column)).elim ' ' Instruction.toChar)

def IsHighlighted (frame : Grid width height) (x y : Nat) : Prop :=
  (frame.cell? x y).map Cell.style = some highlight

theorem indexAt_eq_iff {area : Area} {first row column pc : Nat} (left : column < area.width - 2)
    (before : first ≤ pc / (area.width - 2)) : indexAt area first row column = pc ↔
      column = pc % (area.width - 2) ∧ row = pc / (area.width - 2) - first := by
  have wide : 0 < area.width - 2 := by omega
  rw [indexAt, Nat.mul_comm]
  constructor
  · rintro rfl
    rw [Nat.mul_add_mod, Nat.mod_eq_of_lt left, Nat.mul_add_div wide, Nat.div_eq_of_lt left]
    omega
  · rintro ⟨rfl, rfl⟩
    rw [Nat.add_sub_of_le before]
    exact Nat.div_add_mod pc _

/-- The row of the next instruction is always one of those on screen. -/
theorem contains_next {area : Area} {size pc : Nat} (inside : pc < size) (wide : 3 ≤ area.width)
    (high : 3 ≤ area.height) :
    area.inside.Contains (area.left + 1 + pc % (area.width - 2))
      (area.top + 1 + (pc / (area.width - 2) -
        scroll size (some pc) (area.width - 2) (area.height - 2))) := by
  have left : pc % (area.width - 2) < area.width - 2 := Nat.mod_lt pc (by omega)
  have behind : pc / (area.width - 2) <
      scroll size (some pc) (area.width - 2) (area.height - 2) + (area.height - 2) :=
    lt_scroll_add inside (by omega) (by omega)
  exact Area.inside_contains left (by omega)

section
variable {grid : Grid width height} {area : Area} {program : Program} (vacant : grid.Vacant area)
  (written : program.size ≠ 0) (pc : Option Nat)
include vacant written

private theorem paint_eq : ∃ painter, paint program pc area grid =
    (grid.box area (title program.size) (.ink Theme.border)).paint area.inside painter ∧
    ∀ row column, row < area.height - 2 → column < area.width - 2 →
      let index :=
        indexAt area (scroll program.size pc (area.width - 2) (area.height - 2)) row column
      painter column row .blank = (program.get? index).elim .blank fun instruction =>
        glyph instruction (pc == some index) := by
  have filled : program.isEmpty = false := by
    simpa [Program.isEmpty, Program.size, ← Array.size_eq_zero_iff] using written
  simp only [paint, filled, Bool.false_eq_true, if_false, vacant.clip]
  refine ⟨_, rfl, ?_⟩
  intro row column above left
  have columns : max (area.width - 2) 1 = area.width - 2 := by omega
  have rows : max (area.height - 2) 1 = area.height - 2 := by omega
  simp only [columns, rows, indexAt]
  cases program.get? _ with
  | none => rfl
  | some instruction => exact Cell.drawnOn_blank _

section
variable {row column : Nat} (above : row < area.height - 2) (left : column < area.width - 2)
include above left

theorem cell?_paint {index : Nat}
    (shown : indexAt area (scroll program.size pc (area.width - 2) (area.height - 2)) row column =
      index) :
    (paint program pc area grid).cell? (area.left + 1 + column) (area.top + 1 + row) =
      some ((program.get? index).elim .blank fun instruction =>
        glyph instruction (pc == some index)) := by
  obtain ⟨painter, painted, draws⟩ := paint_eq vacant written pc
  rw [painted, vacant.cell?_inside _ _ _ left above, draws row column above left, shown]

theorem isHighlighted_inside_iff :
    IsHighlighted (paint program pc area grid) (area.left + 1 + column) (area.top + 1 + row) ↔
      ∃ index < program.size, pc = some index ∧
        indexAt area (scroll program.size pc (area.width - 2) (area.height - 2)) row column =
          index := by
  rw [IsHighlighted, cell?_paint vacant written pc above left rfl, Option.map_some, Option.some_inj]
  generalize indexAt area _ row column = index
  cases held : program.get? index with
  | none =>
    have behind := (program.get?_eq_none_iff index).mp held
    simp [Cell.blank, highlight, Style.plain]
    omega
  | some instruction =>
    have inside : index < program.size := by
      rw [← Nat.not_le, ← program.get?_eq_none_iff, held]
      simp
    rw [Option.elim_some, style_glyph_eq_highlight_iff, beq_iff_eq]
    constructor
    · intro next
      exact ⟨index, inside, next, rfl⟩
    · rintro ⟨_, -, next, rfl⟩
      exact next

end

private theorem not_isHighlighted_edge {x y : Nat} (contains : area.Contains x y)
    (outside : ¬ area.inside.Contains x y) : ¬ IsHighlighted (paint program pc area grid) x y := by
  obtain ⟨painter, painted, -⟩ := paint_eq vacant written pc
  rw [IsHighlighted, painted, vacant.style_edge _ _ _ contains outside]
  simp [highlight, Style.ink, Style.plain]

theorem not_isHighlighted_none {x y : Nat} (contains : area.Contains x y) :
    ¬ IsHighlighted (paint program none area grid) x y := by
  by_cases within : area.inside.Contains x y
  · obtain ⟨row, column, above, left, rfl, rfl⟩ := Area.exists_of_inside within
    rw [isHighlighted_inside_iff vacant written none above left]
    rintro ⟨_, _, ⟨⟩, _⟩
  · exact not_isHighlighted_edge vacant written none contains within

theorem shows_paint : Shows (paint program pc area grid) area program
    (scroll program.size pc (area.width - 2) (area.height - 2)) := by
  intro row column above left
  rw [cell?_paint vacant written pc above left rfl, Option.map_some]
  generalize indexAt area _ row column = index
  cases program.get? index <;> rfl

section
variable {pc : Nat} (inside : pc < program.size) (wide : 3 ≤ area.width) (high : 3 ≤ area.height)
include inside wide high

theorem cell?_next : ∃ instruction, program.get? pc = some instruction ∧
    (paint program (some pc) area grid).cell? (area.left + 1 + pc % (area.width - 2))
      (area.top + 1 + (pc / (area.width - 2) -
        scroll program.size (some pc) (area.width - 2) (area.height - 2))) =
      some ⟨instruction.toChar, highlight⟩ := by
  have left : pc % (area.width - 2) < area.width - 2 := Nat.mod_lt pc (by omega)
  have behind : pc / (area.width - 2) <
      scroll program.size (some pc) (area.width - 2) (area.height - 2) + (area.height - 2) :=
    lt_scroll_add inside (by omega) (by omega)
  have place := (indexAt_eq_iff left (scroll_le program.size pc _ (area.height - 2))).mpr ⟨rfl, rfl⟩
  have held : program.get? pc ≠ none := by
    rw [Ne, program.get?_eq_none_iff]
    omega
  obtain ⟨instruction, held⟩ := Option.ne_none_iff_exists'.mp held
  refine ⟨instruction, held, ?_⟩
  rw [cell?_paint vacant written (some pc) (by omega) left place, held]
  simp [glyph]

/-- No other cell of the pane is highlighted, not even on its edge. -/
theorem isHighlighted_iff {x y : Nat} (contains : area.Contains x y) :
    IsHighlighted (paint program (some pc) area grid) x y ↔
      x = area.left + 1 + pc % (area.width - 2) ∧
        y = area.top + 1 + (pc / (area.width - 2) -
          scroll program.size (some pc) (area.width - 2) (area.height - 2)) := by
  by_cases within : area.inside.Contains x y
  · obtain ⟨row, column, above, left, rfl, rfl⟩ := Area.exists_of_inside within
    rw [isHighlighted_inside_iff vacant written (some pc) above left, Nat.add_left_cancel_iff,
      Nat.add_left_cancel_iff, ← indexAt_eq_iff left (scroll_le ..)]
    constructor
    · rintro ⟨_, -, ⟨⟩, place⟩
      exact place
    · intro place
      exact ⟨pc, inside, rfl, place⟩
  · refine iff_of_false (not_isHighlighted_edge vacant written (some pc) contains within) ?_
    rintro ⟨rfl, rfl⟩
    exact within (contains_next inside wide high)

end

end

/-- The program pane always has the next instruction on screen, and it stands out. The rows shown
follow each other from a first one on, and none of them is wasted; exactly one cell of the pane is
highlighted, and that one shows the next instruction. Without a next instruction the pane shows the
program from its beginning, with no cell highlighted. -/
theorem next_instruction_is_shown_and_stands_out {grid : Grid width height} {area : Area}
    (vacant : grid.Vacant area) (wide : 3 ≤ area.width) (high : 3 ≤ area.height)
    {program : Program} (written : program.size ≠ 0) :
    let columns := area.width - 2
    let rows := area.height - 2
    (∀ pc < program.size, ∃ first,
      let frame := paint program (some pc) area grid
      let column := pc % columns
      let row := pc / columns - first
      Shows frame area program first ∧
      first + rows ≤ max rows (rowCount program.size columns) ∧
      first ≤ pc / columns ∧ pc / columns < first + rows ∧
      (∃ instruction, program.get? pc = some instruction ∧
        frame.cell? (area.left + 1 + column) (area.top + 1 + row) =
          some ⟨instruction.toChar, highlight⟩) ∧
      ∀ x y, area.Contains x y → (IsHighlighted frame x y ↔
        x = area.left + 1 + column ∧ y = area.top + 1 + row)) ∧
    let frame := paint program none area grid
    Shows frame area program 0 ∧ ∀ x y, area.Contains x y → ¬ IsHighlighted frame x y := by
  intro columns rows
  have columns_pos : 0 < columns := by omega
  refine ⟨?_, ?_, ?_⟩
  · intro pc inside
    refine ⟨_, shows_paint vacant written (some pc), firstRow_add_le, scroll_le .., ?_, ?_, ?_⟩
    · exact lt_scroll_add inside columns_pos (by omega)
    · exact cell?_next vacant written inside wide high
    · intro x y contains
      exact isHighlighted_iff vacant written inside wide high contains
  · have start : scroll program.size none columns rows = 0 := by
      rw [scroll, Option.getD_none, Nat.zero_div, firstRow_zero]
    have shows := shows_paint vacant written none
    rwa [start] at shows
  · intro x y contains
    exact not_isHighlighted_none vacant written contains

theorem next_instruction_is_shown_and_stands_out_last_row :
    let program : Program := ⟨Array.replicate 10 ⟨.increment, .start⟩⟩
    let frame := paint program (some 9) ⟨0, 0, 5, 4⟩ (Grid.blank 5 4)
    (Grid.blank 5 4).Vacant ⟨0, 0, 5, 4⟩ ∧ 3 ≤ 5 ∧ 3 ≤ 4 ∧ program.size ≠ 0 ∧
      ∃ first ≤ 3, 3 < first + 2 ∧ ∀ x y, (⟨0, 0, 5, 4⟩ : Area).Contains x y →
        (IsHighlighted frame x y ↔ x = 1 ∧ y = 1 + (3 - first)) := by
  intro program frame
  have vacant : (Grid.blank 5 4).Vacant ⟨0, 0, 5, 4⟩ := Grid.vacant_blank (by decide) (by decide)
  have written : program.size ≠ 0 := by decide
  obtain ⟨shown, -⟩ := next_instruction_is_shown_and_stands_out vacant (by decide) (by decide) written
  obtain ⟨first, -, -, before, behind, -, marked⟩ := shown 9 (by decide)
  refine ⟨vacant, by decide, by decide, written, first, before, behind, ?_⟩
  simpa using marked

end ByteTape.ProgramPane
