import ByteTape.Display.OutputPane
import ByteTape.Proofs.Display.Frames
import ByteTape.Proofs.Output.Wrapping

/-! What the output pane shows. It always has the last line on screen, with the lines right before it
above, as many as there is room for; empty lines take up a row like any other. -/

namespace ByteTape.OutputPane

/-- The cells of a row inside the edges of a pane of that width: a free column, then as much of the line
as fits. -/
def rowOf (width : Nat) (text : List Char) : List Cell :=
  .blank :: span (.ink Theme.text) ((text.take (width - 3)).rightpad (width - 3) ' ')

theorem length_rowOf {width : Nat} (wide : 3 ≤ width) (text : List Char) :
    (rowOf width text).length = width - 2 := by
  have fits : (text.take (width - 3)).length ≤ width - 3 := List.length_take_le ..
  simp only [rowOf, span, List.length_cons, List.length_map, List.length_rightpad]
  omega

private theorem getElem?_rowOf_succ {width column : Nat} (left : column < width - 3)
    (text : List Char) :
    (rowOf width text)[column + 1]? = some ⟨text[column]?.getD ' ', .ink Theme.text⟩ := by
  have kept : (text.take (width - 3))[column]? = text[column]? := List.getElem?_take_of_lt left
  rw [rowOf, List.getElem?_cons_succ, span, List.getElem?_map, List.rightpad]
  by_cases inside : column < (text.take (width - 3)).length
  · rw [List.getElem?_append_left inside, ← kept, List.getElem?_eq_getElem inside]
    rfl
  · have behind : text[column]? = none := by
      rw [← kept]
      exact List.getElem?_eq_none (Nat.not_lt.mp inside)
    rw [List.getElem?_append_right (Nat.not_lt.mp inside), behind,
      List.getElem?_replicate_of_lt (by omega)]
    rfl

/-- The lines that fit are the last ones, in their order. -/
theorem getElem?_visible {lines : Array String} {rows : Nat} (room : 1 ≤ rows) (row : Nat) :
    (visible lines rows)[row]? = lines[lines.size - min lines.size rows + row]? := by
  have begins : lines.size - max rows 1 = lines.size - min lines.size rows := by omega
  rw [visible, begins, List.getElem?_drop, Array.getElem?_toList]

theorem length_visible {lines : Array String} {rows : Nat} (room : 1 ≤ rows) :
    (visible lines rows).length = min lines.size rows := by
  rw [visible, List.length_drop, Array.length_toList]
  omega

def textArea (area : Area) (rows : Nat) : Area :=
  ⟨area.left + 2, area.top + 1, area.width - 3, rows⟩

private theorem textArea_contains_iff {area : Area} {rows row column : Nat}
    (left : column < area.width - 2) :
    (textArea area rows).Contains (area.left + 1 + column) (area.top + 1 + row) ↔
      column ≠ 0 ∧ row < rows := by
  simp only [Area.Contains, textArea]
  omega

variable {width height : Nat}

section
variable {grid : Grid width height} {area : Area} (vacant : grid.Vacant area)
  {output : OutputLines} (filled : output.isBlank = false)
  {lines : List String} (shows : visible output.lines (area.height - 2) = lines)
include vacant filled shows

private theorem paint_eq : paint output area grid =
    ((grid.box area title (.ink Theme.border)).tint
      (textArea area (min (area.height - 2) lines.length)) (.ink Theme.text)).write
        (textArea area (area.height - 2))
        (lines.map fun line => span .plain (line.toList.take (area.width - 3))) := by
  simp only [paint, filled, Bool.false_eq_true, if_false, vacant.clip, shows]
  rfl

section
variable {row column : Nat} (above : row < area.height - 2)
include above

/-- Before the lines, and in the rows below the last one, the inside stays blank. -/
private theorem cell?_of_empty (left : column < area.width - 2)
    (empty : column = 0 ∨ lines.length ≤ row) :
    (paint output area grid).cell? (area.left + 1 + column) (area.top + 1 + row) = some .blank := by
  have boxed := vacant.cell?_box title (.ink Theme.border) (Area.inside_contains left above)
  have unused : ¬ (textArea area (min (area.height - 2) lines.length)).Contains
      (area.left + 1 + column) (area.top + 1 + row) := by
    rw [textArea_contains_iff left]
    omega
  rw [paint_eq vacant filled shows, Grid.write, Grid.cell?_paint, Grid.tint, Grid.cell?_paint, boxed,
    if_neg unused]
  split
  next contains =>
    obtain ⟨behind, -⟩ := (textArea_contains_iff left).mp contains
    -- Rows below the lines are written to as well, but there is nothing to write.
    have below : lines.length ≤ row := empty.resolve_left behind
    simp [textArea, below]
  next => rfl

private theorem cell?_of_line (left : column + 1 < area.width - 2) {line : String}
    (held : lines[row]? = some line) :
    (paint output area grid).cell? (area.left + 1 + (column + 1)) (area.top + 1 + row) =
      some ⟨line.toList[column]?.getD ' ', .ink Theme.text⟩ := by
  obtain ⟨within, -⟩ := List.getElem?_eq_some_iff.mp held
  have boxed := vacant.cell?_box title (.ink Theme.border) (Area.inside_contains left above)
  have written : (textArea area (area.height - 2)).Contains
      (area.left + 1 + (column + 1)) (area.top + 1 + row) :=
    (textArea_contains_iff left).mpr ⟨Nat.succ_ne_zero column, above⟩
  have tinted : (textArea area (min (area.height - 2) lines.length)).Contains
      (area.left + 1 + (column + 1)) (area.top + 1 + row) :=
    (textArea_contains_iff left).mpr ⟨Nat.succ_ne_zero column, Nat.lt_min.mpr ⟨above, within⟩⟩
  have kept : (line.toList.take (area.width - 3))[column]? = line.toList[column]? :=
    List.getElem?_take_of_lt (by omega)
  have place : area.left + 1 + (column + 1) - (area.left + 2) = column := by omega
  have level : area.top + 1 + row - (area.top + 1) = row := Nat.add_sub_cancel_left ..
  rw [paint_eq vacant filled shows, Grid.write, Grid.cell?_paint, Grid.tint, Grid.cell?_paint, boxed,
    if_pos written, if_pos tinted]
  simp only [Option.map_some, textArea, place, level, List.getElem?_map, held, Option.bind_some, span,
    kept]
  cases line.toList[column]? with
  | none => simp [Cell.restyle, Cell.blank]
  | some c => simp [Cell.drawnOn, Cell.restyle, Cell.blank]

theorem inner_of_line (wide : 3 ≤ area.width) {line : String} (held : lines[row]? = some line) :
    (paint output area grid).inner area row 0 (area.width - 2) = rowOf area.width line.toList := by
  have length := length_rowOf wide line.toList
  rw [← length]
  apply Grid.inner_eq
  intro i inside
  rw [Nat.zero_add]
  cases i with
  | zero => exact cell?_of_empty vacant filled shows above (by omega) (.inl rfl)
  | succ column =>
    rw [getElem?_rowOf_succ (by omega)]
    exact cell?_of_line vacant filled shows above (by omega) held

theorem inner_below_lines (below : lines.length ≤ row) :
    (paint output area grid).inner area row 0 (area.width - 2) =
      List.replicate (area.width - 2) .blank := by
  have length : (List.replicate (area.width - 2) Cell.blank).length = area.width - 2 :=
    List.length_replicate
  conv_lhs => rw [← length]
  apply Grid.inner_eq
  intro i inside
  rw [length] at inside
  rw [Nat.zero_add, List.getElem?_replicate_of_lt inside]
  exact cell?_of_empty vacant filled shows above inside (.inr below)

end
end

section
variable {grid : Grid width height} {area : Area} (vacant : grid.Vacant area)
  (wide : 3 ≤ area.width) (high : 3 ≤ area.height) {output : OutputLines}
  (filled : output.isBlank = false)
include vacant wide high filled

theorem exists_line {row : Nat} (drawn : row < min output.lines.size (area.height - 2)) :
    ∃ line, output.lines[output.lines.size - min output.lines.size (area.height - 2) + row]? =
        some line ∧
      (paint output area grid).inner area row 0 (area.width - 2) =
        rowOf area.width line.toList := by
  have place : output.lines.size - min output.lines.size (area.height - 2) + row <
      output.lines.size := by omega
  have held := Array.getElem?_eq_getElem place
  refine ⟨_, held, ?_⟩
  apply inner_of_line vacant filled rfl (by omega) wide
  exact (getElem?_visible (by omega) row).trans held

theorem exists_last_line : ∃ last row, output.lines.back? = some last ∧
    row + 1 = min output.lines.size (area.height - 2) ∧
    (paint output area grid).inner area row 0 (area.width - 2) = rowOf area.width last.toList := by
  have begun : output.lines.size ≠ 0 := by
    intro empty
    simp [OutputLines.isBlank, Array.size_eq_zero_iff.mp empty] at filled
  have inside : min output.lines.size (area.height - 2) - 1 <
      min output.lines.size (area.height - 2) := by omega
  obtain ⟨last, held, drawn⟩ := exists_line vacant wide high filled inside
  have place : output.lines.size - min output.lines.size (area.height - 2) +
      (min output.lines.size (area.height - 2) - 1) = output.lines.size - 1 := by omega
  rw [place] at held
  exact ⟨last, _, Array.back?_eq_getElem?.trans held, by omega, drawn⟩

end

/-- The output pane goes with the output. Whatever has been put out, its inside shows the last lines of
it in order, one a row and as many as there are rows, each as far as it fits behind a free column; the
rows that are left over are below them and blank. So the last line is always on screen. -/
theorem last_lines_are_shown {grid : Grid width height} {area : Area} (vacant : grid.Vacant area)
    (wide : 4 ≤ area.width) (high : 3 ≤ area.height) {limit : Option Nat} (positive : limit ≠ some 0)
    {bytes : List UInt8} (seen : ∃ byte ∈ bytes, byte ≠ 10 ∧ byte ≠ 13) :
    let output := bytes.foldl OutputLines.push (.start limit)
    let count := output.lines.size
    let rows := area.height - 2
    let shown := min count rows
    let inside := fun row => (paint output area grid).inner area row 0 (area.width - 2)
    output.lines.toList.map String.toList = OutputLines.rendering limit bytes ∧
    (∀ row < shown, ∃ line, output.lines[count - shown + row]? = some line ∧
      inside row = rowOf area.width line.toList) ∧
    (∀ row, shown ≤ row → row < rows → inside row = List.replicate (area.width - 2) .blank) ∧
    ∃ last row, output.lines.back? = some last ∧ row + 1 = shown ∧
      inside row = rowOf area.width last.toList := by
  intro output count rows shown inside
  have filled : output.isBlank = false := OutputLines.isBlank_eq_false positive seen
  refine ⟨?_, ?_, ?_, exists_last_line vacant (by omega) high filled⟩
  · obtain ⟨byte, member, -, other⟩ := seen
    exact OutputLines.map_toList_lines positive ⟨byte, member, other⟩
  · intro row drawn
    exact exists_line vacant (by omega) high filled drawn
  · intro row below above
    apply inner_below_lines vacant filled rfl above
    rw [length_visible (by omega)]
    exact below

theorem last_lines_are_shown_empty_line :
    let output := ([97, 98, 99, 100, 10] : List UInt8).foldl OutputLines.push (.start (some 3))
    let frame := paint output ⟨2, 1, 7, 4⟩ (Grid.blank 10 6)
    4 ≤ 7 ∧ 3 ≤ 4 ∧ (some 3 : Option Nat) ≠ some 0 ∧ (Grid.blank 10 6).Vacant ⟨2, 1, 7, 4⟩ ∧
      (∃ byte ∈ ([97, 98, 99, 100, 10] : List UInt8), byte ≠ 10 ∧ byte ≠ 13) ∧
      frame.inner ⟨2, 1, 7, 4⟩ 0 0 5 = rowOf 7 ['d'] ∧ frame.inner ⟨2, 1, 7, 4⟩ 1 0 5 = rowOf 7 [] := by
  intro output frame
  have vacant : (Grid.blank 10 6).Vacant ⟨2, 1, 7, 4⟩ := Grid.vacant_blank (by decide) (by decide)
  have seen : ∃ byte ∈ ([97, 98, 99, 100, 10] : List UInt8), byte ≠ 10 ∧ byte ≠ 13 :=
    ⟨97, by decide, by decide⟩
  have positive : (some 3 : Option Nat) ≠ some 0 := by decide
  obtain ⟨-, lines, -⟩ := last_lines_are_shown vacant (by decide) (by decide) positive seen
  obtain ⟨first, held, above⟩ := lines 0 (by decide)
  obtain ⟨second, last, below⟩ := lines 1 (by decide)
  obtain rfl : first = "d" := Option.some_inj.mp (held.symm.trans (by decide))
  obtain rfl : second = "" := Option.some_inj.mp (last.symm.trans (by decide))
  exact ⟨by decide, by decide, positive, vacant, seen, above, below⟩

end ByteTape.OutputPane
