import ByteTape.Display.Scene
import ByteTape.Proofs.Display.OutputPanes
import ByteTape.Proofs.Display.ProgramPanes
import ByteTape.Proofs.Display.TapePanes

/-! The panes of a scene do not get in each other's way. Each finds its part of a blank screen as it
was, and what it shows there is in the finished frame. -/

namespace ByteTape

variable {width height : Nat}

namespace Area

def Within (part area : Area) : Prop := ∀ x y, part.Contains x y → area.Contains x y

def Apart (first second : Area) : Prop := ∀ x y, first.Contains x y → ¬ second.Contains x y

theorem Within.trans {first second third : Area} (before : first.Within second)
    (after : second.Within third) : first.Within third :=
  fun x y contains => after x y (before x y contains)

theorem clip_within (area : Area) (width height : Nat) : (area.clip width height).Within area := by
  intro x y
  simp only [Contains, clip]
  omega

variable (area : Area)

theorem inside_within : area.inside.Within area := by
  intro x y
  simp only [Contains, inside]
  omega

theorem indent_within (columns : Nat) : (area.indent columns).Within area := by
  intro x y
  simp only [Contains, indent]
  omega

private theorem narrowed_within {columns : Nat} (narrow : columns ≤ area.width) :
    { area with width := columns }.Within area := by
  intro x y
  simp only [Contains]
  omega

private theorem lowered_within {rows : Nat} (low : rows ≤ area.height) :
    { area with height := rows }.Within area := by
  intro x y
  simp only [Contains]
  omega

variable {area}

private theorem apart_of_above {below : Area} (above : area.top + area.height ≤ below.top) :
    area.Apart below := by
  intro x y
  simp only [Contains]
  omega

theorem Apart.symm {other : Area} (apart : area.Apart other) : other.Apart area :=
  fun x y contains held => apart x y held contains

end Area

namespace Grid

/-- What has changed from one grid to the other lies in the area. -/
structure DrawnIn (before after : Grid width height) (area : Area) : Prop where
  outside : ∀ x y, ¬ area.Contains x y → after.cell? x y = before.cell? x y

theorem DrawnIn.refl (grid : Grid width height) (area : Area) : grid.DrawnIn grid area :=
  ⟨fun _ _ _ => rfl⟩

namespace DrawnIn

variable {before after : Grid width height} {area part : Area} (drawn : before.DrawnIn after area)
  (within : part.Within area)
include drawn within

theorem paint (painter : Painter) : before.DrawnIn (after.paint part painter) area := by
  refine ⟨?_⟩
  intro x y outside
  rw [cell?_paint, if_neg fun contains => outside (within x y contains)]
  exact drawn.outside x y outside

theorem tint (style : Style) : before.DrawnIn (after.tint part style) area := by
  rw [Grid.tint]
  exact drawn.paint within _

theorem box (title : List Char) (edge : Style) : before.DrawnIn (after.box part title edge) area := by
  rw [Grid.box]
  exact drawn.paint within _

theorem write (lines : List (List Cell)) : before.DrawnIn (after.write part lines) area := by
  rw [Grid.write]
  exact drawn.paint within _

theorem note (title text : List Char) (edge tone : Style) :
    before.DrawnIn (after.note part title text edge tone) area := by
  have inside := part.inside_within.trans within
  rw [Grid.note]
  exact (((drawn.tint within _).box within _ _).tint inside _).write inside _

end DrawnIn

section
variable {before after : Grid width height} {area other : Area} (drawn : before.DrawnIn after other)
  (apart : area.Apart other)
include drawn apart

theorem DrawnIn.same {x y : Nat} (contains : area.Contains x y) :
    after.cell? x y = before.cell? x y :=
  drawn.outside x y (apart x y contains)

theorem DrawnIn.vacant (vacant : before.Vacant area) : after.Vacant area := by
  refine ⟨vacant.right, vacant.bottom, ?_⟩
  intro x y contains
  rw [drawn.same apart contains]
  exact vacant.blank x y contains

end

end Grid

section
variable (grid : Grid width height) (area : Area)
open Grid

theorem TapePane.drawnIn_paint (cells : Array UInt8) (pointer : Nat) :
    grid.DrawnIn (paint cells pointer area grid) area := by
  have shown := area.clip_within width height
  have inside := (area.clip width height).inside_within.trans shown
  rw [paint]
  exact ((DrawnIn.refl grid area).box shown _ _).write inside _

theorem ProgramPane.drawnIn_paint (program : Program) (pc : Option Nat) :
    grid.DrawnIn (paint program pc area grid) area := by
  have shown := area.clip_within width height
  have inside := (area.clip width height).inside_within.trans shown
  rw [paint]
  split
  · exact (DrawnIn.refl grid area).note shown ..
  · exact ((DrawnIn.refl grid area).box shown _ _).paint inside _

theorem OutputPane.drawnIn_paint (output : OutputLines) :
    grid.DrawnIn (paint output area grid) area := by
  have shown := area.clip_within width height
  have room := ((area.clip width height).inside.indent_within 1).trans
    ((area.clip width height).inside_within.trans shown)
  rw [paint]
  split
  · exact (DrawnIn.refl grid area).note shown ..
  · have boxed := (DrawnIn.refl grid area).box shown title (.ink Theme.border)
    exact (boxed.tint ((Area.lowered_within _ (Nat.min_le_left ..)).trans room) _).write room _

theorem StatusBar.drawnIn_paint (status : StatusBar) :
    grid.DrawnIn (status.paint area grid) area := by
  have narrow : leftWidth area.width ≤ area.width := by
    rw [leftWidth]
    omega
  have left := (Area.clip_within _ width height).trans (area.narrowed_within narrow)
  have right :=
    (Area.clip_within _ width height).trans (area.indent_within (leftWidth area.width))
  rw [paint, writeRight]
  exact ((((DrawnIn.refl grid area).tint left _).write left _).tint right _).write
    ((Area.indent_within _ _).trans right) _

end

/-- The panes lie below each other from the top of the screen to the bottom, each as wide as it is. -/
theorem Layout.ofSize_eq (width height : Nat) : ∃ program output status,
    program ≤ output ∧ output ≤ status ∧ status ≤ height ∧
      ofSize width height = ⟨⟨0, 0, width, program⟩, ⟨0, program, width, output - program⟩,
        ⟨0, output, width, status - output⟩, ⟨0, status, width, height - status⟩⟩ := by
  let bar := if height < 7 then 0 else 1
  have high : bar ≤ height ∧ bar ≤ 1 := by
    simp only [bar]
    split <;> omega
  refine ⟨min 4 (height - 3 - bar), max (min 7 (height - bar)) ((65 * height - 50) / 100),
    height - bar, ?_, ?_, Nat.sub_le .., ?_⟩
  · omega
  · omega
  · have rest : bar = height - (height - bar) := by omega
    rw [← rest]
    rfl

theorem Layout.ofSize_apart (width height : Nat) :
    let layout := ofSize width height
    (layout.tape.Apart layout.program ∧ layout.tape.Apart layout.output ∧
      layout.tape.Apart layout.status) ∧
    (layout.program.Apart layout.output ∧ layout.program.Apart layout.status) ∧
    layout.output.Apart layout.status := by
  obtain ⟨program, output, status, aboveOutput, aboveStatus, -, shape⟩ := ofSize_eq width height
  simp only [shape]
  refine ⟨⟨?_, ?_, ?_⟩, ⟨?_, ?_⟩, ?_⟩ <;> apply Area.apart_of_above <;> dsimp only <;> omega

theorem Layout.ofSize_vacant (width height : Nat) :
    let layout := ofSize width height
    let blank := Grid.blank width height
    blank.Vacant layout.tape ∧ blank.Vacant layout.program ∧ blank.Vacant layout.output ∧
      blank.Vacant layout.status := by
  obtain ⟨program, output, status, aboveOutput, aboveStatus, onScreen, shape⟩ :=
    ofSize_eq width height
  simp only [shape]
  refine ⟨?_, ?_, ?_, ?_⟩ <;> apply Grid.vacant_blank <;> dsimp only <;> omega

/-- Each pane is drawn where the screen is still blank, and no other pane draws there after it. -/
theorem Scene.panes_are_apart (scene : Scene) :
    let layout := Layout.ofSize width height
    let blank := Grid.blank width height
    let tape := TapePane.paint scene.cells scene.pointer layout.tape blank
    let program := ProgramPane.paint scene.program scene.pc layout.program tape
    let output := OutputPane.paint scene.output layout.output program
    let frame := scene.paint blank
    (blank.Vacant layout.tape ∧
      ∀ x y, layout.tape.Contains x y → frame.cell? x y = tape.cell? x y) ∧
    (tape.Vacant layout.program ∧
      ∀ x y, layout.program.Contains x y → frame.cell? x y = program.cell? x y) ∧
    (program.Vacant layout.output ∧
      ∀ x y, layout.output.Contains x y → frame.cell? x y = output.cell? x y) ∧
    output.Vacant layout.status := by
  intro layout blank tape program output frame
  have tapeDrawn : blank.DrawnIn tape layout.tape := TapePane.drawnIn_paint ..
  have programDrawn : tape.DrawnIn program layout.program := ProgramPane.drawnIn_paint ..
  have outputDrawn : program.DrawnIn output layout.output := OutputPane.drawnIn_paint ..
  have statusDrawn : output.DrawnIn frame layout.status := StatusBar.drawnIn_paint ..
  obtain ⟨⟨tapeProgram, tapeOutput, tapeStatus⟩, ⟨programOutput, programStatus⟩, outputStatus⟩ :=
    Layout.ofSize_apart width height
  obtain ⟨atTape, atProgram, atOutput, atStatus⟩ := Layout.ofSize_vacant width height
  refine ⟨⟨atTape, ?_⟩, ⟨?_, ?_⟩, ⟨?_, ?_⟩, ?_⟩
  · intro x y contains
    rw [statusDrawn.same tapeStatus contains, outputDrawn.same tapeOutput contains,
      programDrawn.same tapeProgram contains]
  · exact tapeDrawn.vacant tapeProgram.symm atProgram
  · intro x y contains
    rw [statusDrawn.same programStatus contains, outputDrawn.same programOutput contains]
  · exact programDrawn.vacant programOutput.symm (tapeDrawn.vacant tapeOutput.symm atOutput)
  · intro x y contains
    rw [statusDrawn.same outputStatus contains]
  · have afterTape := tapeDrawn.vacant tapeStatus.symm atStatus
    have afterProgram := programDrawn.vacant programStatus.symm afterTape
    exact outputDrawn.vacant outputStatus.symm afterProgram

private theorem Layout.height_ofSize (width : Nat) {height : Nat} (high : 11 ≤ height) :
    let layout := ofSize width height
    layout.tape.height = 4 ∧ 3 ≤ layout.program.height ∧ 3 ≤ layout.output.height := by
  have bar : ¬ height < 7 := by omega
  simp only [ofSize, bar, if_false]
  omega

/-- A screen with room for all panes shows at one glance how far the run has come: the value under the
pointer in the pointer's style, the next instruction as the only one that is highlighted, as long as
there is one, and the last line of the output. -/
theorem Scene.run_is_in_view (scene : Scene) (wide : 9 ≤ width) (high : 11 ≤ height)
    (within : scene.pointer < scene.cells.size) :
    let layout := Layout.ofSize width height
    let frame := scene.paint (Grid.blank width height)
    (∃ value column, scene.cells[scene.pointer]? = some value ∧
      frame.inner layout.tape 0 column 3 =
        span (TapePane.valueStyle true) (threeDigits value.toNat)) ∧
    (∀ pc < scene.program.size, scene.pc = some pc → ∃ instruction column row,
      scene.program.get? pc = some instruction ∧
      frame.cell? column row = some ⟨instruction.toChar, ProgramPane.highlight⟩ ∧
      ∀ x y, layout.program.Contains x y →
        (ProgramPane.IsHighlighted frame x y ↔ x = column ∧ y = row)) ∧
    (scene.program.size ≠ 0 → scene.pc = none →
      ∀ x y, layout.program.Contains x y → ¬ ProgramPane.IsHighlighted frame x y) ∧
    (scene.output.isBlank = false → ∃ last row, scene.output.lines.back? = some last ∧
      frame.inner layout.output row 0 (width - 2) = OutputPane.rowOf width last.toList) := by
  intro layout frame
  obtain ⟨⟨atTape, onTape⟩, ⟨atProgram, onProgram⟩, ⟨atOutput, onOutput⟩, -⟩ :=
    @Scene.panes_are_apart width height scene
  obtain ⟨tapeHigh, programHigh, outputHigh⟩ := Layout.height_ofSize width high
  have columns : 3 ≤ width := Nat.le_trans (by decide) wide
  refine ⟨?_, ?_, ?_, ?_⟩
  · obtain ⟨value, column, held, left, shown⟩ :=
      TapePane.exists_pointer_value atTape rfl wide (by omega) within
    refine ⟨value, column, held, ?_⟩
    rw [Grid.inner_congr onTape (by omega) left]
    exact shown
  · intro pc inside next
    have written : scene.program.size ≠ 0 := Nat.ne_zero_of_lt inside
    rw [next] at onProgram
    obtain ⟨instruction, held, shown⟩ :=
      ProgramPane.cell?_next atProgram written inside columns programHigh
    have contains := Area.inside_within layout.program _ _
      (ProgramPane.contains_next inside columns programHigh)
    refine ⟨instruction, _, _, held, (onProgram _ _ contains).trans shown, ?_⟩
    intro x y contains
    rw [ProgramPane.IsHighlighted, onProgram x y contains]
    exact ProgramPane.isHighlighted_iff atProgram written inside columns programHigh contains
  · intro written done x y contains
    rw [done] at onProgram
    rw [ProgramPane.IsHighlighted, onProgram x y contains]
    exact ProgramPane.not_isHighlighted_none atProgram written contains
  · intro filled
    obtain ⟨last, row, held, drawn, shown⟩ :=
      OutputPane.exists_last_line atOutput columns outputHigh filled
    refine ⟨last, row, held, ?_⟩
    have fits : 0 + (width - 2) ≤ layout.output.width - 2 := Nat.le_of_eq (Nat.zero_add _)
    exact (Grid.inner_congr onOutput (by omega) fits).trans shown

end ByteTape
