import ByteTape.Output.Column
import ByteTape.Proofs.Output.Wrapping
import Mathlib.Data.Nat.ModEq

/-! The column of the next byte, told from all bytes so far, beside the length of the last line on
the screen. Both count from the last line feed; a carriage return takes only the column back, so
they part as soon as it passes over something that is no whole number of lines. -/

namespace ByteTape

def Column.after (width : Option Nat) (count : Nat) : Nat := width.elim count (count % ·)

def Column.counted (bytes : List UInt8) : List UInt8 :=
  bytes.rtakeWhile fun byte => byte ≠ 10 ∧ byte ≠ 13

private theorem Column.counted_of_lineEnd (bytes : List UInt8) {byte : UInt8}
    (ends : byte = 10 ∨ byte = 13) : counted (bytes ++ [byte]) = [] := by
  apply List.rtakeWhile_concat_neg
  simpa [imp_iff_not_or] using ends

private theorem Column.counted_of_other (bytes : List UInt8) {byte : UInt8}
    (other : ¬ (byte = 10 ∨ byte = 13)) : counted (bytes ++ [byte]) = counted bytes ++ [byte] := by
  apply List.rtakeWhile_concat_pos
  simpa using other

theorem Column.width_foldl_advance (column : Column) (bytes : List UInt8) :
    (bytes.foldl advance column).width = column.width := by
  induction bytes generalizing column with
  | nil => rfl
  | cons byte rest ih => exact (ih _).trans (width_advance ..)

private theorem Column.position_advance {column : Column} {width : Option Nat} {byte : UInt8}
    {count : Nat}
    (kept : column.width = width) (wide : width ≠ some 0) (other : ¬ (byte = 10 ∨ byte = 13))
    (now : column.position = after width count) :
    (column.advance byte).position = after width (count + 1) := by
  rw [advance, if_neg other]
  change (if column.width.any (· ≤ column.position + 1) then 0 else column.position + 1) = _
  rw [kept]
  cases width with
  | none => exact congrArg Nat.succ now
  | some width =>
    have place : column.position = count % width := now
    have bound := Nat.mod_lt count (OutputLines.pos_of_ne_some_zero wide)
    have further : (column.position + 1) % width = after (some width) (count + 1) := by
      rw [place, Nat.mod_add_mod]
      rfl
    simp only [Option.any_some, decide_eq_true_eq]
    rw [← further]
    split
    next full =>
      have whole : column.position + 1 = width := by omega
      rw [whole, Nat.mod_self]
    next room => exact (Nat.mod_eq_of_lt (Nat.not_le.mp room)).symm

theorem Column.position_foldl_advance {width : Option Nat} (wide : width ≠ some 0)
    (bytes : List UInt8) :
    (bytes.foldl advance (start width)).position = after width (counted bytes).length := by
  induction bytes using List.reverseRecOn with
  | nil => cases width <;> simp [start, after, counted]
  | append_singleton bytes byte ih =>
    have kept : (bytes.foldl advance (start width)).width = width := width_foldl_advance ..
    rw [List.foldl_append, List.foldl_cons, List.foldl_nil]
    by_cases ends : byte = 10 ∨ byte = 13
    · rw [advance, if_pos ends, counted_of_lineEnd bytes ends]
      cases width <;> simp [after]
    · rw [position_advance kept wide ends ih, counted_of_other bytes ends, List.length_append,
        List.length_singleton]

private theorem Column.advance_of_lineEnd (column : Column) {byte : UInt8}
    (ends : byte = 10 ∨ byte = 13) :
    column.advance byte = start column.width := by
  rw [advance, if_pos ends]
  rfl

theorem Column.position_foldl_advance_zero (bytes : List UInt8) :
    (bytes.foldl advance (start (some 0))).position = 0 := by
  obtain rfl | ⟨front, byte, rfl⟩ := List.eq_nil_or_concat bytes
  · rfl
  · have narrow : (front.foldl advance (start (some 0))).width = some 0 := width_foldl_advance ..
    rw [List.concat_eq_append, List.foldl_append, List.foldl_cons, List.foldl_nil, advance]
    split
    · rfl
    · simp [narrow]

theorem Column.foldl_advance_eq_of_lineEnd {column other : Column}
    (same : column.width = other.width) {bytes : List UInt8} (ends : 10 ∈ bytes ∨ 13 ∈ bytes) :
    bytes.foldl advance column = bytes.foldl advance other := by
  obtain ⟨byte, member, lineEnd⟩ : ∃ byte ∈ bytes, byte = 10 ∨ byte = 13 := by
    simpa [and_or_left, exists_or] using ends
  obtain ⟨front, behind, rfl⟩ := List.append_of_mem member
  have met (column : Column) : (front ++ byte :: behind).foldl advance column =
      behind.foldl advance (start column.width) := by
    rw [List.foldl_append, List.foldl_cons, advance_of_lineEnd _ lineEnd, width_foldl_advance]
  rw [met, met, same]

/-- The column is the number of bytes behind the last line end, counted around the width, so it is
always below the width. It never leaves the start if that is zero. Nothing before a line end has an
effect on it. -/
theorem Column.position_is_count_around_width (bytes : List UInt8) :
    let column := fun width bytes => (bytes.foldl advance (start width)).position
    let count := (counted bytes).length
    column none bytes = count ∧
    (∀ width, 1 ≤ width →
      column (some width) bytes = count % width ∧ column (some width) bytes < width) ∧
    column (some 0) bytes = 0 ∧
    ∀ front behind, bytes = front ++ behind → 10 ∈ behind ∨ 13 ∈ behind →
      ∀ width other, column width bytes = column width (other ++ behind) := by
  intro column count
  refine ⟨position_foldl_advance (by simp) bytes, ?_, position_foldl_advance_zero bytes, ?_⟩
  · intro width positive
    have wide : some width ≠ some 0 := by
      simpa using Nat.ne_of_gt positive
    have place : column (some width) bytes = count % width := position_foldl_advance wide bytes
    exact ⟨place, place ▸ Nat.mod_lt count positive⟩
  · rintro front behind rfl ends width other
    have same : (front.foldl advance (start width)).width =
        (other.foldl advance (start width)).width := by
      rw [width_foldl_advance, width_foldl_advance]
    simp only [column, List.foldl_append, foldl_advance_eq_of_lineEnd same ends]

example :
    let column := fun width => (([97, 98, 10, 99, 100, 101] : List UInt8).foldl Column.advance
      (.start width)).position
    column none = 3 ∧ column (some 2) = 1 ∧ column (some 1) = 0 := by
  decide

namespace OutputLines

def lastLength (output : OutputLines) : Nat := (output.lines.back?.map String.length).getD 0

/-- The number of bytes on the last line that a carriage return has gone back over. -/
def passedOver (bytes : List UInt8) : Nat :=
  ((lastLine bytes).rdropWhile (· ≠ 13)).countP (· ≠ 13)

private theorem lastLength_of_shown {output : OutputLines} {front : List (List Char)}
    {last : List Char}
    (now : shown output = front ++ [last]) : lastLength output = last.length := by
  obtain ⟨rest, -, rfl⟩ | ⟨earlier, line, rest, -, rfl⟩ := cases_of_shown now
  · rw [lastLength, rest]
    rfl
  · simp [lastLength, rest, String.length_toList]

private theorem exists_cut_eq (width : Nat) (line : List Char) : ∃ front last,
    cut width line = front ++ [last] ∧ last.length % width = line.length % width := by
  fun_induction cut width line with
  | case1 line long ih =>
    obtain ⟨front, last, whole, same⟩ := ih
    refine ⟨line.take width :: front, last, by rw [whole]; rfl, ?_⟩
    rw [same, List.length_drop, ← Nat.mod_eq_sub_mod (Nat.le_of_lt long.2)]
  | case2 line => exact ⟨[], line, rfl, rfl⟩

private theorem exists_wrapped_eq (width : Option Nat) (line : List Char) : ∃ front last,
    wrapped width line = front ++ [last] ∧
      Column.after width last.length = Column.after width line.length := by
  cases width with
  | none => exact ⟨[], line, rfl, rfl⟩
  | some width => exact exists_cut_eq width line

/-- What is shown of the last line is what a carriage return has gone back over and what came
behind it. -/
private theorem length_lastLine (bytes : List UInt8) :
    ((lastLine bytes).filter (· ≠ 13)).length =
      passedOver bytes + (Column.counted bytes).length := by
  have behind : Column.counted bytes = (lastLine bytes).rtakeWhile (· ≠ 13) := by
    simp only [Column.counted, lastLine, List.rtakeWhile, List.reverse_reverse,
      List.takeWhile_takeWhile]
    simp [and_comm]
  have all : ((lastLine bytes).rtakeWhile (· ≠ 13)).countP (· ≠ 13) =
      ((lastLine bytes).rtakeWhile (· ≠ 13)).length := by
    rw [List.countP_eq_length]
    intro byte member
    exact List.mem_rtakeWhile_imp (p := fun byte : UInt8 => byte ≠ 13) member
  rw [behind, passedOver, ← all, ← List.countP_append, List.rdropWhile_append_rtakeWhile,
    List.countP_eq_length_filter]

/-- The last line on the screen goes on where the column was before any carriage return. -/
private theorem after_lastLength {width : Option Nat} (wide : width ≠ some 0) (bytes : List UInt8) :
    Column.after width (lastLength (bytes.foldl push (start width))) =
      Column.after width (passedOver bytes + (Column.counted bytes).length) := by
  obtain ⟨front, grows⟩ := rendering_append width bytes
  have now := (shown_foldl_push wide bytes).2
  obtain ⟨pieces, last, whole, same⟩ :=
    exists_wrapped_eq width (((lastLine bytes).filter (· ≠ 13)).map glyph)
  rw [← List.append_nil bytes, grows [] (by simp), List.append_nil, List.append_nil, whole,
    ← List.append_assoc] at now
  rw [lastLength_of_shown now, same, List.length_map, length_lastLine]

private theorem lastLength_mod_eq_iff {width : Nat} (positive : 1 ≤ width) (bytes : List UInt8) :
    lastLength (bytes.foldl push (start (some width))) % width =
        (bytes.foldl Column.advance (.start (some width))).position ↔
      width ∣ passedOver bytes := by
  have wide : some width ≠ some 0 := by
    simpa using Nat.ne_of_gt positive
  have lines : lastLength (bytes.foldl push (start (some width))) % width =
      (passedOver bytes + (Column.counted bytes).length) % width := after_lastLength wide bytes
  have tracked : (bytes.foldl Column.advance (.start (some width))).position =
      (Column.counted bytes).length % width := Column.position_foldl_advance wide bytes
  rw [lines, tracked, eq_comm]
  refine (Nat.modEq_iff_dvd' (Nat.le_add_left ..)).trans ?_
  rw [Nat.add_sub_cancel]

theorem lastLength_eq_iff (bytes : List UInt8) :
    lastLength (bytes.foldl push (start none)) =
        (bytes.foldl Column.advance (.start none)).position ↔
      passedOver bytes = 0 := by
  have wide : (none : Option Nat) ≠ some 0 := by simp
  have lines : lastLength (bytes.foldl push (start none)) =
      passedOver bytes + (Column.counted bytes).length := after_lastLength wide bytes
  have tracked : (bytes.foldl Column.advance (.start none)).position =
      (Column.counted bytes).length := Column.position_foldl_advance wide bytes
  omega

private theorem passedOver_of_no_return {bytes : List UInt8} (straight : 13 ∉ bytes) :
    passedOver bytes = 0 := by
  have line : ∀ byte ∈ lastLine bytes, decide (byte ≠ 13) = true := by
    intro byte member
    have inside : byte ∈ bytes := (List.rtakeWhile_suffix _ bytes).subset member
    simpa using ne_of_mem_of_not_mem inside straight
  rw [passedOver, List.rdropWhile_eq_nil_iff.mpr line, List.countP_nil]

/-- The screen and the column tracker agree on how far the last line has come exactly if what
carriage returns have gone back over on it is a whole number of lines, and without a width if it
is nothing. So they always agree on an output without carriage returns. -/
theorem column_follows_unless_passed_over (bytes : List UInt8) :
    let length (width : Option Nat) (bytes : List UInt8) :=
      lastLength (bytes.foldl push (start width))
    let column (width : Option Nat) (bytes : List UInt8) :=
      (bytes.foldl Column.advance (.start width)).position
    (∀ width, 1 ≤ width →
      (length (some width) bytes % width = column (some width) bytes ↔
        width ∣ passedOver bytes)) ∧
    (length none bytes = column none bytes ↔ passedOver bytes = 0) ∧
    (13 ∉ bytes → ∀ front, front <+: bytes →
      (∀ width, 1 ≤ width → length (some width) front % width = column (some width) front) ∧
      length none front = column none front) := by
  intro length column
  refine ⟨?_, lastLength_eq_iff bytes, ?_⟩
  · intro width positive
    exact lastLength_mod_eq_iff positive bytes
  · intro straight front earlier
    have nothing : passedOver front = 0 :=
      passedOver_of_no_return fun member => straight (earlier.subset member)
    refine ⟨?_, (lastLength_eq_iff front).mpr nothing⟩
    intro width positive
    apply (lastLength_mod_eq_iff positive front).mpr
    rw [nothing]
    exact Nat.dvd_zero width

example :
    let bytes := [97, 98, 13, 99, 13, 100]
    passedOver bytes = 3 ∧ lastLength (bytes.foldl push (start (some 2))) = 2 ∧
      (bytes.foldl Column.advance (.start (some 2))).position = 1 := by
  decide

end OutputLines
end ByteTape
