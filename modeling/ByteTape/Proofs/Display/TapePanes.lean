import Mathlib.Algebra.Group.Nat.Defs
import ByteTape.Proofs.Display.Frames
import ByteTape.Proofs.Display.Windows

/-! What the tape pane shows. A value is always written with three digits, so the slots of the upper
row stand side by side, and the cell under the pointer is always one of them. The lower row keeps
step with it as long as an index has no more than five digits. -/

namespace ByteTape

def threeDigits (n : Nat) : List Char :=
  [Nat.digitChar (n / 100), Nat.digitChar (n / 10 % 10), Nat.digitChar (n % 10)]

private theorem decimal_of_lt {n : Nat} (small : n < 10) : decimal n = [Nat.digitChar n] :=
  Nat.toDigits_of_lt_base small

private theorem decimal_of_ge {n : Nat} (large : 10 ≤ n) :
    decimal n = decimal (n / 10) ++ [Nat.digitChar (n % 10)] :=
  Nat.toDigits_of_base_le (by decide) large

theorem length_decimal_le_iff {n digits : Nat} (positive : 0 < digits) :
    (decimal n).length ≤ digits ↔ n < 10 ^ digits :=
  Nat.length_toDigits_le_iff (by decide) positive

private theorem length_decimal_eq_six {n : Nat} (long : 100000 ≤ n) (short : n < 1000000) :
    (decimal n).length = 6 := by
  have most : (decimal n).length ≤ 6 := (length_decimal_le_iff (by decide)).mpr short
  have more : ¬ (decimal n).length ≤ 5 := by
    rw [length_decimal_le_iff (by decide)]
    omega
  omega

theorem leftpad_decimal {n : Nat} (small : n < 1000) :
    (decimal n).leftpad 3 '0' = threeDigits n := by
  by_cases units : n < 10
  · have hundreds : n / 100 = 0 := by omega
    have tens : n / 10 % 10 = 0 := by omega
    rw [decimal_of_lt units, threeDigits, hundreds, tens, Nat.mod_eq_of_lt units]
    rfl
  by_cases tens : n < 100
  · have hundreds : n / 100 = 0 := by omega
    have ten : n / 10 < 10 := by omega
    rw [decimal_of_ge (by omega), decimal_of_lt ten, threeDigits, hundreds, Nat.mod_eq_of_lt ten]
    rfl
  · have hundred : n / 10 / 10 < 10 := by omega
    rw [decimal_of_ge (by omega), decimal_of_ge (by omega), decimal_of_lt hundred, threeDigits,
      Nat.div_div_eq_div_mul]
    rfl

section
variable {α : Type} (f : Nat → List α) (start : Nat) {width : Nat}

private theorem length_flatMap_range' {count : Nat}
    (same : ∀ i < count, (f (start + i)).length = width) :
    ((List.range' start count).flatMap f).length = width * count := by
  induction count with
  | zero => simp
  | succ count ih =>
    rw [List.range'_1_concat, List.flatMap_append, List.length_append,
      ih fun i before => same i (by omega), List.flatMap_singleton, same count (by omega),
      Nat.mul_succ]

private theorem drop_flatMap_range' (tail : List α) {count slot : Nat} (inside : slot < count)
    (same : ∀ i < slot, (f (start + i)).length = width) :
    ∃ rest, ((List.range' start count).flatMap f ++ tail).drop (width * slot) =
      f (start + slot) ++ rest := by
  obtain ⟨behind, rfl⟩ : ∃ behind, count = slot + (behind + 1) := ⟨count - slot - 1, by omega⟩
  refine ⟨(List.range' (start + slot + 1) behind).flatMap f ++ tail, ?_⟩
  rw [← List.range'_append_1, List.range'_succ, List.flatMap_append, List.flatMap_cons,
    List.append_assoc, List.drop_left' (length_flatMap_range' f start same), List.append_assoc]

end

namespace TapePane

private theorem valueStyle_eq_iff (current : Bool) :
    valueStyle current = valueStyle true ↔ current = true := by
  cases current <;> decide

theorem valueSlot_eq {cells : Array UInt8} {pointer index : Nat} {value : UInt8}
    (held : cells[index]? = some value) :
    valueSlot cells pointer index = span separator ['│', ' '] ++
      span (valueStyle (index == pointer)) (threeDigits value.toNat ++ [' ']) := by
  have small : value.toNat < 256 := value.toNat_lt
  rw [valueSlot, held, Option.getD_some, leftpad_decimal (by omega)]

theorem length_valueSlot (cells : Array UInt8) (pointer index : Nat) :
    (valueSlot cells pointer index).length = 6 := by
  have small : (cells[index]?.getD 0).toNat < 256 := UInt8.toNat_lt _
  rw [valueSlot, leftpad_decimal (by omega)]
  rfl

theorem length_indexSlot (pointer index : Nat) :
    (indexSlot pointer index).length = max 5 (decimal index).length + 1 := by
  rw [indexSlot, span, List.length_map, List.length_append, List.length_leftpad]
  rfl

private theorem length_indexSlot_of_lt {pointer index : Nat} (small : index < 100000) :
    (indexSlot pointer index).length = 6 := by
  have digits : (decimal index).length ≤ 5 := (length_decimal_le_iff (by decide)).mpr small
  rw [length_indexSlot, Nat.max_eq_left digits]

private theorem indexSlot_of_six {pointer index : Nat} (digits : (decimal index).length = 6) :
    indexSlot pointer index =
      span (indexStyle (index == pointer)) (decimal index) ++
        [⟨' ', indexStyle (index == pointer)⟩] := by
  rw [indexSlot, List.leftpad, digits, span, List.map_append]
  rfl

private theorem drop_indexRow (pointer : Nat) {view : Window} {slot : Nat}
    (shown : slot < view.size)
    (aligned : ∀ i < slot, view.start + i < 100000) :
    ∃ behind, (indexRow pointer view).drop (6 * slot) =
      indexSlot pointer (view.start + slot) ++ behind := by
  have begins := drop_flatMap_range' (indexSlot pointer) view.start [] shown
    fun i before => length_indexSlot_of_lt (aligned i before)
  rwa [List.append_nil] at begins

/-- The text is the index, with nothing but blanks around it. -/
def Holds (text : List Char) (index : Nat) : Prop :=
  ∃ before behind,
    text = List.replicate before ' ' ++ decimal index ++ List.replicate behind ' '

private theorem Holds.length_le {text : List Char} {index : Nat} (holds : Holds text index) :
    (decimal index).length ≤ text.length := by
  obtain ⟨before, behind, rfl⟩ := holds
  simp only [List.length_append]
  omega

private theorem Holds.eq_decimal {text : List Char} {index : Nat} (holds : Holds text index)
    (tight : text.length ≤ (decimal index).length) : text = decimal index := by
  obtain ⟨before, behind, rfl⟩ := holds
  simp only [List.length_append, List.length_replicate] at tight
  obtain rfl : before = 0 := by omega
  obtain rfl : behind = 0 := by omega
  exact List.append_nil _

/-- An index does not begin with a blank, so that one is a blank too many. -/
private theorem Holds.of_blank {rest : List Char} {index : Nat}
    (holds : Holds (' ' :: rest) index) :
    Holds rest index := by
  obtain ⟨before, behind, same⟩ := holds
  cases before with
  | zero =>
    obtain ⟨first, digits, shape⟩ := List.exists_cons_of_ne_nil (l := decimal index) Nat.toDigits_ne_nil
    have digit : first ∈ decimal index := by simp [shape]
    have isDigit := Nat.isDigit_of_mem_toDigits (by decide) (by decide) digit
    rw [shape] at same
    cases same
    exact absurd isDigit (by decide)
  | succ before => exact ⟨before, behind, List.tail_eq_of_cons_eq same⟩

private theorem lt_of_holds_inner {width height : Nat} {grid : Grid width height} {area : Area}
    {row column index : Nat} (holds : Holds ((grid.inner area row column 6).map Cell.symbol) index) :
    index < 1000000 := by
  have few : ((grid.inner area row column 6).map Cell.symbol).length ≤ 6 := by
    rw [List.length_map]
    exact Grid.length_inner_le ..
  exact (length_decimal_le_iff (by decide)).mp (Nat.le_trans holds.length_le few)

private theorem holds_take_indexSlot {pointer index : Nat} (small : index < 1000000) :
    Holds (((indexSlot pointer index).take 6).map Cell.symbol) index := by
  have six : (decimal index).length ≤ 6 := (length_decimal_le_iff (by decide)).mpr small
  rw [List.map_take, indexSlot, map_symbol_span, List.leftpad]
  by_cases five : (decimal index).length ≤ 5
  · refine ⟨5 - (decimal index).length, 1, List.take_of_length_le ?_⟩
    simp only [List.length_append, List.length_replicate, List.length_singleton]
    omega
  · have full : (decimal index).length = 6 := by omega
    refine ⟨0, 0, ?_⟩
    rw [full, List.replicate_zero, List.append_nil, List.nil_append]
    exact List.take_left' full

/-- The last separator has room behind the slots of the window. -/
theorem size_window {cells width : Nat} (pointer : Nat) (wide : 9 ≤ width) :
    (window cells pointer width).size = min cells ((width - 3) / 6) := by
  have room : 1 ≤ (width - 3) / 6 := Nat.div_pos (by omega) (by decide)
  rw [window, Window.size_around, slotWidth, Nat.max_eq_left room]

section
variable {width height : Nat} {grid : Grid width height} {area : Area} (vacant : grid.Vacant area)
  {cells : Array UInt8} {pointer : Nat} {view : Window}
  (views : window cells.size pointer area.width = view)
include vacant views

private theorem paint_eq : paint cells pointer area grid =
    (grid.box area (title cells.size) (Style.ink Theme.focusedBorder).emphasized).write area.inside
      [valueRow cells pointer view, indexRow pointer view] := by
  rw [paint, vacant.clip, views]

private theorem inner_indexRow (high : 4 ≤ area.height) {column count : Nat}
    (left : column + count ≤ area.width - 2)
    (long : column + count ≤ (indexRow pointer view).length) :
    (paint cells pointer area grid).inner area 1 column count =
      ((indexRow pointer view).drop column).take count := by
  have second : [valueRow cells pointer view, indexRow pointer view][1]? =
      some (indexRow pointer view) := rfl
  rw [paint_eq vacant views]
  exact vacant.inner_write _ _ second left (by omega) long

variable (wide : 9 ≤ area.width)
include wide

private theorem inner_valueSlot (high : 3 ≤ area.height) {slot offset : Nat} {part rest : List Cell}
    (shown : slot < view.size)
    (holds : (valueSlot cells pointer (view.start + slot)).drop offset = part ++ rest)
    (nonempty : part ≠ []) :
    (paint cells pointer area grid).inner area 0 (6 * slot + offset) part.length = part := by
  have room : view.size = min cells.size ((area.width - 3) / 6) := views ▸ size_window pointer wide
  have positive : 0 < part.length := List.length_pos_iff.mpr nonempty
  have short := congrArg List.length holds
  rw [List.length_drop, List.length_append, length_valueSlot] at short
  obtain ⟨behind, begins⟩ : ∃ behind, (valueRow cells pointer view).drop (6 * slot) =
      valueSlot cells pointer (view.start + slot) ++ behind :=
    drop_flatMap_range' _ _ _ shown fun i _ => length_valueSlot cells pointer (view.start + i)
  have found : (valueRow cells pointer view).drop (6 * slot + offset) =
      part ++ (rest ++ behind) := by
    rw [← List.drop_drop, begins, List.drop_append_of_le_length (by rw [length_valueSlot]; omega),
      holds, List.append_assoc]
  rw [paint_eq vacant views]
  exact vacant.inner_of_drop _ _ rfl found nonempty (by omega) (by omega)

theorem inner_value (high : 3 ≤ area.height) {slot : Nat} (shown : slot < view.size) :
    ∃ value, cells[view.start + slot]? = some value ∧
      let row := (paint cells pointer area grid).inner area 0
      let style := valueStyle (view.start + slot == pointer)
      row (6 * slot) 2 = span separator ['│', ' '] ∧
      row (6 * slot + 2) 3 = span style (threeDigits value.toNat) ∧
      row (6 * slot + 5) 1 = span style [' '] := by
  have fits : view.stop ≤ cells.size := views ▸ Window.stop_around_le
  have inside : view.start + slot < cells.size := by
    rw [Window.size] at shown
    omega
  have held : cells[view.start + slot]? = some cells[view.start + slot] := getElem?_pos ..
  refine ⟨_, held, ?_⟩
  intro row style
  have edge : (valueSlot cells pointer (view.start + slot)).drop 0 =
      span separator ['│', ' '] ++ span style (threeDigits cells[view.start + slot].toNat ++ [' ']) :=
    valueSlot_eq held
  have field : (valueSlot cells pointer (view.start + slot)).drop 2 =
      span style (threeDigits cells[view.start + slot].toNat) ++ span style [' '] := by
    rw [valueSlot_eq held]
    rfl
  have gap : (valueSlot cells pointer (view.start + slot)).drop 5 = span style [' '] ++ [] := by
    rw [valueSlot_eq held]
    rfl
  exact ⟨inner_valueSlot vacant views wide high shown edge (List.cons_ne_nil _ _),
    inner_valueSlot vacant views wide high shown field (List.cons_ne_nil _ _),
    inner_valueSlot vacant views wide high shown gap (List.cons_ne_nil _ _)⟩

theorem value_stands_out_iff (high : 3 ≤ area.height) {slot : Nat} (shown : slot < view.size) :
    (∀ cell ∈ (paint cells pointer area grid).inner area 0 (6 * slot + 2) 3,
      cell.style = valueStyle true) ↔ view.start + slot = pointer := by
  obtain ⟨value, -, -, field, -⟩ := inner_value vacant views wide high shown
  rw [field, span, List.forall_mem_map, ← beq_iff_eq (a := view.start + slot), ← valueStyle_eq_iff]
  simp [threeDigits]

theorem exists_pointer_value (high : 3 ≤ area.height) (within : pointer < cells.size) :
    ∃ value column, cells[pointer]? = some value ∧ column + 3 ≤ area.width - 2 ∧
      (paint cells pointer area grid).inner area 0 column 3 =
        span (valueStyle true) (threeDigits value.toNat) := by
  have room : view.size = min cells.size ((area.width - 3) / 6) := views ▸ size_window pointer wide
  have before : view.start ≤ pointer := views ▸ Window.start_around_le within
  have behind : pointer < view.stop := views ▸ Window.lt_stop_around within
  have shown : pointer - view.start < view.size := by
    rw [Window.size]
    omega
  obtain ⟨value, held, -, field, -⟩ := inner_value vacant views wide high shown
  rw [Nat.add_sub_of_le before] at held field
  rw [beq_self_eq_true] at field
  exact ⟨value, _, held, by omega, field⟩

theorem inner_behind_values (high : 3 ≤ area.height) :
    (paint cells pointer area grid).inner area 0 (6 * view.size) 1 = span separator ['│'] ∧
    ∀ column, 6 * view.size < column → column < area.width - 2 →
      (paint cells pointer area grid).inner area 0 column 1 = [.blank] := by
  have room : view.size = min cells.size ((area.width - 3) / 6) := views ▸ size_window pointer wide
  have slots : (view.indices.flatMap (valueSlot cells pointer)).length = 6 * view.size :=
    length_flatMap_range' _ _ fun i _ => length_valueSlot cells pointer (view.start + i)
  rw [paint_eq vacant views]
  constructor
  · have ends : (valueRow cells pointer view).drop (6 * view.size) = span separator ['│'] ++ [] := by
      rw [valueRow, List.drop_left' slots, List.append_nil]
    exact vacant.inner_of_drop _ _ rfl ends (by simp [span]) (by simp [span]; omega) (by omega)
  · intro column behind left
    have past : (valueRow cells pointer view)[column]? = none := by
      rw [List.getElem?_eq_none_iff, valueRow, List.length_append, slots]
      exact behind
    rw [Grid.inner_succ (vacant.cell?_write _ _ _ left (by omega))]
    simp [past, Grid.inner]

section
variable (high : 4 ≤ area.height) {slot : Nat} (aligned : ∀ i < slot, view.start + i < 100000)
include high aligned

private theorem inner_indexSlot (shown : slot < view.size) :
    (paint cells pointer area grid).inner area 1 (6 * slot) 6 =
      (indexSlot pointer (view.start + slot)).take 6 := by
  have room : view.size = min cells.size ((area.width - 3) / 6) := views ▸ size_window pointer wide
  have six : 6 ≤ (indexSlot pointer (view.start + slot)).length := by
    rw [length_indexSlot]
    omega
  obtain ⟨behind, begins⟩ := drop_indexRow pointer shown aligned
  have long := congrArg List.length begins
  rw [List.length_drop, List.length_append] at long
  rw [inner_indexRow vacant views high (by omega) (by omega), begins,
    List.take_append_of_le_length six]

private theorem holds_index (shown : slot < view.size) (small : view.start + slot < 1000000) :
    Holds (((paint cells pointer area grid).inner area 1 (6 * slot) 6).map Cell.symbol)
      (view.start + slot) := by
  rw [inner_indexSlot vacant views wide high aligned shown]
  exact holds_take_indexSlot small

/-- Behind an index of six digits the next slot begins with the blank that belongs to that one, and
has no room left for its own index, which is no shorter. -/
private theorem not_holds_behind_long_index (shown : slot + 1 < view.size)
    (long : 100000 ≤ view.start + slot) (small : view.start + slot < 1000000) :
    ¬ Holds (((paint cells pointer area grid).inner area 1 (6 * (slot + 1)) 6).map Cell.symbol)
      (view.start + (slot + 1)) := by
  have room : view.size = min cells.size ((area.width - 3) / 6) := views ▸ size_window pointer wide
  have digits : (decimal (view.start + slot)).length = 6 := length_decimal_eq_six long small
  obtain ⟨behind, begins⟩ := drop_indexRow pointer (Nat.lt_of_succ_lt shown) aligned
  have blank : (indexRow pointer view)[6 * (slot + 1)]? =
      some ⟨' ', indexStyle (view.start + slot == pointer)⟩ := by
    rw [Nat.mul_succ, ← List.head?_drop, ← List.drop_drop, begins, indexSlot_of_six digits,
      List.append_assoc, List.drop_left' (by rw [span, List.length_map, digits])]
    rfl
  have second : [valueRow cells pointer view, indexRow pointer view][1]? =
      some (indexRow pointer view) := rfl
  have left : 6 * (slot + 1) < area.width - 2 := by omega
  have first := vacant.cell?_write (title cells.size)
    (Style.ink Theme.focusedBorder).emphasized
    [valueRow cells pointer view, indexRow pointer view] left (show 1 < area.height - 2 by omega)
  rw [second, Option.bind_some, blank] at first
  rw [paint_eq vacant views, Grid.inner_succ first 5]
  intro holds
  have few := holds.of_blank.length_le
  rw [List.length_map] at few
  have five := Nat.le_trans few (Grid.length_inner_le ..)
  rw [length_decimal_le_iff (by decide)] at five
  omega

end
end

/-- The cell under the pointer is always on screen, and it stands out. The slots of the upper row stand
side by side from the first column on, as many as fit or as there are cells; each has its cell's value
in three digits between blanks, and one separator closes the row inside the edges of the pane. Only
the value under the pointer is in the pointer's style. -/
theorem cell_under_pointer_is_shown_and_stands_out {width height : Nat} {grid : Grid width height}
    {area : Area} (vacant : grid.Vacant area) (wide : 9 ≤ area.width) (high : 3 ≤ area.height)
    {cells : Array UInt8} {pointer : Nat} (within : pointer < cells.size) :
    let view := window cells.size pointer area.width
    let count := view.stop - view.start
    let row := (paint cells pointer area grid).inner area 0
    count = min cells.size ((area.width - 3) / 6) ∧
    view.start ≤ pointer ∧ pointer - view.start < count ∧
    (∀ slot < count, ∃ value, cells[view.start + slot]? = some value ∧
      let style := valueStyle (view.start + slot == pointer)
      row (6 * slot) 2 = span separator ['│', ' '] ∧
      row (6 * slot + 2) 3 = span style (threeDigits value.toNat) ∧
      row (6 * slot + 5) 1 = span style [' ']) ∧
    (∀ slot < count, (∀ cell ∈ row (6 * slot + 2) 3, cell.style = valueStyle true) ↔
      slot = pointer - view.start) ∧
    row (6 * count) 1 = span separator ['│'] ∧ 6 * count < area.width - 2 ∧
    ∀ column, 6 * count < column → column < area.width - 2 → row column 1 = [.blank] := by
  intro view count row
  have views : window cells.size pointer area.width = view := rfl
  have room : count = min cells.size ((area.width - 3) / 6) := size_window pointer wide
  have before : view.start ≤ pointer := Window.start_around_le within
  have behind : pointer < view.stop := Window.lt_stop_around within
  obtain ⟨closed, empty⟩ := inner_behind_values vacant views wide high
  refine ⟨room, before, by omega, ?_, ?_, closed, by omega, empty⟩
  · intro slot shown
    exact inner_value vacant views wide high shown
  · intro slot shown
    rw [value_stands_out_iff vacant views wide high shown]
    omega

theorem cell_under_pointer_is_shown_and_stands_out_middle_of_three :
    let frame := paint #[0, 64, 255] 1 ⟨2, 1, 15, 4⟩ (Grid.blank 20 5)
    9 ≤ 15 ∧ 3 ≤ 4 ∧ 1 < 3 ∧ (Grid.blank 20 5).Vacant ⟨2, 1, 15, 4⟩ ∧
      frame.inner ⟨2, 1, 15, 4⟩ 0 (6 * 1 + 2) 3 = span (valueStyle true) ['0', '6', '4'] := by
  intro frame
  have vacant : (Grid.blank 20 5).Vacant ⟨2, 1, 15, 4⟩ := Grid.vacant_blank (by decide) (by decide)
  obtain ⟨-, -, -, slots, -⟩ := cell_under_pointer_is_shown_and_stands_out vacant (by decide)
    (by decide) (show 1 < #[0, 64, 255].size by decide)
  obtain ⟨value, held, -, field, -⟩ := slots 1 (by decide)
  cases held
  exact ⟨by decide, by decide, by decide, vacant, field⟩

/-- The lower row holds every index in the columns of its slot, right below the value of the cell, as
long as no shown index but the last has more than five digits. The last one may have six. -/
theorem indices_stand_below_values_iff {width height : Nat} {grid : Grid width height}
    {area : Area} (vacant : grid.Vacant area) (wide : 9 ≤ area.width) (high : 4 ≤ area.height)
    {cells : Array UInt8} {pointer : Nat} (within : pointer < cells.size) :
    let view := window cells.size pointer area.width
    let count := view.stop - view.start
    let text := fun row column length =>
      ((paint cells pointer area grid).inner area row column length).map Cell.symbol
    (∀ slot < count, ∃ value, cells[view.start + slot]? = some value ∧
      text 0 (6 * slot) 2 = ['│', ' '] ∧ text 0 (6 * slot + 2) 3 = threeDigits value.toNat ∧
      text 0 (6 * slot + 5) 1 = [' ']) ∧
    ((∀ slot < count, Holds (text 1 (6 * slot) 6) (view.start + slot)) ↔
      view.stop ≤ 100001 ∨ count = 1 ∧ view.stop ≤ 1000000) := by
  intro view count text
  have views : window cells.size pointer area.width = view := rfl
  have before : view.start ≤ pointer := Window.start_around_le within
  have behind : pointer < view.stop := Window.lt_stop_around within
  refine ⟨?_, ?_, ?_⟩
  · intro slot shown
    obtain ⟨value, held, edge, field, gap⟩ :=
      inner_value vacant views wide (Nat.le_of_succ_le high) shown
    refine ⟨value, held, ?_, ?_, ?_⟩
    · exact (congrArg _ edge).trans (map_symbol_span ..)
    · exact (congrArg _ field).trans (map_symbol_span ..)
    · exact (congrArg _ gap).trans (map_symbol_span ..)
  · intro all
    have last := lt_of_holds_inner (all (count - 1) (by omega))
    by_cases aligned : view.stop ≤ 100001 ∨ count = 1 ∧ view.stop ≤ 1000000
    · exact aligned
    · have five : ∀ i < 100000 - view.start, view.start + i < 100000 := fun i before => by omega
      have next : 100000 - view.start + 1 < count := by omega
      have holds := all _ next
      exact absurd holds
        (not_holds_behind_long_index vacant views wide high five next (by omega) (by omega))
  · intro short slot shown
    have aligned : ∀ i < slot, view.start + i < 100000 := by omega
    exact holds_index vacant views wide high aligned shown (by omega)

theorem indices_stand_below_values_iff_last_of_six_digits :
    let cells := Array.replicate 100001 (0 : UInt8)
    let frame := paint cells 100000 ⟨0, 0, 15, 4⟩ (Grid.blank 15 4)
    9 ≤ 15 ∧ 4 ≤ 4 ∧ 100000 < cells.size ∧ (Grid.blank 15 4).Vacant ⟨0, 0, 15, 4⟩ ∧
      Holds ((frame.inner ⟨0, 0, 15, 4⟩ 1 (6 * 1) 6).map Cell.symbol) 100000 := by
  intro cells frame
  have size : cells.size = 100001 := Array.size_replicate
  have within : 100000 < cells.size := by omega
  have vacant : (Grid.blank 15 4).Vacant ⟨0, 0, 15, 4⟩ := Grid.vacant_blank (by decide) (by decide)
  obtain ⟨-, aligned⟩ := indices_stand_below_values_iff vacant (by decide) (by decide) within
  rw [size] at aligned
  exact ⟨by decide, by decide, within, vacant, aligned.mpr (.inl (by decide)) 1 (by decide)⟩

/-- With room for three cells and the pointer on the last of 100003, its index loses a digit. -/
theorem third_index_of_six_digits_is_cut :
    let cells := Array.replicate 100003 (0 : UInt8)
    let frame := paint cells 100002 ⟨0, 0, 21, 4⟩ (Grid.blank 21 4)
    let text := fun column count =>
      (frame.inner ⟨0, 0, 21, 4⟩ 1 column count).map Cell.symbol
    text 0 19 = "100000 100001 10000".toList ∧ ¬ Holds (text (6 * 2) 6) 100002 := by
  intro cells frame text
  have vacant : (Grid.blank 21 4).Vacant ⟨0, 0, 21, 4⟩ := Grid.vacant_blank (by decide) (by decide)
  have views : window cells.size 100002 21 = ⟨100000, 100003⟩ := by
    rw [Array.size_replicate]
    decide
  have length : (indexRow 100002 ⟨100000, 100003⟩).length = 21 := by decide
  have read {column count : Nat} (fits : column + count ≤ 19) :
      text column count =
        (((indexRow 100002 ⟨100000, 100003⟩).drop column).take count).map Cell.symbol :=
    congrArg _ (inner_indexRow vacant views (by decide) fits (by omega))
  refine ⟨?_, ?_⟩
  · rw [read (by decide)]
    decide
  · rw [read (by decide)]
    intro holds
    exact absurd (holds.eq_decimal (by decide)) (by decide)

end TapePane
end ByteTape
