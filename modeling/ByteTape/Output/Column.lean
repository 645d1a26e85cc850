/-! The column in which the next output byte will land.
A line feed or carriage return goes back to the start of the line, and so does
a byte that fills the width. -/

namespace ByteTape

structure Column where
  width : Option Nat
  position : Nat
  deriving DecidableEq, Repr

namespace Column

def start (width : Option Nat) : Column := ⟨width, 0⟩

def advance (column : Column) (byte : UInt8) : Column :=
  if byte = 10 ∨ byte = 13 then { column with position := 0 }
  else
    let next := column.position + 1
    { column with position := if column.width.any (· ≤ next) then 0 else next }

@[simp] theorem width_advance (column : Column) (byte : UInt8) :
    (column.advance byte).width = column.width := by
  rw [advance]
  split
  · rfl
  · rfl

/-- No byte leads beyond the width. -/
theorem position_advance_lt {column : Column} {width : Nat} (wide : column.width = some width)
    (inside : column.position < width) (byte : UInt8) :
    (column.advance byte).position < width := by
  rw [advance]
  split
  · exact Nat.zero_lt_of_lt inside
  · simp only [wide, Option.any_some, decide_eq_true_eq]
    split
    · exact Nat.zero_lt_of_lt inside
    · omega

theorem position_foldl_advance_lt {column : Column} {width : Nat}
    (wide : column.width = some width) (inside : column.position < width) (bytes : List UInt8) :
    (bytes.foldl advance column).position < width := by
  induction bytes generalizing column with
  | nil => exact inside
  | cons byte rest ih =>
    exact ih ((width_advance ..).trans wide) (position_advance_lt wide inside byte)

end Column
end ByteTape
