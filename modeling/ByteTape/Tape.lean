/-! A tape of byte cells with a pointer that never leaves it.
Cells wrap modulo 256; a move beyond either end is refused and changes nothing. -/

namespace ByteTape

structure Tape where
  cells : Array UInt8
  pointer : Nat
  pointer_lt : pointer < cells.size
  deriving DecidableEq

inductive MoveError where
  | overflow (pointer size : Nat)
  | underflow
  deriving DecidableEq, Repr

def MoveError.message : MoveError → String
  | .overflow pointer size => s!"pointer {pointer} cannot move right on a tape of {size} cells"
  | .underflow => "pointer 0 cannot move left"

namespace Tape

def blank (size : Nat) (positive : 0 < size) : Tape where
  cells := Array.replicate size 0
  pointer := 0
  pointer_lt := by simpa using positive

def size (tape : Tape) : Nat := tape.cells.size

def current (tape : Tape) : UInt8 := getElem tape.cells tape.pointer tape.pointer_lt

def setCurrent (tape : Tape) (value : UInt8) : Tape where
  cells := tape.cells.set tape.pointer value tape.pointer_lt
  pointer := tape.pointer
  pointer_lt := by simpa using tape.pointer_lt

def increment (tape : Tape) : Tape := tape.setCurrent (tape.current + 1)

def decrement (tape : Tape) : Tape := tape.setCurrent (tape.current - 1)

def moveRight (tape : Tape) : Except MoveError Tape :=
  if inside : tape.pointer + 1 < tape.cells.size then
    .ok ⟨tape.cells, tape.pointer + 1, inside⟩
  else .error (.overflow tape.pointer tape.size)

def moveLeft (tape : Tape) : Except MoveError Tape :=
  if tape.pointer = 0 then .error .underflow
  else .ok ⟨tape.cells, tape.pointer - 1, Nat.lt_of_le_of_lt (Nat.sub_le ..) tape.pointer_lt⟩

theorem pointer_lt_size (tape : Tape) : tape.pointer < tape.size := tape.pointer_lt

@[simp] theorem size_blank (size : Nat) (positive : 0 < size) : (blank size positive).size = size :=
  Array.size_replicate

@[simp] theorem size_setCurrent (tape : Tape) (value : UInt8) :
    (tape.setCurrent value).size = tape.size := by
  simp [size, setCurrent]

@[simp] theorem current_blank (size : Nat) (positive : 0 < size) :
    (blank size positive).current = 0 := by
  simp [blank, current]

@[simp] theorem current_setCurrent (tape : Tape) (value : UInt8) :
    (tape.setCurrent value).current = value := by
  simp [setCurrent, current]

@[simp] theorem setCurrent_current (tape : Tape) : tape.setCurrent tape.current = tape := by
  simp [setCurrent, current]

@[simp] theorem setCurrent_setCurrent (tape : Tape) (value last : UInt8) :
    (tape.setCurrent value).setCurrent last = tape.setCurrent last := by
  simp [setCurrent]

theorem getElem?_cells_setCurrent (tape : Tape) (value : UInt8) (cell : Nat) :
    (tape.setCurrent value).cells[cell]? =
      if tape.pointer = cell then some value else tape.cells[cell]? :=
  Array.getElem?_set tape.pointer_lt

theorem size_of_moveRight {tape moved : Tape} (moves : tape.moveRight = .ok moved) :
    moved.size = tape.size := by
  rw [moveRight] at moves
  split at moves
  · cases moves
    rfl
  · cases moves

theorem size_of_moveLeft {tape moved : Tape} (moves : tape.moveLeft = .ok moved) :
    moved.size = tape.size := by
  rw [moveLeft] at moves
  split at moves
  · cases moves
  · cases moves
    rfl

theorem moveRight_eq_error_iff {tape : Tape} {refused : MoveError} :
    tape.moveRight = .error refused ↔
      tape.pointer + 1 = tape.size ∧ refused = .overflow tape.pointer tape.size := by
  have inside : tape.pointer < tape.cells.size := tape.pointer_lt
  rw [moveRight]
  split
  · simp [size]
    omega
  · simp [size, eq_comm]
    omega

theorem moveLeft_eq_error_iff {tape : Tape} {refused : MoveError} :
    tape.moveLeft = .error refused ↔ tape.pointer = 0 ∧ refused = .underflow := by
  rw [moveLeft]
  split
  next first => simp [first, eq_comm]
  next behind => simp [behind]

end Tape
end ByteTape
