/-! The eight instructions and the character each is written as.
Every other character is a comment. -/

namespace ByteTape

inductive Instruction where
  | right
  | left
  | increment
  | decrement
  | output
  | input
  | loopStart
  | loopEnd
  deriving DecidableEq, Repr

namespace Instruction

def all : List Instruction :=
  [right, left, increment, decrement, output, input, loopStart, loopEnd]

def toChar : Instruction → Char
  | right => '>'
  | left => '<'
  | increment => '+'
  | decrement => '-'
  | output => '.'
  | input => ','
  | loopStart => '['
  | loopEnd => ']'

/-- The instruction a character stands for, `none` for a comment. -/
def ofChar? : Char → Option Instruction
  | '>' => some right
  | '<' => some left
  | '+' => some increment
  | '-' => some decrement
  | '.' => some output
  | ',' => some input
  | '[' => some loopStart
  | ']' => some loopEnd
  | _ => none

@[simp] theorem ofChar?_toChar (instruction : Instruction) :
    ofChar? instruction.toChar = some instruction := by
  cases instruction <;> rfl

end Instruction
end ByteTape
