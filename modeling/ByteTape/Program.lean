import ByteTape.Source.Token

/-! A program: its instructions, each with its place in the source. -/

namespace ByteTape

structure Program where
  tokens : Array Token
  deriving DecidableEq, Repr

namespace Program

def empty : Program := ⟨#[]⟩

def instructions (program : Program) : List Instruction :=
  (program.tokens.map Token.instruction).toList

def locations (program : Program) : List Location :=
  (program.tokens.map Token.location).toList

def size (program : Program) : Nat := program.tokens.size

def isEmpty (program : Program) : Bool := program.tokens.isEmpty

def get? (program : Program) (index : Nat) : Option Instruction :=
  program.tokens[index]?.map Token.instruction

def location? (program : Program) (index : Nat) : Option Location :=
  program.tokens[index]?.map Token.location

def count (program : Program) (instruction : Instruction) : Nat :=
  program.instructions.count instruction

/-- The instructions alone, without comments or layout. -/
def text (program : Program) : String :=
  String.ofList (program.instructions.map Instruction.toChar)

theorem get?_eq_getElem? (program : Program) (index : Nat) :
    program.get? index = program.instructions[index]? := by
  simp [get?, instructions]

theorem get?_eq_none_iff (program : Program) (index : Nat) :
    program.get? index = none ↔ program.size ≤ index := by
  simp [get?, size]

@[simp] theorem length_instructions (program : Program) :
    program.instructions.length = program.size := by
  simp [instructions, size]

@[simp] theorem length_locations (program : Program) :
    program.locations.length = program.size := by
  simp [locations, size]

end Program
end ByteTape
