import ByteTape.Brackets.Scan
import ByteTape.Brackets.Table

/-! The two ways in which a run can find where a loop jump leads. -/

namespace ByteTape

inductive JumpStrategy where
  | scan
  | table
  deriving DecidableEq, Repr

namespace Brackets

/-- What a run keeps to resolve its jumps: the code to walk, or the finished table. -/
inductive Jumps where
  | scan (code : List Instruction)
  | table (partners : Table)

namespace Jumps

def ofProgram (strategy : JumpStrategy) (program : Program) : Jumps :=
  match strategy with
  | .scan => .scan program.instructions
  | .table => .table (.ofProgram program)

/-- The `]` that closes the loop opened at `index`. -/
def closing? (jumps : Jumps) (index : Nat) : Option Nat :=
  match jumps with
  | .scan code => Brackets.closing? code index
  | .table partners => partners.target? index

/-- The `[` that opens the loop closed at `index`. -/
def opening? (jumps : Jumps) (index : Nat) : Option Nat :=
  match jumps with
  | .scan code => Brackets.opening? code index
  | .table partners => partners.target? index

end Jumps
end Brackets
end ByteTape
