import ByteTape.Program
import Std.Data.HashMap

/-! All bracket pairs of a program, found in one pass with a stack of open loops. -/

namespace ByteTape.Brackets

/-- The pairs of the code, which starts at `index` with the loops in `opened` still open,
innermost first. A `]` closes the innermost open loop; with none open it has no partner. -/
def pairing (index : Nat) (opened : List Nat) : List Instruction → List (Nat × Nat)
  | [] => []
  | instruction :: rest =>
    match instruction with
    | .loopStart => pairing (index + 1) (index :: opened) rest
    | .loopEnd =>
      match opened with
      | [] => pairing (index + 1) [] rest
      | start :: opened => (start, index) :: pairing (index + 1) opened rest
    | _ => pairing (index + 1) opened rest

/-- A look-up table from each paired bracket to its partner. -/
structure Table where
  pairs : List (Nat × Nat)
  partners : Std.HashMap Nat Nat

namespace Table

def link (partners : Std.HashMap Nat Nat) (pair : Nat × Nat) : Std.HashMap Nat Nat :=
  (partners.insert pair.1 pair.2).insert pair.2 pair.1

def ofCode (code : List Instruction) : Table :=
  let pairs := pairing 0 [] code
  ⟨pairs, pairs.foldl link ∅⟩

def ofProgram (program : Program) : Table := ofCode program.instructions

def target? (table : Table) (index : Nat) : Option Nat := table.partners[index]?

def pairCount (table : Table) : Nat := table.pairs.length

end Table
end ByteTape.Brackets
