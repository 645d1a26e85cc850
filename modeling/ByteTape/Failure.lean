import ByteTape.Config
import ByteTape.Program.Parse
import ByteTape.Tape

/-! What can go wrong, and the one line that tells the user so.
A fault ends a run; a failure is any reason why the interpreter gives up. -/

namespace ByteTape

/-- Why a run broke off. The place is that of the instruction in the source. -/
inductive Fault where
  | pointerOverflow (pc : Nat) (location : Option Location) (pointer memorySize : Nat)
  | pointerUnderflow (pc : Nat) (location : Option Location)
  | unmatchedBracket (pc : Nat) (location : Option Location)
  | programNotLoaded
  | device (pc : Nat) (reason : String)
  deriving DecidableEq, Repr

namespace Fault

def pc? : Fault → Option Nat
  | pointerOverflow pc .. | pointerUnderflow pc _ | unmatchedBracket pc _ | device pc _ => some pc
  | programNotLoaded => none

def location? : Fault → Option Location
  | pointerOverflow _ location .. | pointerUnderflow _ location | unmatchedBracket _ location =>
    location
  | programNotLoaded | device .. => none

def ofMove (pc : Nat) (location : Option Location) : MoveError → Fault
  | .overflow pointer size => pointerOverflow pc location pointer size
  | .underflow => pointerUnderflow pc location

def describePlace : Option Location → String
  | some location => s!" at {location.describe}"
  | none => ""

def message : Fault → String
  | pointerOverflow pc location pointer memorySize =>
    let place := describePlace location
    "[Runtime] Memory pointer is out of bounds: " ++
      s!"cannot move right from cell {pointer} of {memorySize} (instruction {pc}{place})"
  | pointerUnderflow pc location =>
    let place := describePlace location
    "[Runtime] Memory pointer is out of bounds: " ++
      s!"cannot move left from cell 0 (instruction {pc}{place})"
  | unmatchedBracket pc location =>
    s!"[Runtime] No matching bracket for instruction {pc}" ++ describePlace location
  | programNotLoaded => "[Runtime] Program has not been loaded"
  | device pc reason => s!"[Runtime] I/O failed at instruction {pc}: {reason}"

end Fault

inductive Failure where
  | configuration (error : ConfigError)
  | parse (error : ParseError)
  | run (fault : Fault)
  | display (reason : String)
  deriving DecidableEq, Repr

namespace Failure

/-- The text of the error behind the failure, if another part of the interpreter raised it. -/
def cause? : Failure → Option String
  | configuration error => some error.message
  | parse error => some error.message
  | run fault => some fault.message
  | display _ => none

def message : Failure → String
  | configuration error => error.message
  | parse error => error.message
  | run fault => fault.message
  | display reason => s!"[Display] Terminal display failed: {reason}"

end Failure
end ByteTape
