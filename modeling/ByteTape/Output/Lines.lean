/-! Output bytes split into the lines that a screen shows.
A line feed ends a line, a full line is continued on the next one, a carriage
return has no effect, and a byte without a printed form is shown as a dot. -/

namespace ByteTape

structure OutputLines where
  width : Option Nat
  lines : Array String
  deriving DecidableEq, Repr

namespace OutputLines

def start (width : Option Nat) : OutputLines := ⟨width, #[]⟩

/-- The character that stands for a byte: its own if it is printable or a blank. -/
def glyph (byte : UInt8) : Char :=
  if 32 ≤ byte ∧ byte ≤ 126 then Char.ofUInt8 byte else '·'

/-- Whether the next character needs a line of its own. -/
def isFull (output : OutputLines) : Bool :=
  match output.lines.back? with
  | none => true
  | some last => output.width.any (· ≤ last.length)

def put (output : OutputLines) (c : Char) : OutputLines :=
  if output.isFull then { output with lines := output.lines.push (String.singleton c) }
  else { output with lines := output.lines.modify (output.lines.size - 1) (·.push c) }

def push (output : OutputLines) (byte : UInt8) : OutputLines :=
  if byte = 10 then
    let ended := if output.lines.isEmpty then #[""] else output.lines
    { output with lines := ended.push "" }
  else if byte = 13 then output
  else output.put (glyph byte)

/-- Whether there is nothing to show, only line ends at most. -/
def isBlank (output : OutputLines) : Bool := output.lines.all String.isEmpty

end OutputLines
end ByteTape
