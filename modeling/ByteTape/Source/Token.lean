import ByteTape.Instruction
import ByteTape.Source.Location

/-! Instructions in a source text, each with the place where it was found.
A cursor reads the text once: what it has read it does not find again. -/

namespace ByteTape

structure Token where
  instruction : Instruction
  location : Location
  deriving DecidableEq, Repr

/-- A place in a text with the characters that are still to be read from it. -/
structure Cursor where
  rest : List Char
  location : Location

namespace Cursor

def ofSource (source : String) : Cursor := ⟨source.toList, .start⟩

/-- Adds the tokens of `rest`, which starts at `location`, to those already `found`. -/
def collect (location : Location) (found : Array Token) : List Char → Array Token × Cursor
  | [] => (found, ⟨[], location⟩)
  | c :: rest =>
    let found := match Instruction.ofChar? c with
      | some instruction => found.push ⟨instruction, location⟩
      | none => found
    collect (location.after c) found rest

/-- All tokens ahead of the cursor, and the cursor behind them. -/
def tokens (cursor : Cursor) : Array Token × Cursor :=
  collect cursor.location #[] cursor.rest

end Cursor

def Token.ofSource (source : String) : Array Token :=
  (Cursor.ofSource source).tokens.1

end ByteTape
