/-! Places in a source text. Lines and columns count from one, a column is one
character, and only a line feed starts a new line. -/

namespace ByteTape

structure Location where
  line : Nat
  column : Nat
  deriving DecidableEq, Repr

namespace Location

def start : Location := ⟨1, 1⟩

/-- Where the character behind `c` stands, when `c` stands here. -/
def after (location : Location) (c : Char) : Location :=
  if c = '\n' then ⟨location.line + 1, 1⟩ else ⟨location.line, location.column + 1⟩

def describe (location : Location) : String :=
  s!"line {location.line}, column {location.column}"

end Location
end ByteTape
