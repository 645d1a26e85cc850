import ByteTape.Instruction

/-! Finding the partner of a bracket by walking the code.
The walk counts the loops it is inside of and stops at the first bracket
that belongs to none of them. -/

namespace ByteTape.Brackets

/-- The first `]` that closes a loop opened before `index`, where the code starts,
when `depth` loops have been opened on the way there. -/
def closingFrom (depth index : Nat) : List Instruction → Option Nat
  | [] => none
  | instruction :: rest =>
    match instruction with
    | .loopStart => closingFrom (depth + 1) (index + 1) rest
    | .loopEnd =>
      match depth with
      | 0 => some index
      | depth + 1 => closingFrom depth (index + 1) rest
    | _ => closingFrom depth (index + 1) rest

/-- The nearest `[` that no `]` on the way closes. The code is read backwards, so the
index of its head is the number of instructions behind the head. -/
def openingFrom (depth : Nat) : List Instruction → Option Nat
  | [] => none
  | instruction :: rest =>
    match instruction with
    | .loopEnd => openingFrom (depth + 1) rest
    | .loopStart =>
      match depth with
      | 0 => some rest.length
      | depth + 1 => openingFrom depth rest
    | _ => openingFrom depth rest

/-- Where the loop that `index` is inside of, or opens, is closed. -/
def closing? (code : List Instruction) (index : Nat) : Option Nat :=
  closingFrom 0 (index + 1) (code.drop (index + 1))

/-- Where the loop that `index` is inside of, or closes, was opened. -/
def opening? (code : List Instruction) (index : Nat) : Option Nat :=
  openingFrom 0 (code.take index).reverse

end ByteTape.Brackets
