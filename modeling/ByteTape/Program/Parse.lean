import ByteTape.Program

/-! The two checks that a source can be asked to pass before it becomes a program.
Both compare how many loops are opened and closed; the stricter one also wants
every `]` to close a loop that an earlier `[` has opened. -/

namespace ByteTape

inductive BracketRule where
  | counted
  | nested
  deriving DecidableEq, Repr

inductive ParseError where
  | unbalancedBrackets (opened closed : Nat)
  | unmatchedClose (index : Nat) (location : Location)
  deriving DecidableEq, Repr

def ParseError.message : ParseError → String
  | .unbalancedBrackets opened closed =>
    s!"[Analysis] Brackets are not balanced ({opened} '[' vs {closed} ']')."
  | .unmatchedClose _ location => s!"[Analysis] Unmatched ']' at {location.describe}."

namespace Program

/-- The first token that closes a loop nobody opened. The tokens start at `index`,
where `depth` loops are open. -/
def strayClose? (depth index : Nat) : List Token → Option (Nat × Location)
  | [] => none
  | token :: rest =>
    match token.instruction with
    | .loopStart => strayClose? (depth + 1) (index + 1) rest
    | .loopEnd =>
      match depth with
      | 0 => some (index, token.location)
      | depth + 1 => strayClose? depth (index + 1) rest
    | _ => strayClose? depth (index + 1) rest

/-- Once the counts agree, a program without a stray `]` closes every `[` too. -/
def validate (program : Program) (rule : BracketRule) : Except ParseError Program :=
  let opened := program.count .loopStart
  let closed := program.count .loopEnd
  if opened ≠ closed then .error (.unbalancedBrackets opened closed)
  else match rule with
    | .counted => .ok program
    | .nested =>
      match strayClose? 0 0 program.tokens.toList with
      | some (index, location) => .error (.unmatchedClose index location)
      | none => .ok program

def parse (source : String) (rule : BracketRule) : Except ParseError Program :=
  validate ⟨Token.ofSource source⟩ rule

end Program
end ByteTape
