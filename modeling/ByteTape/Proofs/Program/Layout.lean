import ByteTape.Device.Buffer
import ByteTape.Proofs.Machine.Relocation
import ByteTape.Proofs.Source.Positions

/-! Comments and layout. They decide where the letters of a source stand, and nothing depends on that
but the places that errors and faults name; so a program can be printed and read again. -/

namespace ByteTape

variable {σ : Type} (move : Location → Location)

def ParseError.relocate : ParseError → ParseError
  | unbalancedBrackets opened closed => unbalancedBrackets opened closed
  | unmatchedClose index location => unmatchedClose index (move location)

def ParseError.unplaced (error : ParseError) : ParseError := error.relocate fun _ => .start

def Finished.unplaced (finished : Finished σ) : Finished σ := finished.relocate fun _ => .start

namespace Source

theorem word_map_toChar (code : List Instruction) : word (code.map Instruction.toChar) = code := by
  rw [word, List.filterMap_map]
  have read : Instruction.ofChar? ∘ Instruction.toChar = some :=
    funext Instruction.ofChar?_toChar
  rw [read, List.filterMap_some]

private theorem word_eq_of_filter {first second : List Char}
    (same : first.filter (· ∈ alphabet) = second.filter (· ∈ alphabet)) :
    word first = word second := by
  rw [← map_toChar_word, ← map_toChar_word] at same
  rw [← word_map_toChar (word first), same, word_map_toChar]

end Source

private theorem Token.letters_map_toChar (code : List Instruction) :
    letters (code.map Instruction.toChar) =
      code.zipIdx.map fun place => ⟨place.1, 1, place.2 + 1⟩ := by
  induction code using List.reverseRecOn with
  | nil => rfl
  | append_singleton code instruction ih =>
    have single : '\n' ∉ code.map Instruction.toChar := by
      intro member
      obtain ⟨other, -, spelled⟩ := List.mem_map.mp member
      cases other <;> cases spelled
    rw [List.map_append, List.map_singleton, letters_append_singleton, ih,
      Instruction.ofChar?_toChar, Location.behind_of_single_line single, List.zipIdx_append]
    simp [Nat.add_comm]

namespace Program

private theorem strayClose?_relocate (depth index : Nat) (tokens : List Token) :
    strayClose? depth index (tokens.map (Token.relocate move)) =
      (strayClose? depth index tokens).map fun close => (close.1, move close.2) := by
  induction tokens generalizing depth index with
  | nil => rfl
  | cons token rest ih =>
    obtain ⟨instruction, location⟩ := token
    cases instruction with
    | loopStart => exact ih (depth + 1) (index + 1)
    | loopEnd =>
      cases depth with
      | zero => rfl
      | succ depth => exact ih depth (index + 1)
    | _ => exact ih depth (index + 1)

private theorem validate_relocate (program : Program) (rule : BracketRule) :
    (program.relocate move).validate rule =
      ((program.validate rule).mapError (ParseError.relocate move)).map (relocate move) := by
  have counts (instruction : Instruction) :
      (program.relocate move).count instruction = program.count instruction := by
    rw [count, count, instructions_relocate]
  have tokens : (program.relocate move).tokens.toList =
      program.tokens.toList.map (Token.relocate move) := Array.toList_map
  simp only [validate, counts, tokens, strayClose?_relocate]
  split
  · rfl
  · cases rule with
    | counted => rfl
    | nested => cases strayClose? 0 0 program.tokens.toList <;> rfl

/-- All that parsing makes of a source, but for the places, it makes of the letters in it. -/
theorem parse_unplaced {first second : String}
    (same : Source.word first.toList = Source.word second.toList) (rule : BracketRule) :
    ((parse first rule).mapError ParseError.unplaced).map (relocate fun _ => .start) =
      ((parse second rule).mapError ParseError.unplaced).map (relocate fun _ => .start) := by
  rw [← instructions_ofSource, ← instructions_ofSource] at same
  have moved := relocate_eq_of_instructions same .start
  exact (validate_relocate _ _ rule).symm.trans
    ((congrArg (validate · rule) moved).trans (validate_relocate _ _ rule))

private theorem exists_parse_of_word {first second : String} {rule : BracketRule}
    {program : Program}
    (same : Source.word first.toList = Source.word second.toList)
    (parsed : parse first rule = .ok program) :
    ∃ other, parse second rule = .ok other ∧
      program.relocate (fun _ => .start) = other.relocate fun _ => .start := by
  have both := parse_unplaced same rule
  rw [parsed] at both
  cases read : parse second rule with
  | error error =>
    rw [read] at both
    cases both
  | ok other =>
    rw [read] at both
    exact ⟨other, rfl, Except.ok.inj both⟩

theorem word_text (program : Program) : Source.word program.text.toList = program.instructions := by
  rw [text, String.toList_ofList, Source.word_map_toChar]

private theorem location?_of_parse_text {program printed : Program} {rule : BracketRule}
    (parsed : parse program.text rule = .ok printed) (index : Nat) :
    printed.location? index = (program.get? index).map fun _ => ⟨1, index + 1⟩ := by
  obtain ⟨rfl, -, -⟩ := eq_of_parse parsed
  rw [location?, ← Array.getElem?_toList, Token.toList_ofSource, text, String.toList_ofList,
    Token.letters_map_toChar, get?_eq_getElem?, List.getElem?_map, List.getElem?_zipIdx,
    Option.map_map, Option.map_map, Nat.zero_add]
  rfl

/-- Sources with the same letters are accepted or refused alike, with the same error but for its
place, and become programs with the same instructions. Whatever they are run with, the same is shown
to the observer and asked of the device, and the runs come to the same end, but for the place of a
fault. The text of a program is such a source: read again, it has its letters side by side. -/
theorem layout_never_changes_meaning {first second : String}
    (same : first.toList.filter (· ∈ Source.alphabet) =
      second.toList.filter (· ∈ Source.alphabet)) :
    (∀ rule, ((parse first rule).mapError ParseError.unplaced).map instructions =
      ((parse second rule).mapError ParseError.unplaced).map instructions) ∧
    (∀ rule program other, parse first rule = .ok program → parse second rule = .ok other →
      ∀ (σ : Type) (engine : Engine) (device : Device σ) (observer : Option (Observer σ))
        (outside : σ),
      (∀ turns, engine.eventsWithin turns program device observer outside =
        engine.eventsWithin turns other device observer outside) ∧
      ∀ fuel, (engine.runProgram fuel program device observer outside).map Finished.unplaced =
        (engine.runProgram fuel other device observer outside).map Finished.unplaced) ∧
    ∀ rule program, parse first rule = .ok program →
      ∃ printed, parse program.text rule = .ok printed ∧
        printed.instructions = program.instructions ∧
        ∀ index, printed.location? index = (program.get? index).map fun _ => ⟨1, index + 1⟩ := by
  have words := Source.word_eq_of_filter same
  refine ⟨?_, ?_, ?_⟩
  · intro rule
    have kept (result : Except ParseError Program) :
        (result.map (relocate fun _ => .start)).map instructions = result.map instructions := by
      cases result with
      | error error => rfl
      | ok program => exact congrArg Except.ok (program.instructions_relocate _)
    rw [← kept, parse_unplaced words rule, kept]
  · intro rule program other parsed read σ engine device observer outside
    obtain ⟨_, again, moved⟩ := exists_parse_of_word words parsed
    cases read.symm.trans again
    refine ⟨?_, ?_⟩
    · intro turns
      rw [← engine.eventsWithin_relocate (fun _ => .start), moved, engine.eventsWithin_relocate]
    · intro fuel
      have here := engine.runProgram_relocate (fun _ => .start) program device observer outside fuel
      rw [moved, engine.runProgram_relocate] at here
      exact here.symm
  · intro rule program parsed
    have read : Source.word first.toList = Source.word program.text.toList := by
      obtain ⟨rfl, -, -⟩ := eq_of_parse parsed
      rw [word_text, instructions_ofSource]
    obtain ⟨printed, again, moved⟩ := exists_parse_of_word read parsed
    refine ⟨printed, again, ?_, location?_of_parse_text again⟩
    rw [← printed.instructions_relocate, ← moved, instructions_relocate]

theorem layout_never_changes_meaning_commented_move :
    let engine : Engine := ⟨.ofMemory 1, ⟨by decide, by decide, by decide⟩, none, false⟩
    "+<".toList.filter (· ∈ Source.alphabet) =
      "one up\n\tthen (+) <".toList.filter (· ∈ Source.alphabet) ∧
    ∃ program other, parse "+<" .counted = .ok program ∧
      parse "one up\n\tthen (+) <" .counted = .ok other ∧
      program.location? 1 = some ⟨1, 2⟩ ∧ other.location? 1 = some ⟨2, 11⟩ ∧
      ∀ fuel,
        (engine.runProgram fuel program Buffer.device none (.ofInput [])).map Finished.unplaced =
          (engine.runProgram fuel other Buffer.device none (.ofInput [])).map
            Finished.unplaced := by
  intro engine
  have same : "+<".toList.filter (· ∈ Source.alphabet) =
      "one up\n\tthen (+) <".toList.filter (· ∈ Source.alphabet) := by decide
  have bare : parse "+<" .counted = .ok _ := parse_counted rfl
  have commented : parse "one up\n\tthen (+) <" .counted = .ok _ := parse_counted rfl
  obtain ⟨-, runs, -⟩ := layout_never_changes_meaning same
  have alike := runs .counted _ _ bare commented Buffer engine Buffer.device none (.ofInput [])
  exact ⟨same, _, _, bare, commented, rfl, rfl, alike.2⟩

end Program
end ByteTape
