import ByteTape.Device.Buffer
import ByteTape.Proofs.Machine.Steps
import ByteTape.Proofs.Program.Acceptance

/-! Brackets without a partner. A run breaks off at one when it has to jump from there, and in a
program that passes the stricter check there is none. -/

namespace ByteTape
open Brackets

variable {σ : Type}

/-- The next instruction is to jump from a bracket that has no partner. -/
def RunState.JumpsNowhere (program : Program) (state : RunState) : Prop :=
  (program.get? state.pc = some .loopStart ∧ state.tape.current = 0 ∧
    ∀ stop, ¬ Paired program.instructions state.pc stop) ∨
  (program.get? state.pc = some .loopEnd ∧ state.tape.current ≠ 0 ∧
    ∀ start, ¬ Paired program.instructions start state.pc)

theorem breaks_unmatchedBracket_iff {program : Program} {state : RunState} {calls : List Event}
    {pc : Nat} {location : Option Location} :
    Breaks program state calls (.unmatchedBracket pc location) ↔
      calls = [] ∧ state.JumpsNowhere program ∧ pc = state.pc ∧
        location = program.location? state.pc := by
  constructor
  · intro breaks
    cases breaks with
    | skip here zero unpaired => exact ⟨rfl, .inl ⟨here, zero, unpaired⟩, rfl, rfl⟩
    | again here nonzero unpaired => exact ⟨rfl, .inr ⟨here, nonzero, unpaired⟩, rfl, rfl⟩
  · rintro ⟨rfl, ⟨here, zero, unpaired⟩ | ⟨here, nonzero, unpaired⟩, rfl, rfl⟩
    · exact .skip here zero unpaired
    · exact .again here nonzero unpaired

private theorem RunState.JumpsNowhere.not_nested {program : Program} {state : RunState}
    (nowhere : state.JumpsNowhere program) : ¬ Nested (brackets program.instructions) := by
  intro nested
  have balanced := (nested_brackets_iff _).mp nested
  rcases nowhere with ⟨here, -, unpaired⟩ | ⟨here, -, unpaired⟩
  · rw [Program.get?_eq_getElem?] at here
    obtain ⟨stop, pair⟩ := balanced.exists_stop here
    exact unpaired stop pair
  · rw [Program.get?_eq_getElem?] at here
    obtain ⟨start, pair⟩ := balanced.exists_start here
    exact unpaired start pair

namespace Program

/-- A program that is not well nested was accepted for its counts alone. -/
private theorem unmatchedClose_of_not_nested {source : String} {rule : BracketRule}
    {program : Program}
    (parsed : parse source rule = .ok program)
    (stray : ¬ Nested (brackets program.instructions)) :
    ∃ index place, parse source .nested = .error (.unmatchedClose index place) := by
  obtain ⟨rfl, even, -⟩ := eq_of_parse parsed
  rw [instructions_ofSource] at stray
  obtain ⟨index, before, behind, refused, -⟩ := parse_of_stray even stray
  exact ⟨index, _, refused⟩

end Program

namespace Engine

/-- A turn breaks off for want of a partner exactly where a jump is due from a bracket that has
none, with the place of that bracket; so a run does when it comes there. The programs that this
can happen to are those that the stricter check refuses for a stray `]`. -/
theorem bracket_faults_where_jumps_lead_nowhere (engine : Engine) {source : String}
    {rule : BracketRule} {program : Program} (parsed : Program.parse source rule = .ok program)
    (device : Device σ) (observer : Option (Observer σ)) (outside : σ) :
    let machine := engine.machine program device observer
    let faults (pc : Nat) (location : Option Location) :=
      ∃ finished, engine.Returns program device observer outside finished ∧
        finished.result = .error (.unmatchedBracket pc location)
    (∀ state world, world.stopped = false → ∀ pc location,
      (∃ later, machine.advance state world =
        .ended (.error (.unmatchedBracket pc location)) later) ↔
      state.JumpsNowhere program ∧ pc = state.pc ∧ location = program.location? pc) ∧
    (∀ pc location, faults pc location ↔
      ∃ state world, engine.Reaches program device observer outside state world ∧
        world.stopped = false ∧ state.JumpsNowhere program ∧ pc = state.pc ∧
        location = program.location? pc) ∧
    (∀ index instruction, program.get? index = some instruction →
      ∃ place, program.location? index = some place ∧
        Source.Places source.toList index instruction place) ∧
    (rule = .nested → ∀ pc location, ¬ faults pc location) ∧
    (∀ pc location, faults pc location →
      ∃ index place, Program.parse source .nested = .error (.unmatchedClose index place)) := by
  intro machine faults
  have stuck (pc : Nat) (location : Option Location) : faults pc location ↔
      ∃ state world, engine.Reaches program device observer outside state world ∧
        world.stopped = false ∧ state.JumpsNowhere program ∧ pc = state.pc ∧
        location = program.location? pc := by
    constructor
    · rintro ⟨finished, returns, result⟩
      obtain ⟨state, world, _, calls, reaches, -, -, going, breaks, -⟩ :=
        reaches_of_fault returns result
      obtain ⟨-, nowhere, rfl, rfl⟩ := breaks_unmatchedBracket_iff.mp breaks
      exact ⟨state, world, reaches, going, nowhere, rfl, rfl⟩
    · rintro ⟨state, world, reaches, going, nowhere, rfl, rfl⟩
      exact returns_of_breaks reaches going (breaks_unmatchedBracket_iff.mpr ⟨rfl, nowhere, rfl, rfl⟩)
  refine ⟨?_, stuck, ?_, ?_, ?_⟩
  · intro state world going pc location
    constructor
    · rintro ⟨later, advanced⟩
      obtain ⟨_, calls, -, -, breaks, -⟩ := Machine.breaks_of_advance (jumps_machine ..) advanced
      obtain ⟨-, nowhere, rfl, rfl⟩ := breaks_unmatchedBracket_iff.mp breaks
      exact ⟨nowhere, rfl, rfl⟩
    · rintro ⟨nowhere, rfl, rfl⟩
      exact Machine.advance_of_breaks (jumps_machine engine program device observer)
        (breaks_unmatchedBracket_iff.mpr ⟨rfl, nowhere, rfl, rfl⟩) going
  · intro index instruction here
    exact Program.places_of_parse parsed here
  · rintro rfl pc location faulted
    obtain ⟨state, world, -, -, nowhere, -⟩ := (stuck pc location).mp faulted
    exact nowhere.not_nested (Program.nested_of_parse parsed)
  · intro pc location faulted
    obtain ⟨state, world, -, -, nowhere, -⟩ := (stuck pc location).mp faulted
    exact Program.unmatchedClose_of_not_nested parsed nowhere.not_nested

theorem bracket_faults_where_jumps_lead_nowhere_misordered :
    let engine : Engine := ⟨.ofMemory 1, ⟨by decide, by decide, by decide⟩, none, false⟩
    ∃ program, Program.parse "+][" .counted = .ok program ∧
      (∃ finished, engine.Returns program Buffer.device none (.ofInput []) finished ∧
        finished.result = .error (.unmatchedBracket 1 (some ⟨1, 2⟩))) ∧
      ∃ index place, Program.parse "+][" .nested = .error (.unmatchedClose index place) := by
  intro engine
  let program : Program := ⟨Token.ofSource "+]["⟩
  have parsed : Program.parse "+][" .counted = .ok program := Program.parse_counted rfl
  obtain ⟨-, stuck, -, -, refused⟩ :=
    bracket_faults_where_jumps_lead_nowhere engine parsed Buffer.device none (.ofInput [])
  have code : program.instructions = [.increment, .loopEnd, .loopStart] :=
    Program.instructions_ofSource "+]["
  have unpaired : ∀ start, ¬ Paired program.instructions start 1 := by
    rw [code]
    exact (opening?_eq_none_iff rfl).mp rfl
  have faulted := (stuck 1 (some ⟨1, 2⟩)).mpr
    ⟨_, _, ⟨1, rfl⟩, rfl, .inr ⟨rfl, by decide, unpaired⟩, rfl, rfl⟩
  exact ⟨program, parsed, faulted, refused _ _ faulted⟩

end Engine
end ByteTape
