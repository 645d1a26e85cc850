import ByteTape.Proofs.Brackets.Partners
import ByteTape.Proofs.Machine.Turns

/-! Instructions by rules. A rule tells what an instruction does to the machine and what it asks
of the device, or why it breaks off; whatever a turn of a run does follows one of them. -/

namespace ByteTape
open Brackets

inductive Event where
  | observed (view : MachineView)
  | read (answer : Except String (Option UInt8))
  | wrote (byte : UInt8) (answer : Except String Unit)

/-- An instruction takes effect. The device is called only to read or to write, and has not
failed; the end of the input is read as zero. -/
inductive Executes (program : Program) (state : RunState) : List Event → RunState → Prop where
  | right {tape : Tape} (here : program.get? state.pc = some .right)
      (moved : state.tape.moveRight = .ok tape) : Executes program state [] (state.withTape tape)
  | left {tape : Tape} (here : program.get? state.pc = some .left)
      (moved : state.tape.moveLeft = .ok tape) : Executes program state [] (state.withTape tape)
  | increment (here : program.get? state.pc = some .increment) :
      Executes program state [] (state.next Tape.increment)
  | decrement (here : program.get? state.pc = some .decrement) :
      Executes program state [] (state.next Tape.decrement)
  | output (here : program.get? state.pc = some .output) :
      Executes program state [.wrote state.tape.current (.ok ())] (state.wrote state.tape.current)
  | input (here : program.get? state.pc = some .input) (byte : Option UInt8) :
      Executes program state [.read (.ok byte)] (state.next (·.setCurrent (byte.getD 0)))
  | enter (here : program.get? state.pc = some .loopStart) (nonzero : state.tape.current ≠ 0) :
      Executes program state [] (state.next id)
  | skip {stop : Nat} (pair : Paired program.instructions state.pc stop)
      (zero : state.tape.current = 0) : Executes program state [] (state.jump stop)
  | leave (here : program.get? state.pc = some .loopEnd) (zero : state.tape.current = 0) :
      Executes program state [] (state.next id)
  | again {start : Nat} (pair : Paired program.instructions start state.pc)
      (nonzero : state.tape.current ≠ 0) : Executes program state [] (state.jump start)

/-- An instruction breaks off: it moves beyond an end of the tape, jumps from a bracket that has
no partner, or is let down by the device. -/
inductive Breaks (program : Program) (state : RunState) : List Event → Fault → Prop where
  | right (here : program.get? state.pc = some .right)
      (last : state.tape.pointer + 1 = state.tape.size) :
      Breaks program state []
        (.pointerOverflow state.pc (program.location? state.pc) state.tape.pointer state.tape.size)
  | left (here : program.get? state.pc = some .left) (first : state.tape.pointer = 0) :
      Breaks program state [] (.pointerUnderflow state.pc (program.location? state.pc))
  | skip (here : program.get? state.pc = some .loopStart) (zero : state.tape.current = 0)
      (unpaired : ∀ stop, ¬ Paired program.instructions state.pc stop) :
      Breaks program state [] (.unmatchedBracket state.pc (program.location? state.pc))
  | again (here : program.get? state.pc = some .loopEnd) (nonzero : state.tape.current ≠ 0)
      (unpaired : ∀ start, ¬ Paired program.instructions start state.pc) :
      Breaks program state [] (.unmatchedBracket state.pc (program.location? state.pc))
  | output (here : program.get? state.pc = some .output) (reason : String) :
      Breaks program state [.wrote state.tape.current (.error reason)] (.device state.pc reason)
  | input (here : program.get? state.pc = some .input) (reason : String) :
      Breaks program state [.read (.error reason)] (.device state.pc reason)

variable {σ : Type}

/-- The device is asked for these things, and leaves the world like that. -/
inductive Device.Answers (device : Device σ) (world : World σ) : List Event → World σ → Prop where
  | nothing : device.Answers world [] world
  | read {answer : Except String (Option UInt8)} {later : World σ}
      (asked : world.read device = (answer, later)) : device.Answers world [.read answer] later
  | write {byte : UInt8} {answer : Except String Unit} {later : World σ}
      (asked : world.write device byte = (answer, later)) :
      device.Answers world [.wrote byte answer] later

theorem Device.Answers.eq_of_nothing {device : Device σ} {world later : World σ}
    (answers : device.Answers world [] later) : later = world := by
  cases answers
  rfl

namespace Executes
variable {program : Program} {state next : RunState} {calls : List Event}

theorem steps (executes : Executes program state calls next) : next.steps = state.steps + 1 := by
  cases executes <;> rfl

theorem pc_le_size (executes : Executes program state calls next) : next.pc ≤ program.size := by
  have inside {index : Nat} {instruction : Instruction}
      (read : program.instructions[index]? = some instruction) : index + 1 ≤ program.size := by
    obtain ⟨bound, -⟩ := List.getElem?_eq_some_iff.mp read
    rwa [Program.length_instructions] at bound
  cases executes with
  | skip pair => exact inside pair.closes
  | again pair => exact inside pair.opens
  | right here | left here | increment here | decrement here | output here | input here
  | enter here | leave here =>
    rw [Program.get?_eq_getElem?] at here
    exact inside here

theorem size_tape (executes : Executes program state calls next) :
    next.tape.size = state.tape.size := by
  cases executes with
  | right _ moved => exact Tape.size_of_moveRight moved
  | left _ moved => exact Tape.size_of_moveLeft moved
  | increment | decrement | input => exact Tape.size_setCurrent ..
  | output | enter | skip | leave | again => rfl

end Executes

namespace Machine

inductive Turn (machine : Machine σ) (state : RunState) (world : World σ) : Progress σ → Prop where
  | completed (past : machine.program.get? state.pc = none) :
      Turn machine state world (.ended (.ok (state.report .completed)) world)
  | stopped {instruction : Instruction} (here : machine.program.get? state.pc = some instruction)
      (asked : world.stopped = true) :
      Turn machine state world (.ended (.ok (state.report .stopped)) world)
  | executes {instruction : Instruction} {calls : List Event} {next : RunState} {later : World σ}
      (here : machine.program.get? state.pc = some instruction) (going : world.stopped = false)
      (rule : Executes machine.program state calls next)
      (answers : machine.device.Answers (machine.observe (state.view instruction) world) calls
        later) : Turn machine state world (.running next later)
  | breaks {instruction : Instruction} {calls : List Event} {fault : Fault} {later : World σ}
      (here : machine.program.get? state.pc = some instruction) (going : world.stopped = false)
      (rule : Breaks machine.program state calls fault)
      (answers : machine.device.Answers (machine.observe (state.view instruction) world) calls
        later) : Turn machine state world (.ended (.error fault) later)

variable {machine : Machine σ} {strategy : JumpStrategy} {state next : RunState}
  {later : World σ}

private theorem execute_by_rule (resolved : machine.jumps = .ofProgram strategy machine.program)
    {instruction : Instruction} (here : machine.program.get? state.pc = some instruction)
    (world : World σ) :
    ∃ calls later, machine.device.Answers world calls later ∧
      ((∃ next, machine.execute state world instruction = (.ok next, later) ∧
        Executes machine.program state calls next) ∨
      ∃ fault, machine.execute state world instruction = (.error fault, later) ∧
        Breaks machine.program state calls fault) := by
  have read := here
  rw [Program.get?_eq_getElem?] at read
  cases instruction with
  | right =>
    refine ⟨[], world, .nothing, ?_⟩
    rw [execute]
    cases moved : state.tape.moveRight with
    | ok tape => exact .inl ⟨_, rfl, .right here moved⟩
    | error refused =>
      obtain ⟨last, rfl⟩ := Tape.moveRight_eq_error_iff.mp moved
      exact .inr ⟨_, rfl, .right here last⟩
  | left =>
    refine ⟨[], world, .nothing, ?_⟩
    rw [execute]
    cases moved : state.tape.moveLeft with
    | ok tape => exact .inl ⟨_, rfl, .left here moved⟩
    | error refused =>
      obtain ⟨first, rfl⟩ := Tape.moveLeft_eq_error_iff.mp moved
      exact .inr ⟨_, rfl, .left here first⟩
  | increment => exact ⟨[], world, .nothing, .inl ⟨_, rfl, .increment here⟩⟩
  | decrement => exact ⟨[], world, .nothing, .inl ⟨_, rfl, .decrement here⟩⟩
  | output =>
    cases asked : world.write machine.device state.tape.current with
    | mk answer later =>
      refine ⟨_, later, .write asked, ?_⟩
      simp only [execute, asked]
      cases answer with
      | ok => exact .inl ⟨_, rfl, .output here⟩
      | error reason => exact .inr ⟨_, rfl, .output here reason⟩
  | input =>
    cases asked : world.read machine.device with
    | mk answer later =>
      refine ⟨_, later, .read asked, ?_⟩
      simp only [execute, asked]
      cases answer with
      | ok byte => exact .inl ⟨_, rfl, .input here byte⟩
      | error reason => exact .inr ⟨_, rfl, .input here reason⟩
  | loopStart =>
    refine ⟨[], world, .nothing, ?_⟩
    simp only [execute, resolved, Jumps.closing?_ofProgram strategy here]
    split
    next zero =>
      cases found : closing? machine.program.instructions state.pc with
      | some stop =>
        exact .inl ⟨_, rfl, .skip ((closing?_eq_some_iff read stop).mp found) zero⟩
      | none => exact .inr ⟨_, rfl, .skip here zero ((closing?_eq_none_iff read).mp found)⟩
    next nonzero => exact .inl ⟨_, rfl, .enter here nonzero⟩
  | loopEnd =>
    refine ⟨[], world, .nothing, ?_⟩
    simp only [execute, resolved, Jumps.opening?_ofProgram strategy here]
    split
    next zero => exact .inl ⟨_, rfl, .leave here zero⟩
    next nonzero =>
      cases found : opening? machine.program.instructions state.pc with
      | some start =>
        exact .inl ⟨_, rfl, .again ((opening?_eq_some_iff read start).mp found) nonzero⟩
      | none => exact .inr ⟨_, rfl, .again here nonzero ((opening?_eq_none_iff read).mp found)⟩

theorem turn_advance (resolved : machine.jumps = .ofProgram strategy machine.program)
    (state : RunState) (world : World σ) : Turn machine state world (machine.advance state world) := by
  cases here : machine.program.get? state.pc with
  | none =>
    rw [advance_past here]
    exact .completed here
  | some instruction =>
    cases asked : world.stopped with
    | true =>
      rw [advance_stopped here asked]
      exact .stopped here asked
    | false =>
      rw [advance_execute here asked]
      obtain ⟨calls, later, answers, ⟨next, executed, rule⟩ | ⟨fault, broke, rule⟩⟩ :=
        execute_by_rule resolved here (machine.observe (state.view instruction) world)
      · rw [executed]
        exact .executes here asked rule answers
      · rw [broke]
        exact .breaks here asked rule answers

theorem executes_of_advance (resolved : machine.jumps = .ofProgram strategy machine.program)
    {world : World σ} (advanced : machine.advance state world = .running next later) :
    ∃ instruction calls, machine.program.get? state.pc = some instruction ∧
      world.stopped = false ∧ Executes machine.program state calls next ∧
      machine.device.Answers (machine.observe (state.view instruction) world) calls later := by
  have turn := turn_advance resolved state world
  rw [advanced] at turn
  cases turn with
  | executes here going rule answers => exact ⟨_, _, here, going, rule, answers⟩

theorem breaks_of_advance (resolved : machine.jumps = .ofProgram strategy machine.program)
    {world : World σ} {fault : Fault}
    (advanced : machine.advance state world = .ended (.error fault) later) :
    ∃ instruction calls, machine.program.get? state.pc = some instruction ∧
      world.stopped = false ∧ Breaks machine.program state calls fault ∧
      machine.device.Answers (machine.observe (state.view instruction) world) calls later := by
  have turn := turn_advance resolved state world
  rw [advanced] at turn
  cases turn with
  | breaks here going rule answers => exact ⟨_, _, here, going, rule, answers⟩

/-- Where an instruction breaks off without asking the device for anything, it always does. -/
theorem advance_of_breaks (resolved : machine.jumps = .ofProgram strategy machine.program)
    {world : World σ} {fault : Fault} (rule : Breaks machine.program state [] fault)
    (going : world.stopped = false) :
    ∃ later, machine.advance state world = .ended (.error fault) later := by
  cases rule with
  | right here last =>
    rw [advance_execute here going, execute, Tape.moveRight_eq_error_iff.mpr ⟨last, rfl⟩]
    exact ⟨_, rfl⟩
  | left here first =>
    rw [advance_execute here going, execute, Tape.moveLeft_eq_error_iff.mpr ⟨first, rfl⟩]
    exact ⟨_, rfl⟩
  | skip here zero unpaired =>
    have read := here
    rw [Program.get?_eq_getElem?] at read
    rw [advance_execute here going, execute, if_pos zero, resolved,
      Jumps.closing?_ofProgram strategy here, (closing?_eq_none_iff read).mpr unpaired]
    exact ⟨_, rfl⟩
  | again here nonzero unpaired =>
    have read := here
    rw [Program.get?_eq_getElem?] at read
    rw [advance_execute here going, execute, if_neg nonzero, resolved,
      Jumps.opening?_ofProgram strategy here, (opening?_eq_none_iff read).mpr unpaired]
    exact ⟨_, rfl⟩

end Machine
end ByteTape
