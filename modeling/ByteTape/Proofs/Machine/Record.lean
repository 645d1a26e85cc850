import ByteTape.Proofs.Machine.Steps

/-! The record of a run: the instructions that have taken effect, one after the other, each with
the states before and behind it. The instruction with which a run breaks off is not among them. -/

namespace ByteTape

variable {σ : Type}

structure Step where
  before : RunState
  instruction : Instruction
  after : RunState

namespace Step

def wrote? (step : Step) : Option UInt8 :=
  if step.instruction = .output then some step.before.tape.current else none

def reads (step : Step) : Bool := step.instruction = .input

end Step

def writings (record : List Step) : List UInt8 := record.filterMap Step.wrote?

def readings (record : List Step) : List Step := record.filter Step.reads

@[simp] theorem writings_append (record more : List Step) :
    writings (record ++ more) = writings record ++ writings more := List.filterMap_append

@[simp] theorem readings_append (record more : List Step) :
    readings (record ++ more) = readings record ++ readings more := List.filter_append ..

section
variable (before after : RunState)

@[simp] theorem writings_output :
    writings [⟨before, .output, after⟩] = [before.tape.current] := rfl

@[simp] theorem readings_output : readings [⟨before, .output, after⟩] = [] := rfl

@[simp] theorem writings_input : writings [⟨before, .input, after⟩] = [] := rfl

@[simp] theorem readings_input :
    readings [⟨before, .input, after⟩] = [⟨before, .input, after⟩] := rfl

theorem writings_other {instruction : Instruction} (silent : instruction ≠ .output) :
    writings [⟨before, instruction, after⟩] = [] := by
  simp [writings, Step.wrote?, silent]

theorem readings_other {instruction : Instruction} (deaf : instruction ≠ .input) :
    readings [⟨before, instruction, after⟩] = [] := by
  simp [readings, Step.reads, deaf]

end

/-- What an instruction asks of the device is told by its kind. -/
inductive Executes.Asks (state next : RunState) : Instruction → List Event → Prop where
  | output (wrote : next = state.wrote state.tape.current) :
      Asks state next .output [.wrote state.tape.current (.ok ())]
  | input (byte : Option UInt8) (stored : next = state.next (·.setCurrent (byte.getD 0))) :
      Asks state next .input [.read (.ok byte)]
  | nothing {instruction : Instruction} (silent : instruction ≠ .output) (deaf : instruction ≠ .input)
      (kept : next.outputBytes = state.outputBytes) : Asks state next instruction []

theorem Executes.asks {program : Program} {state next : RunState} {calls : List Event}
    {instruction : Instruction} (executes : Executes program state calls next)
    (here : program.get? state.pc = some instruction) : Asks state next instruction calls := by
  have bracket {other : Instruction} (read : program.instructions[state.pc]? = some other) :
      instruction = other := by
    rw [← Program.get?_eq_getElem?, here] at read
    exact Option.some.inj read
  cases executes with
  | output there =>
    cases here.symm.trans there
    exact .output rfl
  | input there byte =>
    cases here.symm.trans there
    exact .input byte rfl
  | right there | left there | increment there | decrement there | enter there | leave there =>
    cases here.symm.trans there
    exact .nothing (by decide) (by decide) rfl
  | skip pair =>
    rw [bracket pair.opens]
    exact .nothing (by decide) (by decide) rfl
  | again pair =>
    rw [bracket pair.closes]
    exact .nothing (by decide) (by decide) rfl

namespace Machine

def step? (machine : Machine σ) : Progress σ → Option Step
  | .ended .. => none
  | .running state world =>
    match machine.program.get? state.pc, machine.advance state world with
    | some instruction, .running next _ => some ⟨state, instruction, next⟩
    | _, _ => none

/-- The instructions that have taken effect within that many turns. -/
def record (machine : Machine σ) (start : Progress σ) : Nat → List Step
  | 0 => []
  | turns + 1 => machine.record start turns ++ (machine.step? (machine.after start turns)).toList

variable {machine : Machine σ} {start : Progress σ} {turns : Nat} {state : RunState}
  {world : World σ}

theorem record_of_running {next : RunState} {later : World σ} {instruction : Instruction}
    (ran : machine.after start turns = .running state world)
    (here : machine.program.get? state.pc = some instruction)
    (advanced : machine.advance state world = .running next later) :
    machine.record start (turns + 1) =
      machine.record start turns ++ [⟨state, instruction, next⟩] := by
  rw [record, ran, step?, here, advanced]
  rfl

/-- Once a run has come to its last turn, nothing is added to the record. -/
theorem record_of_ended {count : Nat} {result : Except Fault Report} {later : World σ}
    (ran : machine.after start count = .running state world)
    (advanced : machine.advance state world = .ended result later) (past : count < turns) :
    machine.record start turns = machine.record start count := by
  induction turns with
  | zero => cases past
  | succ turns ih =>
    rw [record]
    rcases Nat.lt_or_eq_of_le (Nat.le_of_lt_succ past) with before | rfl
    · have ended : machine.after start (count + 1) = .ended result later := by
        rw [after, ran, resume, advanced]
      rw [after_of_ended ended before, step?, ih before]
      exact List.append_nil _
    · rw [ran, step?, advanced]
      simp

end Machine

namespace Engine
variable {engine : Engine} {program : Program} {device : Device σ}
  {observer : Option (Observer σ)} {outside : σ}

/-- What holds of an empty record and is kept by every instruction that takes effect holds of the
record of a run for as long as it goes on. -/
theorem record_invariant (holds : List Step → RunState → World σ → Prop)
    (initially : holds [] (.start engine.config engine.valid) ⟨outside, false⟩)
    (turn : ∀ record before world instruction calls state later, holds record before world →
      Executes.Asks before state instruction calls →
      device.Answers ((engine.machine program device observer).observe (before.view instruction)
        world) calls later →
      holds (record ++ [⟨before, instruction, state⟩]) state later)
    {turns : Nat} {state : RunState} {world : World σ}
    (ran : (engine.machine program device observer).after (engine.start outside) turns =
      .running state world) :
    holds ((engine.machine program device observer).record (engine.start outside) turns) state
      world := by
  induction turns generalizing state world with
  | zero =>
    cases ran
    exact initially
  | succ turns ih =>
    obtain ⟨before, earlier, running, advanced⟩ := Machine.running_of_after ran
    obtain ⟨instruction, calls, here, -, executes, answers⟩ :=
      Machine.executes_of_advance (jumps_machine ..) advanced
    rw [Machine.record_of_running running here advanced]
    exact turn _ _ _ _ _ _ _ (ih running) (executes.asks here) answers

theorem outputBytes_after {turns : Nat} {state : RunState} {world : World σ}
    (ran : (engine.machine program device observer).after (engine.start outside) turns =
      .running state world) :
    state.outputBytes = (writings ((engine.machine program device observer).record
      (engine.start outside) turns)).length := by
  refine record_invariant (fun record state _ => state.outputBytes = (writings record).length)
    rfl ?_ ran
  intro record before world instruction calls state later count asks _
  cases asks with
  | output wrote =>
    rw [wrote, writings_append, writings_output, List.length_append, ← count]
    rfl
  | input byte stored =>
    rw [stored, writings_append, writings_input, List.append_nil, ← count]
    rfl
  | nothing silent _ kept => rw [kept, writings_append, writings_other _ _ silent, count]; simp

end Engine
end ByteTape
