import ByteTape.Device.Buffer
import ByteTape.Proofs.Device.Scripts
import ByteTape.Proofs.Machine.Following
import ByteTape.Proofs.Machine.Observation
import ByteTape.Proofs.Machine.Record

/-! Runs on a pipe. As long as no call fails they are runs on a buffer of the bytes that the script
stands for, with a flush for every byte written; the first call that fails ends them. -/

namespace ByteTape

variable {τ : Type}

theorem Buffer.read_beside (world : World (Buffer × τ)) :
    world.read Buffer.device.beside = (.ok world.outside.1.read.1,
      ⟨(world.outside.1.read.2, world.outside.2), world.stopped⟩) :=
  Device.read_beside (fun buffer => (.ok buffer.read.1, buffer.read.2)) (fun _ _ => rfl) world

theorem Buffer.write_beside (byte : UInt8) (world : World (Buffer × τ)) :
    world.write Buffer.device.beside byte = (.ok (),
      ⟨(world.outside.1.write byte, world.outside.2), world.stopped⟩) :=
  Device.write_beside (fun buffer byte => (.ok (), buffer.write byte)) (fun _ _ _ => rfl) byte world

namespace Pipe

theorem read_beside (world : World (Pipe × τ)) :
    world.read device.beside = (world.outside.1.read.1,
      ⟨(world.outside.1.read.2, world.outside.2), world.stopped⟩) :=
  Device.read_beside Pipe.read (fun _ _ => rfl) world

theorem write_beside (byte : UInt8) (world : World (Pipe × τ)) :
    world.write device.beside byte = ((world.outside.1.write byte).1,
      ⟨((world.outside.1.write byte).2, world.outside.2), world.stopped⟩) :=
  Device.write_beside Pipe.write (fun _ _ _ => rfl) byte world

/-- Why the pipe will fail an instruction that comes behind those in the record. -/
def failure? (pipe : Pipe) (record : List Step) : Instruction → Option String
  | .input => pipe.readFailure? (readings record).length
  | .output =>
    (pipe.writeFailure? (writings record).length).or (pipe.flushFailure? (writings record).length)
  | _ => none

def takes (pipe : Pipe) (record : List Step) (instruction : Instruction) : Bool :=
  instruction = .output ∧ pipe.writeFailure? (writings record).length = none

structure Keeps (first : Pipe) (record : List Step) (now : Pipe) : Prop where
  reads : decidingReads now.reads = (decidingReads first.reads).drop (readings record).length
  writes : decidingWrites now.writes = (decidingWrites first.writes).drop (writings record).length
  flushes : now.flushes = first.flushes.drop (writings record).length
  written : now.written.toList = first.written.toList ++ writings record
  flushCalls : now.flushCalls = first.flushCalls + (writings record).length

namespace Keeps
variable {first now : Pipe} {record : List Step}

private theorem start (first : Pipe) : Keeps first [] first where
  reads := rfl
  writes := rfl
  flushes := rfl
  written := (List.append_nil _).symm
  flushCalls := rfl

private theorem readFailure? (keeps : Keeps first record now) :
    now.readFailure? 0 = first.readFailure? (readings record).length := by
  rw [Pipe.readFailure?, keeps.reads, List.getElem?_drop]
  rfl

private theorem writeFailure? (keeps : Keeps first record now) :
    now.writeFailure? 0 = first.writeFailure? (writings record).length := by
  rw [Pipe.writeFailure?, keeps.writes, List.getElem?_drop]
  rfl

private theorem flushFailure? (keeps : Keeps first record now) :
    now.flushFailure? 0 = first.flushFailure? (writings record).length := by
  rw [Pipe.flushFailure?, keeps.flushes, List.getElem?_drop]
  rfl

private theorem read (keeps : Keeps first record now) (before after : RunState) :
    Keeps first (record ++ [⟨before, .input, after⟩]) now.read.2 where
  reads := by simp [Pipe.read, decidingReads_nextByte, keeps.reads]
  writes := by simpa [Pipe.read] using keeps.writes
  flushes := by simpa [Pipe.read] using keeps.flushes
  written := by simpa [Pipe.read] using keeps.written
  flushCalls := by simpa [Pipe.read] using keeps.flushCalls

private theorem write (keeps : Keeps first record now) (before after : RunState)
    (taken : (now.write before.tape.current).1 = .ok ()) :
    Keeps first (record ++ [⟨before, .output, after⟩]) (now.write before.tape.current).2 := by
  cases refused : now.writeFailure? 0 with
  | some reason =>
    obtain ⟨writes, called⟩ := now.write_of_writeFailure refused before.tape.current
    rw [called] at taken
    cases taken
  | none =>
    obtain ⟨writes, rest, called⟩ := now.write_of_taken refused before.tape.current
    rw [called]
    exact {
      reads := by simpa using keeps.reads
      writes := by simp [rest, keeps.writes]
      flushes := by simp [keeps.flushes]
      written := by simp [keeps.written]
      flushCalls := by simp [keeps.flushCalls, Nat.add_assoc] }

private theorem pass (keeps : Keeps first record now) (before after : RunState)
    {instruction : Instruction} (silent : instruction ≠ .output) (deaf : instruction ≠ .input) :
    Keeps first (record ++ [⟨before, instruction, after⟩]) now where
  reads := by simp [readings_other _ _ deaf, keeps.reads]
  writes := by simp [writings_other _ _ silent, keeps.writes]
  flushes := by simp [writings_other _ _ silent, keeps.flushes]
  written := by simp [writings_other _ _ silent, keeps.written]
  flushCalls := by simp [writings_other _ _ silent, keeps.flushCalls]

private theorem read_answer (keeps : Keeps first record now) :
    match first.failure? record .input with
    | some reason => now.read.1 = .error reason
    | none => ∃ byte, now.read.1 = .ok byte := by
  have spec := now.read_eq
  rw [keeps.readFailure?] at spec
  rw [failure?]
  cases failure : first.readFailure? (readings record).length with
  | some reason =>
    rw [failure] at spec
    exact spec
  | none =>
    rw [failure] at spec
    exact spec.imp fun byte answered => answered.1

private theorem write_answer (keeps : Keeps first record now) (byte : UInt8) :
    (now.write byte).1 = (first.failure? record .output).elim (.ok ()) .error ∧
      (now.write byte).2.written.toList =
        now.written.toList ++ (if first.takes record .output then [byte] else []) ∧
      (now.write byte).2.flushCalls =
        now.flushCalls + (if first.takes record .output then 1 else 0) := by
  rw [failure?, takes, ← keeps.writeFailure?, ← keeps.flushFailure?]
  cases refused : now.writeFailure? 0 with
  | some reason =>
    obtain ⟨writes, called⟩ := now.write_of_writeFailure refused byte
    simp [called]
  | none =>
    obtain ⟨writes, -, called⟩ := now.write_of_taken refused byte
    simp [called]

end Keeps

/-- A buffer that holds the bytes which the script of reads stands for, and has taken the same
bytes as the pipe. -/
structure Refines (world : World (Pipe × τ)) (beside : World (Buffer × τ)) : Prop where
  input : beside.outside.1.input = bytes world.outside.1.reads
  output : beside.outside.1.output = world.outside.1.written
  memory : world.outside.2 = beside.outside.2
  stopped : world.stopped = beside.stopped

theorem follows_buffer (engine : Engine) (program : Program) (observer : Option (Observer τ)) :
    Machine.Follows (engine.machine program device.beside (observer.map Observer.beside))
      (engine.machine program Buffer.device.beside (observer.map Observer.beside))
      Refines fun _ => True where
  program := rfl
  jumps := rfl
  before _ _ := trivial
  stopped _ _ refines _ := refines.stopped
  observe view world beside refines := by
    obtain ⟨⟨pipe, memory⟩, stopped⟩ := world
    obtain ⟨⟨buffer, _⟩, _⟩ := beside
    obtain ⟨input, output, rfl, rfl⟩ := refines
    rw [Machine.observe, Machine.observe, Engine.machine, Engine.machine, Machine.ofProgram,
      Machine.ofProgram]
    cases engine.config.display <;> cases observer <;> exact ⟨input, output, rfl, rfl⟩
  read world beside answer later refines called _ := by
    obtain ⟨answered, rfl⟩ := Prod.mk.inj ((read_beside world).symm.trans called)
    have spec := world.outside.1.read_eq
    cases failure : world.outside.1.readFailure? 0 with
    | some reason =>
      rw [failure] at spec
      cases spec.symm.trans answered
    | none =>
      rw [failure] at spec
      obtain ⟨byte, same, next, rest⟩ := spec
      cases same.symm.trans answered
      refine ⟨_, _, Buffer.read_beside beside, ?_, ?_, ?_, refines.memory, refines.stopped⟩
      · rw [Buffer.read_eq, refines.input, next]
      · rw [Buffer.read_eq, rest, ← refines.input]
      · rw [Buffer.read_eq]
        exact refines.output
  write byte world beside later refines called _ := by
    obtain ⟨answered, rfl⟩ := Prod.mk.inj ((write_beside byte world).symm.trans called)
    refine ⟨_, Buffer.write_beside byte beside, ?_⟩
    cases refused : world.outside.1.writeFailure? 0 with
    | some reason =>
      obtain ⟨writes, same⟩ := world.outside.1.write_of_writeFailure refused byte
      rw [same] at answered
      cases answered
    | none =>
      obtain ⟨writes, -, same⟩ := world.outside.1.write_of_taken refused byte
      rw [same]
      exact ⟨refines.input, congrArg (·.push byte) refines.output, refines.memory, refines.stopped⟩

section
variable {engine : Engine} {program : Program} {observer : Option (Observer τ)} {pipe : Pipe}
  {memory : τ} {turns : Nat} {state : RunState} {world : World (Pipe × τ)}

private theorem keeps_of_running
    (ran : (engine.machine program device.beside (observer.map Observer.beside)).after
      (engine.start (pipe, memory)) turns = .running state world) :
    Keeps pipe ((engine.machine program device.beside (observer.map Observer.beside)).record
      (engine.start (pipe, memory)) turns) world.outside.1 := by
  refine Engine.record_invariant (fun record _ world => Keeps pipe record world.outside.1)
    (.start pipe) ?_ ran
  intro record before world instruction calls state later keeps asks answers
  rw [← engine.observe_beside program device observer (before.view instruction) world] at keeps
  cases asks with
  | output wrote =>
    cases answers with
    | write asked =>
      obtain ⟨taken, rfl⟩ := Prod.mk.inj ((write_beside _ _).symm.trans asked)
      exact keeps.write before state taken
  | input byte stored =>
    cases answers with
    | read asked =>
      cases congrArg Prod.snd ((read_beside _).symm.trans asked)
      exact keeps.read before state
  | nothing silent deaf =>
    rw [answers.eq_of_nothing]
    exact keeps.pass before state silent deaf

/-- A call that is to fail ends the run. The byte has been written, and the call to flush been made,
if it is only there that it fails. -/
private theorem advance_of_failure {record : List Step} {instruction : Instruction}
    {reason : String}
    (keeps : Keeps pipe record world.outside.1)
    (here : program.get? state.pc = some instruction) (going : world.stopped = false)
    (fails : pipe.failure? record instruction = some reason) :
    ∃ later, (engine.machine program device.beside (observer.map Observer.beside)).advance state
        world = .ended (.error (.device state.pc reason)) later ∧
      later.outside.1.written.toList = world.outside.1.written.toList ++
        (if pipe.takes record instruction then [state.tape.current] else []) ∧
      later.outside.1.flushCalls = world.outside.1.flushCalls +
        (if pipe.takes record instruction then 1 else 0) := by
  rw [Machine.advance_execute here going]
  rw [← engine.observe_beside program device observer (state.view instruction) world] at keeps ⊢
  generalize (engine.machine program device.beside (observer.map Observer.beside)).observe
    (state.view instruction) world = shown at keeps ⊢
  cases instruction with
  | right | left | increment | decrement | loopStart | loopEnd => cases fails
  | input =>
    have answered := keeps.read_answer
    rw [fails] at answered
    rw [Machine.concluded_input, Engine.device_machine, read_beside, answered]
    exact ⟨_, rfl, (List.append_nil _).symm, rfl⟩
  | output =>
    obtain ⟨answered, outcome⟩ := keeps.write_answer state.tape.current
    rw [fails] at answered
    rw [Machine.concluded_output, Engine.device_machine, write_beside, answered]
    exact ⟨_, rfl, outcome⟩

private theorem answered_of_fine {record : List Step} (keeps : Keeps pipe record world.outside.1)
    (fine : ∀ instruction, program.get? state.pc = some instruction → world.stopped = false →
      pipe.failure? record instruction = none) :
    ¬ ((engine.machine program device.beside (observer.map Observer.beside)).advance state
      world).LetDown := by
  rintro ⟨pc, reason, later, ended⟩
  obtain ⟨instruction, calls, here, going, breaks, answers⟩ :=
    Machine.breaks_of_advance (Engine.jumps_machine ..) ended
  have fine := fine instruction here going
  rw [← engine.observe_beside program device observer (state.view instruction) world] at keeps
  cases breaks with
  | input there =>
    cases here.symm.trans there
    cases answers with
    | read asked =>
      have answered := keeps.read_answer
      rw [fine] at answered
      obtain ⟨byte, answered⟩ := answered
      rw [Engine.device_machine, read_beside, answered] at asked
      cases asked
  | output there =>
    cases here.symm.trans there
    cases answers with
    | write asked =>
      have answered := (keeps.write_answer state.tape.current).1
      rw [Engine.device_machine, write_beside, answered, fine] at asked
      cases asked

end

/-- The pipe will fail the instruction that comes after that many turns. -/
def Fails (pipe : Pipe) (run : Machine (Pipe × τ)) (start : Progress (Pipe × τ)) (turns : Nat)
    (state : RunState) (instruction : Instruction) (reason : String) : Prop :=
  ∃ world, run.after start turns = .running state world ∧ world.stopped = false ∧
    run.program.get? state.pc = some instruction ∧
    pipe.failure? (run.record start turns) instruction = some reason

/-- None of the instructions in that many turns is one that the pipe will fail. -/
def Calm (pipe : Pipe) (run : Machine (Pipe × τ)) (start : Progress (Pipe × τ))
    (turns : Nat) : Prop :=
  ∀ earlier, earlier < turns → ∀ state instruction reason,
    ¬ pipe.Fails run start earlier state instruction reason

section
variable {engine : Engine} {program : Program} {observer : Option (Observer τ)} {pipe : Pipe}
  {memory : τ} {turns : Nat}

private theorem answered_of_calm
    (calm : pipe.Calm (engine.machine program device.beside (observer.map Observer.beside))
      (engine.start (pipe, memory)) turns) :
    ¬ ((engine.machine program device.beside (observer.map Observer.beside)).after
      (engine.start (pipe, memory)) turns).LetDown := by
  induction turns with
  | zero =>
    rintro ⟨pc, reason, world, ended⟩
    cases ended
  | succ turns ih =>
    rw [Machine.after]
    cases now : (engine.machine program device.beside (observer.map Observer.beside)).after
      (engine.start (pipe, memory)) turns with
    | ended result world =>
      rw [Machine.resume, ← now]
      exact ih fun earlier before => calm earlier (Nat.lt_succ_of_lt before)
    | running state world =>
      refine answered_of_fine (keeps_of_running now) ?_
      intro instruction here going
      rw [Option.eq_none_iff_forall_ne_some]
      intro reason fails
      exact calm turns (Nat.lt_succ_self turns) state instruction reason
        ⟨world, now, going, here, fails⟩

private theorem keeps_of_calm
    (calm : pipe.Calm (engine.machine program device.beside (observer.map Observer.beside))
      (engine.start (pipe, memory)) turns) :
    Keeps pipe ((engine.machine program device.beside (observer.map Observer.beside)).record
        (engine.start (pipe, memory)) turns)
      ((engine.machine program device.beside (observer.map Observer.beside)).after
        (engine.start (pipe, memory)) turns).world.outside.1 := by
  have answered := answered_of_calm calm
  cases now : (engine.machine program device.beside (observer.map Observer.beside)).after
    (engine.start (pipe, memory)) turns with
  | running state world => exact keeps_of_running now
  | ended result later =>
    rw [now] at answered
    obtain ⟨count, state, world, past, ran, advanced⟩ := Machine.ended_of_after now
    have kept : later.outside.1 = world.outside.1 := by
      obtain ⟨-, -, rfl⟩ | ⟨-, -, -, -, -, rfl⟩ :=
        Machine.ended_of_advance (Engine.jumps_machine ..) advanced answered
      · rfl
      · exact engine.observe_beside ..
    rw [Progress.world, kept, Engine.start, Machine.record_of_ended ran advanced past]
    exact keeps_of_running ran

private theorem together_of_calm
    (calm : pipe.Calm (engine.machine program device.beside (observer.map Observer.beside))
      (engine.start (pipe, memory)) turns) :
    Machine.Together Eq Refines
      ((engine.machine program device.beside (observer.map Observer.beside)).after
        (engine.start (pipe, memory)) turns)
      ((engine.machine program Buffer.device.beside (observer.map Observer.beside)).after
        (engine.start (⟨bytes pipe.reads, pipe.written⟩, memory)) turns) :=
  Machine.after_follows (follows_buffer engine program observer)
    (.running ⟨rfl, rfl, rfl, rfl, rfl⟩ ⟨rfl, rfl, rfl, rfl⟩) turns trivial (answered_of_calm calm)

private theorem ended_of_fails {state : RunState} {instruction : Instruction} {reason : String}
    (fails : pipe.Fails (engine.machine program device.beside (observer.map Observer.beside))
      (engine.start (pipe, memory)) turns state instruction reason) :
    let record := (engine.machine program device.beside (observer.map Observer.beside)).record
      (engine.start (pipe, memory)) turns
    ∃ later, (engine.machine program device.beside (observer.map Observer.beside)).after
        (engine.start (pipe, memory)) (turns + 1) =
          .ended (.error (.device state.pc reason)) later ∧
      later.outside.1.written.toList = pipe.written.toList ++ writings record ++
        (if pipe.takes record instruction then [state.tape.current] else []) ∧
      later.outside.1.flushCalls = pipe.flushCalls + (writings record).length +
        (if pipe.takes record instruction then 1 else 0) := by
  obtain ⟨world, ran, going, here, failure⟩ := fails
  have keeps := keeps_of_running ran
  rw [Engine.program_machine] at here
  obtain ⟨later, advanced, written, flushed⟩ := advance_of_failure keeps here going failure
  rw [keeps.written] at written
  rw [keeps.flushCalls] at flushed
  refine ⟨later, ?_, written, flushed⟩
  rw [Machine.after, ran, Machine.resume, advanced]

private theorem calm_of_running {state : RunState} {world : World (Pipe × τ)}
    (ran : (engine.machine program device.beside (observer.map Observer.beside)).after
      (engine.start (pipe, memory)) turns = .running state world) :
    pipe.Calm (engine.machine program device.beside (observer.map Observer.beside))
      (engine.start (pipe, memory)) turns := by
  intro earlier before state instruction reason fails
  obtain ⟨later, ended, -⟩ := ended_of_fails fails
  rw [Machine.after_of_ended ended before] at ran
  cases ran

end

private theorem ended_iff_of_together {left : Progress (Pipe × τ)} {right : Progress (Buffer × τ)}
    (together : Machine.Together Eq Refines left right) (result : Except Fault Report)
    (output : Array UInt8) (memory : τ) (stopped : Bool) :
    (∃ pipe : Pipe, pipe.written = output ∧ left = .ended result ⟨(pipe, memory), stopped⟩) ↔
      ∃ input, right = .ended result ⟨(⟨input, output⟩, memory), stopped⟩ := by
  cases together with
  | running => simp
  | @ended result world beside refines =>
    obtain ⟨⟨pipe, memory⟩, stopped⟩ := world
    obtain ⟨⟨⟨queue, written⟩, _⟩, _⟩ := beside
    obtain ⟨-, rfl, rfl, rfl⟩ := refines
    simp [and_assoc, and_left_comm]

/-- As long as no call fails, a run on a pipe is at each turn where the run on a buffer of the bytes
in its script is, with the same bytes written and one flush for each; and so they return
the same. The first call that fails ends the run, with the reason and the place. By then the
instructions before it have written, and the byte of its own is out if only the flush has failed. -/
theorem pipe_refines_buffer_until_a_call_fails (engine : Engine) (program : Program)
    (observer : Option (Observer τ)) (pipe : Pipe) (memory : τ) :
    let run := engine.machine program device.beside (observer.map Observer.beside)
    let model := engine.machine program Buffer.device.beside (observer.map Observer.beside)
    let start := engine.start (pipe, memory)
    let buffer : Buffer := ⟨bytes pipe.reads, pipe.written⟩
    let returns := engine.Returns program device.beside (observer.map Observer.beside)
      (pipe, memory)
    (∀ turns, pipe.Calm run start turns →
      Machine.Together Eq Refines (run.after start turns)
        (model.after (engine.start (buffer, memory)) turns) ∧
      Keeps pipe (run.record start turns) (run.after start turns).world.outside.1) ∧
    ((∀ turns, pipe.Calm run start turns) → ∀ result output final stopped,
      (∃ left, left.written = output ∧
        returns ⟨result, (left, final), { engine with stopRequested := stopped }⟩) ↔
      ∃ input, engine.Returns program Buffer.device.beside (observer.map Observer.beside)
        (buffer, memory)
        ⟨result, (⟨input, output⟩, final), { engine with stopRequested := stopped }⟩) ∧
    ∀ turns state instruction reason,
      pipe.Fails run start turns state instruction reason →
      let record := run.record start turns
      pipe.Calm run start turns ∧
      ∃ left final stopped,
        returns ⟨.error (.device state.pc reason), (left, final),
          { engine with stopRequested := stopped }⟩ ∧
        left.written.toList = pipe.written.toList ++ writings record ++
          (if pipe.takes record instruction then [state.tape.current] else []) ∧
        left.flushCalls = pipe.flushCalls + (writings record).length +
          (if pipe.takes record instruction then 1 else 0) := by
  intro run model start buffer returns
  refine ⟨?_, ?_, ?_⟩
  · intro turns calm
    exact ⟨together_of_calm calm, keeps_of_calm calm⟩
  · intro calm result output final stopped
    have ends (turns : Nat) := ended_iff_of_together (together_of_calm (calm turns)) result output
      final stopped
    simp only [returns, Engine.returns_iff_ended]
    constructor
    · rintro ⟨left, written, turns, ended⟩
      obtain ⟨input, there⟩ := (ends turns).mp ⟨left, written, ended⟩
      exact ⟨input, turns, there⟩
    · rintro ⟨input, turns, ended⟩
      obtain ⟨left, written, there⟩ := (ends turns).mpr ⟨input, ended⟩
      exact ⟨left, written, turns, there⟩
  · intro turns state instruction reason fails
    obtain ⟨later, ended, outcome⟩ := ended_of_fails fails
    obtain ⟨world, ran, -⟩ := fails
    refine ⟨calm_of_running ran, later.outside.1, later.outside.2, later.stopped, ?_, outcome⟩
    exact (Engine.returns_iff_ended ..).mpr ⟨turns + 1, ended⟩

theorem pipe_refines_buffer_until_a_call_fails_interrupted_flush :
    let engine : Engine := ⟨.ofMemory 1, ⟨by decide, by decide, by decide⟩, none, false⟩
    let program : Program := ⟨Token.ofSource ",."⟩
    let pipe : Pipe := ⟨[.interrupted, .byte 65], [], [.interrupted], #[], 0⟩
    ∃ left final stopped,
      engine.Returns program device.beside none (pipe, ())
        ⟨.error (.device 1 "interrupted"), (left, final),
          { engine with stopRequested := stopped }⟩ ∧
      left.written.toList = [65] ∧ left.flushCalls = 1 := by
  intro engine program pipe
  obtain ⟨-, -, ends⟩ := pipe_refines_buffer_until_a_call_fails engine program
    (none : Option (Observer Unit)) pipe ()
  obtain ⟨-, left, final, stopped, returns, written, flushed⟩ :=
    ends 1 _ .output "interrupted" ⟨_, rfl, rfl, rfl, rfl⟩
  exact ⟨left, final, stopped, returns, written, flushed⟩

end Pipe
end ByteTape
