import ByteTape.Device.Buffer
import ByteTape.Machine.StopPlan
import ByteTape.Proofs.Machine.Executions
import ByteTape.Proofs.Machine.Record

/-! Buffers that are handed from one run to the next. Every byte that is queued is either read, once
and in its turn, or still there; and the output is what the instructions have written. -/

namespace ByteTape

variable {σ : Type}

/-- A value has been stored under the pointer, and nothing else has changed. -/
structure Tape.Stored (before : Tape) (value : UInt8) (after : Tape) : Prop where
  current : after.current = value
  pointer : after.pointer = before.pointer
  others : ∀ cell, cell ≠ before.pointer → after.cells[cell]? = before.cells[cell]?

theorem Tape.stored_setCurrent (tape : Tape) (value : UInt8) :
    tape.Stored value (tape.setCurrent value) where
  current := tape.current_setCurrent value
  pointer := rfl
  others cell away := by
    rw [tape.getElem?_cells_setCurrent, if_neg away.symm]

def Event.delivered? : Event → Option UInt8
  | .read (.ok byte) => byte
  | _ => none

def delivered (calls : List Event) : List UInt8 := calls.filterMap Event.delivered?

@[simp] theorem delivered_append (calls more : List Event) :
    delivered (calls ++ more) = delivered calls ++ delivered more := List.filterMap_append

@[simp] theorem delivered_wrote (byte : UInt8) (answer : Except String Unit) :
    delivered [.wrote byte answer] = [] := rfl

@[simp] theorem delivered_read (byte : Option UInt8) :
    delivered [.read (.ok byte)] = byte.toList := by
  cases byte <;> rfl

namespace Buffer

theorem read_drop (buffer : Buffer) {input : List UInt8} {taken : Nat}
    (rest : buffer.input = input.drop taken) :
    buffer.read.1 = input[taken]? ∧ buffer.read.2.input = input.drop (taken + 1) ∧
      buffer.read.2.output = buffer.output := by
  rw [read_eq, rest, List.head?_drop, List.tail_drop]
  exact ⟨rfl, rfl, rfl⟩

/-- In what is outside of a run there is a buffer. The device goes to it for every byte, and the
observer leaves it alone; both may ask for a stop, and keep what they like beside it. -/
structure Serves (buffer : σ → Buffer) (device : Device σ) (observer : Option (Observer σ)) :
    Prop where
  read : ∀ stopped outside, (device.read stopped outside).value = .ok (buffer outside).read.1 ∧
    buffer (device.read stopped outside).outside = (buffer outside).read.2
  write : ∀ byte stopped outside, (device.write byte stopped outside).value = .ok () ∧
    buffer (device.write byte stopped outside).outside = (buffer outside).write byte
  observe : ∀ watch, observer = some watch → ∀ view outside,
    buffer (watch view outside).outside = buffer outside

theorem serves_device : Serves id Buffer.device none where
  read _ _ := ⟨rfl, rfl⟩
  write _ _ _ := ⟨rfl, rfl⟩
  observe _ := nofun

theorem serves_stopPlan (plan : StopPlan) (limit : Nat) :
    Serves Watched.outside (plan.device device) (some (plan.observer limit)) where
  read stopped outside := ⟨rfl, rfl⟩
  write byte stopped outside := ⟨rfl, rfl⟩
  observe watch same view outside := by
    cases same
    rfl

namespace Serves
variable {buffer : σ → Buffer} {device : Device σ} {observer : Option (Observer σ)}

theorem traced (serves : Serves buffer device observer) :
    Serves (buffer ∘ Traced.outside) device.traced (observer.map Observer.traced) where
  read stopped outside := serves.read stopped outside.outside
  write byte stopped outside := serves.write byte stopped outside.outside
  observe watch same view outside := by
    obtain ⟨inner, found, rfl⟩ := Option.map_eq_some_iff.mp same
    exact serves.observe inner found view outside.outside

theorem observed (serves : Serves buffer device observer) (engine : Engine) (program : Program)
    (view : MachineView) (world : World σ) :
    buffer ((engine.machine program device observer).observe view world).outside =
      buffer world.outside := by
  rw [Machine.observe, Engine.machine, Machine.ofProgram]
  cases engine.config.display with
  | false => rfl
  | true =>
    cases watched : observer with
    | none => rfl
    | some watch => exact serves.observe watch watched view world.outside

theorem answer_read (serves : Serves buffer device observer) {world later : World σ}
    {answer : Except String (Option UInt8)} (answers : device.Answers world [.read answer] later) :
    answer = .ok (buffer world.outside).read.1 ∧
      buffer later.outside = (buffer world.outside).read.2 := by
  cases answers with
  | read asked =>
    cases asked
    exact serves.read world.stopped world.outside

theorem answer_write (serves : Serves buffer device observer) {world later : World σ}
    {byte : UInt8} {answer : Except String Unit}
    (answers : device.Answers world [.wrote byte answer] later) :
    answer = .ok () ∧ buffer later.outside = (buffer world.outside).write byte := by
  cases answers with
  | write asked =>
    cases asked
    exact serves.write byte world.stopped world.outside

end Serves

structure Accounts (first : Buffer) (record : List Step) (calls : List Event) (now : Buffer) :
    Prop where
  output : now.output.toList = first.output.toList ++ writings record
  written : written calls = writings record
  input : now.input = first.input.drop (readings record).length
  consumed : delivered calls = first.input.take (readings record).length
  stored : ∀ (index : Nat) (step : Step), (readings record)[index]? = some step →
    step.before.tape.Stored (first.input[index]?.getD 0) step.after.tape

namespace Accounts
variable {first now : Buffer} {record : List Step} {calls : List Event}

theorem start (first : Buffer) : Accounts first [] [] first where
  output := (List.append_nil _).symm
  written := rfl
  input := rfl
  consumed := rfl
  stored _ _ found := by cases found

theorem whole (accounts : Accounts first record calls now) :
    first.input = delivered calls ++ now.input := by
  rw [accounts.consumed, accounts.input, List.take_append_drop]

private theorem length_delivered (accounts : Accounts first record calls now) :
    (delivered calls).length = min (readings record).length first.input.length := by
  rw [accounts.consumed, List.length_take]

theorem write (accounts : Accounts first record calls now) (before after : RunState) :
    Accounts first (record ++ [⟨before, .output, after⟩])
      (calls ++ [.wrote before.tape.current (.ok ())]) (now.write before.tape.current) where
  output := by simp [Buffer.write, accounts.output]
  written := by simp [accounts.written]
  input := by simpa [Buffer.write] using accounts.input
  consumed := by simp [accounts.consumed]
  stored := by simpa using accounts.stored

theorem read (accounts : Accounts first record calls now) (before : RunState) :
    Accounts first
      (record ++ [⟨before, .input, before.next (·.setCurrent (now.read.1.getD 0))⟩])
      (calls ++ [.read (.ok now.read.1)]) now.read.2 where
  output := by simp [(now.read_drop accounts.input).2.2, accounts.output]
  written := by simp [accounts.written]
  input := by simp [(now.read_drop accounts.input).2.1]
  consumed := by
    simp [(now.read_drop accounts.input).1, accounts.consumed, List.take_add_one]
  stored := by
    intro index step found
    rw [readings_append, readings_input] at found
    rcases Nat.lt_trichotomy index (readings record).length with inside | rfl | beyond
    · rw [List.getElem?_append_left inside] at found
      exact accounts.stored index step found
    · rw [List.getElem?_concat_length] at found
      cases found
      rw [(now.read_drop accounts.input).1]
      exact before.tape.stored_setCurrent _
    · rw [List.getElem?_eq_none (by simpa using Nat.succ_le_of_lt beyond)] at found
      cases found

theorem pass (accounts : Accounts first record calls now) (before after : RunState)
    {instruction : Instruction} (silent : instruction ≠ .output) (deaf : instruction ≠ .input) :
    Accounts first (record ++ [⟨before, instruction, after⟩]) calls now where
  output := by simp [writings_other _ _ silent, accounts.output]
  written := by simp [writings_other _ _ silent, accounts.written]
  input := by simp [readings_other _ _ deaf, accounts.input]
  consumed := by simp [readings_other _ _ deaf, accounts.consumed]
  stored := by simpa [readings_other _ _ deaf] using accounts.stored

end Accounts

/-- A buffer passes through many hands: bytes are queued in it, and it is what runs read from and
write to, until they complete, are stopped or break off. -/
inductive Passes (first : Buffer) :
    (supplied consumed produced : List UInt8) → Buffer → Prop where
  | fresh : Passes first first.input [] [] first
  | supply {supplied consumed produced : List UInt8} {now : Buffer}
      (before : Passes first supplied consumed produced now) (bytes : List UInt8) :
      Passes first (supplied ++ bytes) consumed produced (now.supply bytes)
  | run {supplied consumed produced : List UInt8} {σ : Type} {buffer : σ → Buffer}
      {device : Device σ} {observer : Option (Observer σ)} {engine : Engine} {program : Program}
      {outside : σ} {finished : Finished (Traced σ)}
      (before : Passes first supplied consumed produced (buffer outside))
      (serves : Serves buffer device observer)
      (ends : engine.Returns program device.traced (observer.map Observer.traced)
        (.start outside) finished) :
      Passes first supplied (consumed ++ delivered finished.outside.calls)
        (produced ++ written finished.outside.calls) (buffer finished.outside.outside)

section
variable {buffer : σ → Buffer} {device : Device σ} {observer : Option (Observer σ)}
  {engine : Engine} {program : Program} {outside : σ} {turns : Nat} {state : RunState}
  {world : World (Traced σ)}

theorem accounts_of_running (serves : Serves buffer device observer)
    (ran : (engine.machine program device.traced (observer.map Observer.traced)).after
      (engine.start (.start outside)) turns = .running state world) :
    Accounts (buffer outside)
      ((engine.machine program device.traced (observer.map Observer.traced)).record
        (engine.start (.start outside)) turns) world.outside.calls
      (buffer world.outside.outside) := by
  refine Engine.record_invariant
    (fun record state world => Accounts (buffer outside) record world.outside.calls
      (buffer world.outside.outside)) (.start _) ?_ ran
  intro record before world instruction calls state later accounts asks answers
  have observed := serves.traced.observed engine program (before.view instruction) world
  rw [Engine.calls_of_answers answers]
  cases asks with
  | output wrote =>
    have written := (serves.traced.answer_write answers).2
    rw [observed] at written
    have taken : buffer later.outside.outside =
        (buffer world.outside.outside).write before.tape.current := written
    rw [taken]
    exact accounts.write before state
  | input byte stored =>
    obtain ⟨same, left⟩ := serves.traced.answer_read answers
    rw [observed] at same left
    cases same
    have read : buffer later.outside.outside = (buffer world.outside.outside).read.2 := left
    rw [stored, read]
    exact accounts.read before
  | nothing silent deaf =>
    have kept : buffer later.outside.outside = buffer world.outside.outside := by
      rw [answers.eq_of_nothing]
      exact observed
    rw [kept, List.append_nil]
    exact accounts.pass before state silent deaf

/-- The turn with which a run ends does nothing to the buffer. -/
theorem calls_of_ended (serves : Serves buffer device observer)
    {result : Except Fault Report} {later : World (Traced σ)}
    (advanced : (engine.machine program device.traced (observer.map Observer.traced)).advance
      state world = .ended result later) :
    later.outside.calls = world.outside.calls ∧
      buffer later.outside.outside = buffer world.outside.outside ∧
      ∀ pc reason, result ≠ .error (.device pc reason) := by
  have turn := Machine.turn_advance
    (Engine.jumps_machine engine program device.traced (observer.map Observer.traced)) state world
  rw [advanced] at turn
  cases turn with
  | completed | stopped => exact ⟨rfl, rfl, nofun⟩
  | @breaks instruction calls fault _ here going rule answers =>
    have observed := serves.traced.observed engine program (state.view instruction) world
    have calls := Engine.calls_of_answers answers
    cases rule with
    | output there reason => cases (serves.traced.answer_write answers).1
    | input there reason => cases (serves.traced.answer_read answers).1
    | right | left | skip | again =>
      rw [answers.eq_of_nothing]
      rw [answers.eq_of_nothing] at calls
      exact ⟨calls.trans (List.append_nil _), observed, nofun⟩

/-- At every moment a run has done what it had done when it last went on. -/
theorem exists_running (serves : Serves buffer device observer) (engine : Engine)
    (program : Program) (outside : σ) (turns : Nat) :
    let run := engine.machine program device.traced (observer.map Observer.traced)
    let start := engine.start (.start outside)
    let seen := (run.after start turns).world.outside
    ∃ count state world, run.after start count = .running state world ∧
      run.record start turns = run.record start count ∧ seen.calls = world.outside.calls ∧
      buffer seen.outside = buffer world.outside.outside := by
  intro run start seen
  cases now : run.after start turns with
  | running state world =>
    have same : seen = world.outside := congrArg (·.world.outside) now
    exact ⟨turns, state, world, now, rfl, congrArg Traced.calls same,
      congrArg (buffer ·.outside) same⟩
  | ended result world =>
    have same : seen = world.outside := congrArg (·.world.outside) now
    obtain ⟨count, last, earlier, past, ran, advanced⟩ := Machine.ended_of_after now
    obtain ⟨calls, kept, -⟩ := calls_of_ended serves advanced
    exact ⟨count, last, earlier, ran, Machine.record_of_ended ran advanced past,
      (congrArg Traced.calls same).trans calls, (congrArg (buffer ·.outside) same).trans kept⟩

theorem accounts_after (serves : Serves buffer device observer) (engine : Engine)
    (program : Program) (outside : σ) (turns : Nat) :
    let run := engine.machine program device.traced (observer.map Observer.traced)
    let seen := (run.after (engine.start (.start outside)) turns).world.outside
    Accounts (buffer outside) (run.record (engine.start (.start outside)) turns) seen.calls
      (buffer seen.outside) := by
  intro run seen
  obtain ⟨count, state, world, ran, record, calls, kept⟩ :=
    exists_running serves engine program outside turns
  rw [record, calls, kept]
  exact accounts_of_running serves ran

end

theorem Passes.conserves {first now : Buffer} {supplied consumed produced : List UInt8}
    (passes : Passes first supplied consumed produced now) :
    supplied = consumed ++ now.input ∧ now.output.toList = first.output.toList ++ produced := by
  induction passes with
  | fresh => exact ⟨rfl, (List.append_nil _).symm⟩
  | supply before bytes ih =>
    rw [ih.1, Buffer.supply, List.append_assoc]
    exact ⟨rfl, ih.2⟩
  | @run _ _ _ _ _ _ _ engine program outside _ before serves ends ih =>
    obtain ⟨turns, result, world, ended, rfl⟩ := (Engine.returns_iff ..).mp ends
    have accounts := accounts_after serves engine program outside turns
    simp only [ended, Progress.world] at accounts
    refine ⟨?_, ?_⟩
    · rw [ih.1, accounts.whole, List.append_assoc]
    · rw [← List.append_assoc, ← ih.2]
      exact accounts.output.trans (congrArg _ accounts.written.symm)

/-- No byte is lost, doubled or put out of order, however many runs share a buffer and however
they end. When it goes on to a further run, the same is true at every moment of that run: each
instruction that reads stores the next byte of the queue in the current cell, or zero when there is
none left, and leaves the pointer and the other cells alone; and the output grows by the current
cell of each instruction that writes. A report counts them. -/
theorem bytes_are_conserved_across_runs {first now : Buffer}
    {supplied consumed produced : List UInt8} (past : Passes first supplied consumed produced now)
    {buffer : σ → Buffer} {device : Device σ} {observer : Option (Observer σ)}
    (serves : Serves buffer device observer) (engine : Engine) (program : Program) (outside : σ)
    (handed : buffer outside = now) :
    let run := engine.machine program device.traced (observer.map Observer.traced)
    let start := engine.start (Traced.start outside)
    let seen (turns : Nat) := (run.after start turns).world.outside
    let left (turns : Nat) := buffer (seen turns).outside
    let returns := engine.Returns program device.traced (observer.map Observer.traced)
      (.start outside)
    (supplied = consumed ++ now.input ∧
      now.output.toList = first.output.toList ++ produced) ∧
    (∀ turns, Accounts now (run.record start turns) (seen turns).calls (left turns) ∧
      (delivered (seen turns).calls).length =
        min (readings (run.record start turns)).length now.input.length ∧
      supplied = consumed ++ delivered (seen turns).calls ++ (left turns).input ∧
      (left turns).output.toList = first.output.toList ++ produced ++ written (seen turns).calls) ∧
    (∀ finished, returns finished → ∃ turns, finished.outside = seen turns ∧
      (∀ later, turns ≤ later → run.record start later = run.record start turns) ∧
      (∀ report, finished.result = .ok report →
        report.outputBytes = (writings (run.record start turns)).length) ∧
      ∀ pc reason, finished.result ≠ .error (.device pc reason)) := by
  subst handed
  intro run start seen left returns
  have conserved := past.conserves
  have accounts (turns : Nat) : Accounts (buffer outside) (run.record start turns)
      (seen turns).calls (left turns) := accounts_after serves engine program outside turns
  refine ⟨conserved, ?_, ?_⟩
  · intro turns
    refine ⟨accounts turns, (accounts turns).length_delivered, ?_, ?_⟩
    · rw [conserved.1, List.append_assoc, ← (accounts turns).whole]
    · rw [(accounts turns).output, conserved.2, (accounts turns).written]
  · intro finished returned
    obtain ⟨turns, result, world, ended, rfl⟩ := (Engine.returns_iff ..).mp returned
    obtain ⟨count, last, earlier, before, ran, advanced⟩ := Machine.ended_of_after ended
    have whole {later : Nat} (past : count < later) :
        run.record start later = run.record start count :=
      Machine.record_of_ended ran advanced past
    refine ⟨turns, ?_, ?_, ?_, ?_⟩
    · exact congrArg (·.world.outside) ended.symm
    · intro later le
      rw [whole (Nat.lt_of_lt_of_le before le), whole before]
    · rintro report ⟨⟩
      have bytes : last.outputBytes = _ := Engine.outputBytes_after ran
      obtain ⟨-, ⟨-, rfl⟩ | ⟨-, rfl⟩⟩ := Machine.report_of_advance advanced
      · exact bytes.trans (congrArg (fun record => (writings record).length) (whole before).symm)
      · exact bytes.trans (congrArg (fun record => (writings record).length) (whole before).symm)
    · exact (calls_of_ended serves advanced).2.2

theorem bytes_are_conserved_across_runs_stopped_read :
    let engine : Engine := ⟨.ofMemory 1, ⟨by decide, by decide, by decide⟩, none, false⟩
    let program : Program := ⟨Token.ofSource ",."⟩
    ∃ now, Passes (.ofInput [5]) [5, 7] [5] [] now ∧
      ∀ turns, [5, 7] =
        [5] ++ delivered ((engine.machine program Buffer.device.traced none).after
          (engine.start (.start now)) turns).world.outside.calls ++
        ((engine.machine program Buffer.device.traced none).after
          (engine.start (.start now)) turns).world.outside.outside.input := by
  intro engine program
  let plan : StopPlan := ⟨fun _ => false, (· == 0), fun _ => false⟩
  have ends : engine.Returns program (plan.device Buffer.device).traced
      ((some (plan.observer 0)).map Observer.traced) (.start (.start (.ofInput [5]))) _ :=
    ⟨3, rfl⟩
  have past : Passes (.ofInput [5]) [5, 7] [5] [] _ :=
    .supply (.run .fresh (serves_stopPlan plan 0) ends) [7]
  obtain ⟨-, moments, -⟩ := bytes_are_conserved_across_runs past serves_device engine program _ rfl
  exact ⟨_, past, fun turns => (moments turns).2.2.1⟩

end Buffer
end ByteTape
