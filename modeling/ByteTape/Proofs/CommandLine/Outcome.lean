import ByteTape.CommandLine
import ByteTape.Proofs.Device.Conservation
import ByteTape.Proofs.Device.PlainPipes
import ByteTape.Proofs.Engine.History
import ByteTape.Proofs.Machine.Requests

/-! What comes of the command line without a display. Several stages may have something wrong with
them; the first of these is the only one that is told of, and what has been written until
then is written all the same. -/

namespace ByteTape

namespace Engine

private theorem completed_of_returns {engine : Engine} {program : Program} {buffer : Buffer}
    {finished : Finished (Traced Buffer)} {report : Report}
    (returns : engine.Returns program Buffer.device.traced none (.start buffer) finished)
    (result : finished.result = .ok report) : report.ending = .completed := by
  have unasked : finished.engine.stopRequested = false := by
    rw [Bool.eq_false_iff, Ne, stopRequested_of_returns returns]
    rintro ⟨state, world, -, -, instruction, -, asks⟩
    have unseen : (engine.machine program Buffer.device.traced none).observer = none :=
      ite_self none
    rw [Machine.observerAsks, unseen] at asks
    cases instruction <;> cases asks
  obtain ⟨state, -, ⟨-, rfl⟩ | ⟨-, asked, -⟩⟩ := reaches_of_report returns result
  · rfl
  · rw [unasked] at asked
    cases asked

end Engine

namespace CommandLine

/-- What may go wrong, in the order in which it is found out. -/
inductive Stage where
  | memory
  | delay
  | file
  | source
  | run
  deriving DecidableEq

def Stage.earlier : Stage → List Stage
  | .memory => []
  | .delay => [.memory]
  | .file => [.memory, .delay]
  | .source => [.memory, .delay, .file]
  | .run => [.memory, .delay, .file, .source]

private theorem Stage.eq_or_earlier (stage other : Stage) :
    stage = other ∨ stage ∈ other.earlier ∨ other ∈ stage.earlier := by
  cases stage <;> cases other <;> decide

def settings (options : Options) : Config where
  memorySize := options.memory.toNat
  display := options.display
  stepDelay := options.delay
  jumpStrategy := if options.jumpTable then .table else .scan
  outputWidth := some Config.defaultOutputWidth

def rule (options : Options) : BracketRule :=
  if options.strictNesting then .nested else .counted

section
variable (options : Options) (surroundings : Surroundings)

structure Ready (engine : Engine) (program : Program) : Prop where
  config : engine.config = settings options
  loaded : engine.program = some program
  fresh : engine.stopRequested = false
  accepted : ∃ source, surroundings.contentOf options.file = .ok source ∧
    Program.parse source (rule options) = .ok program

/-- How the run of the program ends. What it reads and writes is kept with its calls. -/
def Runs (engine : Engine) (program : Program) (finished : Finished (Traced Buffer)) : Prop :=
  engine.Returns program Buffer.device.traced none (.start (.ofInput surroundings.input)) finished

/-- Something is wrong with a stage, whatever is wrong with the others. -/
inductive Fails : Stage → Failure → Prop where
  | memory (few : options.memory < 1) :
      Fails .memory (.configuration (.invalidMemorySize options.memory))
  | delay (negative : options.delay < 0) :
      Fails .delay (.configuration (.negativeStepDelay options.delay))
  | file {reason : String} (unreadable : surroundings.contentOf options.file = .error reason) :
      Fails .file (.configuration (.unreadableFile options.file reason))
  | source {source : String} {error : ParseError}
      (content : surroundings.contentOf options.file = .ok source)
      (refused : Program.parse source (rule options) = .error error) :
      Fails .source (.parse error)
  | run {engine : Engine} {program : Program} {finished : Finished (Traced Buffer)} {fault : Fault}
      (ready : Ready options surroundings engine program)
      (ends : Runs surroundings engine program finished) (broken : finished.result = .error fault) :
      Fails .run (.run fault)

def FailsFirst (stage : Stage) (failure : Failure) : Prop :=
  Fails options surroundings stage failure ∧
    ∀ earlier ∈ stage.earlier, ∀ other, ¬ Fails options surroundings earlier other

end

section
variable {options : Options} {surroundings : Surroundings} {engine other : Engine}
  {program again : Program} {stage : Stage} {failure : Failure}

theorem Ready.unique (ready : Ready options surroundings engine program)
    (more : Ready options surroundings other again) : engine = other ∧ program = again := by
  obtain ⟨config, valid, loaded, stopRequested⟩ := engine
  obtain ⟨_, _, _, _⟩ := other
  obtain ⟨rfl, rfl, rfl, source, content, parsed⟩ := ready
  obtain ⟨rfl, rfl, rfl, _, same, reparsed⟩ := more
  cases content.symm.trans same
  cases parsed.symm.trans reparsed
  exact ⟨rfl, rfl⟩

theorem Ready.bounds (ready : Ready options surroundings engine program) :
    1 ≤ options.memory ∧ 0 ≤ options.delay := by
  have valid : (settings options).Valid := ready.config ▸ engine.valid
  have memory : 0 < options.memory.toNat := valid.memory
  exact ⟨by omega, valid.delay⟩

/-- When the run can start, only the run may still fail. -/
theorem Ready.eq_run (ready : Ready options surroundings engine program)
    (fails : Fails options surroundings stage failure) : stage = .run := by
  obtain ⟨memory, delay⟩ := ready.bounds
  obtain ⟨source, content, parsed⟩ := ready.accepted
  cases fails with
  | memory few => omega
  | delay negative => omega
  | file unreadable => cases content.symm.trans unreadable
  | source same refused =>
    cases content.symm.trans same
    cases parsed.symm.trans refused
  | run => rfl

theorem Fails.unique {failure other : Failure} (fails : Fails options surroundings stage failure)
    (again : Fails options surroundings stage other) : failure = other := by
  cases fails with
  | memory few => cases again; rfl
  | delay negative => cases again; rfl
  | file unreadable =>
    cases again with
    | file same =>
      cases unreadable.symm.trans same
      rfl
  | source content refused =>
    cases again with
    | source same error =>
      cases content.symm.trans same
      cases refused.symm.trans error
      rfl
  | run ready ends broken =>
    cases again with
    | run more same fault =>
      obtain ⟨rfl, rfl⟩ := ready.unique more
      cases Engine.Returns.unique ends same
      cases broken.symm.trans fault
      rfl

theorem FailsFirst.unique {stage later : Stage} {failure other : Failure}
    (first : FailsFirst options surroundings stage failure)
    (again : FailsFirst options surroundings later other) : stage = later ∧ failure = other := by
  obtain rfl | before | before := stage.eq_or_earlier later
  · exact ⟨rfl, first.1.unique again.1⟩
  · exact absurd first.1 (again.2 stage before failure)
  · exact absurd again.1 (first.2 later before other)

end

section
variable {options : Options} {surroundings : Surroundings} {stage : Stage} {failure : Failure}

private theorem engine_eq (options : Options) :
    engine options =
      if options.memory < 1 then .error (.invalidMemorySize options.memory)
      else Engine.ofConfig (settings options) := by
  rw [engine, Config.ofRequestedMemory]
  split
  · rfl
  · rfl

theorem problem?_settings (enough : ¬ options.memory < 1) :
    (settings options).problem? =
      if options.delay < 0 then some (.negativeStepDelay options.delay) else none := by
  have size : options.memory.toNat ≠ 0 := by omega
  simp [Config.problem?, settings, size, Config.defaultOutputWidth]

private theorem prepare_cases (options : Options) (surroundings : Surroundings) :
    (∃ started program, Ready options surroundings started program ∧
      prepare options (surroundings.contentOf options.file) = .ok started) ∨
    ∃ stage failure, stage ≠ .run ∧ FailsFirst options surroundings stage failure ∧
      prepare options (surroundings.contentOf options.file) = .error failure := by
  rw [prepare, engine_eq]
  by_cases few : options.memory < 1
  · rw [if_pos few]
    refine .inr ⟨.memory, _, by decide, ⟨.memory few, ?_⟩, rfl⟩
    intro earlier member
    cases member
  rw [if_neg few]
  by_cases negative : options.delay < 0
  · rw [Engine.ofConfig_of_problem ((problem?_settings few).trans (if_pos negative))]
    refine .inr ⟨.delay, _, by decide, ⟨.delay negative, ?_⟩, rfl⟩
    intro earlier member other fails
    cases List.mem_singleton.mp member
    cases fails with
    | memory less => exact few less
  obtain ⟨made, new⟩ := Engine.exists_ofConfig ((problem?_settings few).trans (if_neg negative))
  obtain ⟨config, empty, fresh⟩ := Engine.new_of_ofConfig new
  rw [new]
  -- From here on the settings are sound, and only what is in the file can be wrong.
  have sound (earlier : Stage) (member : earlier ∈ Stage.file.earlier) (other : Failure) :
      ¬ Fails options surroundings earlier other := by
    intro fails
    cases fails with
    | memory less => exact few less
    | delay less => exact negative less
    | file | source | run => exact absurd member (by decide)
  cases content : surroundings.contentOf options.file with
  | error reason => exact .inr ⟨.file, _, by decide, ⟨.file content, sound⟩, rfl⟩
  | ok source =>
    dsimp only
    rw [Engine.loadFile_ok, Engine.load]
    cases parsed : Program.parse source (if options.strictNesting then .nested else .counted) with
    | error error =>
      refine .inr ⟨.source, _, by decide, ⟨.source content parsed, ?_⟩, rfl⟩
      intro earlier member other fails
      have split : earlier ∈ Stage.file.earlier ++ [.file] := member
      rcases List.mem_append.mp split with before | last
      · exact sound earlier before other fails
      · cases List.mem_singleton.mp last
        cases fails with
        | file unreadable => cases content.symm.trans unreadable
    | ok program =>
      exact .inl ⟨{ made with program := some program }, program,
        ⟨config, rfl, fresh, source, content, parsed⟩, rfl⟩

private theorem Ready.prepared {started : Engine} {program : Program}
    (ready : Ready options surroundings started program) :
    prepare options (surroundings.contentOf options.file) = .ok started := by
  obtain ⟨made, other, more, prepared⟩ | ⟨stage, failure, early, ⟨fails, -⟩, -⟩ :=
    prepare_cases options surroundings
  · rw [prepared, (ready.unique more).1]
  · exact absurd (ready.eq_run fails) early

private theorem FailsFirst.prepared (first : FailsFirst options surroundings stage failure)
    (early : stage ≠ .run) :
    prepare options (surroundings.contentOf options.file) = .error failure := by
  obtain ⟨started, program, ready, -⟩ | ⟨later, other, -, again, prepared⟩ :=
    prepare_cases options surroundings
  · exact absurd (ready.eq_run first.1) early
  · rw [prepared, (first.unique again).2]

private theorem execute_of_ready {started : Engine} {program : Program}
    (ready : Ready options surroundings started program) (headless : options.display = false)
    (fuel : Nat) :
    execute options surroundings fuel =
      (started.runProgram fuel program Buffer.device.traced none
        (.start (.ofInput surroundings.input))).map
          fun finished => conclude finished.outside.outside.output finished.result := by
  have same := congrArg (Option.map fun ending => conclude ending.2 ending.1)
    (Pipe.runProgram_ofInput started fuel program surroundings.input)
  simp only [Option.map_map] at same
  rw [execute, ready.prepared]
  simp only [headless, Bool.false_eq_true, if_false, runHeadless, Engine.run, ready.loaded]
  exact same

private theorem execute_of_failsFirst (first : FailsFirst options surroundings stage failure)
    (early : stage ≠ .run) (fuel : Nat) :
    execute options surroundings fuel = some (failed #[] failure) := by
  rw [execute, first.prepared early]

/-- The command line comes to this exit, if it is given the time. -/
def Exits (options : Options) (surroundings : Surroundings) (exit : Exit) : Prop :=
  ∃ fuel, execute options surroundings fuel = some exit

private theorem exits_of_ready {started : Engine} {program : Program}
    (ready : Ready options surroundings started program) (headless : options.display = false)
    (exit : Exit) :
    Exits options surroundings exit ↔ ∃ finished, Runs surroundings started program finished ∧
      exit = conclude finished.outside.outside.output finished.result := by
  simp only [Exits, execute_of_ready ready headless, Option.map_eq_some_iff, Runs, Engine.Returns]
  constructor
  · rintro ⟨fuel, finished, ran, rfl⟩
    exact ⟨finished, ⟨fuel, ran⟩, rfl⟩
  · rintro ⟨finished, ⟨fuel, ran⟩, rfl⟩
    exact ⟨fuel, finished, ran, rfl⟩

private theorem exits_of_failsFirst (first : FailsFirst options surroundings stage failure)
    (early : stage ≠ .run) (exit : Exit) :
    Exits options surroundings exit ↔ exit = failed #[] failure := by
  simp only [Exits, execute_of_failsFirst first early, Option.some.injEq, exists_const, eq_comm]

private theorem output_of_runs {started : Engine} {program : Program}
    {finished : Finished (Traced Buffer)}
    (runs : Runs surroundings started program finished) :
    finished.outside.outside.output.toList = written finished.outside.calls := by
  obtain ⟨turns, result, world, ended, rfl⟩ := (Engine.returns_iff ..).mp runs
  have accounts := Buffer.accounts_after Buffer.serves_device started program
    (Buffer.ofInput surroundings.input) turns
  simp only [Option.map_none, ended, Progress.world] at accounts
  rw [accounts.written]
  exact accounts.output

theorem Ready.failsFirst_iff {started : Engine} {program : Program}
    (ready : Ready options surroundings started program) :
    FailsFirst options surroundings stage failure ↔
      stage = .run ∧ ∃ finished fault, Runs surroundings started program finished ∧
        finished.result = .error fault ∧ failure = .run fault := by
  constructor
  · rintro ⟨fails, -⟩
    cases ready.eq_run fails
    cases fails with
    | run more ends broken =>
      obtain ⟨rfl, rfl⟩ := ready.unique more
      exact ⟨rfl, _, _, ends, broken, rfl⟩
  · rintro ⟨rfl, finished, fault, ends, broken, rfl⟩
    refine ⟨.run ready ends broken, ?_⟩
    rintro earlier member other fails
    cases ready.eq_run fails
    exact absurd member (by decide)

structure Tells (options : Options) (surroundings : Surroundings) (exit : Exit) : Prop where
  success_iff : exit.code = 0 ↔
    1 ≤ options.memory ∧ 0 ≤ options.delay ∧ ∃ source program,
      surroundings.contentOf options.file = .ok source ∧
      Program.parse source (if options.strictNesting then .nested else .counted) = .ok program ∧
      ∃ started finished report, Ready options surroundings started program ∧
        Runs surroundings started program finished ∧ finished.result = .ok report
  success : exit.code = 0 → exit.message = "\n[Runtime] Finished execution.\n"
  failed : exit.code ≠ 0 → ∃ stage failure, FailsFirst options surroundings stage failure
  failure : ∀ stage failure, FailsFirst options surroundings stage failure →
    exit.code = 1 ∧ exit.message = failure.message ++ "\n"
  output : ∀ started program finished, Ready options surroundings started program →
    Runs surroundings started program finished →
    exit.output.toList = written finished.outside.calls
  silence : (∀ started program, ¬ Ready options surroundings started program) → exit.output = #[]

private theorem FailsFirst.tells (first : FailsFirst options surroundings stage failure)
    (early : stage ≠ .run) : Tells options surroundings (CommandLine.failed #[] failure) where
  success_iff := by
    refine iff_of_false Nat.one_ne_zero ?_
    rintro ⟨-, -, _, _, -, -, _, _, _, ready, -⟩
    exact early (ready.eq_run first.1)
  success := nofun
  failed _ := ⟨stage, failure, first⟩
  failure later other again := by
    rw [(first.unique again).2]
    exact ⟨rfl, rfl⟩
  output started program finished ready := absurd (ready.eq_run first.1) early
  silence _ := rfl

private theorem Ready.tells {started : Engine} {program : Program}
    {finished : Finished (Traced Buffer)}
    (ready : Ready options surroundings started program)
    (runs : Runs surroundings started program finished) :
    Tells options surroundings
      (conclude finished.outside.outside.output finished.result) := by
  have only {other : Engine} {again : Program} {final : Finished (Traced Buffer)}
      (more : Ready options surroundings other again)
      (ends : Runs surroundings other again final) : final = finished := by
    obtain ⟨rfl, rfl⟩ := ready.unique more
    exact Engine.Returns.unique ends runs
  have output (other : Engine) (again : Program) (final : Finished (Traced Buffer))
      (more : Ready options surroundings other again)
      (ends : Runs surroundings other again final) :
      finished.outside.outside.output.toList = written final.outside.calls := by
    rw [only more ends]
    exact output_of_runs runs
  cases result : finished.result with
  | ok report =>
    obtain ⟨source, content, parsed⟩ := ready.accepted
    refine ⟨iff_of_true rfl ⟨ready.bounds.1, ready.bounds.2, source, program, content, parsed,
      started, finished, report, ready, runs, result⟩, ?_, ?_, ?_, output, ?_⟩
    · intro _
      rw [conclude, summary, Engine.completed_of_returns runs result]
      rfl
    · intro code
      exact absurd rfl code
    · intro stage failure first
      obtain ⟨-, final, fault, ends, broken, -⟩ := ready.failsFirst_iff.mp first
      cases only ready ends
      cases result.symm.trans broken
    · intro idle
      exact absurd ready (idle started program)
  | error fault =>
    refine ⟨iff_of_false Nat.one_ne_zero ?_, nofun, ?_, ?_, output, ?_⟩
    · rintro ⟨-, -, _, _, -, -, _, final, report, more, ends, fine⟩
      cases only more ends
      cases result.symm.trans fine
    · intro _
      exact ⟨.run, .run fault, ready.failsFirst_iff.mpr ⟨rfl, finished, fault, runs, result, rfl⟩⟩
    · intro stage failure first
      obtain ⟨-, final, other, ends, broken, rfl⟩ := ready.failsFirst_iff.mp first
      cases only ready ends
      cases result.symm.trans broken
      exact ⟨rfl, rfl⟩
    · intro idle
      exact absurd ready (idle started program)

end

/-- Without a display the command line comes to one exit at most. It succeeds exactly if nothing is
wrong with any stage, and otherwise tells of the first stage that has something wrong
with it, and of no other. What is printed is what the run has written, even if it breaks off, and
nothing at all if there is no run. -/
theorem first_failing_stage_decides (file : String) (memory delay : Int)
    (jumpTable strictNesting : Bool) (surroundings : Surroundings) :
    let options : Options := ⟨file, memory, delay, false, jumpTable, strictNesting⟩
    ((∃ exit, Exits options surroundings exit) ↔
      ∀ started program, Ready options surroundings started program →
        ∃ finished, Runs surroundings started program finished) ∧
    (∀ exit other, Exits options surroundings exit → Exits options surroundings other →
      exit = other) ∧
    ∀ exit, Exits options surroundings exit → Tells options surroundings exit := by
  intro options
  obtain ⟨started, program, ready, -⟩ | ⟨stage, failure, early, first, -⟩ :=
    prepare_cases options surroundings
  · have exits := exits_of_ready ready rfl
    refine ⟨?_, ?_, ?_⟩
    · constructor
      · rintro ⟨exit, exited⟩ other again more
        obtain ⟨rfl, rfl⟩ := ready.unique more
        obtain ⟨finished, runs, -⟩ := (exits exit).mp exited
        exact ⟨finished, runs⟩
      · intro ends
        obtain ⟨finished, runs⟩ := ends started program ready
        exact ⟨_, (exits _).mpr ⟨finished, runs, rfl⟩⟩
    · intro exit other exited again
      obtain ⟨finished, runs, rfl⟩ := (exits exit).mp exited
      obtain ⟨_, more, rfl⟩ := (exits other).mp again
      cases Engine.Returns.unique runs more
      rfl
    · intro exit exited
      obtain ⟨finished, runs, rfl⟩ := (exits exit).mp exited
      exact ready.tells runs
  · have exits := exits_of_failsFirst first early
    refine ⟨?_, ?_, ?_⟩
    · refine iff_of_true ⟨_, (exits _).mpr rfl⟩ ?_
      intro started program ready
      exact absurd (ready.eq_run first.1) early
    · intro exit other exited again
      rw [(exits exit).mp exited, (exits other).mp again]
    · intro exit exited
      rw [(exits exit).mp exited]
      exact first.tells early

/-- Three stages fail here, and the first is told of. -/
theorem first_failing_stage_decides_empty_tape :
    let surroundings : Surroundings := ⟨fun _ => .error "gone", [], none⟩
    ∃ exit, Exits ⟨"missing", 0, -5, false, false, false⟩ surroundings exit ∧ exit.code = 1 ∧
      exit.message = "[Config] Memory size must be greater than 0 (got 0)\n" := by
  intro surroundings
  obtain ⟨-, -, tells⟩ := first_failing_stage_decides "missing" 0 (-5) false false surroundings
  have exits : Exits ⟨"missing", 0, -5, false, false, false⟩ surroundings _ := ⟨0, rfl⟩
  have first : FailsFirst ⟨"missing", 0, -5, false, false, false⟩ surroundings .memory
      (.configuration (.invalidMemorySize 0)) := ⟨.memory (by decide), nofun⟩
  exact ⟨_, exits, (tells _ exits).failure _ _ first⟩

end CommandLine
end ByteTape
