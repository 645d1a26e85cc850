import ByteTape.Engine

/-! Runs, turn by turn. A run ends as its turns end, so what two runs keep in common from one
turn to the next they have in common at their ends, and neither ends without the other. -/

namespace ByteTape

namespace Progress
variable {σ : Type}

def world : Progress σ → World σ
  | .running _ world | .ended _ world => world

def outcome? : Progress σ → Option (Except Fault Report × World σ)
  | .running .. => none
  | .ended result world => some (result, world)

theorem outcome?_eq_some_iff (progress : Progress σ) (result : Except Fault Report)
    (world : World σ) :
    progress.outcome? = some (result, world) ↔ progress = .ended result world := by
  cases progress <;> simp [outcome?]

end Progress

namespace Machine
variable {σ τ : Type}

def resume (machine : Machine σ) : Progress σ → Progress σ
  | .running state world => machine.advance state world
  | .ended result world => .ended result world

def after (machine : Machine σ) (start : Progress σ) : Nat → Progress σ
  | 0 => start
  | turns + 1 => machine.resume (machine.after start turns)

theorem after_add (machine : Machine σ) (start : Progress σ) (first second : Nat) :
    machine.after start (first + second) = machine.after (machine.after start first) second := by
  induction second with
  | zero => rfl
  | succ second ih => exact congrArg machine.resume ih

theorem after_succ (machine : Machine σ) (start : Progress σ) (turns : Nat) :
    machine.after start (turns + 1) = machine.after (machine.resume start) turns := by
  rw [Nat.add_comm, after_add]
  rfl

@[simp] theorem after_ended (machine : Machine σ) (result : Except Fault Report)
    (world : World σ) (turns : Nat) :
    machine.after (.ended result world) turns = .ended result world := by
  induction turns with
  | zero => rfl
  | succ turns ih => rw [after, ih, resume]

theorem run_eq_outcome? (machine : Machine σ) (fuel : Nat) (state : RunState)
    (world : World σ) :
    machine.run fuel state world = (machine.after (.running state world) fuel).outcome? := by
  induction fuel generalizing state world with
  | zero => rfl
  | succ fuel ih =>
    rw [after_succ, resume, run]
    cases machine.advance state world with
    | running next later => exact ih next later
    | ended result later => rw [after_ended, Progress.outcome?]

theorem after_of_ended {machine : Machine σ} {start : Progress σ} {turns later : Nat}
    {result : Except Fault Report} {world : World σ}
    (ended : machine.after start turns = .ended result world) (le : turns ≤ later) :
    machine.after start later = .ended result world := by
  obtain ⟨more, rfl⟩ := Nat.exists_eq_add_of_le le
  rw [after_add, ended, after_ended]

theorem eq_of_ended {machine : Machine σ} {start : Progress σ} {turns other : Nat}
    {result again : Except Fault Report} {world outside : World σ}
    (ended : machine.after start turns = .ended result world)
    (same : machine.after start other = .ended again outside) :
    result = again ∧ world = outside := by
  have first := after_of_ended ended (Nat.le_max_left turns other)
  rw [after_of_ended same (Nat.le_max_right turns other)] at first
  cases first
  exact ⟨rfl, rfl⟩

theorem running_of_after {machine : Machine σ} {start : Progress σ} {turns : Nat}
    {state : RunState} {world : World σ}
    (running : machine.after start (turns + 1) = .running state world) :
    ∃ before outside, machine.after start turns = .running before outside ∧
      machine.advance before outside = .running state world := by
  cases earlier : machine.after start turns with
  | running before outside =>
    rw [after, earlier] at running
    exact ⟨before, outside, rfl, running⟩
  | ended result outside =>
    rw [after, earlier] at running
    cases running

theorem ended_of_after {machine : Machine σ} {state : RunState} {world final : World σ}
    {turns : Nat} {result : Except Fault Report}
    (ended : machine.after (.running state world) turns = .ended result final) :
    ∃ count last outside, count < turns ∧
      machine.after (.running state world) count = .running last outside ∧
      machine.advance last outside = .ended result final := by
  induction turns with
  | zero => cases ended
  | succ turns ih =>
    cases earlier : machine.after (.running state world) turns with
    | running last outside =>
      rw [after, earlier] at ended
      exact ⟨turns, last, outside, Nat.lt_succ_self turns, earlier, ended⟩
    | ended result outside =>
      rw [after, earlier, resume] at ended
      cases ended
      obtain ⟨count, last, outside, before, ran, advanced⟩ := ih earlier
      exact ⟨count, last, outside, Nat.lt_succ_of_lt before, ran, advanced⟩

theorem after_invariant {machine : Machine σ} (holds : Progress σ → Prop)
    (turn : ∀ progress, holds progress → holds (machine.resume progress))
    {start : Progress σ} (initially : holds start) (turns : Nat) :
    holds (machine.after start turns) := by
  induction turns with
  | zero => exact initially
  | succ turns ih => exact turn _ ih

theorem after_related {machine : Machine σ} {other : Machine τ}
    (related : Progress σ → Progress τ → Prop)
    (turn : ∀ left right, related left right → related (machine.resume left) (other.resume right))
    {left : Progress σ} {right : Progress τ} (initially : related left right) (turns : Nat) :
    related (machine.after left turns) (other.after right turns) := by
  induction turns with
  | zero => exact initially
  | succ turns ih => exact turn _ _ ih

theorem advance_past {machine : Machine σ} {state : RunState}
    (past : machine.program.get? state.pc = none) (world : World σ) :
    machine.advance state world = .ended (.ok (state.report .completed)) world := by
  rw [advance, past]

theorem advance_stopped {machine : Machine σ} {state : RunState} {world : World σ}
    {instruction : Instruction} (next : machine.program.get? state.pc = some instruction)
    (stopped : world.stopped = true) :
    machine.advance state world = .ended (.ok (state.report .stopped)) world := by
  rw [advance, next]
  exact if_pos stopped

def concluded : Except Fault RunState × World σ → Progress σ
  | (.ok state, world) => .running state world
  | (.error fault, world) => .ended (.error fault) world

@[simp] theorem world_concluded (conclusion : Except Fault RunState × World σ) :
    (concluded conclusion).world = conclusion.2 := by
  obtain ⟨result, world⟩ := conclusion
  cases result <;> rfl

theorem advance_execute {machine : Machine σ} {state : RunState} {world : World σ}
    {instruction : Instruction} (next : machine.program.get? state.pc = some instruction)
    (going : world.stopped = false) :
    machine.advance state world = concluded
      (machine.execute state (machine.observe (state.view instruction) world) instruction) := by
  rw [advance, next]
  simp only [going, Bool.false_eq_true, if_false]
  rfl

private theorem outside_execute {machine : Machine σ} (holds : σ → Prop)
    (read : ∀ world : World σ, holds world.outside → holds (world.read machine.device).2.outside)
    (write : ∀ byte (world : World σ), holds world.outside →
      holds (world.write machine.device byte).2.outside)
    (state : RunState) (world : World σ) (instruction : Instruction)
    (before : holds world.outside) :
    holds (machine.execute state world instruction).2.outside := by
  cases instruction with
  | right | left | increment | decrement => exact before
  | output =>
    have after := write state.tape.current world before
    rw [execute]
    generalize world.write machine.device state.tape.current = called at after ⊢
    obtain ⟨_ | _, later⟩ := called <;> exact after
  | input =>
    have after := read world before
    rw [execute]
    generalize world.read machine.device = called at after ⊢
    obtain ⟨_ | _, later⟩ := called <;> exact after
  | loopStart | loopEnd =>
    rw [execute, apply_ite Prod.snd, ite_self]
    exact before

/-- What the observer and the device leave as it is, a turn leaves as it is. -/
theorem outside_resume {machine : Machine σ} (holds : σ → Prop)
    (observe : ∀ view world, holds world.outside → holds (machine.observe view world).outside)
    (read : ∀ world : World σ, holds world.outside → holds (world.read machine.device).2.outside)
    (write : ∀ byte (world : World σ), holds world.outside →
      holds (world.write machine.device byte).2.outside)
    (progress : Progress σ) (before : holds progress.world.outside) :
    holds (machine.resume progress).world.outside := by
  cases progress with
  | ended result world => exact before
  | running state world =>
    rw [resume]
    cases here : machine.program.get? state.pc with
    | none =>
      rw [advance_past here]
      exact before
    | some instruction =>
      cases stopped : world.stopped with
      | true =>
        rw [advance_stopped here stopped]
        exact before
      | false =>
        rw [advance_execute here stopped, world_concluded]
        exact outside_execute holds read write state _ instruction (observe _ world before)

end Machine

namespace Engine
variable {σ : Type}

@[simp] theorem program_machine (engine : Engine) (program : Program) (device : Device σ)
    (observer : Option (Observer σ)) :
    (engine.machine program device observer).program = program := rfl

@[simp] theorem device_machine (engine : Engine) (program : Program) (device : Device σ)
    (observer : Option (Observer σ)) :
    (engine.machine program device observer).device = device := rfl

@[simp] theorem jumps_machine (engine : Engine) (program : Program) (device : Device σ)
    (observer : Option (Observer σ)) :
    (engine.machine program device observer).jumps =
      .ofProgram engine.config.jumpStrategy program := rfl

def start (engine : Engine) (outside : σ) : Progress σ :=
  .running (RunState.start engine.config engine.valid) ⟨outside, false⟩

/-- The run of a program comes to an end, and to this one. -/
def Returns (engine : Engine) (program : Program) (device : Device σ)
    (observer : Option (Observer σ)) (outside : σ) (finished : Finished σ) : Prop :=
  ∃ fuel, engine.runProgram fuel program device observer outside = some finished

def RunsTo (engine : Engine) (device : Device σ) (observer : Option (Observer σ)) (outside : σ)
    (finished : Finished σ) : Prop :=
  ∃ fuel, engine.run fuel device observer outside = some finished

theorem runsTo_iff_returns {engine : Engine} {program : Program}
    (loaded : engine.program = some program) (device : Device σ)
    (observer : Option (Observer σ)) (outside : σ) (finished : Finished σ) :
    engine.RunsTo device observer outside finished ↔
      engine.Returns program device observer outside finished := by
  simp only [RunsTo, run, loaded, Returns]

theorem runProgram_eq (engine : Engine) (fuel : Nat) (program : Program) (device : Device σ)
    (observer : Option (Observer σ)) (outside : σ) :
    engine.runProgram fuel program device observer outside =
      ((engine.machine program device observer).after (engine.start outside) fuel).outcome?.map
        fun (result, world) =>
          ⟨result, world.outside, { engine with stopRequested := world.stopped }⟩ := by
  rw [runProgram, Machine.run_eq_outcome?]
  rfl

theorem returns_iff (engine : Engine) (program : Program) (device : Device σ)
    (observer : Option (Observer σ)) (outside : σ) (finished : Finished σ) :
    engine.Returns program device observer outside finished ↔
      ∃ turns result world,
        (engine.machine program device observer).after (engine.start outside) turns =
          .ended result world ∧
        finished = ⟨result, world.outside, { engine with stopRequested := world.stopped }⟩ := by
  simp only [Returns, runProgram_eq, Option.map_eq_some_iff, Prod.exists,
    Progress.outcome?_eq_some_iff]
  constructor
  · rintro ⟨turns, result, world, ended, same⟩
    exact ⟨turns, result, world, ended, same.symm⟩
  · rintro ⟨turns, result, world, ended, same⟩
    exact ⟨turns, result, world, ended, same.symm⟩

theorem returns_iff_ended (engine : Engine) (program : Program) (device : Device σ)
    (observer : Option (Observer σ)) (outside final : σ) (result : Except Fault Report)
    (stopped : Bool) :
    engine.Returns program device observer outside
        ⟨result, final, { engine with stopRequested := stopped }⟩ ↔
      ∃ turns, (engine.machine program device observer).after (engine.start outside) turns =
        .ended result ⟨final, stopped⟩ := by
  rw [returns_iff]
  constructor
  · rintro ⟨turns, result, world, ended, same⟩
    simp only [Finished.mk.injEq, Engine.mk.injEq, true_and] at same
    obtain ⟨rfl, rfl, rfl⟩ := same
    exact ⟨turns, ended⟩
  · rintro ⟨turns, ended⟩
    exact ⟨turns, result, _, ended, rfl⟩

theorem Returns.unique {engine : Engine} {program : Program} {device : Device σ}
    {observer : Option (Observer σ)} {outside : σ} {finished other : Finished σ}
    (returns : engine.Returns program device observer outside finished)
    (again : engine.Returns program device observer outside other) : finished = other := by
  obtain ⟨turns, result, world, ended, rfl⟩ := (returns_iff ..).mp returns
  obtain ⟨_, _, _, same, rfl⟩ := (returns_iff ..).mp again
  obtain ⟨rfl, rfl⟩ := Machine.eq_of_ended ended same
  rfl

end Engine
end ByteTape
