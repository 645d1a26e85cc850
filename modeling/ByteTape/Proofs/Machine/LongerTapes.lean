import ByteTape.Device.Buffer
import ByteTape.Proofs.Machine.Bounds

/-! Longer tapes. A run notices the length of its tape only when it moves beyond the end: until
then a longer tape changes nothing, and the cells that are there on top stay blank. -/

namespace ByteTape

variable {σ : Type}

namespace Tape

def lengthen (extra : Nat) (tape : Tape) : Tape where
  cells := tape.cells ++ Array.replicate extra 0
  pointer := tape.pointer
  pointer_lt := by
    have inside := tape.pointer_lt
    rw [Array.size_append]
    omega

variable (extra : Nat) (tape : Tape)

theorem size_lengthen : (tape.lengthen extra).size = tape.size + extra := by
  simp [size, lengthen]

theorem lengthen_blank (size : Nat) (positive : 0 < size) (longer : 0 < size + extra) :
    (blank size positive).lengthen extra = blank (size + extra) longer := by
  simp [lengthen, blank, Array.replicate_append_replicate]

@[simp] theorem current_lengthen : (tape.lengthen extra).current = tape.current :=
  Array.getElem_append_left tape.pointer_lt

theorem setCurrent_lengthen (value : UInt8) :
    (tape.lengthen extra).setCurrent value = (tape.setCurrent value).lengthen extra := by
  simp [setCurrent, lengthen, Array.set_append_left tape.pointer_lt]

theorem moveLeft_lengthen :
    (tape.lengthen extra).moveLeft = tape.moveLeft.map (lengthen extra) := by
  by_cases first : tape.pointer = 0
  · simp [moveLeft, lengthen, first, Except.map]
  · simp [moveLeft, lengthen, first, Except.map]

theorem moveRight_lengthen {moved : Tape} (moves : tape.moveRight = .ok moved) :
    (tape.lengthen extra).moveRight = .ok (moved.lengthen extra) := by
  rw [moveRight] at moves
  split at moves
  next inside =>
    cases moves
    have further : tape.pointer + 1 < (tape.cells ++ Array.replicate extra 0).size := by
      rw [Array.size_append]
      omega
    rw [moveRight]
    exact dif_pos further
  next => cases moves

private theorem exists_moveRight_lengthen (last : tape.pointer + 1 = tape.size) (some : 0 < extra) :
    ∃ moved, (tape.lengthen extra).moveRight = .ok moved ∧
      moved.cells = (tape.lengthen extra).cells ∧ moved.pointer = tape.size := by
  have further : (tape.lengthen extra).pointer + 1 < (tape.lengthen extra).cells.size := by
    have size := size_lengthen extra tape
    rw [Tape.size] at size
    rw [size]
    change tape.pointer + 1 < _
    omega
  refine ⟨_, dif_pos further, rfl, ?_⟩
  exact last

end Tape

def RunState.lengthen (extra : Nat) (state : RunState) : RunState :=
  { state with tape := state.tape.lengthen extra }

def Report.lengthen (extra : Nat) (report : Report) : Report :=
  { report with tape := report.tape.lengthen extra }

namespace Progress

def lengthen (extra : Nat) : Progress σ → Progress σ
  | .running state world => .running (state.lengthen extra) world
  | .ended (.ok report) world => .ended (.ok (report.lengthen extra)) world
  | .ended (.error fault) world => .ended (.error fault) world

inductive Overrun : Progress σ → Prop where
  | mk (pc : Nat) (location : Option Location) (pointer cells : Nat) (world : World σ) :
      Overrun (.ended (.error (.pointerOverflow pc location pointer cells)) world)

end Progress

/-- All the observer does is the same whatever the cells that it is shown. -/
def Observer.IgnoresCells (observer : Observer σ) : Prop :=
  ∀ (view : MachineView) (cells : Array UInt8), observer { view with cells } = observer view

def Observer.askingAt (steps : Nat → Bool) : Observer σ := fun view outside =>
  ⟨(), outside, steps view.step⟩

private theorem Observer.askingAt_ignoresCells (steps : Nat → Bool) :
    (askingAt steps : Observer σ).IgnoresCells := fun _ _ => rfl

namespace Machine
variable {machine : Machine σ} {state : RunState} {world : World σ}

private theorem observe_lengthen
    (ignores : ∀ watch, machine.observer = some watch → watch.IgnoresCells)
    (extra : Nat) (state : RunState) (instruction : Instruction) (world : World σ) :
    machine.observe ((state.lengthen extra).view instruction) world =
      machine.observe (state.view instruction) world := by
  rw [observe, observe]
  cases watched : machine.observer with
  | none => rfl
  | some watch =>
    have same := ignores watch watched (state.view instruction) (state.tape.lengthen extra).cells
    exact congrArg (fun observe => (world.call fun _ outside => observe outside).2) same

private theorem concluded_lengthen (extra : Nat) (result : Except Fault RunState)
    (world : World σ) :
    concluded (result.map (RunState.lengthen extra), world) =
      (concluded (result, world)).lengthen extra := by
  cases result with
  | ok state => rfl
  | error fault => rfl

/-- An instruction does the same on a longer tape, unless it is a move beyond the end of the
shorter one. -/
theorem execute_lengthen (machine : Machine σ) (extra : Nat) (state : RunState) (world : World σ)
    {instruction : Instruction}
    (inside : instruction = .right → state.tape.pointer + 1 ≠ state.tape.size) :
    machine.execute (state.lengthen extra) world instruction =
      ((machine.execute state world instruction).1.map (RunState.lengthen extra),
        (machine.execute state world instruction).2) := by
  have current : (state.lengthen extra).tape.current = state.tape.current :=
    state.tape.current_lengthen extra
  cases instruction with
  | right =>
    cases moved : state.tape.moveRight with
    | error refused => exact absurd (Tape.moveRight_eq_error_iff.mp moved).1 (inside rfl)
    | ok tape =>
      rw [execute, execute, moved]
      exact congrArg (fun moved => (machine.settle (state.lengthen extra) moved, world))
        (state.tape.moveRight_lengthen extra moved)
  | left =>
    have moved : (state.lengthen extra).tape.moveLeft = _ := state.tape.moveLeft_lengthen extra
    rw [execute, execute, moved]
    cases state.tape.moveLeft with
    | error refused => rfl
    | ok tape => rfl
  | increment | decrement =>
    have changed (value : UInt8) := state.tape.setCurrent_lengthen extra value
    simp only [execute, RunState.next, RunState.lengthen, Tape.increment, Tape.decrement,
      Tape.current_lengthen, changed]
    rfl
  | output =>
    simp only [execute, current]
    cases world.write machine.device state.tape.current with
    | mk answer later => cases answer <;> rfl
  | input =>
    have changed (value : UInt8) := state.tape.setCurrent_lengthen extra value
    simp only [execute]
    cases world.read machine.device with
    | mk answer later =>
      cases answer with
      | error reason => rfl
      | ok byte =>
        simp only [RunState.next, RunState.lengthen, changed]
        rfl
  | loopStart =>
    simp only [execute, current]
    split
    · cases found : machine.jumps.closing? state.pc with
      | none => simp [RunState.lengthen, found, land, Except.map]
      | some stop => simp [RunState.lengthen, found, land, Except.map, RunState.jump]
    · rfl
  | loopEnd =>
    simp only [execute, current]
    split
    · rfl
    · cases found : machine.jumps.opening? state.pc with
      | none => simp [RunState.lengthen, found, land, Except.map]
      | some start => simp [RunState.lengthen, found, land, Except.map, RunState.jump]

/-- So does a turn of a run, for an observer that does not look at the cells. -/
theorem advance_lengthen (ignores : ∀ watch, machine.observer = some watch → watch.IgnoresCells)
    (extra : Nat) (inside : ¬ (machine.advance state world).Overrun) :
    machine.advance (state.lengthen extra) world =
      (machine.advance state world).lengthen extra := by
  cases here : machine.program.get? state.pc with
  | none =>
    have there : machine.program.get? (state.lengthen extra).pc = none := here
    rw [advance_past here, advance_past there]
    rfl
  | some instruction =>
    have there : machine.program.get? (state.lengthen extra).pc = some instruction := here
    cases stopped : world.stopped with
    | true =>
      rw [advance_stopped here stopped, advance_stopped there stopped]
      rfl
    | false =>
      have fits : instruction = .right → state.tape.pointer + 1 ≠ state.tape.size := by
        rintro rfl last
        apply inside
        rw [advance_execute here stopped, execute,
          Tape.moveRight_eq_error_iff.mpr ⟨last, rfl⟩]
        exact .mk ..
      rw [advance_execute here stopped, advance_execute there stopped,
        observe_lengthen ignores, execute_lengthen machine extra state _ fits,
        concluded_lengthen]

private theorem overrun_resume {progress : Progress σ} (overrun : progress.Overrun) :
    (machine.resume progress).Overrun := by
  cases overrun
  exact .mk ..

theorem after_lengthen (ignores : ∀ watch, machine.observer = some watch → watch.IgnoresCells)
    (extra : Nat) (start : Progress σ) {turns : Nat}
    (inside : ¬ (machine.after start turns).Overrun) :
    machine.after (start.lengthen extra) turns = (machine.after start turns).lengthen extra := by
  induction turns with
  | zero => rfl
  | succ turns ih =>
    have before : ¬ (machine.after start turns).Overrun := fun overrun =>
      inside (overrun_resume overrun)
    rw [after, ih before, after]
    rw [after] at inside
    cases earlier : machine.after start turns with
    | running state world =>
      rw [earlier] at inside
      exact advance_lengthen ignores extra inside
    | ended result world => cases result <;> rfl

private theorem running_of_le {start : Progress σ} {turns count : Nat}
    (running : machine.after start count = .running state world) (le : turns ≤ count) :
    ∃ before earlier, machine.after start turns = .running before earlier := by
  cases earlier : machine.after start turns with
  | running before outside => exact ⟨before, outside, rfl⟩
  | ended result outside =>
    rw [after_of_ended earlier le] at running
    cases running

private theorem advance_beyond {strategy : JumpStrategy}
    (resolved : machine.jumps = .ofProgram strategy machine.program)
    (ignores : ∀ watch, machine.observer = some watch → watch.IgnoresCells) {extra : Nat}
    (positive : 0 < extra) {later : World σ} {pc pointer cells : Nat} {location : Option Location}
    (refused : machine.advance state world =
      .ended (.error (.pointerOverflow pc location pointer cells)) later) :
    ∃ moved, machine.advance (state.lengthen extra) world =
        .running ((state.lengthen extra).withTape moved) later ∧
      moved.cells = (state.tape.lengthen extra).cells ∧ moved.pointer = state.tape.size := by
  obtain ⟨instruction, calls, here, going, breaks, answers⟩ := breaks_of_advance resolved refused
  obtain ⟨rfl, right, last, -⟩ := breaks_pointerOverflow_iff.mp breaks
  cases here.symm.trans right
  obtain ⟨moved, moves, same, beyond⟩ := state.tape.exists_moveRight_lengthen extra last positive
  have moves : (state.lengthen extra).tape.moveRight = .ok moved := moves
  have there : machine.program.get? (state.lengthen extra).pc = some .right := right
  have observed := observe_lengthen ignores extra state .right world
  refine ⟨moved, ?_, same, beyond⟩
  rw [advance_execute there going, execute, moves, observed, answers.eq_of_nothing]
  rfl

end Machine

namespace Engine

def lengthen (engine : Engine) (extra : Nat) : Engine :=
  { engine with
    config := { engine.config with memorySize := engine.config.memorySize + extra }
    valid := ⟨Nat.lt_add_right extra engine.valid.memory, engine.valid.delay, engine.valid.width⟩ }

private theorem start_lengthen (engine : Engine) (extra : Nat) (outside : σ) :
    (engine.lengthen extra).start outside = (engine.start outside).lengthen extra := by
  have tape := Tape.lengthen_blank extra _ engine.valid.memory (engine.lengthen extra).valid.memory
  rw [start, start, Progress.lengthen, RunState.lengthen, RunState.start, RunState.start, tape]
  rfl

private theorem machine_lengthen (engine : Engine) (extra : Nat) (program : Program)
    (device : Device σ)
    (observer : Option (Observer σ)) :
    (engine.lengthen extra).machine program device observer =
      engine.machine program device observer := rfl

variable {engine : Engine} {program : Program} {device : Device σ}
  {observer : Option (Observer σ)} {outside : σ}

private theorem ignores_machine
    (ignores : ∀ watch, observer = some watch → watch.IgnoresCells) :
    ∀ watch, (engine.machine program device observer).observer = some watch →
      watch.IgnoresCells := by
  intro watch watched
  rw [machine, Machine.ofProgram] at watched
  split at watched
  · exact ignores watch watched
  · cases watched

private theorem after_start_lengthen
    (ignores : ∀ watch, observer = some watch → watch.IgnoresCells) (extra : Nat) {turns : Nat}
    {progress : Progress σ}
    (short : (engine.machine program device observer).after (engine.start outside) turns =
      progress) (inside : ¬ progress.Overrun) :
    ((engine.lengthen extra).machine program device observer).after
      ((engine.lengthen extra).start outside) turns = progress.lengthen extra := by
  subst short
  rw [machine_lengthen, start_lengthen]
  exact Machine.after_lengthen (ignores_machine ignores) extra _ inside

/-- A longer tape is a conservative extension: a run that does not break off at the end of its tape
ends in the same way on the longer one, after as many steps, with the same outside, and with the
same tape but for the blank cells behind it. One that does break off there is at the same place
of the program in the same world on the longer tape after every step before, and there it makes
the move. A run that never ends does not end on a longer tape either. -/
theorem longer_tape_is_conservative (engine : Engine) (extra : Nat) (program : Program)
    (device : Device σ) (observer : Option (Observer σ))
    (ignores : ∀ watch, observer = some watch → watch.IgnoresCells) (outside : σ) :
    let longer := engine.lengthen extra
    let short := (engine.machine program device observer).after (engine.start outside)
    let long := (longer.machine program device observer).after (longer.start outside)
    let shortReturns (result : Except Fault Report) (final : σ) (stopped : Bool) :=
      engine.Returns program device observer outside
        ⟨result, final, { engine with stopRequested := stopped }⟩
    let longReturns (result : Except Fault Report) (final : σ) (stopped : Bool) :=
      longer.Returns program device observer outside
        ⟨result, final, { longer with stopRequested := stopped }⟩
    (∀ report final stopped, shortReturns (.ok report) final stopped →
      longReturns (.ok (report.lengthen extra)) final stopped) ∧
    (∀ fault final stopped,
      (∀ pc location pointer cells, fault ≠ .pointerOverflow pc location pointer cells) →
      shortReturns (.error fault) final stopped → longReturns (.error fault) final stopped) ∧
    (∀ pc location pointer cells final stopped, 0 < extra →
      shortReturns (.error (.pointerOverflow pc location pointer cells)) final stopped →
      ∃ count last world moved, short count = .running last world ∧ last.steps = count ∧
        last.pc = pc ∧ program.get? pc = some .right ∧
        (∀ turns ≤ count, ∃ state world, short turns = .running state world ∧
          long turns = .running (state.lengthen extra) world) ∧
        long (count + 1) = .running ((last.lengthen extra).withTape moved) ⟨final, stopped⟩ ∧
        moved.cells = (last.tape.lengthen extra).cells ∧
        moved.pointer = engine.config.memorySize) ∧
    ((∀ finished, ¬ engine.Returns program device observer outside finished) →
      ∀ finished, ¬ longer.Returns program device observer outside finished) := by
  intro longer short long shortReturns longReturns
  have alike {turns : Nat} {progress : Progress σ} (there : short turns = progress)
      (inside : ¬ progress.Overrun) : long turns = progress.lengthen extra :=
    after_start_lengthen ignores extra there inside
  refine ⟨?_, ?_, ?_, ?_⟩
  · intro report final stopped returns
    obtain ⟨turns, ended⟩ := (returns_iff_ended ..).mp returns
    exact (returns_iff_ended ..).mpr ⟨turns, alike ended nofun⟩
  · intro fault final stopped other returns
    obtain ⟨turns, ended⟩ := (returns_iff_ended ..).mp returns
    have inside : ¬ (Progress.ended (.error fault) ⟨final, stopped⟩).Overrun := by
      intro overrun
      cases overrun
      exact other _ _ _ _ rfl
    exact (returns_iff_ended ..).mpr ⟨turns, alike ended inside⟩
  · intro pc location pointer cells final stopped positive returns
    obtain ⟨turns, ended⟩ := (returns_iff_ended ..).mp returns
    obtain ⟨count, last, world, -, ran, refused⟩ := Machine.ended_of_after ended
    obtain ⟨instruction, calls, -, -, breaks, -⟩ :=
      Machine.breaks_of_advance (jumps_machine ..) refused
    obtain ⟨-, right, -, rfl, -⟩ := breaks_pointerOverflow_iff.mp breaks
    obtain ⟨moved, further, same, beyond⟩ := Machine.advance_beyond (jumps_machine ..)
      (ignores_machine ignores) positive refused
    have size := (inBounds_of_reaches ⟨count, ran⟩).size
    have moves : long (count + 1) =
        (longer.machine program device observer).advance (last.lengthen extra) world :=
      congrArg (longer.machine program device observer).resume (alike ran nofun)
    refine ⟨count, last, world, moved, ran, steps_after ran, rfl, right, ?_, moves.trans further,
      same, beyond.trans size⟩
    intro turns le
    obtain ⟨state, world, earlier⟩ := Machine.running_of_le ran le
    exact ⟨state, world, earlier, alike earlier nofun⟩
  · intro endless finished returns
    obtain ⟨turns, result, world, ended, -⟩ := (returns_iff ..).mp returns
    cases earlier : short turns with
    | ended result world => exact endless _ ((returns_iff ..).mpr ⟨turns, _, _, earlier, rfl⟩)
    | running state world => cases (alike earlier nofun).symm.trans ended

theorem longer_tape_is_conservative_one_cell :
    let engine : Engine := ⟨{ Config.ofMemory 1 with display := true },
      ⟨by decide, by decide, by decide⟩, none, false⟩
    let program : Program := ⟨Token.ofSource "+>."⟩
    let observer : Option (Observer Buffer) := some (.askingAt (· == 2))
    engine.Returns program Buffer.device observer (.ofInput [])
      ⟨.error (.pointerOverflow 1 (some ⟨1, 2⟩) 0 1), .ofInput [],
        { engine with stopRequested := false }⟩ ∧
    ∃ (count : Nat) (last : RunState) (moved : Tape), last.steps = count ∧ last.pc = 1 ∧
      ((engine.lengthen 2).machine program Buffer.device observer).after
        ((engine.lengthen 2).start (.ofInput [])) (count + 1) =
          .running ((last.lengthen 2).withTape moved) ⟨.ofInput [], false⟩ ∧
      moved.pointer = 1 := by
  intro engine program observer
  have ignores : ∀ watch, observer = some watch → watch.IgnoresCells := by
    intro watch same
    rw [← Option.some.inj same]
    exact Observer.askingAt_ignoresCells _
  have returns : engine.Returns program Buffer.device observer (.ofInput [])
      ⟨.error (.pointerOverflow 1 (some ⟨1, 2⟩) 0 1), .ofInput [],
        { engine with stopRequested := false }⟩ := ⟨2, rfl⟩
  obtain ⟨-, -, beyond, -⟩ :=
    longer_tape_is_conservative engine 2 program Buffer.device observer ignores (.ofInput [])
  obtain ⟨count, last, world, moved, -, steps, pc, -, -, further, -, pointer⟩ :=
    beyond 1 (some ⟨1, 2⟩) 0 1 (.ofInput []) false (by decide) returns
  exact ⟨returns, count, last, moved, steps, pc, further, pointer⟩

end Engine
end ByteTape
