import ByteTape.Proofs.Machine.Simulation
import ByteTape.Proofs.Machine.Steps
import ByteTape.Proofs.Machine.Trace

/-! Requests to stop. A run that is asked to stop goes exactly as it would have gone otherwise,
up to and including the instruction during which it is asked, and not one further. -/

namespace ByteTape

variable {σ : Type}

namespace Device

/-- The device as it behaves when it is never told that a stop has been requested. -/
def unaware (device : Device σ) : Device σ where
  read _ outside := device.read false outside
  write byte _ outside := device.write byte false outside

def silent (device : Device σ) : Device σ where
  read stopped outside := { device.read stopped outside with raised := false }
  write byte stopped outside := { device.write byte stopped outside with raised := false }

/-- It makes no difference to the device whether a stop has been requested. -/
structure Blind (device : Device σ) : Prop where
  read : ∀ stopped, device.read stopped = device.read false
  write : ∀ byte stopped, device.write byte stopped = device.write byte false

theorem blind_traced_unaware (device : Device σ) : device.unaware.traced.Blind :=
  ⟨fun _ => rfl, fun _ _ => rfl⟩

end Device

def Observer.silent (observer : Observer σ) : Observer σ := fun view outside =>
  { observer view outside with raised := false }

namespace Machine

def silent (machine : Machine σ) : Machine σ :=
  { machine with
    device := machine.device.silent
    observer := machine.observer.map Observer.silent }

/-- The first request to stop comes while that instruction is handled, the one before which
`count` others have been executed. -/
def RequestedDuring (machine : Machine σ) (start : Progress σ) (count : Nat) : Prop :=
  ∃ state world, machine.after start count = .running state world ∧ world.stopped = false ∧
    (machine.after start (count + 1)).world.stopped = true

/-- The same outside, where a stop may have been requested in the first world only. -/
def Unasked (world free : World σ) : Prop :=
  world.outside = free.outside ∧ free.stopped = false

theorem simulation_silent {machine : Machine σ} (blind : machine.device.Blind) :
    Simulation machine machine.silent Eq Unasked where
  get? _ := rfl
  location? _ := rfl
  closing? _ _ := rfl
  opening? _ _ := rfl
  advance byte column aside same := congrArg (Column.advance · byte) same
  observe instruction state aside world free agrees unasked := by
    obtain ⟨outside, stopped⟩ := world
    obtain ⟨_, _⟩ := free
    obtain ⟨rfl, rfl⟩ := unasked
    obtain ⟨program, jumps, device, observer⟩ := machine
    rw [agrees.eq]
    cases observer with
    | none => exact ⟨rfl, rfl⟩
    | some watch => exact ⟨rfl, rfl⟩
  read world free unasked := by
    obtain ⟨outside, stopped⟩ := world
    obtain ⟨_, _⟩ := free
    obtain ⟨rfl, rfl⟩ := unasked
    simp only [World.read, World.call, blind.read stopped]
    exact ⟨rfl, rfl, rfl⟩
  write byte world free unasked := by
    obtain ⟨outside, stopped⟩ := world
    obtain ⟨_, _⟩ := free
    obtain ⟨rfl, rfl⟩ := unasked
    simp only [World.write, World.call, blind.write byte stopped]
    exact ⟨rfl, rfl, rfl⟩

theorem stopped_resume (machine : Machine σ) {progress : Progress σ}
    (stopped : progress.world.stopped = true) :
    (machine.resume progress).world.stopped = true := by
  cases progress with
  | ended result world => exact stopped
  | running state world =>
    change world.stopped = true at stopped
    change (machine.advance state world).world.stopped = true
    cases here : machine.program.get? state.pc with
    | none =>
      rw [advance_past here]
      exact stopped
    | some instruction =>
      rw [advance_stopped here stopped]
      exact stopped

theorem stopped_after {machine : Machine σ} {start : Progress σ} {turns later : Nat}
    (stopped : (machine.after start turns).world.stopped = true) (le : turns ≤ later) :
    (machine.after start later).world.stopped = true := by
  obtain ⟨more, rfl⟩ := Nat.exists_eq_add_of_le le
  rw [after_add]
  exact after_invariant (fun progress => progress.world.stopped = true)
    (fun _ => machine.stopped_resume) stopped more

/-- As long as no stop has been requested, and one turn longer, both runs go the same way. -/
theorem after_silent {machine : Machine σ} (blind : machine.device.Blind) {start : Progress σ}
    (initially : Together Eq Unasked start start) {turns : Nat}
    (going : (machine.after start turns).world.stopped = false) :
    Together Eq Unasked (machine.after start (turns + 1))
      (machine.silent.after start (turns + 1)) := by
  have turn {turns : Nat} (going : (machine.after start turns).world.stopped = false)
      (together : Together Eq Unasked (machine.after start turns)
        (machine.silent.after start turns)) :
      Together Eq Unasked (machine.after start (turns + 1))
        (machine.silent.after start (turns + 1)) := by
    apply resume_together (simulation_silent blind) together
    rw [going]
    exact together.worlds.2.symm
  induction turns with
  | zero => exact turn going initially
  | succ turns ih =>
    apply turn going
    apply ih
    cases earlier : (machine.after start turns).world.stopped with
    | false => rfl
    | true =>
      rw [stopped_after earlier (Nat.le_succ turns)] at going
      cases going

/-- The instruction during which a stop is requested comes to the same as in the free run. -/
private theorem requested_silent {machine : Machine σ} (blind : machine.device.Blind)
    {start : Progress σ} (initially : Together Eq Unasked start start) {count : Nat}
    (requested : machine.RequestedDuring start count) :
    (∃ fault outside, machine.after start (count + 1) = .ended (.error fault) ⟨outside, true⟩ ∧
      machine.silent.after start (count + 1) = .ended (.error fault) ⟨outside, false⟩) ∨
    ∃ state outside, machine.after start (count + 1) = .running state ⟨outside, true⟩ ∧
      machine.silent.after start (count + 1) = .running state ⟨outside, false⟩ := by
  obtain ⟨before, world, running, going, raised⟩ := requested
  have unasked : (machine.after start count).world.stopped = false := by
    rw [running]
    exact going
  have together := after_silent blind initially unasked
  have turn : machine.after start (count + 1) = machine.advance before world := by
    rw [after, running, resume]
  generalize machine.silent.after start (count + 1) = free at together
  generalize machine.after start (count + 1) = asked at together raised turn
  cases together with
  | @running state aside world free agrees unasked =>
    obtain ⟨outside, stopped⟩ := world
    obtain ⟨_, _⟩ := free
    obtain ⟨rfl, rfl⟩ := unasked
    cases raised
    rw [agrees.eq]
    exact .inr ⟨aside, outside, rfl, rfl⟩
  | @ended result world free unasked =>
    obtain ⟨outside, stopped⟩ := world
    obtain ⟨_, _⟩ := free
    obtain ⟨rfl, rfl⟩ := unasked
    cases raised
    cases result with
    | error fault => exact .inl ⟨fault, outside, rfl, rfl⟩
    | ok report =>
      -- A run that ends with a report does so without asking anybody for anything.
      have kept := (report_of_advance turn.symm).1
      rw [← kept] at going
      cases going

/-- A run that ends stopped was asked to stop during the last instruction it executed. -/
theorem requested_of_stopped {machine : Machine σ} {state last : RunState}
    {world outside : World σ} (going : world.stopped = false) {turns : Nat}
    (ran : machine.after (.running state world) turns = .running last outside)
    (stopped : outside.stopped = true) :
    ∃ count, turns = count + 1 ∧ machine.RequestedDuring (.running state world) count := by
  cases turns with
  | zero =>
    cases ran
    rw [going] at stopped
    cases stopped
  | succ count =>
    obtain ⟨before, earlier, running, advanced⟩ := running_of_after ran
    refine ⟨count, rfl, before, earlier, running, going_of_advance advanced, ?_⟩
    rw [ran]
    exact stopped

end Machine

namespace Engine

private theorem machine_silent (engine : Engine) (program : Program) (device : Device σ)
    (observer : Option (Observer σ)) :
    engine.machine program device.silent (observer.map Observer.silent) =
      (engine.machine program device observer).silent := by
  simp only [machine, Machine.ofProgram, Machine.silent]
  cases engine.config.display <;> rfl

private theorem machine_silent_traced (engine : Engine) (program : Program) (device : Device σ)
    (observer : Option (Observer σ)) :
    engine.machine program device.silent.traced
        (observer.map fun watch => watch.silent.traced) =
      (engine.machine program device.traced (observer.map Observer.traced)).silent := by
  rw [← machine_silent, Option.map_map]
  rfl

private theorem after_request {machine : Machine σ} {start : Progress σ} {turns : Nat}
    {state : RunState} {outside : σ} {stopped : Bool}
    (ran : machine.after start turns = .running state ⟨outside, stopped⟩) :
    (machine.program.size ≤ state.pc → machine.after start (turns + 1) =
      .ended (.ok (state.report .completed)) ⟨outside, stopped⟩) ∧
    (state.pc < machine.program.size → stopped = true → machine.after start (turns + 1) =
      .ended (.ok (state.report .stopped)) ⟨outside, stopped⟩) := by
  rw [Machine.after, ran, Machine.resume]
  constructor
  · intro past
    exact Machine.advance_past ((Program.get?_eq_none_iff ..).mpr past) _
  · intro inside asked
    cases here : machine.program.get? state.pc with
    | none =>
      apply absurd ((Program.get?_eq_none_iff ..).mp here)
      omega
    | some instruction => exact Machine.advance_stopped here asked

/-- A stop requested while an instruction is handled, by the observer or from inside the device,
lets that instruction take its full effect. A fault of it, or the end of the program behind it,
still decides how the run ends; otherwise the run stops there, with everything as it is at that
place in the run that nobody stops. No run ends stopped in any other way. -/
theorem cancelled_run_is_exact_prefix (engine : Engine) (program : Program) (device : Device σ)
    (observer : Option (Observer σ)) (outside : σ) :
    let asked := engine.machine program device.unaware.traced (observer.map Observer.traced)
    let free := engine.machine program device.unaware.silent.traced
      (observer.map fun watch => watch.silent.traced)
    let start := engine.start (Traced.start outside)
    let askedReturns (result : Except Fault Report) (seen : Traced σ) :=
      engine.Returns program device.unaware.traced (observer.map Observer.traced) (.start outside)
        ⟨result, seen, { engine with stopRequested := true }⟩
    let freeReturns (result : Except Fault Report) (seen : Traced σ) :=
      engine.Returns program device.unaware.silent.traced
        (observer.map fun watch => watch.silent.traced) (.start outside)
        ⟨result, seen, { engine with stopRequested := false }⟩
    (∀ count, asked.RequestedDuring start count →
      (∃ fault seen, free.after start (count + 1) = .ended (.error fault) ⟨seen, false⟩ ∧
        freeReturns (.error fault) seen ∧ askedReturns (.error fault) seen) ∨
      ∃ state seen, free.after start (count + 1) = .running state ⟨seen, false⟩ ∧
        state.steps = count + 1 ∧
        seen.observations = (if engine.config.display && observer.isSome then count + 1 else 0) ∧
        (state.pc = program.size → freeReturns (.ok (state.report .completed)) seen ∧
          askedReturns (.ok (state.report .completed)) seen) ∧
        (state.pc ≠ program.size → askedReturns (.ok (state.report .stopped)) seen)) ∧
    (∀ finished report, engine.Returns program device.unaware.traced
        (observer.map Observer.traced) (.start outside) finished →
      finished.result = .ok report → report.ending = .stopped →
      ∃ count, asked.RequestedDuring start count ∧ report.steps = count + 1) := by
  intro asked free start askedReturns freeReturns
  have silenced : free = asked.silent :=
    machine_silent_traced engine program device.unaware observer
  constructor
  · intro count requested
    have blind : asked.device.Blind := device.blind_traced_unaware
    have initially : Machine.Together Eq Machine.Unasked start start :=
      .running ⟨rfl, rfl, rfl, rfl, rfl⟩ ⟨rfl, rfl⟩
    have both := Machine.requested_silent blind initially requested
    rw [← silenced] at both
    rcases both with ⟨fault, seen, ended, same⟩ | ⟨state, seen, ran, same⟩
    · exact .inl ⟨fault, seen, same, (returns_iff_ended ..).mpr ⟨_, same⟩,
        (returns_iff_ended ..).mpr ⟨_, ended⟩⟩
    · refine .inr ⟨state, seen, same, steps_after ran, ?_, ?_, ?_⟩
      · have watched : (engine.machine program device.unaware observer).traced.after start
            (count + 1) = .running state ⟨seen, true⟩ := by
          rw [← machine_traced]
          exact ran
        exact observations_after watched
      · intro last
        have past : program.size ≤ state.pc := Nat.le_of_eq last.symm
        exact ⟨(returns_iff_ended ..).mpr ⟨_, (after_request same).1 past⟩,
          (returns_iff_ended ..).mpr ⟨_, (after_request ran).1 past⟩⟩
      · intro more
        have inside : state.pc < program.size := Nat.lt_of_le_of_ne (pc_le_size ran) more
        exact (returns_iff_ended ..).mpr ⟨_, (after_request ran).2 inside rfl⟩
  · intro finished report returns result ending
    obtain ⟨turns, _, world, ended, rfl⟩ := (returns_iff ..).mp returns
    cases result
    obtain ⟨_, last, seen, -, ran, advanced⟩ := Machine.ended_of_after ended
    obtain ⟨-, ⟨-, completed⟩ | ⟨stopped, same⟩⟩ := Machine.report_of_advance advanced
    · rw [completed] at ending
      cases ending
    · obtain ⟨count, rfl, requested⟩ := Machine.requested_of_stopped rfl ran stopped
      refine ⟨count, requested, ?_⟩
      rw [same]
      exact steps_after ran

end Engine
end ByteTape
