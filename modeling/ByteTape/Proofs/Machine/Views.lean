import ByteTape.Device.Buffer
import ByteTape.Proofs.Machine.Executions
import ByteTape.Proofs.Machine.Observation

/-! What observers see. With a display they are shown the machine before every instruction, once
each and as it stands; whether anybody looks on, and how wide the output is, changes nothing else. -/

namespace ByteTape

variable {σ τ υ : Type}

namespace Engine

section
variable {engine : Engine} {program : Program} {device : Device σ}
  {observer : Option (Observer σ)} {outside : σ} {state : RunState} {world : World (Traced σ)}

/-- A turn shows the machine to the observer at most once, and then as it stands. -/
private theorem views_advance (engine : Engine) (program : Program) (device : Device σ)
    (observer : Option (Observer σ)) (state : RunState) (world : World (Traced σ)) :
    ((engine.machine program device.traced (observer.map Observer.traced)).advance state
        world).world.outside.views = world.outside.views ∨
    (engine.config.display && observer.isSome) = true ∧
    ∃ instruction, program.get? state.pc = some instruction ∧
      ((engine.machine program device.traced (observer.map Observer.traced)).advance state
        world).world.outside.views = world.outside.views ++ [state.view instruction] := by
  have turn := Machine.turn_advance
    (jumps_machine engine program device.traced (observer.map Observer.traced)) state world
  have grown {instruction : Instruction} {later : World (Traced σ)} {calls : List Event}
      (here : program.get? state.pc = some instruction)
      (answers : device.traced.Answers
        ((engine.machine program device.traced (observer.map Observer.traced)).observe
          (state.view instruction) world) calls later) :
      later.outside.views = world.outside.views ∨
      (engine.config.display && observer.isSome) = true ∧
      ∃ instruction, program.get? state.pc = some instruction ∧
        later.outside.views = world.outside.views ++ [state.view instruction] := by
    have views := views_of_answers answers
    cases watched : engine.config.display && observer.isSome with
    | false =>
      rw [watched] at views
      exact .inl (views.trans (List.append_nil _))
    | true =>
      rw [watched] at views
      exact .inr ⟨rfl, instruction, here, views⟩
  generalize (engine.machine program device.traced (observer.map Observer.traced)).advance state
    world = progress at turn
  cases turn with
  | completed | stopped => exact .inl rfl
  | executes here _ _ answers | breaks here _ _ answers => exact grown here answers

theorem length_views_of_reaches (watched : (engine.config.display && observer.isSome) = true)
    (reaches : engine.Reaches program device.traced (observer.map Observer.traced)
      (.start outside) state world) :
    world.outside.views.length = state.steps := by
  obtain ⟨turns, ran⟩ := reaches
  have steps := steps_after ran
  rw [machine_traced] at ran
  rw [Traced.length_views, observations_after ran, if_pos watched, steps]

private theorem views_eq_nil (unwatched : (engine.config.display && observer.isSome) = false)
    (turns : Nat) :
    ((engine.machine program device.traced (observer.map Observer.traced)).after
      (engine.start (.start outside)) turns).world.outside.views = [] := by
  apply Machine.after_invariant
    (fun progress : Progress (Traced σ) => progress.world.outside.views = []) ?_ rfl
  intro progress hidden
  cases progress with
  | ended => exact hidden
  | running state world =>
    rcases views_advance engine program device observer state world with same | ⟨watched, -⟩
    · exact same.trans hidden
    · rw [unwatched] at watched
      cases watched

private theorem view_of_getElem? {turns n : Nat} {view : MachineView}
    (seen : ((engine.machine program device.traced (observer.map Observer.traced)).after
      (engine.start (.start outside)) turns).world.outside.views[n]? = some view) :
    ∃ state world instruction,
      engine.Reaches program device.traced (observer.map Observer.traced) (.start outside)
        state world ∧
      state.steps = n ∧ program.get? state.pc = some instruction ∧
      view = state.view instruction := by
  induction turns with
  | zero => cases seen
  | succ turns ih =>
    cases earlier : (engine.machine program device.traced (observer.map Observer.traced)).after
      (engine.start (.start outside)) turns with
    | ended result world =>
      rw [Machine.after, earlier] at seen
      rw [earlier] at ih
      exact ih seen
    | running state world =>
      rw [Machine.after, earlier, Machine.resume] at seen
      rw [earlier] at ih
      rcases views_advance engine program device observer state world with
        same | ⟨watched, instruction, here, grown⟩
      · rw [same] at seen
        exact ih seen
      · have count := length_views_of_reaches watched ⟨turns, earlier⟩
        rw [grown] at seen
        by_cases inside : n < world.outside.views.length
        · rw [List.getElem?_append_left inside] at seen
          exact ih seen
        · have bound := (List.getElem?_eq_some_iff.mp seen).1
          rw [List.length_append, List.length_singleton] at bound
          have last : n = world.outside.views.length := by omega
          rw [last, List.getElem?_concat_length] at seen
          cases seen
          exact ⟨state, world, instruction, ⟨turns, earlier⟩, by omega, here, rfl⟩

/-- All that a view shows, from the run alone. -/
private theorem view_at {turns n : Nat} {view : MachineView}
    (seen : ((engine.machine program device.traced (observer.map Observer.traced)).after
      (engine.start (.start outside)) turns).world.outside.views[n]? = some view) :
    ∃ state world instruction,
      engine.Reaches program device.traced (observer.map Observer.traced) (.start outside)
        state world ∧
      state.steps = n ∧ program.get? state.pc = some instruction ∧
      view = ⟨state.tape.cells, state.tape.pointer,
        ((written world.outside.calls).foldl Column.advance
          (.start engine.config.outputWidth)).position, state.pc, instruction, n⟩ ∧
      ∀ width, engine.config.outputWidth = some width → view.outputColumn < width := by
  obtain ⟨state, world, instruction, reaches, steps, here, rfl⟩ := view_of_getElem? seen
  have column : state.column =
      (written world.outside.calls).foldl Column.advance (.start engine.config.outputWidth) :=
    (performs_of_reaches reaches).column
  refine ⟨state, world, instruction, reaches, steps, here, ?_, ?_⟩
  · rw [RunState.view, column, steps]
  · intro width wide
    have positive : 0 < width := by
      apply Nat.pos_of_ne_zero
      rintro rfl
      exact engine.valid.width wide
    rw [RunState.view, column]
    exact Column.position_foldl_advance_lt wide positive _

end

/-- The run of a program that somebody only looks at: who does so has a memory of his own, and
never asks for a stop. -/
def lookedAt (engine : Engine) (program : Program) (device : Device σ)
    (observer : Option (Observer τ)) (outside : σ) (memory : τ) (turns : Nat) :
    Progress (Traced σ × τ) :=
  (engine.machine program device.traced.beside
    (observer.map fun watch => watch.silent.beside)).after
    (engine.start (.start outside, memory)) turns

private theorem lookedAt_together (engine other : Engine)
    (memorySize : other.config.memorySize = engine.config.memorySize)
    (jumps : other.config.jumpStrategy = engine.config.jumpStrategy) (program : Program)
    (device : Device σ) (observer : Option (Observer τ)) (outside : σ) (memory : τ)
    (turns : Nat) :
    Machine.Together (fun _ _ => True) Machine.Beside
      (other.lookedAt program device observer outside memory turns)
      ((engine.machine program device.traced none).after (engine.start (.start outside))
        turns) := by
  have bare : other.machine program device.traced none =
      engine.machine program device.traced none := by
    simp only [machine, Machine.ofProgram, jumps, ite_self]
  have alone : (engine.machine program device.traced none).observer = none := by
    simp only [machine, Machine.ofProgram, ite_self]
  rw [lookedAt, machine_beside, bare]
  apply Machine.after_together (Machine.simulation_watchedBy alone _) (fun _ _ beside => beside.2)
  refine .running ⟨?_, rfl, trivial, rfl, rfl⟩ ⟨rfl, rfl⟩
  simp only [RunState.start, memorySize]

private theorem returns_lookedAt_iff (engine other : Engine)
    (memorySize : other.config.memorySize = engine.config.memorySize)
    (jumps : other.config.jumpStrategy = engine.config.jumpStrategy) (program : Program)
    (device : Device σ) (observer : Option (Observer τ)) (outside : σ) (memory : τ)
    (result : Except Fault Report) (seen : Traced σ) (stopped : Bool) :
    (∃ later, other.Returns program device.traced.beside
      (observer.map fun watch => watch.silent.beside) (.start outside, memory)
      ⟨result, (seen, later), { other with stopRequested := stopped }⟩) ↔
    ∃ turns, (engine.machine program device.traced none).after (engine.start (.start outside))
      turns = .ended result ⟨seen, stopped⟩ := by
  have ends (turns : Nat) :=
    (lookedAt_together engine other memorySize jumps program device observer outside memory turns).ended_iff
      result seen stopped
  simp only [← ends, returns_iff_ended, lookedAt]
  exact exists_comm

/-- Observers have no influence. Engines with equally long tapes and the same way to jump run a
program alike, with or without a display, whoever looks on, however long they wait, and whatever
the width of the output: the same calls with the same answers turn by turn, and the same end.

Without a display or an observer nothing is shown. Otherwise the view with number `n` shows the
machine after `n` instructions, and the column to which the bytes written before have led; there
is one view for every step of the report, and one more than that for an instruction that faults. -/
theorem observation_is_transparent_and_exact (engine other : Engine)
    (memorySize : other.config.memorySize = engine.config.memorySize)
    (jumps : other.config.jumpStrategy = engine.config.jumpStrategy) (program : Program)
    (device : Device σ) (outside : σ) (first : Option (Observer τ)) (second : Option (Observer υ))
    (before : τ) (beside : υ) (observer : Option (Observer σ)) :
    let reaches := engine.Reaches program device.traced (observer.map Observer.traced)
      (.start outside)
    let returns := engine.Returns program device.traced (observer.map Observer.traced)
      (.start outside)
    let seen (turns : Nat) := ((engine.machine program device.traced
      (observer.map Observer.traced)).after (engine.start (.start outside)) turns).world.outside
    (∀ turns, (engine.lookedAt program device first outside before turns).world.outside.1 =
      (other.lookedAt program device second outside beside turns).world.outside.1) ∧
    (∀ result final stopped,
      (∃ later, engine.Returns program device.traced.beside
        (first.map fun watch => watch.silent.beside) (.start outside, before)
        ⟨result, (final, later), { engine with stopRequested := stopped }⟩) ↔
      ∃ later, other.Returns program device.traced.beside
        (second.map fun watch => watch.silent.beside) (.start outside, beside)
        ⟨result, (final, later), { other with stopRequested := stopped }⟩) ∧
    ((engine.config.display && observer.isSome) = false → ∀ turns, (seen turns).views = []) ∧
    ((engine.config.display && observer.isSome) = true →
      (∀ turns n view, (seen turns).views[n]? = some view →
        ∃ state world instruction, reaches state world ∧ state.steps = n ∧
          program.get? state.pc = some instruction ∧
          view = ⟨state.tape.cells, state.tape.pointer,
            ((written world.outside.calls).foldl Column.advance
              (.start engine.config.outputWidth)).position, state.pc, instruction, n⟩ ∧
          ∀ width, engine.config.outputWidth = some width → view.outputColumn < width) ∧
      (∀ state world, reaches state world → world.outside.views.length = state.steps) ∧
      (∀ finished report, returns finished → finished.result = .ok report →
        finished.outside.views.length = report.steps) ∧
      (∀ finished fault, returns finished → finished.result = .error fault →
        ∃ state world, reaches state world ∧
          (engine.machine program device.traced (observer.map Observer.traced)).advance state
            world = .ended (.error fault) ⟨finished.outside, finished.engine.stopRequested⟩ ∧
          finished.outside.views.length = state.steps + 1)) := by
  intro reaches returns seen
  refine ⟨?_, ?_, views_eq_nil, ?_⟩
  · intro turns
    have left := lookedAt_together engine engine rfl rfl program device first outside before turns
    have right :=
      lookedAt_together engine other memorySize jumps program device second outside beside turns
    exact left.worlds.1.trans right.worlds.1.symm
  · intro result final stopped
    rw [returns_lookedAt_iff engine other memorySize jumps program device second]
    exact returns_lookedAt_iff engine engine rfl rfl program device first outside before result
      final stopped
  · intro watched
    refine ⟨?_, ?_, ?_, ?_⟩
    · intro turns n view shown
      exact view_at shown
    · intro state world reached
      exact length_views_of_reaches watched reached
    · intro finished report returned result
      obtain ⟨state, reached, choice⟩ := reaches_of_report returned result
      have count := length_views_of_reaches watched reached
      rcases choice with ⟨-, rfl⟩ | ⟨-, -, rfl⟩
      · exact count
      · exact count
    · intro finished fault returned result
      obtain ⟨state, world, instruction, calls, reached, advanced, -, -, -, answers⟩ :=
        reaches_of_fault returned result
      refine ⟨state, world, reached, advanced, ?_⟩
      rw [views_of_answers answers, if_pos watched, List.length_append,
        length_views_of_reaches watched reached, List.length_singleton]

theorem observation_is_transparent_and_exact_three_steps :
    let engine : Engine := ⟨{ Config.ofMemory 2 with display := true },
      ⟨by decide, by decide, by decide⟩, none, false⟩
    let other : Engine := ⟨{ Config.ofMemory 2 with stepDelay := 5, outputWidth := none },
      ⟨by decide, by decide, by decide⟩, none, false⟩
    let program : Program := ⟨Token.ofSource "+.>"⟩
    let count : Observer Nat := fun _ seen => .quiet () (seen + 1)
    ∃ report final,
      engine.Returns program Buffer.device.traced.beside
        ((some count).map fun watch => watch.silent.beside) (.start (.ofInput []), 0)
        ⟨.ok report, (final, 3), { engine with stopRequested := false }⟩ ∧
      (∃ later, other.Returns program Buffer.device.traced.beside
        ((none : Option (Observer Unit)).map fun watch => watch.silent.beside)
        (.start (.ofInput []), ())
        ⟨.ok report, (final, later), { other with stopRequested := false }⟩) ∧
      report.steps = 3 ∧ final.outside.output = #[1] := by
  intro engine other program count
  obtain ⟨-, ends, -⟩ := observation_is_transparent_and_exact engine other rfl rfl program
    Buffer.device (.ofInput []) (some count) none 0 () none
  exact ⟨_, _, ⟨4, rfl⟩, (ends _ _ _).mp ⟨3, 4, rfl⟩, rfl, rfl⟩

end Engine
end ByteTape
