import ByteTape.Proofs.Brackets.Partners
import ByteTape.Proofs.Machine.Simulation
import ByteTape.Proofs.Machine.Trace

/-! How jumps are resolved cannot be observed. Every turn of a run is the same for both
strategies, since they differ in nothing but the partners they find for brackets. -/

namespace ByteTape

variable {σ : Type}

namespace Machine

theorem simulation_strategy (program : Program) (first second : JumpStrategy)
    (device : Device σ) (observer : Option (Observer σ)) :
    Simulation ⟨program, .ofProgram first program, device, observer⟩
      ⟨program, .ofProgram second program, device, observer⟩ Eq Eq where
  get? _ := rfl
  location? _ := rfl
  closing? index opens := by
    rw [Brackets.Jumps.closing?_ofProgram first opens, Brackets.Jumps.closing?_ofProgram second opens]
  opening? index closes := by
    rw [Brackets.Jumps.opening?_ofProgram first closes, Brackets.Jumps.opening?_ofProgram second closes]
  advance byte column aside same := congrArg (Column.advance · byte) same
  observe instruction state aside world beside agrees same := by
    rw [agrees.eq, same]
    rfl
  read world beside same := by
    rw [same]
    exact ⟨rfl, rfl⟩
  write byte world beside same := by
    rw [same]
    exact ⟨rfl, rfl⟩

theorem after_strategy (program : Program) (first second : JumpStrategy) (device : Device σ)
    (observer : Option (Observer σ)) (state : RunState) (world : World σ) (turns : Nat) :
    after ⟨program, .ofProgram first program, device, observer⟩ (.running state world) turns =
      after ⟨program, .ofProgram second program, device, observer⟩ (.running state world) turns := by
  have simulation := simulation_strategy program first second device observer
  have initially : Together Eq Eq (.running state world) (.running state world) :=
    .running ⟨rfl, rfl, rfl, rfl, rfl⟩ rfl
  have asked : ∀ world beside : World σ, world = beside → world.stopped = beside.stopped := by
    intro world beside same
    rw [same]
  exact (after_together simulation asked initially turns).eq

end Machine

/-- All that is seen of the end of a run: its result, the outside, and whether a stop was
requested. -/
def Finished.seen (finished : Finished σ) : Except Fault Report × σ × Bool :=
  (finished.result, finished.outside, finished.engine.stopRequested)

namespace Engine

def withStrategy (engine : Engine) (strategy : JumpStrategy) : Engine :=
  { engine with
    config := { engine.config with jumpStrategy := strategy }
    valid := ⟨engine.valid.memory, engine.valid.delay, engine.valid.width⟩ }

def eventsWithin (engine : Engine) (turns : Nat) (program : Program) (device : Device σ)
    (observer : Option (Observer σ)) (outside : σ) : List Event :=
  ((engine.machine program device.traced (observer.map Observer.traced)).after
    (engine.start (.start outside)) turns).world.outside.events

private theorem after_withStrategy (engine : Engine) (first second : JumpStrategy)
    (program : Program) (device : Device σ) (observer : Option (Observer σ)) (outside : σ)
    (turns : Nat) :
    ((engine.withStrategy first).machine program device observer).after
        ((engine.withStrategy first).start outside) turns =
      ((engine.withStrategy second).machine program device observer).after
        ((engine.withStrategy second).start outside) turns :=
  Machine.after_strategy program first second device _ _ _ turns

private theorem seen_withStrategy (engine : Engine) (first second : JumpStrategy) (fuel : Nat)
    (program : Program) (device : Device σ) (observer : Option (Observer σ)) (outside : σ) :
    ((engine.withStrategy first).runProgram fuel program device observer outside).map
        Finished.seen =
      ((engine.withStrategy second).runProgram fuel program device observer outside).map
        Finished.seen := by
  rw [runProgram_eq, runProgram_eq, after_withStrategy engine first second, Option.map_map,
    Option.map_map]
  rfl

/-- Walking the code on every jump and looking partners up in a table come to the same: the same
views shown, the same calls with the same answers, and the same end, if there is one. -/
theorem scan_and_table_indistinguishable (engine : Engine) (program : Program)
    (device : Device σ) (observer : Option (Observer σ)) (outside : σ) :
    (∀ turns, (engine.withStrategy .scan).eventsWithin turns program device observer outside =
      (engine.withStrategy .table).eventsWithin turns program device observer outside) ∧
    (∀ fuel,
      ((engine.withStrategy .scan).runProgram fuel program device observer outside).map
          Finished.seen =
        ((engine.withStrategy .table).runProgram fuel program device observer outside).map
          Finished.seen) ∧
    ((∃ finished, (engine.withStrategy .scan).Returns program device observer outside finished) ↔
      ∃ finished, (engine.withStrategy .table).Returns program device observer outside
        finished) := by
  have seen (fuel : Nat) :=
    seen_withStrategy engine .scan .table fuel program device observer outside
  refine ⟨?_, seen, ?_⟩
  · intro turns
    exact congrArg (fun progress => progress.world.outside.events)
      (after_withStrategy engine .scan .table program device.traced _ (.start outside) turns)
  · have ends (strategy : JumpStrategy) :
        (∃ finished, (engine.withStrategy strategy).Returns program device observer outside
          finished) ↔
        ∃ fuel, (((engine.withStrategy strategy).runProgram fuel program device observer
          outside).map Finished.seen).isSome = true := by
      simp only [Option.isSome_map, Option.isSome_iff_exists, Returns]
      exact exists_comm
    simp only [ends, seen]

end Engine
end ByteTape
