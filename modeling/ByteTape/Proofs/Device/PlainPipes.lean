import ByteTape.Device.Buffer
import ByteTape.Device.Pipe
import ByteTape.Proofs.Machine.Simulation
import ByteTape.Proofs.Machine.Trace

/-! Pipes that nothing happens to. One that delivers its input byte by byte and accepts everything
cannot be told from a buffer. -/

namespace ByteTape

namespace Pipe

/-- A pipe that still has to deliver what is queued in the buffer, and accepts everything. -/
inductive Carries : World Pipe → World (Traced Buffer) → Prop where
  | plain (input : List UInt8) (output : Array UInt8) (flushCalls : Nat) (events : List Event)
      (stopped : Bool) :
      Carries ⟨⟨input.map .byte, [], [], output, flushCalls⟩, stopped⟩
        ⟨⟨⟨input, output⟩, events⟩, stopped⟩

private theorem Carries.stopped {world : World Pipe} {beside : World (Traced Buffer)}
    (carries : Carries world beside) : world.stopped = beside.stopped := by
  cases carries
  rfl

private theorem Carries.written {world : World Pipe} {beside : World (Traced Buffer)}
    (carries : Carries world beside) :
    world.outside.written = beside.outside.outside.output := by
  cases carries
  rfl

private theorem read_of_carries {world : World Pipe} {beside : World (Traced Buffer)}
    (carries : Carries world beside) :
    (world.read device).1 = (beside.read Buffer.device.traced).1 ∧
      Carries (world.read device).2 (beside.read Buffer.device.traced).2 := by
  obtain ⟨input, output, flushCalls, events, stopped⟩ := carries
  cases input with
  | nil => exact ⟨rfl, .plain [] ..⟩
  | cons byte rest => exact ⟨rfl, .plain rest ..⟩

private theorem write_of_carries {world : World Pipe} {beside : World (Traced Buffer)}
    (carries : Carries world beside) (byte : UInt8) :
    (world.write device byte).1 = (beside.write Buffer.device.traced byte).1 ∧
      Carries (world.write device byte).2 (beside.write Buffer.device.traced byte).2 := by
  obtain ⟨input, output, flushCalls, events, stopped⟩ := carries
  exact ⟨rfl, .plain input ..⟩

private theorem simulation_carries (engine : Engine) (program : Program) :
    Machine.Simulation (engine.machine program device none)
      (engine.machine program Buffer.device.traced none) Eq Carries where
  get? _ := rfl
  location? _ := rfl
  closing? _ _ := rfl
  opening? _ _ := rfl
  advance := by rintro byte column _ rfl; rfl
  observe instruction state aside world beside _ carries := by
    simpa [Machine.observe, Engine.machine, Machine.ofProgram] using carries
  read _ _ := read_of_carries
  write byte _ _ carries := write_of_carries carries byte

/-- Between a pipe that never fails and a buffer with the same input a run sees no difference. -/
theorem runProgram_ofInput (engine : Engine) (fuel : Nat) (program : Program)
    (input : List UInt8) :
    (engine.runProgram fuel program device none (ofInput input)).map
        (fun finished => (finished.result, finished.outside.written)) =
      (engine.runProgram fuel program Buffer.device.traced none (.start (.ofInput input))).map
        fun finished => (finished.result, finished.outside.outside.output) := by
  have start : Machine.Together Eq Carries (engine.start (ofInput input))
      (engine.start (.start (.ofInput input))) :=
    .running ⟨rfl, rfl, rfl, rfl, rfl⟩ (.plain ..)
  have together := Machine.after_together (simulation_carries engine program)
    (fun _ _ carries => carries.stopped) start fuel
  simp only [Engine.runProgram_eq, Option.map_map]
  generalize (engine.machine program device none).after _ fuel = left at together ⊢
  generalize (engine.machine program Buffer.device.traced none).after _ fuel = right
    at together ⊢
  cases together with
  | running => rfl
  | ended result carries => simp [Progress.outcome?, carries.written]

end Pipe

end ByteTape
