import ByteTape.Proofs.Machine.Cancellation

/-! Observers that look on. One that keeps what it sees in a memory of its own, and never asks
for a stop, has no influence on a run; nor has the column that it is shown. -/

namespace ByteTape

variable {σ τ : Type}

/-- The device, beside a memory that it leaves alone. -/
def Device.beside (device : Device σ) : Device (σ × τ) where
  read stopped outside :=
    let reply := device.read stopped outside.1
    ⟨reply.value, (reply.outside, outside.2), reply.raised⟩
  write byte stopped outside :=
    let reply := device.write byte stopped outside.1
    ⟨reply.value, (reply.outside, outside.2), reply.raised⟩

def Observer.beside (observer : Observer τ) : Observer (σ × τ) := fun view outside =>
  let reply := observer view outside.2
  ⟨(), (outside.1, reply.outside), reply.raised⟩

theorem Device.read_beside {device : Device σ} (read : σ → Except String (Option UInt8) × σ)
    (quiet : ∀ stopped outside, device.read stopped outside =
      .quiet (read outside).1 (read outside).2) (world : World (σ × τ)) :
    world.read device.beside = ((read world.outside.1).1,
      ⟨((read world.outside.1).2, world.outside.2), world.stopped⟩) := by
  obtain ⟨outside, stopped⟩ := world
  simp [World.read, World.call, Device.beside, quiet, Reply.quiet]

theorem Device.write_beside {device : Device σ} (write : σ → UInt8 → Except String Unit × σ)
    (quiet : ∀ byte stopped outside, device.write byte stopped outside =
      .quiet (write outside byte).1 (write outside byte).2) (byte : UInt8)
    (world : World (σ × τ)) :
    world.write device.beside byte = ((write world.outside.1 byte).1,
      ⟨((write world.outside.1 byte).2, world.outside.2), world.stopped⟩) := by
  obtain ⟨outside, stopped⟩ := world
  simp [World.write, World.call, Device.beside, quiet, Reply.quiet]

namespace Machine

def watchedBy (machine : Machine σ) (observer : Option (Observer τ)) : Machine (σ × τ) where
  program := machine.program
  jumps := machine.jumps
  device := machine.device.beside
  observer := observer.map fun watch => watch.silent.beside

def Beside (world : World (σ × τ)) (bare : World σ) : Prop :=
  world.outside.1 = bare.outside ∧ world.stopped = bare.stopped

theorem simulation_watchedBy {machine : Machine σ} (alone : machine.observer = none)
    (observer : Option (Observer τ)) :
    Simulation (machine.watchedBy observer) machine (fun _ _ => True) Beside where
  get? _ := rfl
  location? _ := rfl
  closing? _ _ := rfl
  opening? _ _ := rfl
  advance _ _ _ _ := trivial
  observe instruction state aside world bare _ beside := by
    have unseen : machine.observe (aside.view instruction) bare = bare := by
      rw [Machine.observe, alone]
    rw [unseen]
    cases observer with
    | none => exact beside
    | some watch => exact ⟨beside.1, by rw [← beside.2]; exact Bool.or_false _⟩
  read world bare beside := by
    obtain ⟨⟨outside, memory⟩, stopped⟩ := world
    obtain ⟨_, _⟩ := bare
    obtain ⟨rfl, rfl⟩ := beside
    exact ⟨rfl, rfl, rfl⟩
  write byte world bare beside := by
    obtain ⟨⟨outside, memory⟩, stopped⟩ := world
    obtain ⟨_, _⟩ := bare
    obtain ⟨rfl, rfl⟩ := beside
    exact ⟨rfl, rfl, rfl⟩

theorem Together.ended_iff {columns : Column → Column → Prop} {watched : Progress (σ × τ)}
    {bare : Progress σ} (together : Together columns Beside watched bare)
    (result : Except Fault Report) (outside : σ) (stopped : Bool) :
    (∃ memory, watched = .ended result ⟨(outside, memory), stopped⟩) ↔
      bare = .ended result ⟨outside, stopped⟩ := by
  cases together with
  | running => simp
  | @ended result world bare beside =>
    obtain ⟨⟨outside, memory⟩, stopped⟩ := world
    obtain ⟨_, _⟩ := bare
    obtain ⟨rfl, rfl⟩ := beside
    simp

/-- A run that is only looked at ends like the one that nobody sees. -/
theorem ended_watchedBy_iff {machine : Machine σ} (alone : machine.observer = none)
    (observer : Option (Observer τ)) {progress : Progress (σ × τ)} {bare : Progress σ}
    (initially : Together (fun _ _ => True) Beside progress bare) (turns : Nat)
    (result : Except Fault Report) (outside : σ) (stopped : Bool) :
    (∃ memory, (machine.watchedBy observer).after progress turns =
      .ended result ⟨(outside, memory), stopped⟩) ↔
    machine.after bare turns = .ended result ⟨outside, stopped⟩ := by
  have together := after_together (simulation_watchedBy alone observer)
    (fun _ _ beside => beside.2) initially turns
  exact together.ended_iff result outside stopped

end Machine

namespace Engine

theorem machine_beside (engine : Engine) (program : Program) (device : Device σ)
    (observer : Option (Observer τ)) :
    engine.machine program device.beside (observer.map fun watch => watch.silent.beside) =
      (engine.machine program device none).watchedBy
        (if engine.config.display then observer else none) := by
  simp only [machine, Machine.ofProgram, Machine.watchedBy]
  cases engine.config.display <;> rfl

theorem observe_beside (engine : Engine) (program : Program) (device : Device σ)
    (observer : Option (Observer τ)) (view : MachineView) (world : World (σ × τ)) :
    ((engine.machine program device.beside (observer.map Observer.beside)).observe view
      world).outside.1 = world.outside.1 := by
  rw [Machine.observe, Engine.machine, Machine.ofProgram]
  cases engine.config.display <;> cases observer <;> rfl

end Engine
end ByteTape
