import ByteTape.Proofs.Device.Pipes
import ByteTape.Proofs.Structure.Equivalence

/-! From the source of a program to the end of its run, by way of its tree. A buffer that is handed
to the run may hold output already, which the run leaves in front of its own. -/

namespace ByteTape
open Brackets

variable {τ : Type}

theorem Program.parse_of_code {source : String} {block : Block}
    (spelled : Source.word source.toList = block.code) (rule : BracketRule) :
    Program.parse source rule = .ok ⟨Token.ofSource source⟩ := by
  have nested : Nested (brackets (Source.word source.toList)) := by
    rw [spelled]
    exact block.nested
  cases rule with
  | counted => exact parse_counted ((nested_brackets_iff _).mp nested).total
  | nested => exact parse_nested nested

namespace Buffer

/-- The buffer, with other output in front of its own. -/
def behind (earlier : Array UInt8) (buffer : Buffer) : Buffer :=
  { buffer with output := earlier ++ buffer.output }

private theorem read_behind (earlier : Array UInt8) (buffer : Buffer) :
    (buffer.behind earlier).read = (buffer.read.1, buffer.read.2.behind earlier) := by
  rw [read_eq, read_eq]
  rfl

private theorem write_behind (earlier : Array UInt8) (buffer : Buffer) (byte : UInt8) :
    (buffer.behind earlier).write byte = (buffer.write byte).behind earlier := by
  simp [write, behind]

def worldBehind (earlier : Array UInt8) (world : World (Buffer × τ)) : World (Buffer × τ) :=
  ⟨(world.outside.1.behind earlier, world.outside.2), world.stopped⟩

/-- Earlier output is only ever added to. -/
private theorem simulation_behind (earlier : Array UInt8) (engine : Engine) (program : Program)
    (observer : Option (Observer τ)) :
    Machine.Simulation
      (engine.machine program Buffer.device.beside (observer.map Observer.beside))
      (engine.machine program Buffer.device.beside (observer.map Observer.beside))
      Eq (fun world beside => worldBehind earlier world = beside) where
  get? _ := rfl
  location? _ := rfl
  closing? _ _ := rfl
  opening? _ _ := rfl
  advance byte _ _ same := congrArg (Column.advance · byte) same
  observe instruction state aside world beside agrees behind := by
    cases agrees.eq
    cases behind
    rw [Machine.observe, Machine.observe, Engine.machine, Machine.ofProgram]
    cases engine.config.display with
    | false => rfl
    | true => cases observer <;> rfl
  read world beside behind := by
    cases behind
    rw [Engine.device_machine, read_beside, read_beside, worldBehind, read_behind]
    exact ⟨rfl, rfl⟩
  write byte world beside behind := by
    cases behind
    rw [Engine.device_machine, write_beside, write_beside, worldBehind, write_behind]
    exact ⟨rfl, rfl⟩

end Buffer

namespace Engine

/-- A run ends in the same way whatever has been written before it. -/
private theorem returns_behind {engine : Engine} {program : Program}
    {observer : Option (Observer τ)}
    {first last : Buffer} {before after : τ} {result : Except Fault Report} {stopped : Bool}
    (earlier : Array UInt8)
    (returns : engine.Returns program Buffer.device.beside (observer.map Observer.beside)
      (first, before) ⟨result, (last, after), { engine with stopRequested := stopped }⟩) :
    engine.Returns program Buffer.device.beside (observer.map Observer.beside)
      (first.behind earlier, before)
      ⟨result, (last.behind earlier, after), { engine with stopRequested := stopped }⟩ := by
  obtain ⟨turns, ended⟩ := (returns_iff_ended ..).mp returns
  have alike (world beside : World (Buffer × τ)) (same : Buffer.worldBehind earlier world = beside) :
      world.stopped = beside.stopped := by rw [← same, Buffer.worldBehind]
  have initially : Machine.Together Eq (fun world beside => Buffer.worldBehind earlier world = beside)
      (engine.start (first, before)) (engine.start (first.behind earlier, before)) :=
    .running ⟨rfl, rfl, rfl, rfl, rfl⟩ rfl
  have together := Machine.after_together
    (Buffer.simulation_behind earlier engine program observer) alike initially turns
  rw [ended] at together
  obtain ⟨_, same, rfl⟩ := together.of_ended
  exact (returns_iff_ended ..).mpr ⟨turns, same⟩

theorem load_of_code (engine : Engine) {source : String} {block : Block}
    (spelled : Source.word source.toList = block.code) (rule : BracketRule) :
    engine.load source rule =
      (.ok (), { engine with program := some ⟨Token.ofSource source⟩ }) :=
  load_eq_ok_iff.mpr ⟨_, Program.parse_of_code spelled rule, rfl⟩

/-- A run in memory that nobody stops completes with what the tree of its source evaluates to, and
leaves earlier output where it was. -/
theorem runsTo_of_evaluates {engine : Engine} {source : String}
    (loaded : engine.program = some ⟨Token.ofSource source⟩) {block : Block}
    (spelled : Source.word source.toList = block.code) {input : List UInt8} {last : Store}
    {steps : Nat} (evaluates : Evaluates block (engine.blankStore input) (.finished last steps))
    (observer : Option (Observer τ)) (earlier : Array UInt8) (memory : τ) :
    ∃ later, engine.RunsTo Buffer.device.beside
      (observer.map fun watch => watch.silent.beside) (⟨input, earlier⟩, memory)
      ⟨.ok ⟨.completed, steps, last.output.length, last.tape⟩,
        (⟨last.input, earlier ++ last.output.toArray⟩, later),
        { engine with stopRequested := false }⟩ := by
  have whole : block.code = (Program.mk (Token.ofSource source)).instructions := by
    rw [Program.instructions_ofSource, spelled]
  obtain ⟨later, returns⟩ := (engine.returns_iff_evaluates whole observer input memory _ _ _).mpr
    ⟨_, evaluates, rfl, rfl, rfl⟩
  have silent : (observer.map fun watch => watch.silent.beside : Option (Observer (Buffer × τ))) =
      (observer.map Observer.silent).map Observer.beside := by
    rw [Option.map_map]
    rfl
  have empty : (Buffer.ofInput input).behind earlier = ⟨input, earlier⟩ :=
    congrArg (Buffer.mk input) Array.append_empty
  rw [silent] at returns ⊢
  have behind := returns_behind earlier returns
  rw [empty] at behind
  exact ⟨later, (runsTo_iff_returns loaded ..).mpr behind⟩

end Engine
end ByteTape
