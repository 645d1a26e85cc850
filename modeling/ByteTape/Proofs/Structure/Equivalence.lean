import ByteTape.Proofs.Machine.Observation
import ByteTape.Proofs.Program.Acceptance
import ByteTape.Proofs.Structure.Refinement

/-! Engines and trees. A source that passes the stricter check is the code of one tree, and the
runs of the engine that has loaded it end as the tree says. -/

namespace ByteTape.Engine
open Brackets

variable {τ : Type}

def blankStore (engine : Engine) (input : List UInt8) : Store :=
  ⟨.blank engine.config.memorySize engine.valid.memory, input, []⟩

private theorem machine_inMemory (engine : Engine) (program : Program) :
    engine.machine program Buffer.device none =
      .inMemory program engine.config.jumpStrategy := by
  simp only [machine, Machine.ofProgram, Machine.inMemory, ite_self]

/-- A run in memory that nobody stops ends as its tree does, whoever looks on. -/
theorem returns_iff_evaluates (engine : Engine) {program : Program} {block : Block}
    (whole : block.code = program.instructions) (observer : Option (Observer τ))
    (input : List UInt8) (memory : τ) (result : Except Fault Report) (buffer : Buffer)
    (stopped : Bool) :
    (∃ later, engine.Returns program Buffer.device.beside
        (observer.map fun watch => watch.silent.beside) (.ofInput input, memory)
        ⟨result, (buffer, later), { engine with stopRequested := stopped }⟩) ↔
      ∃ outcome, Evaluates block (engine.blankStore input) outcome ∧
        result = outcome.result program ∧ buffer = outcome.store.buffer ∧ stopped = false := by
  have initially : Machine.Together (fun _ _ => True) Machine.Beside
      (engine.start (Buffer.ofInput input, memory))
      ((engine.blankStore input).standing engine.config.outputWidth 0 0) :=
    .running ⟨rfl, rfl, trivial, rfl, rfl⟩ ⟨rfl, rfl⟩
  have alone : (Machine.inMemory program engine.config.jumpStrategy).observer = none := rfl
  have ends := Machine.ends_iff_evaluates engine.config.jumpStrategy engine.config.outputWidth
    whole (engine.blankStore input) result ⟨buffer, stopped⟩
  simp only [returns_iff_ended, machine_beside, machine_inMemory]
  rw [exists_comm]
  simp only [Machine.ended_watchedBy_iff alone _ initially, ends, World.mk.injEq]

/-- What a source that the stricter check accepts comes to once it is loaded: the code of exactly
one tree. A run of it in memory that nobody stops, with whatever observer looks on, completes with
what the tree evaluates to, step for step; it breaks off where the tree does, on the same refused
move; and it ends in no other way. The tree has at most one outcome, and every loop in it costs one
step, and in each round one step more than its body. -/
theorem loaded_run_refines_tree (engine ready : Engine) (source : String)
    (observer : Option (Observer τ)) (input : List UInt8) (memory : τ)
    (loaded : engine.load source .nested = (.ok (), ready)) :
    ∃ program block, ready.program = some program ∧ block.code = program.instructions ∧
      (∀ other : Block, other.code = program.instructions → other = block) ∧
      let evaluates := Evaluates block (ready.blankStore input)
      let returns (result : Except Fault Report) (buffer : Buffer) :=
        ∃ later, ready.RunsTo Buffer.device.beside
          (observer.map fun watch => watch.silent.beside) (.ofInput input, memory)
          ⟨result, (buffer, later), { ready with stopRequested := false }⟩
      (∀ tape steps outputBytes rest output,
        returns (.ok ⟨.completed, steps, outputBytes, tape⟩) ⟨rest, output⟩ ↔
          evaluates (.finished ⟨tape, rest, output.toList⟩ steps) ∧
            outputBytes = output.size) ∧
      (∀ fault rest output, returns (.error fault) ⟨rest, output⟩ ↔
        ∃ tape steps pc refused,
          evaluates (.faulted ⟨tape, rest, output.toList⟩ steps pc refused) ∧
            fault = .ofMove pc (program.location? pc) refused) ∧
      (∀ report buffer, returns (.ok report) buffer → report.ending = .completed) ∧
      (∀ outcome other, evaluates outcome → evaluates other → outcome = other) ∧
      ∀ body rest before last steps, Evaluates (.loop body rest) before (.finished last steps) ↔
        ∃ rounds middle taken, Rounds body before rounds middle ∧
          Evaluates rest middle (.finished last taken) ∧
          steps = 1 + (rounds.map (· + 1)).sum + taken := by
  obtain ⟨program, parsed, same⟩ := load_eq_ok_iff.mp loaded
  have stored : ready.program = some program := by rw [same]
  obtain ⟨block, whole⟩ := (Block.exists_code_eq_iff _).mpr (Program.nested_of_parse parsed)
  have unique (other : Block) (same : other.code = program.instructions) : other = block :=
    Block.code_injective (same.trans whole.symm)
  refine ⟨program, block, stored, whole, unique, ?_⟩
  intro evaluates returns
  have total (result : Except Fault Report) (buffer : Buffer) : returns result buffer ↔
      ∃ outcome, evaluates outcome ∧ result = outcome.result program ∧
        buffer = outcome.store.buffer := by
    have ends := ready.returns_iff_evaluates whole observer input memory result buffer false
    simpa only [returns, runsTo_iff_returns stored, and_true] using ends
  refine ⟨?_, ?_, ?_, fun _ _ first second => first.unique second,
    fun _ _ _ _ _ => Evaluates.loop_finished_iff⟩
  · intro tape steps outputBytes rest output
    rw [total]
    constructor
    · rintro ⟨outcome, evaluated, result, buffer⟩
      cases outcome with
      | faulted => cases result
      | finished store taken =>
        cases result
        cases buffer
        exact ⟨evaluated, List.size_toArray.symm⟩
    · rintro ⟨evaluated, bytes⟩
      subst bytes
      exact ⟨_, evaluated, rfl, rfl⟩
  · intro fault rest output
    rw [total]
    constructor
    · rintro ⟨outcome, evaluated, result, buffer⟩
      cases outcome with
      | finished => cases result
      | faulted store taken index refused =>
        cases result
        cases buffer
        exact ⟨store.tape, taken, index, refused, evaluated, rfl⟩
    · rintro ⟨tape, steps, pc, refused, evaluated, same⟩
      subst same
      exact ⟨_, evaluated, rfl, rfl⟩
  · intro report buffer ended
    obtain ⟨outcome, -, result, -⟩ := (total _ _).mp ended
    cases outcome with
    | finished store taken =>
      cases result
      rfl
    | faulted => cases result

theorem loaded_run_refines_tree_countdown :
    let engine : Engine := ⟨.ofMemory 1, ⟨by decide, by decide, by decide⟩, none, false⟩
    ∃ ready, engine.load "+[-]" .nested = (.ok (), ready) ∧
      ∃ later, ready.RunsTo Buffer.device.beside
        ((none : Option (Observer Unit)).map fun watch => watch.silent.beside) (.ofInput [], ())
        ⟨.ok ⟨.completed, 4, 0, .blank 1 Nat.one_pos⟩, (.ofInput [], later),
          { ready with stopRequested := false }⟩ := by
  intro engine
  have code : Source.word "+[-]".toList = [.increment, .loopStart, .decrement, .loopEnd] := by rfl
  have nested : Nested (brackets (Source.word "+[-]".toList)) := by
    rw [code]
    exact .loop .empty .empty
  have loaded : engine.load "+[-]" .nested =
      (.ok (), { engine with program := some ⟨Token.ofSource "+[-]"⟩ }) :=
    load_eq_ok_iff.mpr ⟨_, Program.parse_nested nested, rfl⟩
  obtain ⟨program, block, stored, -, unique, completed, -⟩ :=
    loaded_run_refines_tree engine _ _ none [] () loaded
  cases stored
  rw [Program.instructions_ofSource, code] at unique
  have tree := unique (.primitive .increment (.loop (.primitive .decrement .done) .done)) rfl
  subst tree
  have back : (Tape.blank 1 Nat.one_pos).increment.decrement = .blank 1 Nat.one_pos := by decide
  refine ⟨_, loaded, (completed (.blank 1 Nat.one_pos) 4 0 [] #[]).mpr ⟨?_, rfl⟩⟩
  rw [← back]
  exact .primitive rfl (.round (by decide) (.primitive rfl (.done _)) (.skip rfl (.done _)))

end ByteTape.Engine
