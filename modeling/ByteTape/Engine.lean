import ByteTape.Machine.Run

/-! An engine: settings it has accepted, the program it has loaded, and whether somebody
has asked it to stop. Each run starts from a blank tape, with that request taken back. -/

namespace ByteTape

structure Engine where
  config : Config
  valid : config.Valid
  program : Option Program
  stopRequested : Bool

/-- The end of a run: its result, the outside, and the engine as it is afterwards. -/
structure Finished (σ : Type) where
  result : Except Fault Report
  outside : σ
  engine : Engine

namespace Engine

def ofConfig (config : Config) : Except ConfigError Engine :=
  match found : config.problem? with
  | some error => .error error
  | none => .ok ⟨config, config.problem?_eq_none_iff.mp found, none, false⟩

def stop (engine : Engine) : Engine := { engine with stopRequested := true }

/-- Loads what a parse came to. A source that is refused leaves no program loaded. -/
def install (engine : Engine) :
    Except ParseError Program → Except ParseError Unit × Engine
  | .ok program => (.ok (), { engine with program := some program })
  | .error error => (.error error, { engine with program := none })

def load (engine : Engine) (source : String) (rule : BracketRule) :
    Except ParseError Unit × Engine :=
  engine.install (Program.parse source rule)

theorem load_eq_ok_iff {engine ready : Engine} {source : String} {rule : BracketRule} :
    engine.load source rule = (.ok (), ready) ↔
      ∃ program, Program.parse source rule = .ok program ∧
        ready = { engine with program := some program } := by
  rw [load]
  cases Program.parse source rule with
  | error error => simp [install]
  | ok program => simp [install, eq_comm]

/-- Loads the content of a file, or tells why it could not be read. -/
def loadFile (engine : Engine) (path : String) (content : Except String String)
    (rule : BracketRule) : Except Failure Unit × Engine :=
  match content with
  | .error reason =>
    (.error (.configuration (.unreadableFile path reason)), { engine with program := none })
  | .ok source =>
    match engine.load source rule with
    | (.ok (), engine) => (.ok (), engine)
    | (.error error, engine) => (.error (.parse error), engine)

variable {σ : Type}

def machine (engine : Engine) (program : Program) (device : Device σ)
    (observer : Option (Observer σ)) : Machine σ :=
  .ofProgram engine.config program device observer

/-- Runs a program other than the loaded one, which stays loaded. -/
def runProgram (engine : Engine) (fuel : Nat) (program : Program) (device : Device σ)
    (observer : Option (Observer σ)) (outside : σ) : Option (Finished σ) :=
  let state := RunState.start engine.config engine.valid
  (engine.machine program device observer).run fuel state ⟨outside, false⟩ |>.map
    fun (result, world) =>
      ⟨result, world.outside, { engine with stopRequested := world.stopped }⟩

/-- Runs the loaded program. Without one the run does not start, and the engine stays
as it is. -/
def run (engine : Engine) (fuel : Nat) (device : Device σ) (observer : Option (Observer σ))
    (outside : σ) : Option (Finished σ) :=
  match engine.program with
  | none => some ⟨.error .programNotLoaded, outside, engine⟩
  | some program => engine.runProgram fuel program device observer outside

end Engine
end ByteTape
