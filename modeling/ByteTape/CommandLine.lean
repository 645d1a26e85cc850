import ByteTape.CommandLine.Options
import ByteTape.Device.Pipe
import ByteTape.Display.Sitting
import ByteTape.Engine

/-! The program as it is started from a command line: it reads its options, loads a program,
runs it, and ends with an exit code and at most one message. The first stage that fails
decides both. -/

namespace ByteTape

/-- How the process ends: exit code, standard output, standard error. -/
structure Exit where
  code : Nat
  output : Array UInt8
  message : String
  deriving DecidableEq, Repr

/-- What the process is started with. At a terminal somebody has typed the pending events and
goes on pressing enter whenever a key is waited for. -/
structure Surroundings where
  contentOf : String → Except String String
  input : List UInt8
  terminal : Option (List TerminalEvent)

namespace CommandLine

def summary (report : Report) : String :=
  match report.ending with
  | .completed => "[Runtime] Finished execution."
  | .stopped => s!"[Runtime] Stopped after {report.steps} steps."

def noTerminal : String := "No such device or address (os error 6)"

def engine (options : Options) : Except ConfigError Engine := do
  let config ← Config.ofRequestedMemory options.memory
  Engine.ofConfig { config with
    display := options.display
    stepDelay := options.delay
    jumpStrategy := if options.jumpTable then .table else .scan }

def prepare (options : Options) (content : Except String String) : Except Failure Engine :=
  match engine options with
  | .error error => .error (.configuration error)
  | .ok engine =>
    match engine.loadFile options.file content
        (if options.strictNesting then .nested else .counted) with
    | (.ok (), engine) => .ok engine
    | (.error failure, _) => .error failure

def failed (output : Array UInt8) (failure : Failure) : Exit :=
  ⟨1, output, failure.message ++ "\n"⟩

/-- The end of a run between standard input and standard output. -/
def conclude (output : Array UInt8) : Except Fault Report → Exit
  | .ok report => ⟨0, output, "\n" ++ summary report ++ "\n"⟩
  | .error fault => failed output (.run fault)

def runHeadless (engine : Engine) (fuel : Nat) (input : List UInt8) : Option Exit :=
  (engine.run fuel Pipe.device none (Pipe.ofInput input)).map fun finished =>
    conclude finished.outside.written finished.result

def enter : TerminalEvent := .key ⟨.enter, false, .press⟩

/-- A terminal has eighty columns and twenty-four rows. -/
def screen (engine : Engine) (pending : List TerminalEvent) : Screen 80 24 where
  scene := .start (engine.program.getD .empty) engine.config.memorySize engine.config.outputWidth
  canvas := .blank 80 24 [] 0
  keyboard := ⟨true, pending⟩

def runDisplayed (engine : Engine) (fuel : Nat) (pending : List TerminalEvent) : Option Exit :=
  let typist : Typist := ⟨fun _ => [], fun _ => [enter]⟩
  (engine.run fuel (Sitting.device typist) (some (Sitting.observer typist))
    (.start (screen engine pending))).map fun finished =>
      match finished.outside.conclude finished.result summary [enter] with
      | (.error reason, _) => failed #[] (.display reason)
      | (.ok (), _) =>
        match finished.result with
        | .ok report => ⟨0, #[], summary report ++ "\n"⟩
        | .error fault => failed #[] (.run fault)

/-- Loads the program and runs it, `none` if the fuel does not last. -/
def execute (options : Options) (surroundings : Surroundings) (fuel : Nat) : Option Exit :=
  match prepare options (surroundings.contentOf options.file) with
  | .error failure => some (failed #[] failure)
  | .ok engine =>
    if options.display then
      match surroundings.terminal with
      | none => some (failed #[] (.display noTerminal))
      | some pending => runDisplayed engine fuel pending
    else runHeadless engine fuel surroundings.input

def refuse (error : UsageError) : Exit :=
  ⟨2, #[], error.message ++ "\n" ++ Options.usage ++ "\n"⟩

def help : Exit := ⟨0, (Options.usage ++ "\n").toUTF8.data, ""⟩

def run (arguments : List String) (surroundings : Surroundings) (fuel : Nat) : Option Exit :=
  match Options.parse arguments with
  | .error error => some (refuse error)
  | .ok .help => some help
  | .ok (.execute options) => execute options surroundings fuel

end CommandLine
end ByteTape
