import ByteTape.CommandLine
import ByteTape.Files

/-! The program between the real standard streams. It performs each read and write that the
next instruction asks for and hands the outcome to the machine. No terminal is driven from
here, so a display is refused as it is where there is no terminal. -/

namespace ByteTape.Main

/-- The words for an error number of the system. Some numbers arrive negated. -/
def describe (code : UInt32) (details : String) : String :=
  let number := if code < 0x80000000 then code.toNat else (0 - code).toNat
  match number with
  | 2 => FileError.notFound.message
  | 20 => FileError.notADirectory.message
  | 21 => FileError.isDirectory.message
  | 36 => FileError.nameTooLong.message
  | _ => s!"{details} (os error {number})"

def reason : IO.Error → String
  | .noFileOrDirectory _ code details
  | .inappropriateType _ code details
  | .permissionDenied _ code details
  | .invalidArgument _ code details
  | .resourceExhausted _ code details
  | .resourceVanished code details
  | .otherError code details => describe code details
  | error => toString error

def readFile (path : String) : IO (Except String String) := do
  try
    match String.fromUTF8? (← IO.FS.readBinFile path) with
    | some text => return .ok text
    | none => return .error FileError.notText.message
  catch error => return .error (reason error)

def readByte : IO ReadResult := do
  try
    let bytes ← (← IO.getStdin).read 1
    return match bytes.data[0]? with
      | some byte => .byte byte
      | none => .endOfInput
  catch error => return .failed (reason error)

/-- Why an action failed, `none` if it did not. -/
def problem? (action : IO Unit) : IO (Option String) := do
  try
    action
    return none
  catch error => return some (reason error)

/-- Writes a byte and flushes; the pipe tells the machine how that went. -/
def writeByte (byte : UInt8) (pipe : Pipe) : IO Pipe := do
  let output ← IO.getStdout
  match ← problem? (output.write ⟨#[byte]⟩) with
  | some reason => return { pipe with writes := [.failed reason] }
  | none =>
    match ← problem? output.flush with
    | some reason => return { pipe with writes := [.accepted], flushes := [.failed reason] }
    | none => return { pipe with writes := [.accepted], flushes := [.flushed] }

/-- Does what the instruction will ask of the outside. -/
def serve (state : RunState) (pipe : Pipe) : Instruction → IO Pipe
  | .input => return { pipe with reads := [← readByte] }
  | .output => writeByte state.tape.current { pipe with written := #[] }
  | _ => return pipe

partial def drive (machine : Machine Pipe) (delay : UInt32) (state : RunState)
    (world : World Pipe) : IO (Except Fault Report) := do
  let world ← match machine.program.get? state.pc with
    | none => pure world
    | some instruction =>
      if delay ≠ 0 then IO.sleep delay
      pure { world with outside := ← serve state world.outside instruction }
  match machine.advance state world with
  | .running state world => drive machine delay state world
  | .ended result _ => return result

def finish (exit : Exit) : IO UInt32 := do
  let output ← IO.getStdout
  output.write ⟨exit.output⟩
  output.flush
  IO.eprint exit.message
  return exit.code.toUInt32

def run (engine : Engine) (program : Program) : IO Exit := do
  let machine := engine.machine program Pipe.device none
  let state := RunState.start engine.config engine.valid
  let delay := min engine.config.stepDelay.toNat 4294967295
  return CommandLine.conclude #[] (← drive machine delay.toUInt32 state ⟨.ofInput [], false⟩)

end ByteTape.Main

open ByteTape in
def main (arguments : List String) : IO UInt32 := do
  match Options.parse arguments with
  | .error error => Main.finish (CommandLine.refuse error)
  | .ok .help => Main.finish CommandLine.help
  | .ok (.execute options) =>
    match CommandLine.prepare options (← Main.readFile options.file) with
    | .error failure => Main.finish (CommandLine.failed #[] failure)
    | .ok engine =>
      match engine.program with
      | some program =>
        if options.display then
          Main.finish (CommandLine.failed #[] (.display CommandLine.noTerminal))
        else Main.finish (← Main.run engine program)
      | none => Main.finish (CommandLine.failed #[] (.run .programNotLoaded))
