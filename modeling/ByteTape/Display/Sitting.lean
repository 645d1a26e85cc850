import ByteTape.Display.Screen
import ByteTape.Machine.Run

/-! A run in front of somebody who types. The screen is the observer of the run and its
device, and a record is kept of what the run has read and written. -/

namespace ByteTape

/-- What is typed before each step is shown, and before each read. Both are counted from
zero. -/
structure Typist where
  beforeStep : Nat → List TerminalEvent
  beforeRead : Nat → List TerminalEvent

structure Sitting (width height : Nat) where
  screen : Screen width height
  reads : Nat
  /-- What the reads that did not fail have answered. -/
  answers : Array (Option UInt8)
  written : Array UInt8

namespace Sitting

variable {width height : Nat}

def start (screen : Screen width height) : Sitting width height := ⟨screen, 0, #[], #[]⟩

def observer (typist : Typist) : Observer (Sitting width height) := fun view sitting =>
  let reply := (sitting.screen.type (typist.beforeStep view.step)).showStep view
  ⟨(), { sitting with screen := reply.outside }, reply.raised⟩

def device (typist : Typist) : Device (Sitting width height) where
  read stopped sitting :=
    let reply := (sitting.screen.type (typist.beforeRead sitting.reads)).readByte stopped
    let answers := match reply.value with
      | .ok answer => sitting.answers.push answer
      | .error _ => sitting.answers
    ⟨reply.value, { sitting with screen := reply.outside, reads := sitting.reads + 1, answers },
      reply.raised⟩
  write byte _ sitting :=
    .quiet (.ok ())
      { sitting with
        screen := sitting.screen.writeByte byte
        written := sitting.written.push byte }

/-- Shows what a run has come to. A fault is told in its own words; what to say of a report
is up to `summary`. -/
def conclude (sitting : Sitting width height) (result : Except Fault Report)
    (summary : Report → String) (closing : List TerminalEvent) :
    Except String Unit × Sitting width height :=
  let (screen, message, failed) := match result with
    | .ok report =>
      (sitting.screen.conclude report.tape.cells report.tape.pointer report.steps,
        summary report, false)
    | .error fault => (sitting.screen, fault.message, true)
  let (result, screen) := (screen.type closing).finish message failed
  (result, { sitting with screen })

end Sitting
end ByteTape
