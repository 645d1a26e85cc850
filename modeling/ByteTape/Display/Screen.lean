import ByteTape.Device
import ByteTape.Display.Canvas
import ByteTape.Display.Keyboard
import ByteTape.Display.Scene

/-! The display of a run: it shows each step, reads bytes from the keyboard, and collects
the output. Keys that ask for a stop are taken wherever keys are read. -/

namespace ByteTape

structure Screen (width height : Nat) where
  scene : Scene
  canvas : Canvas width height
  keyboard : Keyboard

namespace Screen

variable {width height : Nat}

def draw (screen : Screen width height) : Except String Unit × Screen width height :=
  let (result, canvas) := screen.canvas.draw screen.scene.paint
  (result, { screen with canvas })

def announce (screen : Screen width height) (activity : Activity) (message : String) :
    Except String Unit × Screen width height :=
  { screen with scene := screen.scene.announce activity message }.draw

def note (screen : Screen width height) (problem reason : String) : Screen width height :=
  { screen with scene := screen.scene.note problem reason }

/-- Takes the keys pressed since the last step. The answer tells whether to stop. -/
def poll (screen : Screen width height) : Bool × Screen width height :=
  match screen.keyboard.poll with
  | (.error reason, keyboard) =>
    (false, { screen with keyboard }.note "Keyboard unavailable" reason)
  | (.ok false, keyboard) => (false, { screen with keyboard })
  | (.ok true, keyboard) =>
    (true, { screen with keyboard, scene := screen.scene.announce .stopping "Stopping..." })

/-- Shows a step. That a frame could not be drawn is told by the next one that can. -/
def showStep (screen : Screen width height) (view : MachineView) : Reply Unit (Screen width height) :=
  let (raised, screen) := screen.poll
  let screen := { screen with scene := screen.scene.record view }
  match screen.draw with
  | (.ok (), screen) => ⟨(), screen, raised⟩
  | (.error reason, screen) => ⟨(), screen.note "Redraw failed" reason, raised⟩

/-- Goes back to showing the run, or that it is about to stop. -/
def resume (screen : Screen width height) (stopped : Bool) :
    Except String Unit × Screen width height :=
  if stopped then screen.announce .stopping "Stopping..."
  else screen.announce .running "Running..."

/-- The byte that a key stands for. A key that stops the run ends the input too. -/
def byteOf : InputKey → Option UInt8
  | .stop | .endOfInput => none
  | .byte value => some value

def readByte (screen : Screen width height) (stopped : Bool) :
    Reply (Except String (Option UInt8)) (Screen width height) :=
  match screen.announce .waitingForInput "Press a key to input a byte (Ctrl+D: end of input)" with
  | (.error reason, screen) => .quiet (.error reason) screen
  | (.ok (), screen) =>
    match screen.keyboard.await TerminalEvent.inputKey? with
    | (.error reason, keyboard) => .quiet (.error reason) { screen with keyboard }
    | (.ok key, keyboard) =>
      let raised := decide (key = .stop)
      let (result, screen) := { screen with keyboard }.resume (stopped || raised)
      ⟨result.map fun () => byteOf key, screen, raised⟩

/-- Adds a byte to the output, which the next frame will show. -/
def writeByte (screen : Screen width height) (byte : UInt8) : Screen width height :=
  { screen with scene := { screen.scene with output := screen.scene.output.push byte } }

def conclude (screen : Screen width height) (cells : Array UInt8) (pointer steps : Nat) :
    Screen width height :=
  { screen with scene := screen.scene.conclude cells pointer steps }

def finish (screen : Screen width height) (message : String) (failed : Bool) :
    Except String Unit × Screen width height :=
  match screen.announce (if failed then .failed else .finished) message with
  | (.error reason, screen) => (.error reason, screen)
  | (.ok (), screen) =>
    let (result, keyboard) := screen.keyboard.await fun event =>
      if event.dismisses then some () else none
    (result, { screen with keyboard })

def type (screen : Screen width height) (events : List TerminalEvent) : Screen width height :=
  { screen with keyboard := screen.keyboard.type events }

end Screen
end ByteTape
