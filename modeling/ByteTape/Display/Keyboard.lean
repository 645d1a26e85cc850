/-! Key presses and what the display makes of them. -/

namespace ByteTape

inductive KeyCode where
  | char (c : Char)
  | enter
  | tab
  | escape
  | other
  deriving DecidableEq, Repr

inductive KeyPhase where
  | press
  | repeated
  | release
  deriving DecidableEq, Repr

/-- A key that has moved, with the control key held or not. -/
structure KeyEvent where
  code : KeyCode
  control : Bool
  phase : KeyPhase
  deriving DecidableEq, Repr

inductive TerminalEvent where
  | key (event : KeyEvent)
  /-- A change of focus, the mouse, or pasted text. -/
  | other
  deriving DecidableEq, Repr

/-- What a key answers to a program that waits for input. -/
inductive InputKey where
  | stop
  | endOfInput
  | byte (value : UInt8)
  deriving DecidableEq, Repr

namespace KeyEvent

/-- Escape and control with `c`, the keys that ask for a stop at any time. -/
def interrupts (event : KeyEvent) : Bool :=
  match event.code with
  | .escape => true
  | .char c => c = 'c' && event.control
  | .enter | .tab | .other => false

/-- The plain letter that asks for a stop where letters are no input. -/
def quits (event : KeyEvent) : Bool :=
  event.code = .char 'q' || event.code = .char 'Q'

/-- The byte for a character: its code, or a question mark if that is no byte. -/
def byteOfChar (c : Char) : UInt8 := if c.toNat < 256 then c.toNat.toUInt8 else '?'.toUInt8

def inputKey? (event : KeyEvent) : Option InputKey :=
  if event.interrupts then some .stop
  else match event.code with
    | .char c => some (if c = 'd' && event.control then .endOfInput else .byte (byteOfChar c))
    | .enter => some (.byte 10)
    | .tab => some (.byte 9)
    | .escape | .other => none

end KeyEvent

namespace TerminalEvent

def pressed? : TerminalEvent → Option KeyEvent
  | key event => if event.phase = .press then some event else none
  | other => none

def inputKey? (event : TerminalEvent) : Option InputKey :=
  event.pressed?.bind KeyEvent.inputKey?

def stops (event : TerminalEvent) : Bool :=
  event.pressed?.any fun pressed => pressed.interrupts || pressed.quits

def dismisses (event : TerminalEvent) : Bool :=
  event.pressed?.any fun pressed => pressed.interrupts || pressed.quits || pressed.code = .enter

end TerminalEvent

/-- The events that have not been read yet, and whether there is a terminal to read them from. -/
structure Keyboard where
  attached : Bool
  pending : List TerminalEvent
  deriving DecidableEq, Repr

namespace Keyboard

def unavailable : String := "Failed to initialize input reader"

def exhausted : String := "No more terminal events"

/-- Events typed at a keyboard that is not there are lost. -/
def type (keyboard : Keyboard) (events : List TerminalEvent) : Keyboard :=
  if keyboard.attached then { keyboard with pending := keyboard.pending ++ events } else keyboard

/-- The first event that decides, and the events behind it. -/
def decide? {α : Type} (f : TerminalEvent → Option α) :
    List TerminalEvent → Option (α × List TerminalEvent)
  | [] => none
  | event :: rest =>
    match f event with
    | some value => some (value, rest)
    | none => decide? f rest

def await {α : Type} (keyboard : Keyboard) (f : TerminalEvent → Option α) :
    Except String α × Keyboard :=
  if keyboard.attached then
    match decide? f keyboard.pending with
    | some (value, rest) => (.ok value, { keyboard with pending := rest })
    | none => (.error exhausted, { keyboard with pending := [] })
  else (.error unavailable, keyboard)

/-- Reads whatever is there and tells whether any of it asks for a stop. -/
def poll (keyboard : Keyboard) : Except String Bool × Keyboard :=
  if keyboard.attached then
    (.ok (keyboard.pending.any TerminalEvent.stops), { keyboard with pending := [] })
  else (.error unavailable, keyboard)

end Keyboard
end ByteTape
