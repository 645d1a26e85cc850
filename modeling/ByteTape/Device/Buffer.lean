import ByteTape.Device
import ByteTape.Text.Utf8

/-! A device in memory: queued input and recorded output. It never fails. -/

namespace ByteTape

structure Buffer where
  input : List UInt8
  output : Array UInt8
  deriving DecidableEq

namespace Buffer

def ofInput (input : List UInt8) : Buffer := ⟨input, #[]⟩

def supply (buffer : Buffer) (bytes : List UInt8) : Buffer :=
  { buffer with input := buffer.input ++ bytes }

def read (buffer : Buffer) : Option UInt8 × Buffer :=
  match buffer.input with
  | [] => (none, buffer)
  | byte :: rest => (some byte, { buffer with input := rest })

theorem read_eq (buffer : Buffer) :
    buffer.read = (buffer.input.head?, { buffer with input := buffer.input.tail }) := by
  obtain ⟨input, output⟩ := buffer
  cases input <;> rfl

def write (buffer : Buffer) (byte : UInt8) : Buffer :=
  { buffer with output := buffer.output.push byte }

def outputText (buffer : Buffer) : String := Utf8.decodeLossy buffer.output

def device : Device Buffer where
  read _ buffer := .quiet (.ok buffer.read.1) buffer.read.2
  write byte _ buffer := .quiet (.ok ()) (buffer.write byte)

end Buffer
end ByteTape
