import ByteTape.Device

/-! A device over a reader and a writer that may be interrupted or fail.
What each call to them will come to is written down beforehand; a reader whose
script is used up is at its end, and a writer whose script is used up accepts. -/

namespace ByteTape

inductive ReadResult where
  | byte (value : UInt8)
  | endOfInput
  | interrupted
  | failed (reason : String)
  deriving DecidableEq, Repr

inductive WriteResult where
  | accepted
  /-- The writer took nothing. -/
  | nothing
  | interrupted
  | failed (reason : String)
  deriving DecidableEq, Repr

inductive FlushResult where
  | flushed
  | interrupted
  | failed (reason : String)
  deriving DecidableEq, Repr

structure Pipe where
  reads : List ReadResult
  writes : List WriteResult
  flushes : List FlushResult
  written : Array UInt8
  flushCalls : Nat
  deriving DecidableEq

namespace Pipe

/-- A pipe that delivers the bytes and accepts everything. -/
def ofInput (input : List UInt8) : Pipe := ⟨input.map .byte, [], [], #[], 0⟩

/-- The next byte of a script of reads, and what is left of the script. An interrupted read
is tried again. -/
def nextByte : List ReadResult → Except String (Option UInt8) × List ReadResult
  | [] => (.ok none, [])
  | .byte value :: rest => (.ok (some value), rest)
  | .endOfInput :: rest => (.ok none, rest)
  | .interrupted :: rest => nextByte rest
  | .failed reason :: rest => (.error reason, rest)

/-- Whether the writer takes a byte in the end. An interrupted write is tried again. -/
def acceptByte : List WriteResult → Except String Unit × List WriteResult
  | [] => (.ok (), [])
  | .accepted :: rest => (.ok (), rest)
  | .nothing :: rest => (.error "failed to write whole buffer", rest)
  | .interrupted :: rest => acceptByte rest
  | .failed reason :: rest => (.error reason, rest)

def read (pipe : Pipe) : Except String (Option UInt8) × Pipe :=
  let (result, reads) := nextByte pipe.reads
  (result, { pipe with reads })

/-- One call to flush. An interrupted flush is not tried again. -/
def flush (pipe : Pipe) : Except String Unit × Pipe :=
  let called := { pipe with flushes := pipe.flushes.tail, flushCalls := pipe.flushCalls + 1 }
  match pipe.flushes.head? with
  | some .interrupted => (.error "interrupted", called)
  | some (.failed reason) => (.error reason, called)
  | some .flushed | none => (.ok (), called)

/-- Writes a byte and flushes; a byte that was not accepted is not flushed. -/
def write (pipe : Pipe) (byte : UInt8) : Except String Unit × Pipe :=
  match acceptByte pipe.writes with
  | (.error reason, writes) => (.error reason, { pipe with writes })
  | (.ok (), writes) => flush { pipe with writes, written := pipe.written.push byte }

def device : Device Pipe where
  read _ pipe := .quiet pipe.read.1 pipe.read.2
  write byte _ pipe := .quiet (pipe.write byte).1 (pipe.write byte).2

end Pipe
end ByteTape
