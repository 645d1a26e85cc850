import ByteTape.Device.Pipe

/-! What the calls to a pipe come to, told from its scripts. Reads and writes that are interrupted
do not count, since they are tried again; everything else in a script decides one call. -/

namespace ByteTape

def ReadResult.failure? : ReadResult → Option String
  | .failed reason => some reason
  | .byte _ | .endOfInput | .interrupted => none

def WriteResult.failure? : WriteResult → Option String
  | .nothing => some "failed to write whole buffer"
  | .failed reason => some reason
  | .accepted | .interrupted => none

def FlushResult.failure? : FlushResult → Option String
  | .interrupted => some "interrupted"
  | .failed reason => some reason
  | .flushed => none

/-- What the program gets to see of a read. The end of the input is taken for zero. -/
def ReadResult.byte? : ReadResult → Option UInt8
  | .byte value => some value
  | .endOfInput => some 0
  | .interrupted | .failed _ => none

namespace Pipe

/-- The results that decide a read each. -/
def decidingReads (reads : List ReadResult) : List ReadResult := reads.filter (· ≠ .interrupted)

def decidingWrites (writes : List WriteResult) : List WriteResult :=
  writes.filter (· ≠ .interrupted)

def readFailure? (pipe : Pipe) (index : Nat) : Option String :=
  (decidingReads pipe.reads)[index]?.bind ReadResult.failure?

def writeFailure? (pipe : Pipe) (index : Nat) : Option String :=
  (decidingWrites pipe.writes)[index]?.bind WriteResult.failure?

def flushFailure? (pipe : Pipe) (index : Nat) : Option String :=
  pipe.flushes[index]?.bind FlushResult.failure?

/-- The bytes that a script of reads stands for, up to the first failure. -/
def bytes (reads : List ReadResult) : List UInt8 :=
  (reads.takeWhile (·.failure?.isNone)).filterMap ReadResult.byte?

theorem decidingReads_nextByte (reads : List ReadResult) :
    decidingReads (nextByte reads).2 = (decidingReads reads).tail := by
  induction reads with
  | nil => rfl
  | cons result rest ih =>
    cases result with
    | interrupted => exact ih
    | byte | endOfInput | failed => rfl

private theorem nextByte_eq (reads : List ReadResult) :
    match (decidingReads reads).head?.bind ReadResult.failure? with
    | some reason => (nextByte reads).1 = .error reason
    | none => ∃ answer, (nextByte reads).1 = .ok answer ∧
        (bytes reads).head?.getD 0 = answer.getD 0 ∧
        bytes (nextByte reads).2 = (bytes reads).tail := by
  induction reads with
  | nil => exact ⟨none, rfl, rfl, rfl⟩
  | cons result rest ih =>
    cases result with
    | interrupted => exact ih
    | byte value => exact ⟨some value, rfl, rfl, rfl⟩
    | endOfInput => exact ⟨none, rfl, rfl, rfl⟩
    | failed reason => rfl

private theorem acceptByte_eq (writes : List WriteResult) :
    (acceptByte writes).1 =
        ((decidingWrites writes).head?.bind WriteResult.failure?).elim (.ok ()) .error ∧
      decidingWrites (acceptByte writes).2 = (decidingWrites writes).tail := by
  induction writes with
  | nil => exact ⟨rfl, rfl⟩
  | cons result rest ih =>
    cases result with
    | interrupted => exact ih
    | accepted | nothing | failed => exact ⟨rfl, rfl⟩

variable (pipe : Pipe)

theorem flush_eq :
    pipe.flush = ((pipe.flushFailure? 0).elim (.ok ()) .error,
      { pipe with flushes := pipe.flushes.tail, flushCalls := pipe.flushCalls + 1 }) := by
  rw [flush, flushFailure?, ← List.head?_eq_getElem?]
  rcases pipe.flushes.head? with _ | _ | _ | reason <;> rfl

theorem read_eq :
    match pipe.readFailure? 0 with
    | some reason => pipe.read.1 = .error reason
    | none => ∃ answer, pipe.read.1 = .ok answer ∧
        (bytes pipe.reads).head?.getD 0 = answer.getD 0 ∧
        bytes pipe.read.2.reads = (bytes pipe.reads).tail := by
  rw [readFailure?, ← List.head?_eq_getElem?]
  exact nextByte_eq pipe.reads

example : bytes [.byte 65, .interrupted, .endOfInput, .byte 66, .failed "broken", .byte 67] =
    [65, 0, 66] := by
  decide

theorem write_of_writeFailure {reason : String} (refused : pipe.writeFailure? 0 = some reason)
    (byte : UInt8) :
    ∃ writes, pipe.write byte = (.error reason, { pipe with writes }) := by
  rw [writeFailure?, ← List.head?_eq_getElem?] at refused
  have called := (acceptByte_eq pipe.writes).1
  rw [refused] at called
  rw [write]
  rcases accepted : acceptByte pipe.writes with ⟨answer, writes⟩
  rw [accepted] at called
  cases called
  exact ⟨writes, rfl⟩

/-- A byte that is taken is flushed, whatever that comes to. -/
theorem write_of_taken (taken : pipe.writeFailure? 0 = none) (byte : UInt8) :
    ∃ writes, decidingWrites writes = (decidingWrites pipe.writes).tail ∧
      pipe.write byte = ((pipe.flushFailure? 0).elim (.ok ()) .error,
        { pipe with
          writes
          flushes := pipe.flushes.tail
          written := pipe.written.push byte
          flushCalls := pipe.flushCalls + 1 }) := by
  rw [writeFailure?, ← List.head?_eq_getElem?] at taken
  obtain ⟨called, rest⟩ := acceptByte_eq pipe.writes
  rw [taken] at called
  rw [write]
  rcases accepted : acceptByte pipe.writes with ⟨answer, writes⟩
  rw [accepted] at called rest
  cases called
  exact ⟨writes, rest, flush_eq _⟩

end Pipe
end ByteTape
