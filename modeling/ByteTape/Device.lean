/-! What a run asks of the outside: bytes to read and places to write them.
Every call answers with the outside as it is afterwards, and with whether a stop
was requested while the call was going on. -/

namespace ByteTape

structure Reply (α σ : Type) where
  value : α
  outside : σ
  raised : Bool

def Reply.quiet {α σ : Type} (value : α) (outside : σ) : Reply α σ := ⟨value, outside, false⟩

/-- A source and sink of bytes. Both calls are told whether a stop has been requested by then.
A read that finds the end of the input answers `none`; a failed call gives its reason. -/
structure Device (σ : Type) where
  read : Bool → σ → Reply (Except String (Option UInt8)) σ
  write : UInt8 → Bool → σ → Reply (Except String Unit) σ

structure World (σ : Type) where
  outside : σ
  stopped : Bool

namespace World

variable {σ : Type}

/-- Calls the outside. A request to stop is never taken back. -/
def call {α : Type} (f : Bool → σ → Reply α σ) : World σ → α × World σ
  | ⟨outside, stopped⟩ =>
    let ⟨value, outside, raised⟩ := f stopped outside
    (value, ⟨outside, stopped || raised⟩)

def read (device : Device σ) (world : World σ) : Except String (Option UInt8) × World σ :=
  world.call device.read

def write (device : Device σ) (byte : UInt8) (world : World σ) : Except String Unit × World σ :=
  world.call (device.write byte)

end World
end ByteTape
