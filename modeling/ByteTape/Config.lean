import ByteTape.Brackets.Jumps

/-! The settings of an engine and what is wrong with those it refuses. -/

namespace ByteTape

inductive ConfigError where
  | invalidMemorySize (size : Int)
  | negativeStepDelay (milliseconds : Int)
  | invalidOutputWidth
  | unreadableFile (path reason : String)
  deriving DecidableEq, Repr

def ConfigError.message : ConfigError → String
  | .invalidMemorySize size => s!"[Config] Memory size must be greater than 0 (got {size})"
  | .negativeStepDelay milliseconds =>
    s!"[Config] Step delay must not be negative (got {milliseconds} ms)"
  | .invalidOutputWidth => "[Config] Output width must be greater than 0"
  | .unreadableFile path reason =>
    s!"[Config] Specified file could not be read: {path} ({reason})"

structure Config where
  memorySize : Nat
  display : Bool
  /-- The pause before each instruction, in milliseconds. -/
  stepDelay : Int
  jumpStrategy : JumpStrategy
  /-- Where the output column wraps; without a width it never does. -/
  outputWidth : Option Nat
  deriving DecidableEq, Repr

namespace Config

def defaultMemorySize : Nat := 30000

def defaultOutputWidth : Nat := 80

def ofMemory (size : Nat) : Config := ⟨size, false, 0, .scan, some defaultOutputWidth⟩

instance : Inhabited Config := ⟨ofMemory defaultMemorySize⟩

/-- Settings for a number of cells that somebody asked for, which may be no size at all. -/
def ofRequestedMemory (cells : Int) : Except ConfigError Config :=
  if cells < 1 then .error (.invalidMemorySize cells) else .ok (ofMemory cells.toNat)

structure Valid (config : Config) : Prop where
  memory : 0 < config.memorySize
  delay : 0 ≤ config.stepDelay
  width : config.outputWidth ≠ some 0

def problem? (config : Config) : Option ConfigError :=
  if config.memorySize = 0 then some (.invalidMemorySize 0)
  else if config.stepDelay < 0 then some (.negativeStepDelay config.stepDelay)
  else if config.outputWidth = some 0 then some .invalidOutputWidth
  else none

theorem problem?_eq_none_iff (config : Config) : config.problem? = none ↔ config.Valid := by
  unfold problem?
  constructor
  · intro none
    split at none
    · simp at none
    split at none
    · simp at none
    split at none
    · simp at none
    exact ⟨by omega, by omega, by assumption⟩
  · intro valid
    simp [valid.width, Nat.ne_of_gt valid.memory, valid.delay]

end Config
end ByteTape
