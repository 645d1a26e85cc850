/-! The options on the command line. Each is given at most once, a value follows its option
or is attached to it with an equals sign, and nothing else may stand there. -/

namespace ByteTape

structure Options where
  file : String
  memory : Int
  delay : Int
  display : Bool
  jumpTable : Bool
  strictNesting : Bool
  deriving DecidableEq, Repr

inductive UsageError where
  | unexpected (argument : String)
  | repeated (option : String)
  | missingValue (option : String)
  | unneededValue (option : String)
  | invalidNumber (option value : String)
  | missingOption (option : String)
  deriving DecidableEq, Repr

inductive Request where
  | help
  | execute (options : Options)
  deriving DecidableEq, Repr

def UsageError.message : UsageError → String
  | unexpected argument => s!"error: unexpected argument '{argument}' found"
  | repeated option => s!"error: the argument '{option}' cannot be used multiple times"
  | missingValue option => s!"error: a value is required for '{option}' but none was supplied"
  | unneededValue option => s!"error: unexpected value for '{option}' found; no more were expected"
  | invalidNumber option value => s!"error: invalid value '{value}' for '{option}'"
  | missingOption option => s!"error: the required argument '{option}' was not provided"

namespace Options

def usage : String :=
  "Usage: --file <FILE> --memory <CELLS> [--display] [--delay <MILLISECONDS>] " ++
    "[--jump-table] [--strict-nesting]"

def digits? (text : List Char) : Option Nat :=
  if text.isEmpty || !text.all Char.isDigit then none
  else some (text.foldl (fun value digit => 10 * value + (digit.toNat - '0'.toNat)) 0)

/-- A number of 64 bits with an optional sign. -/
def number? (text : String) : Option Int :=
  let value : Option Int := match text.toList with
    | '-' :: rest => (digits? rest).map fun n => -n
    | '+' :: rest => (digits? rest).map Int.ofNat
    | rest => (digits? rest).map Int.ofNat
  value.filter fun n => Int64.minValue.toInt ≤ n ∧ n ≤ Int64.maxValue.toInt

/-- What the arguments read so far have set. -/
structure Given where
  file : Option String
  memory : Option Int
  delay : Option Int
  display : Bool
  jumpTable : Bool
  strictNesting : Bool

namespace Given

def nothing : Given := ⟨none, none, none, false, false, false⟩

def setFile (given : Given) (value : String) : Except UsageError Given :=
  if given.file.isSome then .error (.repeated "--file")
  else if value.isEmpty then .error (.missingValue "--file")
  else .ok { given with file := some value }

def setMemory (given : Given) (value : String) : Except UsageError Given :=
  if given.memory.isSome then .error (.repeated "--memory")
  else match number? value with
    | none => .error (.invalidNumber "--memory" value)
    | some cells => .ok { given with memory := some cells }

def setDelay (given : Given) (value : String) : Except UsageError Given :=
  if given.delay.isSome then .error (.repeated "--delay")
  else match number? value with
    | none => .error (.invalidNumber "--delay" value)
    | some milliseconds => .ok { given with delay := some milliseconds }

/-- How an option takes its value, if it is one that has a value. -/
def setter? (option : String) : Option (Given → String → Except UsageError Given) :=
  match option with
  | "--file" => some setFile
  | "--memory" => some setMemory
  | "--delay" => some setDelay
  | _ => none

/-- Whether a flag is set already and what setting it gives, if the option is a flag. -/
def flag? (given : Given) (option : String) : Option (Bool × Given) :=
  match option with
  | "--display" => some (given.display, { given with display := true })
  | "--jump-table" => some (given.jumpTable, { given with jumpTable := true })
  | "--strict-nesting" => some (given.strictNesting, { given with strictNesting := true })
  | _ => none

def setFlag (given : Given) (option : String) (attached : Bool) : Except UsageError Given :=
  match given.flag? option with
  | none => .error (.unexpected option)
  | some (set, raised) =>
    if attached then .error (.unneededValue option)
    else if set then .error (.repeated option)
    else .ok raised

/-- The file and the size of the memory have no default. -/
def complete (given : Given) : Except UsageError Options :=
  match given.file, given.memory with
  | none, _ => .error (.missingOption "--file")
  | _, none => .error (.missingOption "--memory")
  | some file, some memory =>
    .ok ⟨file, memory, given.delay.getD 0, given.display, given.jumpTable, given.strictNesting⟩

end Given

/-- Whether an argument can be the value of the option before it. One that starts like an
option is no value, unless it is a lone hyphen or a negative number where one is wanted. -/
def canFollow (option value : String) : Bool :=
  !"-".isPrefixOf value || value = "-" || option ≠ "--file" && (number? value).isSome

/-- An argument up to its first equals sign, and what is attached behind that sign. -/
def splitValue (argument : String) : String × Option String :=
  match argument.toList.span (· ≠ '=') with
  | (option, []) => (String.ofList option, none)
  | (option, _ :: value) => (String.ofList option, some (String.ofList value))

def collect (given : Given) : List String → Except UsageError Request
  | [] => given.complete.map .execute
  | argument :: rest =>
    let (option, attached) := splitValue argument
    if argument = "--help" ∨ argument = "-h" then .ok .help
    else if argument = "--" then
      match rest with
      | [] => given.complete.map .execute
      | extra :: _ => .error (.unexpected extra)
    else match Given.setter? option, attached with
      | none, attached => do collect (← given.setFlag option attached.isSome) rest
      | some set, some value => do collect (← set given value) rest
      | some set, none =>
        match rest with
        | [] => .error (.missingValue option)
        | value :: rest =>
          if canFollow option value then do collect (← set given value) rest
          else .error (.missingValue option)

def parse (arguments : List String) : Except UsageError Request := collect .nothing arguments

end Options
end ByteTape
