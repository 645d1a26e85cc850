/-! The files that a program can be read from, by their paths below one directory. -/

namespace ByteTape

inductive FileEntry where
  | file (bytes : ByteArray)
  | directory

inductive FileError where
  | notFound
  | isDirectory
  | notADirectory
  | nameTooLong
  | nulInPath
  | notText
  deriving DecidableEq, Repr

def FileError.message : FileError → String
  | .notFound => "No such file or directory (os error 2)"
  | .isDirectory => "Is a directory (os error 21)"
  | .notADirectory => "Not a directory (os error 20)"
  | .nameTooLong => "File name too long (os error 36)"
  | .nulInPath => "file name contained an unexpected NUL byte"
  | .notText => "stream did not contain valid UTF-8"

structure Files where
  entries : List (String × FileEntry)

namespace Files

/-- The longest name and the longest path that can be looked up, in bytes. -/
def maxName : Nat := 255

def maxPath : Nat := 4095

/-- What stands at a path of names. A path that others continue is a directory. -/
def entry? (files : Files) (names : List String) : Option FileEntry :=
  let path := "/".intercalate names
  match files.entries.lookup path with
  | some entry => some entry
  | none =>
    if files.entries.any (fun entry => (path ++ "/").isPrefixOf entry.1) then some .directory
    else none

/-- Follows the names of a path, one directory at a time. The topmost directory is its
own parent. -/
def follow (files : Files) (place : List String) : List String → Except FileError FileEntry
  | [] => .ok .directory
  | name :: rest =>
    if name = "" ∨ name = "." then files.follow place rest
    else if name = ".." then files.follow place.dropLast rest
    else if maxName < name.utf8ByteSize then .error .nameTooLong
    else match files.entry? (place ++ [name]) with
      | none => .error .notFound
      | some .directory => files.follow (place ++ [name]) rest
      | some (.file bytes) => if rest.isEmpty then .ok (.file bytes) else .error .notADirectory

/-- Only relative paths lead into the directory; of the absolute ones just the root is known. -/
def find (files : Files) (path : String) : Except FileError FileEntry :=
  let names := path.splitOn "/"
  if path.contains '\x00' then .error .nulInPath
  else if path.isEmpty then .error .notFound
  else if maxPath < path.utf8ByteSize then .error .nameTooLong
  else if "/".isPrefixOf path then
    if names.all String.isEmpty then .ok .directory else .error .notFound
  else files.follow [] names

def readText (files : Files) (path : String) : Except FileError String :=
  match files.find path with
  | .error error => .error error
  | .ok .directory => .error .isDirectory
  | .ok (.file bytes) =>
    match String.fromUTF8? bytes with
    | some text => .ok text
    | none => .error .notText

end Files
end ByteTape
