import TableBuffer.Inspect.Run
import TableBuffer.Inspect.SystemError

/-!
# Directories

A directory that holds nothing but some files, and what a path leads to when it is looked up there.
Outside the directory some other directories and devices are known, and nothing else is there. A
place outside is given by the names that lead to it from the root, the nearest first.
-/

namespace TableBuffer.Inspect

structure Directory where
  /-- The names and the bytes of the files. -/
  files : List (String × List UInt8)
  /-- The place of the directory. -/
  home : List String
  /-- The places of other directories. -/
  directories : List (List String)
  /-- The places of what is neither a directory nor a file. -/
  devices : List (List String)

namespace Directory

/-- How far a look-up has come. -/
inductive Place
  | inside
  | outside (names : List String)
  | file (bytes : List UInt8)
  | device

def missing : FileAccess := .unavailable (systemError 2)

def notDirectory : FileAccess := .unavailable (systemError 20)

def nameTooLong : FileAccess := .unavailable (systemError 36)

/-- The most bytes a name may have. -/
def maxName : Nat := 255

/-- The most bytes a path may have. -/
def maxPath : Nat := 4095

/-- What stands at a place outside. -/
def outsidePlace? (d : Directory) (names : List String) : Option Place :=
  if d.directories.contains names then some (.outside names)
  else if d.devices.contains names then some .device
  else none

/-- The directory above a place. The root stands above itself. -/
def above (d : Directory) : Place → Place
  | .outside names => .outside names.tail
  | _ => .outside d.home.tail

/-- What a name stands for in a directory. -/
def child? (d : Directory) (name : String) : Place → Option Place
  | .outside names => d.outsidePlace? (name :: names)
  | _ => (d.files.lookup name).map .file

/-- What is at a place where a path ends. -/
def Place.access : Place → FileAccess
  | .file bytes => .regular bytes
  | _ => .irregular

def Place.isDirectory : Place → Bool
  | .inside => true
  | .outside _ => true
  | .file _ => false
  | .device => false

/-- Follows the rest of a path, name by name. -/
def follow (d : Directory) (place : Place) : List String → FileAccess
  | [] => place.access
  | name :: rest =>
    if !place.isDirectory then notDirectory
    else if name.isEmpty || name == "." then d.follow place rest
    else if name == ".." then d.follow (d.above place) rest
    else if maxName < name.utf8ByteSize then nameTooLong
    else match d.child? name place with
      | some place => d.follow place rest
      | none => missing

def access (d : Directory) (path : String) : FileAccess :=
  if path.isEmpty then missing
  else if maxPath < path.utf8ByteSize then nameTooLong
  else
    match path.splitOn "/" with
    | "" :: rest => d.follow (.outside []) rest
    | names => d.follow .inside names

end Directory

end TableBuffer.Inspect
