import MapScript.CommandLine.Files
import MapScript.CommandLine.Path

/-!
# A directory of files

Files without a file system: one directory that holds files only. Of what lies around it no more is
known than that there are directories and the null device, which is empty and keeps nothing.
-/

namespace MapScript.CommandLine

/-- A directory that holds files only. -/
structure Directory where
  files : List (String × List UInt8) := []
deriving DecidableEq, Repr

/-- What a path leads to. -/
inductive Place where
  /-- The directory itself. -/
  | here
  /-- Some other directory. -/
  | elsewhere
  | root
  /-- The directory of devices. -/
  | devices
  | nullDevice
  /-- A file of the directory. -/
  | file (name : String)
deriving DecidableEq, Repr

namespace Place

def isDirectory : Place → Bool
  | here | elsewhere | root | devices => true
  | nullDevice | file _ => false

/-- The directory around a directory. -/
def parent : Place → Place
  | root | devices => root
  | _ => elsewhere

end Place

namespace Directory

def put (d : Directory) (name : String) (bytes : List UInt8) : Directory :=
  ⟨(name, bytes) :: d.files.filter (·.1 ≠ name)⟩

def get? (d : Directory) (name : String) : Option (List UInt8) := d.files.lookup name

/-- The directories next to the one for devices that every root holds. -/
def standard : List String := ["bin", "etc", "home", "lib", "opt", "root", "tmp", "usr", "var"]

/-- What has the given name in a place. -/
def find? (d : Directory) (name : String) : Place → Option Place
  | .here => if (d.get? name).isSome then some (.file name) else none
  | .root =>
    if name = "dev" then some .devices
    else if standard.contains name then some .elsewhere
    else none
  | .devices => if name = "null" then some .nullDevice else none
  | .elsewhere | .nullDevice | .file _ => none

/-- Follows one part of a path. -/
def step (d : Directory) (place : Place) (part : String) : Except FileError Place :=
  if !place.isDirectory then .error .notDirectory
  else if part = "." then .ok place
  else if part = ".." then .ok place.parent
  else if Path.maxPartSize < part.utf8ByteSize then .error .nameTooLong
  else match d.find? part place with
    | some next => .ok next
    | none => .error .notFound

/-- Follows the parts of a path from its start. -/
def follow (d : Directory) (absolute : Bool) (parts : List String) : Except FileError Place :=
  parts.foldlM d.step (if absolute then .root else .here)

/-- Cuts a path that is neither empty nor too long. -/
def path (text : String) : Except FileError Path :=
  if text.isEmpty then .error .notFound
  else if Path.maxSize < text.utf8ByteSize then .error .nameTooLong
  else .ok (.ofString text)

/-- What a path leads to when it is opened for reading. -/
def locate (d : Directory) (text : String) : Except FileError Place := do
  let path ← path text
  let place ← d.follow path.absolute path.parts
  if path.slashed && !place.isDirectory then .error .notDirectory else .ok place

def read (d : Directory) (text : String) : Except FileError (List UInt8) := do
  match ← d.locate text with
  | .file name => return (d.get? name).getD []
  | .nullDevice => return []
  | .here | .elsewhere | .root | .devices => .error .isDirectory

def view (d : Directory) (text : String) : Except FileError (List UInt8) :=
  match d.read text with
  | .error .isDirectory => .error .noView
  | contents => contents

/-- Writes the file of a name in a place. What is written elsewhere is not kept. -/
def writeIn (d : Directory) (name : String) (bytes : List UInt8) (place : Place) :
    Except FileError Directory :=
  if Path.maxPartSize < name.utf8ByteSize then .error .nameTooLong
  else match place, d.find? name place with
    | .here, _ => .ok (d.put name bytes)
    | _, none | _, some .nullDevice => .ok d
    | _, some _ => .error .isDirectory

/-- Writes a file. The last part of the path is its name, and has to be a proper one. -/
def write (d : Directory) (text : String) (bytes : List UInt8) : Except FileError Directory := do
  let path ← path text
  match path.parts.getLast? with
  | none => .error .isDirectory
  | some name =>
    let place ← d.follow path.absolute path.parts.dropLast
    if !place.isDirectory then .error .notDirectory
    else if path.slashed || name = "." || name = ".." then .error .isDirectory
    else d.writeIn name bytes place

/-- The files of a directory that is kept as state. -/
def access : Files (StateM Directory) where
  read path := do return (← get).read path
  view path := do return (← get).view path
  write path bytes := do
    match (← get).write path bytes with
    | .ok d => set d; return .ok ()
    | .error e => return .error e

end Directory

end MapScript.CommandLine
