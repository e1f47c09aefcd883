import ClassLang.Files.Access
import ClassLang.Files.Path
import Std.Data.ExtTreeMap

/-!
A file system as a value: files and directories, one of which is the working directory.

A path starts at the top if it begins with a slash, and in the working directory otherwise. Above
the top there is only the top itself. A path that goes on behind a file fails, even if only by a
slash.
-/

namespace ClassLang

/-- What a file holds: a text, or bytes that do not encode one. -/
inductive Contents where
  | text (text : String)
  | binary (bytes : List UInt8)
  deriving DecidableEq

def Contents.ofBytes (bytes : ByteArray) : Contents :=
  match String.fromUTF8? bytes with
  | some decoded => .text decoded
  | none => .binary bytes.toList

inductive Entry where
  | directory
  | file (contents : Contents)
  deriving DecidableEq

def Entry.kind : Entry → EntryKind
  | .directory => .directory
  | .file _ => .file

/-- The names that lead from the top to an entry. -/
abbrev Location : Type := List String

structure FileSystem where
  entries : Std.ExtTreeMap Location Entry := ∅
  /-- The working directory. -/
  current : Location := []

namespace FileSystem

def get? (files : FileSystem) (location : Location) : Option Entry :=
  if location = [] then some .directory else files.entries[location]?

def set (files : FileSystem) (location : Location) (entry : Entry) : FileSystem :=
  { files with entries := files.entries.insert location entry }

theorem get?_set (files : FileSystem) {location : Location} (inside : location ≠ [])
    (entry : Entry) (found : Location) :
    (files.set location entry).get? found =
      if location = found then some entry else files.get? found := by
  unfold get? set
  by_cases top : found = []
  · subst top
    simp [inside]
  · simp [top, Std.ExtTreeMap.getElem?_insert]

/-- The longest name that an entry can have, in bytes. -/
def nameLimit : Nat := 255

/-- The longest path that is looked at, in bytes. -/
def pathLimit : Nat := 4095

def checkName (name : String) : Except FileError Unit :=
  if nameLimit < name.utf8ByteSize then .error .nameTooLong else .ok ()

/-- Refuse a path that can lead nowhere, whatever files there are. -/
def checkPath (path : String) : Except FileError Unit :=
  if path = "" then .error .notFound
  else if '\x00' ∈ path.toList then .error .nullCharacter
  else if pathLimit < path.utf8ByteSize then .error .nameTooLong
  else .ok ()

/-- Follow the parts of a path from a location. -/
def walk (files : FileSystem) (location : Location) : List String → Except FileError Location
  | [] => .ok location
  | part :: rest =>
      if files.get? location ≠ some .directory then
        .error .notDirectory
      else if Path.isStay part then
        files.walk location rest
      else if part = ".." then
        files.walk location.dropLast rest
      else
        match checkName part, files.get? (location ++ [part]) with
        | .error error, _ => .error error
        | .ok (), none => .error .notFound
        | .ok (), some _ => files.walk (location ++ [part]) rest

/-- Where a path starts. -/
def start (files : FileSystem) (path : String) : Location :=
  if path.toList.head? = some '/' then [] else files.current

/-- Where a path leads. -/
def locate (files : FileSystem) (path : String) : Except FileError Location := do
  checkPath path
  files.walk (files.start path) (Path.parts path)

def find (files : FileSystem) (path : String) : Except FileError Entry := do
  let location ← files.locate path
  match files.get? location with
  | some entry => return entry
  | none => throw .notFound

/-- The entries of a directory. Those whose paths become too long are passed over. -/
def list (files : FileSystem) (path : String) :
    Except FileError (List (String × EntryKind)) := do
  let location ← files.locate path
  if files.get? location ≠ some .directory then
    throw .notDirectory
  return files.entries.toList.filterMap fun (found, entry) =>
    match found.getLast? with
    | some name =>
        if found.dropLast = location ∧ (Path.join path name).utf8ByteSize ≤ pathLimit then
          some (name, entry.kind)
        else
          none
    | none => none

def readText (files : FileSystem) (path : String) : Except FileError String := do
  match ← files.find path with
  | .directory => throw .isDirectory
  | .file (.text text) => return text
  | .file (.binary _) => throw .notText

/-- The directory that the last part of a path belongs to, and this part, which may be new. A path
to the top, or with a last part that is no name, is refused with the given error. -/
def place (files : FileSystem) (path : String) (refusal : FileError) :
    Except FileError (Location × String) := do
  checkPath path
  match (Path.parts path).reverse.dropWhile (· = "") with
  | [] => throw refusal
  | name :: before =>
      let directory ← files.walk (files.start path) before.reverse
      if files.get? directory ≠ some .directory then
        throw .notDirectory
      if name = "." ∨ name = ".." then
        throw refusal
      return (directory, name)

def writeText (files : FileSystem) (path text : String) : Except FileError FileSystem := do
  let (directory, name) ← files.place path .isDirectory
  if path.toList.getLast? = some '/' then
    throw .isDirectory
  checkName name
  if files.get? (directory ++ [name]) = some .directory then
    throw .isDirectory
  return files.set (directory ++ [name]) (.file (.text text))

def makeDirectory (files : FileSystem) (path : String) : Except FileError FileSystem := do
  let (directory, name) ← files.place path .alreadyExists
  checkName name
  if files.get? (directory ++ [name]) ≠ none then
    throw .alreadyExists
  return files.set (directory ++ [name]) .directory

/-- Put an entry at a location, and make the directories above it. -/
def add (files : FileSystem) (location : Location) (entry : Entry) : FileSystem :=
  let directories := (List.range location.length).tail.map location.take
  (directories.foldl (fun files directory => files.set directory .directory) files).set
    location entry

/-- A working directory with nothing in it. -/
def fresh (current : Location) : FileSystem :=
  ({ current } : FileSystem).add current .directory

/-- Put an entry below the working directory, at the end of the given names. -/
def addBelow (files : FileSystem) (names : List String) (entry : Entry) : FileSystem :=
  files.add (files.current ++ names) entry

/-- What is below the working directory, with the names that lead there from it. -/
def below (files : FileSystem) : List (List String × Entry) :=
  files.entries.toList.filterMap fun (location, entry) =>
    if files.current.isPrefixOf location ∧ location ≠ files.current then
      some (location.drop files.current.length, entry)
    else
      none

end FileSystem

/-- Carry out an operation that changes the files only if it succeeds. -/
def FileSystem.change (operation : FileSystem → Except FileError FileSystem) :
    StateM FileSystem (Except FileError Unit) := fun files =>
  match operation files with
  | .ok files => (.ok (), files)
  | .error error => (.error error, files)

instance : FileAccess (StateM FileSystem) where
  kind path := fun files => ((files.find path).map Entry.kind, files)
  list path := fun files => (files.list path, files)
  readText path := fun files => (files.readText path, files)
  writeText path text := FileSystem.change fun files => files.writeText path text
  makeDirectory path := FileSystem.change fun files => files.makeDirectory path

end ClassLang
