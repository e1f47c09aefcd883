import ClassLang.Build.Basic
import ClassLang.Files.Access
import ClassLang.Files.Path

/-!
Source files and the files that a build writes.
-/

namespace ClassLang.Build

def sourceExtension : String := "jack"

def outputExtension : String := "vm"

/-- Insert a name into rising names. -/
def insertName (name : String) : List String → List String
  | [] => [name]
  | first :: rest =>
      if name < first then name :: first :: rest else first :: insertName name rest

def sortNames (names : List String) : List String :=
  names.foldr insertName []

/-- The source files among the entries of a directory, in rising order of their names. -/
def sourceNames (entries : List (String × EntryKind)) : List String :=
  sortNames <| entries.filterMap fun (name, kind) =>
    if kind = .file ∧ Path.extension? name = some sourceExtension then some name else none

/-- The file that the code of a source goes to: beside the source, or in the given directory. -/
def outputPath (source : String) (directory : Option String) : String :=
  let beside := Path.withExtension source outputExtension
  match directory, Path.fileName? beside with
  | some directory, some name => Path.join directory name
  | _, _ => beside

variable {m : Type → Type} [Monad m] [FileAccess m]

/-- Carry out a file operation on behalf of a path. -/
def onFile {α : Type} (path : String) (operation : m (Except FileError α)) :
    ExceptT BuildError m α :=
  ExceptT.mk do return (← operation).mapError (BuildError.file path)

/-- The source files that a path stands for: the path itself, or the source files directly in it
if it leads to a directory. -/
def collect (path : String) : ExceptT BuildError m (List String) := do
  match ← onFile path (FileAccess.kind path) with
  | .file => return [path]
  | .directory =>
      let names := sourceNames (← onFile path (FileAccess.list path))
      if names.isEmpty then throw (.noSources path)
      return names.map (Path.join path)

def readSource (path : String) : ExceptT BuildError m SourceUnit := do
  let text ← onFile path (FileAccess.readText path)
  return ⟨path, text⟩

def writeUnit (path : String) (compiled : CompiledUnit) : ExceptT BuildError m Unit :=
  onFile path (FileAccess.writeText path compiled.text)

end ClassLang.Build
