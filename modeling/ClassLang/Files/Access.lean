import ClassLang.Build.Error
import ClassLang.Files.Path

/-!
The file operations that a build needs, whatever carries them out.
-/

namespace ClassLang

inductive EntryKind where
  | file
  | directory
  deriving DecidableEq, Repr

class FileAccess (m : Type → Type) where
  /-- What a path leads to. -/
  kind : (path : String) → m (Except FileError EntryKind)
  /-- The names in a directory, in any order. An entry that cannot be looked at, as when its path
  is too long, is not listed. -/
  list : (path : String) → m (Except FileError (List (String × EntryKind)))
  readText : (path : String) → m (Except FileError String)
  /-- Make a file or replace its contents. -/
  writeText : (path text : String) → m (Except FileError Unit)
  /-- Make a directory in one that exists. -/
  makeDirectory : (path : String) → m (Except FileError Unit)

namespace FileAccess

variable {m : Type → Type} [Monad m] [FileAccess m]

/-- A directory that was there already is as good as a new one. -/
def settle (path : String) (result : Except FileError Unit) : m (Except FileError Unit) := do
  match result with
  | .ok () => return .ok ()
  | .error error =>
      match ← kind path with
      | .ok .directory => return .ok ()
      | _ => return .error error

/-- Make a directory, given those above it, the nearest first. If it cannot be made because
those above are missing, make them and try once more. -/
def makeBelow (path : String) : (above : List String) → m (Except FileError Unit)
  | [] => do settle path (← makeDirectory path)
  | parent :: above => do
      match ← makeDirectory path with
      | .error .notFound =>
          match ← makeBelow parent above with
          | .ok () => settle path (← makeDirectory path)
          | .error error => return .error error
      | result => settle path result

/-- Make a directory and those above it that are missing. The path itself is taken as it stands,
so `new/.` cannot be made: a final `.` does not count, and so `new` is not above it. -/
def makeDirectories (path : String) : m (Except FileError Unit) :=
  if path = "" then return .ok () else makeBelow path (Path.above path)

end FileAccess

end ClassLang
