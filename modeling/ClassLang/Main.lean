import ClassLang.Command.Run

/-!
The command line program: files and streams of the operating system around `Command.run`.
-/

namespace ClassLang

/-- The cause behind an error code of the operating system. Some functions give the code with
its sign changed. -/
def FileError.ofCode (code : UInt32) (message : String) : FileError :=
  match min code (-code) with
  | 2 => .notFound
  | 17 => .alreadyExists
  | 20 => .notDirectory
  | 21 => .isDirectory
  | 36 => .nameTooLong
  | _ => .other message

def FileError.ofSystem (error : IO.Error) : FileError :=
  match error with
  | .noFileOrDirectory _ code _ => .ofCode code (toString error)
  | .alreadyExists _ code _ => .ofCode code (toString error)
  | .inappropriateType _ code _ => .ofCode code (toString error)
  | .invalidArgument _ code _ => .ofCode code (toString error)
  | .otherError code _ => .ofCode code (toString error)
  | _ => .other (toString error)

def attempt {α : Type} (action : IO α) : IO (Except FileError α) :=
  try
    return .ok (← action)
  catch error =>
    return .error (.ofSystem error)

/-- A file or directory that a directory lists. What is neither, or cannot be looked at, is
passed over. -/
def listed? (entry : IO.FS.DirEntry) : IO (Option (String × EntryKind)) := do
  match ← attempt entry.path.metadata with
  | .error _ => return none
  | .ok metadata =>
      match metadata.type with
      | .dir => return some (entry.fileName, .directory)
      | .file => return some (entry.fileName, .file)
      | _ => return none

/-- A path in the form that the operating system's functions take. -/
def systemPath (path : String) :=
  (⟨path, ""⟩ : IO.FS.DirEntry).root

instance : FileAccess IO where
  kind path := attempt do
    match (← (systemPath path).metadata).type with
    | .dir => return .directory
    | _ => return .file
  list path := attempt do
    let entries ← (systemPath path).readDir
    entries.toList.filterMapM listed?
  readText path := do
    match ← attempt (IO.FS.readBinFile path) with
    | .error error => return .error error
    | .ok bytes =>
        match String.fromUTF8? bytes with
        | some text => return .ok text
        | none => return .error .notText
  writeText path text := attempt (IO.FS.writeFile path text)
  makeDirectory path := attempt (IO.FS.createDir path)

end ClassLang

open ClassLang in
def main (arguments : List String) : IO UInt32 := do
  let terminal ← (← IO.getStdout).isTty
  let style := Style.choose (← IO.getEnv "CLICOLOR_FORCE") (← IO.getEnv "NO_COLOR")
    (← IO.getEnv "CLICOLOR") terminal
  let outcome ← Command.run style arguments
  match outcome with
  | .exit _ output errors =>
      IO.print output
      IO.eprint errors
  | .overflow => pure ()
  return outcome.exitCode.toUInt32
