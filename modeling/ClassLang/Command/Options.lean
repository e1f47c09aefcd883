/-!
Command lines.

Options may stand anywhere before `--`, each at most once. The directory option takes its value
from the same argument or from the next one, which must not look like an option.
-/

namespace ClassLang.Command

structure Options where
  paths : List String := []
  /-- Print the code and write no files. -/
  toOutput : Bool := false
  directory : Option String := none
  quiet : Bool := false
  withoutLibrary : Bool := false
  deriving DecidableEq, Repr

namespace Options

def addPath (options : Options) (path : String) : Option Options :=
  if path = "" then none else some { options with paths := options.paths ++ [path] }

def setDirectory (options : Options) (directory : String) : Option Options :=
  if directory = "" ∨ options.directory.isSome then none
  else some { options with directory }

def setToOutput (options : Options) : Option Options :=
  if options.toOutput then none else some { options with toOutput := true }

def setQuiet (options : Options) : Option Options :=
  if options.quiet then none else some { options with quiet := true }

def setWithoutLibrary (options : Options) : Option Options :=
  if options.withoutLibrary then none else some { options with withoutLibrary := true }

/-- A single dash is an ordinary word. -/
def isWord : List Char → Bool
  | ['-'] => true
  | '-' :: _ => false
  | _ => true

/-- Where an argument leaves the reading: done with it, or waiting for a directory. -/
inductive Reading where
  | done (options : Options)
  | directory (options : Options)

/-- The letters of an argument that starts with one dash. -/
def readLetters (options : Options) : List Char → Option Reading
  | [] => some (.done options)
  | 'q' :: rest => do (← options.setQuiet).readLetters rest
  | ['o'] => some (.directory options)
  | 'o' :: '=' :: value => (options.setDirectory (String.ofList value)).map .done
  | 'o' :: value => (options.setDirectory (String.ofList value)).map .done
  | _ => none

/-- The name of an argument that starts with two dashes, and the value behind its `=`. -/
def readName (options : Options) (name : String) (value : Option String) : Option Reading :=
  match name, value with
  | "stdout", none => options.setToOutput.map .done
  | "quiet", none => options.setQuiet.map .done
  | "no-runtime", none => options.setWithoutLibrary.map .done
  | "out-dir", none => some (.directory options)
  | "out-dir", some directory => (options.setDirectory directory).map .done
  | _, _ => none

def readArgument (options : Options) (argument : String) : Option Reading :=
  match argument.toList with
  | '-' :: '-' :: rest =>
      let value := (rest.dropWhile (· ≠ '=')).tail?.map String.ofList
      options.readName (String.ofList (rest.takeWhile (· ≠ '='))) value
  | '-' :: c :: rest => options.readLetters (c :: rest)
  | _ => (options.addPath argument).map .done

def readArguments (options : Options) : List String → Option Options
  | [] => some options
  | argument :: rest =>
      if argument = "--" then
        rest.foldlM addPath options
      else
        match options.readArgument argument, rest with
        | none, _ => none
        | some (.done options), rest => options.readArguments rest
        | some (.directory _), [] => none
        | some (.directory options), value :: rest =>
            if isWord value.toList then do (← options.setDirectory value).readArguments rest
            else none

/-- The options of a command line, if it is a valid one. -/
def parse (arguments : List String) : Option Options := do
  let options ← ({} : Options).readArguments arguments
  if options.paths.isEmpty ∨ (options.toOutput ∧ options.directory.isSome) then
    none
  else
    some options

end Options

end ClassLang.Command
