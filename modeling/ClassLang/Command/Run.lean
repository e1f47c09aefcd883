import ClassLang.Build.Files
import ClassLang.Command.Options
import ClassLang.Report

/-!
Running a command line: find the sources, read them, build, and only then write or print.
-/

namespace ClassLang.Command

/-- How a run ends: by itself, with an exit code and what it has printed, or because the indices
of a symbol table ran out. Then nothing has been printed, and there is no report. -/
inductive Outcome where
  | exit (code : Nat) (output errors : String)
  | overflow
  deriving DecidableEq, Repr

namespace Outcome

def exitCode : Outcome → Nat
  | .exit code _ _ => code
  | .overflow => 101

def failure (style : Style) (output : String) (error : BuildError) : Outcome :=
  .exit 1 output (Report.buildError style error ++ "\n")

/-- A build that comes to a halt ends the run before anything is printed. -/
def ofHalt (style : Style) : Halt BuildError → Outcome
  | .reported error => .failure style "" error
  | .overflow => .overflow

end Outcome

def usage : String :=
  "usage: PATH... [--stdout | -o DIR | --out-dir DIR] [-q | --quiet] [--no-runtime]\n"

/-- Says that a source has been compiled. The first word ends at the twelfth column. -/
def statusLine (style : Style) (source target : String) : String :=
  style.boldGreen "    Compiled" ++ " " ++ source ++ " -> " ++ target ++ "\n"

variable {m : Type → Type} [Monad m] [FileAccess m]

/-- The sources of a command line with their texts. -/
def load (options : Options) : ExceptT BuildError m (List String × List SourceUnit) := do
  let sources := (← options.paths.mapM Build.collect).flatten
  let units ← sources.mapM Build.readSource
  return (sources, units)

/-- The sources of a command line with their code. -/
def build (options : Options) : ExceptT (Halt BuildError) m (List (String × CompiledUnit)) := do
  let (sources, units) ← ExceptT.adapt Halt.reported (load options)
  let compiled ← ExceptT.mk (pure (Build.compile (!options.withoutLibrary) units))
  return sources.zip compiled

def makeDirectory (options : Options) : ExceptT BuildError m Unit :=
  match options.directory with
  | none => return ()
  | some directory => Build.onFile directory (FileAccess.makeDirectories directory)

/-- Write or print the code of one source, and give what is printed. -/
def deliver (style : Style) (options : Options) (source : String) (compiled : CompiledUnit) :
    ExceptT BuildError m String := do
  if options.toOutput then
    return compiled.text
  let target := Build.outputPath source options.directory
  Build.writeUnit target compiled
  return if options.quiet then "" else statusLine style source target

/-- Deliver the code of all sources in order, until one cannot be written. -/
def deliverAll (style : Style) (options : Options) (output : String) :
    List (String × CompiledUnit) → m Outcome
  | [] => return .exit 0 output ""
  | (source, compiled) :: rest => do
      match ← (deliver style options source compiled).run with
      | .ok text => deliverAll style options (output ++ text) rest
      | .error error => return .failure style output error

def runOptions (style : Style) (options : Options) : m Outcome := do
  match ← (build options).run with
  | .error halt => return .ofHalt style halt
  | .ok compiled =>
      match ← (makeDirectory options).run with
      | .error error => return .failure style "" error
      | .ok () => deliverAll style options "" compiled

def run (style : Style) (arguments : List String) : m Outcome :=
  match Options.parse arguments with
  | none => return .exit 2 "" usage
  | some options => runOptions style options

end ClassLang.Command
