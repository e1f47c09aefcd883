import ClassLang.Command.Run
import ClassLang.Files.System
import ClassLang.Proofs.SeparateCompilation

/-!
Runs whose build fails.

Sources are collected, read and compiled before anything is written, and these steps only look at
the files. So a run that fails in one of them leaves everything as it was. It reports the first
path that cannot be collected, or else the first source that cannot be read, or else the error
that compiling returned. This holds for files of any kind, as long as looking at them does not
change them.
-/

namespace ClassLang

variable {World ε α β : Type}

/-- The operation changes no world. -/
def Looks (operation : StateM World α) : Prop :=
  ∀ world, (operation world).2 = world

/-- To look at the files of a world does not change it. -/
structure FileAccess.LooksOnly (World : Type) [FileAccess (StateM World)] : Prop where
  kind : ∀ path, Looks (FileAccess.kind path : StateM World (Except FileError EntryKind))
  list : ∀ path,
    Looks (FileAccess.list path : StateM World (Except FileError (List (String × EntryKind))))
  readText : ∀ path, Looks (FileAccess.readText path : StateM World (Except FileError String))

theorem FileSystem.looksOnly : FileAccess.LooksOnly FileSystem where
  kind _ _ := rfl
  list _ _ := rfl
  readText _ _ := rfl

/-- A step of a run in a world that it may change. -/
abbrev Step (World ε α : Type) : Type := ExceptT ε (StateM World) α

/-- What a step gives in this world. -/
def outcomeOn (world : World) (step : Step World ε α) : Except ε α :=
  (step.run world).1

/-- The step leaves every world as it is, whether it succeeds or fails. -/
def Inspects (step : Step World ε α) : Prop := Looks step.run

theorem bind_apply (first : StateM World α) (next : α → StateM World β) (world : World) :
    (first >>= next) world = next (first world).1 (first world).2 := rfl

theorem run_bind (first : Step World ε α) (next : α → Step World ε β) (world : World) :
    (first >>= next).run world =
      match first.run world with
      | (.ok value, left) => (next value).run left
      | (.error error, left) => (.error error, left) := by
  change (first.run >>= ExceptT.bindCont next) world = _
  rw [bind_apply]
  cases first.run world with
  | mk outcome left => cases outcome <;> rfl

theorem Inspects.run_eq {step : Step World ε α} (inspects : Inspects step) (world : World) :
    step.run world = (outcomeOn world step, world) :=
  Prod.ext rfl (inspects world)

theorem inspects_pure (value : α) : Inspects (pure value : Step World ε α) := fun _ => rfl

theorem Inspects.bind {first : Step World ε α} {next : α → Step World ε β}
    (inspects : Inspects first) (later : ∀ value, Inspects (next value)) :
    Inspects (first >>= next) := by
  intro world
  rw [run_bind, inspects.run_eq]
  cases outcomeOn world first with
  | error error => rfl
  | ok value => exact later value world

/-- Behind a step that only looks, the next one finds the same world. -/
theorem Inspects.outcomeOn_bind {first : Step World ε α} (inspects : Inspects first)
    (next : α → Step World ε β) (world : World) :
    outcomeOn world (first >>= next) =
      outcomeOn world first >>= fun value => outcomeOn world (next value) := by
  rw [outcomeOn, run_bind, inspects.run_eq]
  cases outcomeOn world first with
  | error error => rfl
  | ok value => rfl

theorem inspects_mapM {step : α → Step World ε β} (each : ∀ value, Inspects (step value))
    (values : List α) : Inspects (values.mapM step) := by
  induction values with
  | nil => exact inspects_pure []
  | cons first rest inductionHypothesis =>
      rw [List.mapM_cons]
      exact (each first).bind fun _ => inductionHypothesis.bind fun _ => inspects_pure _

theorem outcomeOn_mapM {step : α → Step World ε β} (each : ∀ value, Inspects (step value))
    (values : List α) (world : World) :
    outcomeOn world (values.mapM step) =
      values.mapM fun value => outcomeOn world (step value) := by
  induction values with
  | nil => rfl
  | cons first rest inductionHypothesis =>
      rw [List.mapM_cons, List.mapM_cons, (each first).outcomeOn_bind]
      congr 1
      funext value
      rw [(inspects_mapM each rest).outcomeOn_bind, inductionHypothesis]
      rfl

theorem outcomeOn_adapt (step : Step World ε α) (world : World) :
    outcomeOn world (ExceptT.adapt Halt.reported step) = Halt.onError (outcomeOn world step) := by
  change (outcomeOn world step).mapError Halt.reported = _
  cases outcomeOn world step <;> rfl

namespace Build

theorem inspects_onFile (path : String) {operation : StateM World (Except FileError α)}
    (looks : Looks operation) : Inspects (onFile path operation) :=
  looks

end Build

variable [FileAccess (StateM World)] {world : World}

namespace Build

theorem inspects_collect (looks : FileAccess.LooksOnly World) (path : String) :
    Inspects (collect path : Step World BuildError (List String)) := by
  rw [collect]
  refine (inspects_onFile path (looks.kind path)).bind fun kind => ?_
  cases kind with
  | file => exact inspects_pure [path]
  | directory =>
      refine (inspects_onFile path (looks.list path)).bind fun entries => ?_
      dsimp only
      split
      · exact fun _ => rfl
      · exact inspects_pure _

theorem inspects_readSource (looks : FileAccess.LooksOnly World) (path : String) :
    Inspects (readSource path : Step World BuildError SourceUnit) := by
  rw [readSource]
  exact (inspects_onFile path (looks.readText path)).bind fun text => inspects_pure _

end Build

namespace Command

open Build

variable {options : Options}

/-- These are the sources that the paths of the command line stand for, path by path. -/
def Collects (world : World) (paths : List String) (found : List (List String)) : Prop :=
  List.Forall₂ (fun path sources => outcomeOn world (collect path) = .ok sources) paths found

/-- These are the sources with their texts. -/
def Loads (world : World) (sources : List String) (units : List SourceUnit) : Prop :=
  List.Forall₂ (fun source unit => outcomeOn world (readSource source) = .ok unit) sources units

/-- A path cannot be collected, a source cannot be read, or compiling the units returns an
error. -/
def CannotBuild (world : World) (options : Options) : Prop :=
  (∃ path ∈ options.paths, ∃ error, outcomeOn world (collect path) = .error error) ∨
  (∃ found, Collects world options.paths found ∧
    ∃ source ∈ found.flatten, ∃ error, outcomeOn world (readSource source) = .error error) ∨
  ∃ found units, Collects world options.paths found ∧ Loads world found.flatten units ∧
    ∃ error, compile (!options.withoutLibrary) units = .error (.reported error)

/-- The error of the first path that cannot be collected. If all can be, the error of the first
source that cannot be read. -/
inductive LoadFails (world : World) (options : Options) : BuildError → Prop where
  | collecting {before after : List String} {path : String} {found : List (List String)}
      {error : BuildError} :
      options.paths = before ++ path :: after → Collects world before found →
      outcomeOn world (collect path) = .error error → LoadFails world options error
  | reading {found : List (List String)} {before after : List String} {source : String}
      {units : List SourceUnit} {error : BuildError} :
      Collects world options.paths found → found.flatten = before ++ source :: after →
      Loads world before units → outcomeOn world (readSource source) = .error error →
      LoadFails world options error

/-- What brings the build to a halt: an error on the way to the units, or what compiling them
returned. -/
inductive Halts (world : World) (options : Options) : Halt BuildError → Prop where
  | loading {error : BuildError} : LoadFails world options error →
      Halts world options (.reported error)
  | compiling {found : List (List String)} {units : List SourceUnit} {halt : Halt BuildError} :
      Collects world options.paths found → Loads world found.flatten units →
      compile (!options.withoutLibrary) units = .error halt → Halts world options halt

/-! Loading the sources. -/

theorem inspects_load (looks : FileAccess.LooksOnly World) (options : Options) :
    Inspects (load options : Step World BuildError (List String × List SourceUnit)) := by
  rw [load]
  refine (inspects_mapM (inspects_collect looks) _).bind fun lists => ?_
  refine (inspects_mapM (inspects_readSource looks) _).bind fun units => ?_
  exact inspects_pure _

theorem outcomeOn_load (looks : FileAccess.LooksOnly World) (options : Options) (world : World) :
    outcomeOn world (load options) = do
      let sources := (← options.paths.mapM fun path => outcomeOn world (collect path)).flatten
      let units ← sources.mapM fun source => outcomeOn world (readSource source)
      return (sources, units) := by
  have collecting := inspects_collect looks
  have reading := inspects_readSource looks
  rw [load, (inspects_mapM collecting _).outcomeOn_bind, outcomeOn_mapM collecting]
  congr 1
  funext lists
  rw [(inspects_mapM reading _).outcomeOn_bind, outcomeOn_mapM reading]
  rfl

theorem load_eq_ok_iff (looks : FileAccess.LooksOnly World) {sources : List String}
    {units : List SourceUnit} :
    outcomeOn world (load options) = .ok (sources, units) ↔
      ∃ found, Collects world options.paths found ∧ sources = found.flatten ∧
        Loads world sources units := by
  rw [outcomeOn_load looks]
  constructor
  · intro loaded
    obtain ⟨found, collected, loaded⟩ := bind_eq_ok_iff.mp loaded
    obtain ⟨units, read, loaded⟩ := bind_eq_ok_iff.mp loaded
    cases loaded
    exact ⟨found, mapM_eq_ok_iff.mp collected, rfl, mapM_eq_ok_iff.mp read⟩
  · rintro ⟨found, collected, rfl, read⟩
    rw [mapM_eq_ok_iff.mpr collected, ok_bind]
    dsimp only
    rw [mapM_eq_ok_iff.mpr read]
    rfl

theorem loadFails_of_load (looks : FileAccess.LooksOnly World) {error : BuildError}
    (failed : outcomeOn world (load options) = .error error) : LoadFails world options error := by
  rw [outcomeOn_load looks] at failed
  rcases bind_eq_error_iff.mp failed with failed | ⟨found, collected, failed⟩
  · obtain ⟨before, path, after, found, split, collected, failed⟩ := mapM_eq_error_iff.mp failed
    exact .collecting split collected failed
  · rcases bind_eq_error_iff.mp failed with failed | ⟨units, -, impossible⟩
    · obtain ⟨before, source, after, units, split, read, failed⟩ := mapM_eq_error_iff.mp failed
      exact .reading (mapM_eq_ok_iff.mp collected) split read failed
    · cases impossible

/-! Building. -/

theorem inspects_build (looks : FileAccess.LooksOnly World) (options : Options) :
    Inspects (build options :
      Step World (Halt BuildError) (List (String × CompiledUnit))) := by
  rw [build]
  refine Inspects.bind (inspects_load looks options) fun (sources, units) => ?_
  exact Inspects.bind (fun _ => rfl) fun compiled => inspects_pure _

theorem outcomeOn_build (looks : FileAccess.LooksOnly World) (options : Options) (world : World) :
    outcomeOn world (build options) = do
      let (sources, units) ← Halt.onError (outcomeOn world (load options))
      let compiled ← compile (!options.withoutLibrary) units
      return sources.zip compiled := by
  have loading : Inspects (ExceptT.adapt Halt.reported (load options) :
      Step World (Halt BuildError) (List String × List SourceUnit)) := inspects_load looks options
  rw [build, loading.outcomeOn_bind, outcomeOn_adapt]
  congr 1
  funext ⟨sources, units⟩
  rw [Inspects.outcomeOn_bind (fun _ => rfl)]
  rfl

/-- A build succeeds if everything can be collected, read and compiled. -/
theorem build_eq_ok_iff (looks : FileAccess.LooksOnly World)
    {delivered : List (String × CompiledUnit)} :
    outcomeOn world (build options) = .ok delivered ↔
      ∃ found units compiled, Collects world options.paths found ∧
        Loads world found.flatten units ∧
        compile (!options.withoutLibrary) units = .ok compiled ∧
        delivered = found.flatten.zip compiled := by
  rw [outcomeOn_build looks]
  constructor
  · intro built
    obtain ⟨⟨sources, units⟩, loaded, built⟩ := bind_eq_ok_iff.mp built
    obtain ⟨found, collected, rfl, read⟩ :=
      (load_eq_ok_iff looks).mp (Halt.onError_eq_ok_iff.mp loaded)
    obtain ⟨compiled, succeeded, built⟩ := bind_eq_ok_iff.mp built
    cases built
    exact ⟨found, units, compiled, collected, read, succeeded, rfl⟩
  · rintro ⟨found, units, compiled, collected, read, succeeded, rfl⟩
    have loaded := (load_eq_ok_iff looks).mpr ⟨found, collected, rfl, read⟩
    rw [Halt.onError_eq_ok_iff.mpr loaded, ok_bind]
    dsimp only
    rw [succeeded]
    rfl

theorem halts_of_build (looks : FileAccess.LooksOnly World) {halt : Halt BuildError}
    (failed : outcomeOn world (build options) = .error halt) : Halts world options halt := by
  rw [outcomeOn_build looks] at failed
  rcases bind_eq_error_iff.mp failed with failed | ⟨⟨sources, units⟩, loaded, failed⟩
  · obtain ⟨error, failedLoading, rfl⟩ := Halt.onError_eq_error_iff.mp failed
    exact .loading (loadFails_of_load looks failedLoading)
  · obtain ⟨found, collected, rfl, read⟩ :=
      (load_eq_ok_iff looks).mp (Halt.onError_eq_ok_iff.mp loaded)
    rcases bind_eq_error_iff.mp failed with failed | ⟨compiled, -, impossible⟩
    · exact .compiling collected read failed
    · cases impossible

/-- What succeeds for all of a list fails for none of it. -/
theorem not_error_of_forall₂ {produce : α → Except ε β} {inputs : List α} {outputs : List β}
    (each : List.Forall₂ (fun input output => produce input = .ok output) inputs outputs)
    {input : α} (membership : input ∈ inputs) (error : ε) : produce input ≠ .error error := by
  obtain ⟨place, found⟩ := List.mem_iff_getElem?.mp membership
  obtain ⟨output, -, succeeded⟩ := forall₂_getElem? each found
  simp [succeeded]

theorem Collects.unique {paths : List String} {found others : List (List String)}
    (collected : Collects world paths found) (alsoCollected : Collects world paths others) :
    found = others :=
  Except.ok.inj ((mapM_eq_ok_iff.mpr collected).symm.trans (mapM_eq_ok_iff.mpr alsoCollected))

theorem Loads.unique {sources : List String} {units others : List SourceUnit}
    (read : Loads world sources units) (alsoRead : Loads world sources others) : units = others :=
  Except.ok.inj ((mapM_eq_ok_iff.mpr read).symm.trans (mapM_eq_ok_iff.mpr alsoRead))

/-- If all sources are there, it is compiling that cannot succeed. -/
theorem CannotBuild.compile_eq_error {found : List (List String)} {units : List SourceUnit}
    (cannot : CannotBuild world options) (collected : Collects world options.paths found)
    (read : Loads world found.flatten units) :
    ∃ error, compile (!options.withoutLibrary) units = .error (.reported error) := by
  rcases cannot with ⟨path, membership, error, failed⟩ |
    ⟨others, alsoCollected, source, membership, error, failed⟩ |
    ⟨others, otherUnits, alsoCollected, alsoRead, error, failed⟩
  · exact absurd failed (not_error_of_forall₂ collected membership error)
  · cases collected.unique alsoCollected
    exact absurd failed (not_error_of_forall₂ read membership error)
  · cases collected.unique alsoCollected
    cases read.unique alsoRead
    exact ⟨error, failed⟩

theorem CannotBuild.exists_error (cannot : CannotBuild world options)
    (looks : FileAccess.LooksOnly World) :
    ∃ error, outcomeOn world (build options) = .error (.reported error) := by
  cases built : outcomeOn world (build options) with
  | ok delivered =>
      obtain ⟨found, units, compiled, collected, read, succeeded, -⟩ :=
        (build_eq_ok_iff looks).mp built
      obtain ⟨error, failed⟩ := cannot.compile_eq_error collected read
      rw [failed] at succeeded
      cases succeeded
  | error halt =>
      cases halts_of_build looks built with
      | loading _ => exact ⟨_, rfl⟩
      | compiling collected read stopped =>
          obtain ⟨error, failed⟩ := cannot.compile_eq_error collected read
          rw [failed] at stopped
          cases stopped
          exact ⟨error, rfl⟩

/-! What comes behind the build. -/

theorem exitCode_ofHalt_ne_zero (style : Style) (halt : Halt BuildError) :
    (Outcome.ofHalt style halt).exitCode ≠ 0 := by
  cases halt with
  | reported error => exact Nat.one_ne_zero
  | overflow => exact Nat.succ_ne_zero 100

/-- Whatever brings the build to a halt, nothing has changed. -/
theorem runOptions_of_halt (looks : FileAccess.LooksOnly World) {halt : Halt BuildError}
    (style : Style) (failed : outcomeOn world (build options) = .error halt) :
    (runOptions style options : StateM World Outcome) world = (.ofHalt style halt, world) := by
  rw [runOptions, bind_apply, (inspects_build looks options).run_eq, failed]
  rfl

theorem runOptions_of_ok (looks : FileAccess.LooksOnly World)
    {delivered : List (String × CompiledUnit)} (style : Style)
    (built : outcomeOn world (build options) = .ok delivered) :
    (runOptions style options : StateM World Outcome) world =
      match (makeDirectory options : Step World BuildError Unit).run world with
      | (.ok _, left) => (deliverAll style options "" delivered : StateM World Outcome) left
      | (.error error, left) => (.failure style "" error, left) := by
  rw [runOptions, bind_apply, (inspects_build looks options).run_eq, built]
  dsimp only
  rw [bind_apply]
  rcases (makeDirectory options : Step World BuildError Unit).run world with ⟨_ | _, left⟩ <;> rfl

/-- A run whose build cannot succeed ends with the report of the error that its build came to a
halt with, prints nothing else, and leaves all files and directories as they were. -/
theorem failing_build_changes_nothing (looks : FileAccess.LooksOnly World) (style : Style)
    (options : Options) (world : World) (cannot : CannotBuild world options) :
    ∃ error, Halts world options (.reported error) ∧
      (runOptions style options : StateM World Outcome) world =
        (.exit 1 "" (Report.buildError style error ++ "\n"), world) ∧
      ∀ arguments, Options.parse arguments = some options →
        (run style arguments : StateM World Outcome) world =
          (.exit 1 "" (Report.buildError style error ++ "\n"), world) := by
  obtain ⟨error, failed⟩ := cannot.exists_error looks
  have stopped := runOptions_of_halt looks style failed
  refine ⟨error, halts_of_build looks failed, stopped, ?_⟩
  intro arguments valid
  rw [run, valid]
  exact stopped

/-- A directory with two files that define one class. -/
def shelf : FileSystem :=
  ((FileSystem.fresh ["shelf"]).addBelow ["Lamp.jack"] (.file (.text lamp.text))).addBelow
    ["Lantern.jack"] (.file (.text lantern.text))

theorem compile_shelf :
    compile true [⟨"Lamp.jack", lamp.text⟩, ⟨"Lantern.jack", lantern.text⟩] =
      .error (.reported (.unit "Lantern.jack" (.duplicate "Lamp.used" "the build"))) := by
  have read : classes [⟨"Lamp.jack", lamp.text⟩, ⟨"Lantern.jack", lantern.text⟩] =
      .ok [("Lamp.jack", lampClass), ("Lantern.jack", lanternClass)] :=
    classes_eq_ok_iff.mpr (.cons ⟨rfl, parse_lamp⟩ (.cons ⟨rfl, parse_lantern⟩ .nil))
  rw [compile, read]
  rfl

/-- Neither the lamp, which would compile alone, nor the directory for the code is written. -/
theorem shelf_unchanged :
    let options : Options := { paths := ["Lamp.jack", "Lantern.jack"], directory := some "out" }
    CannotBuild shelf options ∧
    ∃ error, Halts shelf options (.reported error) ∧
      (run .plain ["Lamp.jack", "Lantern.jack", "-o", "out"] : StateM FileSystem Outcome) shelf =
        (.exit 1 "" (Report.buildError .plain error ++ "\n"), shelf) := by
  intro options
  have cannot : CannotBuild shelf options := by
    refine .inr (.inr ⟨[["Lamp.jack"], ["Lantern.jack"]], _, ?_, ?_, _, compile_shelf⟩)
    · exact .cons rfl (.cons rfl .nil)
    · exact .cons rfl (.cons rfl .nil)
  obtain ⟨error, halts, -, ran⟩ :=
    failing_build_changes_nothing FileSystem.looksOnly .plain options shelf cannot
  exact ⟨cannot, error, halts, ran _ rfl⟩

end Command

end ClassLang
