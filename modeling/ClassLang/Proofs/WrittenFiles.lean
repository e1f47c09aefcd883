import ClassLang.Proofs.FailedRun
import ClassLang.Proofs.FileChanges

/-!
What a run that succeeds leaves behind.

The code of each source goes to a file of its own name, and sources of different directories or
extensions may share it. The files are written in the order of the sources, so the last source
decides. No other file changes.
-/

namespace ClassLang

open FileSystem

/-! Directories for the code. -/

/-- Whatever else the operation gives, all that it does to the files is to add directories. -/
def OnlyGains {α : Type} (operation : StateM FileSystem α) : Prop :=
  ∀ files : FileSystem, files.GainsDirectories (operation files).2

theorem onlyGains_pure {α : Type} (value : α) :
    OnlyGains (pure value : StateM FileSystem α) :=
  gainsDirectories_refl

theorem OnlyGains.bind {α β : Type} {first : StateM FileSystem α}
    {next : α → StateM FileSystem β} (gains : OnlyGains first)
    (later : ∀ value, OnlyGains (next value)) : OnlyGains (first >>= next) := by
  intro files
  rw [bind_apply]
  exact (gains files).trans (later _ _)

namespace FileAccess

theorem onlyGains_makeDirectory (path : String) :
    OnlyGains (makeDirectory path : StateM FileSystem (Except FileError Unit)) := by
  intro files
  change files.GainsDirectories (FileSystem.change (·.makeDirectory path) files).2
  rw [FileSystem.change]
  cases made : files.makeDirectory path with
  | ok next => exact gainsDirectories_makeDirectory made
  | error error => exact gainsDirectories_refl files

theorem onlyGains_settle (path : String) (result : Except FileError Unit) :
    OnlyGains (settle path result : StateM FileSystem (Except FileError Unit)) := by
  cases result with
  | ok _ => exact onlyGains_pure _
  | error error =>
      rw [settle]
      refine OnlyGains.bind gainsDirectories_refl fun found => ?_
      split
      · exact onlyGains_pure _
      · exact onlyGains_pure _

theorem onlyGains_makeBelow (path : String) (above : List String) :
    OnlyGains (makeBelow path above : StateM FileSystem (Except FileError Unit)) := by
  induction above generalizing path with
  | nil =>
      rw [makeBelow]
      exact (onlyGains_makeDirectory path).bind (onlyGains_settle path)
  | cons parent above inductionHypothesis =>
      rw [makeBelow]
      refine (onlyGains_makeDirectory path).bind fun made => ?_
      split
      · refine (inductionHypothesis parent).bind fun madeAbove => ?_
        split
        · exact (onlyGains_makeDirectory path).bind (onlyGains_settle path)
        · exact onlyGains_pure _
      · exact onlyGains_settle path made

theorem onlyGains_makeDirectories (path : String) :
    OnlyGains (makeDirectories path : StateM FileSystem (Except FileError Unit)) := by
  rw [makeDirectories]
  split
  · exact onlyGains_pure _
  · exact onlyGains_makeBelow path _

end FileAccess

namespace Command

open Build

variable {style : Style} {options : Options}

theorem makeDirectory_gains (options : Options) (files : FileSystem) :
    files.GainsDirectories
      ((makeDirectory options : Step FileSystem BuildError Unit).run files).2 := by
  rw [makeDirectory]
  cases options.directory with
  | none => exact gainsDirectories_refl files
  | some directory => exact FileAccess.onlyGains_makeDirectories directory files

/-! Files for the code. -/

/-- Of what is delivered, this is the last that goes to the file of the path. -/
def LastTo (target : String → String) (delivered : List (String × CompiledUnit))
    (after : FileSystem) (path : String) (last : String × CompiledUnit) : Prop :=
  ∃ before later, delivered = before ++ last :: later ∧
    after.locate (target last.1) = after.locate path ∧
    ∀ other ∈ later, after.locate (target other.1) ≠ after.locate path

/-- Every file that code goes to holds the code that went there last, and nothing else has
changed. -/
structure Written (target : String → String) (delivered : List (String × CompiledUnit))
    (files after : FileSystem) : Prop where
  keeps : files.Keeps after
  lasting : ∀ entry ∈ delivered, ∃ last, LastTo target delivered after (target entry.1) last ∧
    after.readText (target entry.1) = .ok last.2.text
  others : ∀ location, (∀ entry ∈ delivered, after.locate (target entry.1) ≠ .ok location) →
    after.get? location = files.get? location

theorem written_nil (target : String → String) (files : FileSystem) :
    Written target [] files files where
  keeps := keeps_refl files
  lasting := by simp
  others _ _ := rfl

theorem LastTo.cons {target : String → String} {delivered : List (String × CompiledUnit)}
    {after : FileSystem} {path : String} {last : String × CompiledUnit}
    (lastTo : LastTo target delivered after path last) (first : String × CompiledUnit) :
    LastTo target (first :: delivered) after path last := by
  obtain ⟨before, later, rfl, same, different⟩ := lastTo
  exact ⟨first :: before, later, rfl, same, different⟩

/-- A file that is written first keeps its text unless a later write goes to it. -/
theorem Written.lasting_first {target : String → String} {rest : List (String × CompiledUnit)}
    {files next after : FileSystem} {first : String × CompiledUnit}
    (wrote : files.writeText (target first.1) first.2.text = .ok next)
    (written : Written target rest next after) :
    ∃ last, LastTo target (first :: rest) after (target first.1) last ∧
      after.readText (target first.1) = .ok last.2.text := by
  by_cases again : ∃ other ∈ rest, after.locate (target other.1) = after.locate (target first.1)
  · -- What is last for the later write is last for this one too.
    obtain ⟨other, membership, same⟩ := again
    obtain ⟨last, lastTo, text⟩ := written.lasting other membership
    rw [LastTo, same] at lastTo
    refine ⟨last, LastTo.cons lastTo first, ?_⟩
    rw [← text]
    exact readText_eq_of_locate same.symm
  · obtain ⟨location, inside, -, nextEq, located⟩ := writeText_eq_ok wrote
    have stillLocated := written.keeps.locate located
    refine ⟨first, ⟨[], rest, rfl, rfl, ?_⟩, ?_⟩
    · intro other membership same
      exact again ⟨other, membership, same⟩
    · apply readText_of_locate stillLocated
      rw [written.others, nextEq, get?_set files inside, if_pos rfl]
      intro other membership same
      exact again ⟨other, membership, same.trans stillLocated.symm⟩

theorem Written.cons {target : String → String} {rest : List (String × CompiledUnit)}
    {files next after : FileSystem} {first : String × CompiledUnit}
    (wrote : files.writeText (target first.1) first.2.text = .ok next)
    (written : Written target rest next after) : Written target (first :: rest) files after := by
  refine ⟨(keeps_writeText wrote).trans written.keeps, ?_, ?_⟩
  · intro entry membership
    rcases List.mem_cons.mp membership with rfl | later
    · exact Written.lasting_first wrote written
    · obtain ⟨last, lastTo, text⟩ := written.lasting entry later
      exact ⟨last, lastTo.cons first, text⟩
  · obtain ⟨location, inside, -, nextEq, located⟩ := writeText_eq_ok wrote
    intro found elsewhere
    rw [List.forall_mem_cons] at elsewhere
    rw [written.others found elsewhere.2, nextEq, get?_set files inside, if_neg]
    intro same
    exact elsewhere.1 (same ▸ written.keeps.locate located)

theorem writeUnit_run (path : String) (compiled : CompiledUnit) (files : FileSystem) :
    (writeUnit path compiled : Step FileSystem BuildError Unit).run files =
      match files.writeText path compiled.text with
      | .ok next => (.ok (), next)
      | .error error => (.error (.file path error), files) := by
  have changed : (writeUnit path compiled : Step FileSystem BuildError Unit).run files =
      let (result, next) := FileSystem.change (·.writeText path compiled.text) files
      (result.mapError (.file path), next) := rfl
  rw [changed, FileSystem.change]
  cases files.writeText path compiled.text <;> rfl

theorem deliver_run (toFiles : options.toOutput = false) (source : String)
    (compiled : CompiledUnit) (files : FileSystem) :
    (deliver style options source compiled : Step FileSystem BuildError String).run files =
      match files.writeText (outputPath source options.directory) compiled.text with
      | .ok next => (.ok (if options.quiet then "" else
          statusLine style source (outputPath source options.directory)), next)
      | .error error => (.error (.file (outputPath source options.directory) error), files) := by
  have unfolded : (deliver style options source compiled : Step FileSystem BuildError String) =
      writeUnit (outputPath source options.directory) compiled >>= fun _ =>
        pure (if options.quiet then "" else
          statusLine style source (outputPath source options.directory)) := by
    simp [deliver, toFiles]
  rw [unfolded, run_bind, writeUnit_run]
  cases files.writeText (outputPath source options.directory) compiled.text <;> rfl

/-- Delivery to the end writes the code of all sources. -/
theorem deliverAll_written (toFiles : options.toOutput = false)
    {delivered : List (String × CompiledUnit)} {output : String} {files after : FileSystem}
    {outcome : Outcome}
    (ran : (deliverAll style options output delivered : StateM FileSystem Outcome) files =
      (outcome, after)) (succeeded : outcome.exitCode = 0) :
    Written (outputPath · options.directory) delivered files after := by
  induction delivered generalizing files output with
  | nil =>
      cases ran
      exact written_nil _ _
  | cons first rest inductionHypothesis =>
      obtain ⟨source, compiled⟩ := first
      rw [deliverAll, bind_apply, deliver_run toFiles] at ran
      cases wrote : files.writeText (outputPath source options.directory) compiled.text with
      | ok next =>
          rw [wrote] at ran
          exact .cons wrote (inductionHypothesis ran)
      | error error =>
          rw [wrote] at ran
          cases ran
          cases succeeded

/-- A run that succeeds has built everything, then made directories, and then written all code. -/
theorem written_of_run {files after : FileSystem} {outcome : Outcome}
    (toFiles : options.toOutput = false)
    (ran : (runOptions style options : StateM FileSystem Outcome) files = (outcome, after))
    (succeeded : outcome.exitCode = 0) :
    ∃ delivered prepared, outcomeOn files (build options) = .ok delivered ∧
      files.GainsDirectories prepared ∧
      Written (outputPath · options.directory) delivered prepared after := by
  cases built : outcomeOn files (build options) with
  | error halt =>
      rw [runOptions_of_halt FileSystem.looksOnly style built] at ran
      cases ran
      exact absurd succeeded (exitCode_ofHalt_ne_zero style halt)
  | ok delivered =>
      rw [runOptions_of_ok FileSystem.looksOnly style built] at ran
      have gains := makeDirectory_gains options files
      rcases made : (makeDirectory options : Step FileSystem BuildError Unit).run files with
        ⟨error | _, prepared⟩ <;> rw [made] at gains ran
      · cases ran
        cases succeeded
      · exact ⟨delivered, prepared, rfl, gains, deliverAll_written toFiles ran succeeded⟩

theorem readSource_eq_ok {files : FileSystem} {source : String} {unit : SourceUnit}
    (read : outcomeOn files (readSource source) = .ok unit) :
    unit.name = source ∧ files.readText source = .ok unit.text := by
  have looked : outcomeOn files (readSource source) =
      (files.readText source).mapError (.file source) >>= fun text => .ok ⟨source, text⟩ := by
    rw [readSource, (inspects_onFile source (FileSystem.looksOnly.readText source)).outcomeOn_bind]
    rfl
  rw [looked] at read
  cases text : files.readText source with
  | error error =>
      rw [text] at read
      cases read
  | ok text =>
      rw [text] at read
      cases read
      exact ⟨rfl, rfl⟩

/-- Code stands under the path of its source, source by source. -/
theorem Loads.names {files : FileSystem} {sources : List String} {units : List SourceUnit}
    {library : Bool} {compiled : List CompiledUnit} (read : Loads files sources units)
    (compiles : compile library units = .ok compiled) :
    sources = compiled.map CompiledUnit.name := by
  obtain ⟨base, -, each⟩ := compile_eq_ok_iff.mp compiles
  rw [← List.forall₂_eq_eq_eq, List.forall₂_map_right_iff]
  apply (forall₂_comp.mpr ⟨units, read, each⟩).imp
  rintro source result ⟨unit, readUnit, cls, -, named, -⟩
  rw [named, (readSource_eq_ok readUnit).1]

/-- A source that no code goes to is as it was. -/
theorem Written.readText_source {target : String → String}
    {delivered : List (String × CompiledUnit)} {files prepared after : FileSystem}
    {source text : String} (written : Written target delivered prepared after)
    (gains : files.GainsDirectories prepared) (read : files.readText source = .ok text)
    (elsewhere : ∀ entry ∈ delivered, after.locate (target entry.1) ≠ after.locate source) :
    after.readText source = files.readText source := by
  obtain ⟨location, located, found⟩ := locate_of_readText read
  have locatedAfter := written.keeps.locate (gains.keeps.locate located)
  rw [locatedAfter] at elsewhere
  apply readText_congr located locatedAfter
  rw [written.others location elsewhere, found]
  exact (gains.file_iff location _).mpr found

/-- The file of each source holds the code of the last source that has this file, which is its own
unless a later one has the same. All other files, among them the sources that are not such a file
themselves, are as they were. -/
structure Delivered (options : Options) (sources : List String) (compiled : List CompiledUnit)
    (files after : FileSystem) : Prop where
  outputs : ∀ source ∈ sources, ∃ last,
    LastTo (outputPath · options.directory) (sources.zip compiled) after
      (outputPath source options.directory) last ∧
    after.readText (outputPath source options.directory) = .ok last.2.text
  others : ∀ location contents,
    (∀ source ∈ sources, after.locate (outputPath source options.directory) ≠ .ok location) →
    (after.get? location = some (.file contents) ↔ files.get? location = some (.file contents))
  inputs : ∀ source ∈ sources,
    (∀ other ∈ sources,
      after.locate (outputPath other options.directory) ≠ after.locate source) →
    after.readText source = files.readText source

theorem Written.delivered {sources : List String} {units : List SourceUnit}
    {compiled : List CompiledUnit} {files prepared after : FileSystem}
    (written : Written (outputPath · options.directory) (sources.zip compiled) prepared after)
    (gains : files.GainsDirectories prepared) (read : Loads files sources units)
    (names : sources = compiled.map CompiledUnit.name) :
    Delivered options sources compiled files after := by
  have fromSource : ∀ entry ∈ sources.zip compiled, entry.1 ∈ sources :=
    fun _ membership => (List.of_mem_zip membership).1
  refine ⟨?_, ?_, ?_⟩
  · intro source membership
    have sameLength : sources.length ≤ compiled.length := by
      rw [names, List.length_map]
    rw [← List.map_fst_zip sameLength] at membership
    obtain ⟨entry, delivered, rfl⟩ := List.mem_map.mp membership
    exact written.lasting entry delivered
  · intro location contents elsewhere
    rw [written.others location fun entry membership => elsewhere _ (fromSource entry membership)]
    exact gains.file_iff location contents
  · intro source membership elsewhere
    obtain ⟨place, placed⟩ := List.mem_iff_getElem?.mp membership
    obtain ⟨unit, -, readUnit⟩ := forall₂_getElem? read placed
    exact written.readText_source gains (readSource_eq_ok readUnit).2
      fun entry membership => elsewhere _ (fromSource entry membership)

/-- A run that succeeds loses the code of a source only to a later source with the same file, and
changes nothing else. Any command line with these options does the same. -/
theorem last_output_remains (style : Style) (options : Options) (files after : FileSystem)
    (outcome : Outcome) (toFiles : options.toOutput = false)
    (ran : (runOptions style options : StateM FileSystem Outcome) files = (outcome, after))
    (succeeded : outcome.exitCode = 0) :
    (∃ found units compiled, Collects files options.paths found ∧
      Loads files found.flatten units ∧ compile (!options.withoutLibrary) units = .ok compiled ∧
      found.flatten = compiled.map CompiledUnit.name ∧
      Delivered options found.flatten compiled files after) ∧
    ∀ arguments, Options.parse arguments = some options →
      (run style arguments : StateM FileSystem Outcome) files = (outcome, after) := by
  obtain ⟨delivered, prepared, built, gains, written⟩ := written_of_run toFiles ran succeeded
  obtain ⟨found, units, compiled, collected, read, compiles, rfl⟩ :=
    (build_eq_ok_iff FileSystem.looksOnly).mp built
  have names := read.names compiles
  refine ⟨⟨found, units, compiled, collected, read, compiles, names,
    written.delivered gains read names⟩, ?_⟩
  intro arguments valid
  rw [run, valid]
  exact ran

/-- Two directories with a part of the same name each. -/
def parts : FileSystem :=
  ((FileSystem.fresh ["work"]).addBelow ["home", "Part.jack"] (.file (.text lamp.text))).addBelow
    ["yard", "Part.jack"] (.file (.text room.text))

def partsArguments : List String := ["home/Part.jack", "yard/Part.jack", "-o", "out"]

def partsOptions : Options where
  paths := ["home/Part.jack", "yard/Part.jack"]
  directory := some "out"

theorem parse_partsArguments : Options.parse partsArguments = some partsOptions := rfl

theorem compile_parts :
    compile true [⟨"home/Part.jack", lamp.text⟩, ⟨"yard/Part.jack", room.text⟩] =
      .ok [⟨"home/Part.jack", lampCode⟩, ⟨"yard/Part.jack", roomCode⟩] := by
  have read : classes [⟨"home/Part.jack", lamp.text⟩, ⟨"yard/Part.jack", room.text⟩] =
      .ok [("home/Part.jack", lampClass), ("yard/Part.jack", roomClass)] :=
    classes_eq_ok_iff.mpr (.cons ⟨rfl, parse_lamp⟩ (.cons ⟨rfl, parse_room⟩ .nil))
  rw [compile, read]
  rfl

theorem build_parts :
    outcomeOn parts (build partsOptions) =
      .ok [("home/Part.jack", ⟨"home/Part.jack", lampCode⟩),
        ("yard/Part.jack", ⟨"yard/Part.jack", roomCode⟩)] := by
  refine (build_eq_ok_iff FileSystem.looksOnly).mpr
    ⟨[["home/Part.jack"], ["yard/Part.jack"]], _, _, ?_, ?_, compile_parts, rfl⟩
  · exact .cons rfl (.cons rfl .nil)
  · exact .cons rfl (.cons rfl .nil)

/-- The outcome of the run on the parts, and the files that it leaves. -/
def partsRun : Outcome × FileSystem :=
  (runOptions .plain partsOptions : StateM FileSystem Outcome) parts

theorem runOptions_parts :
    (runOptions .plain partsOptions : StateM FileSystem Outcome) parts =
      (partsRun.1, partsRun.2) :=
  Prod.mk.eta.symm

theorem run_parts :
    (run .plain partsArguments : StateM FileSystem Outcome) parts = (partsRun.1, partsRun.2) := by
  rw [run, parse_partsArguments]
  exact runOptions_parts

theorem partsRun_last :
    partsRun.1.exitCode = 0 ∧ partsRun.2.readText "out/Part.vm" = .ok (Vm.render roomCode) := by
  rw [partsRun, runOptions_of_ok FileSystem.looksOnly .plain build_parts]
  exact ⟨by decide +kernel, by decide +kernel⟩

/-- Both parts have one file for their code. The run succeeds, but the code of the lamp, which was
written first, is gone. -/
theorem first_output_lost :
    Options.parse partsArguments = some partsOptions ∧ partsOptions.toOutput = false ∧
    (run .plain partsArguments : StateM FileSystem Outcome) parts = (partsRun.1, partsRun.2) ∧
    partsRun.1.exitCode = 0 ∧
    outcomeOn parts (build partsOptions) =
      .ok [("home/Part.jack", ⟨"home/Part.jack", lampCode⟩),
        ("yard/Part.jack", ⟨"yard/Part.jack", roomCode⟩)] ∧
    partsRun.2.readText (outputPath "home/Part.jack" partsOptions.directory) ≠
      .ok (CompiledUnit.text ⟨"home/Part.jack", lampCode⟩) := by
  refine ⟨parse_partsArguments, rfl, run_parts, partsRun_last.1, build_parts, ?_⟩
  have sameFile : outputPath "home/Part.jack" partsOptions.directory = "out/Part.vm" := rfl
  rw [sameFile, partsRun_last.2]
  decide +kernel

theorem parts_delivered :
    partsOptions.toOutput = false ∧
    (runOptions .plain partsOptions : StateM FileSystem Outcome) parts =
      (partsRun.1, partsRun.2) ∧
    partsRun.1.exitCode = 0 ∧
    ∃ found units compiled, Collects parts partsOptions.paths found ∧
      Loads parts found.flatten units ∧
      compile (!partsOptions.withoutLibrary) units = .ok compiled ∧
      found.flatten = compiled.map CompiledUnit.name ∧
      Delivered partsOptions found.flatten compiled parts partsRun.2 :=
  ⟨rfl, runOptions_parts, partsRun_last.1,
    (last_output_remains .plain partsOptions parts partsRun.2 partsRun.1 rfl runOptions_parts
      partsRun_last.1).1⟩

end Command

end ClassLang
