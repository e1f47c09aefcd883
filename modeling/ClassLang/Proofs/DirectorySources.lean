import ClassLang.Build.Files
import ClassLang.Files.System
import ClassLang.Proofs.Paths
import Mathlib.Data.List.Nodup

/-!
The sources in a directory and the files for their code.

Which sources a directory has, and their order, depends only on which entries it has. The code of
each of them goes to a file of its own, under the name of the source with the other extension. Only
the source `..jack` fails to give its name to a file: its code would go to the directory above.
-/

namespace ClassLang.Build

/-! Sorting. -/

theorem insertName_perm (name : String) (names : List String) :
    (insertName name names).Perm (name :: names) := by
  induction names with
  | nil => exact .refl _
  | cons first rest inductionHypothesis =>
      rw [insertName]
      split
      · exact .refl _
      · exact (inductionHypothesis.cons first).trans (.swap name first rest)

theorem pairwise_insertName {name : String} {names : List String}
    (rising : names.Pairwise (· < ·)) (new : name ∉ names) :
    (insertName name names).Pairwise (· < ·) := by
  induction names with
  | nil => exact List.pairwise_singleton _ _
  | cons first rest inductionHypothesis =>
      obtain ⟨below, rising⟩ := List.pairwise_cons.mp rising
      obtain ⟨other, new⟩ := not_or.mp (mt List.mem_cons.mpr new)
      rw [insertName]
      split
      case isTrue before =>
          refine List.pairwise_cons.mpr ⟨fun later membership => ?_, .cons below rising⟩
          obtain rfl | membership := List.mem_cons.mp membership
          · exact before
          · exact before.trans (below later membership)
      case isFalse behind =>
          refine List.pairwise_cons.mpr
            ⟨fun later membership => ?_, inductionHypothesis rising new⟩
          obtain rfl | membership :=
            List.mem_cons.mp ((insertName_perm name rest).mem_iff.mp membership)
          · exact lt_of_le_of_ne (not_lt.mp behind) (Ne.symm other)
          · exact below later membership

theorem sortNames_perm (names : List String) : (sortNames names).Perm names := by
  induction names with
  | nil => exact .refl _
  | cons name rest inductionHypothesis =>
      exact (insertName_perm name _).trans (inductionHypothesis.cons name)

theorem pairwise_sortNames {names : List String} (distinct : names.Nodup) :
    (sortNames names).Pairwise (· < ·) := by
  induction names with
  | nil => exact .nil
  | cons name rest inductionHypothesis =>
      obtain ⟨new, distinct⟩ := List.nodup_cons.mp distinct
      exact pairwise_insertName (inductionHypothesis distinct)
        (mt (sortNames_perm rest).mem_iff.mp new)

/-- Sorting forgets the order in which names came. -/
theorem sortNames_eq_of_perm {first second : List String} (distinct : first.Nodup)
    (same : first.Perm second) : sortNames first = sortNames second :=
  ((sortNames_perm first).trans (same.trans (sortNames_perm second).symm)).eq_of_pairwise
    (fun _ _ _ _ before behind => absurd behind (lt_asymm before))
    (pairwise_sortNames distinct) (pairwise_sortNames (same.nodup_iff.mp distinct))

/-! Sources among the entries of a directory. -/

/-- These can be the entries of a directory. -/
structure IsListing (entries : List (String × EntryKind)) : Prop where
  named : ∀ entry ∈ entries, Path.IsEntryName entry.1
  distinct : (entries.map Prod.fst).Nodup

theorem append_jack (stem : String) : stem ++ "." ++ sourceExtension = stem ++ ".jack" :=
  String.append_assoc

theorem append_vm (stem : String) : stem ++ "." ++ outputExtension = stem ++ ".vm" :=
  String.append_assoc

/-- Something has to stand before the extension of a source. -/
theorem extension?_eq_iff {name : String} (named : Path.IsEntryName name) :
    Path.extension? name = some sourceExtension ↔ ∃ stem, stem ≠ "" ∧ name = stem ++ ".jack" := by
  have alone : Path.join "" name = name := by simp [Path.join]
  have found := Path.fileName?_join "" named
  rw [alone] at found
  rw [Path.extension?, found, Option.bind_some]
  constructor
  · intro split
    obtain ⟨stem, filled, rfl⟩ := Path.eq_of_splitExtension split
    exact ⟨stem, filled, append_jack stem⟩
  · rintro ⟨stem, filled, rfl⟩
    rw [← append_jack, Path.splitExtension_append filled (by decide)]

/-- The entries that count as sources, before they are sorted. -/
theorem filterMap_names (entries : List (String × EntryKind)) :
    (entries.filterMap fun (name, kind) =>
      if kind = .file ∧ Path.extension? name = some sourceExtension then some name else none) =
    (entries.filter fun (name, kind) =>
      kind = .file ∧ Path.extension? name = some sourceExtension).map Prod.fst := by
  induction entries with
  | nil => rfl
  | cons entry rest inductionHypothesis =>
      obtain ⟨name, kind⟩ := entry
      rw [List.filterMap_cons, List.filter_cons, inductionHypothesis]
      by_cases source : kind = .file ∧ Path.extension? name = some sourceExtension
      · simp [source]
      · simp [source]

/-- A source among the entries, by what stands before its extension. -/
structure IsSource (entries : List (String × EntryKind)) (stem : String) : Prop where
  filled : stem ≠ ""
  listed : (stem ++ ".jack", .file) ∈ entries

theorem IsListing.mem_sourceNames {entries : List (String × EntryKind)}
    (listing : IsListing entries) {name : String} :
    name ∈ sourceNames entries ↔ ∃ stem, IsSource entries stem ∧ name = stem ++ ".jack" := by
  rw [sourceNames, (sortNames_perm _).mem_iff, filterMap_names, List.mem_map]
  constructor
  · rintro ⟨⟨found, kind⟩, membership, rfl⟩
    obtain ⟨membership, source⟩ := List.mem_filter.mp membership
    obtain ⟨rfl, ending⟩ := of_decide_eq_true source
    obtain ⟨stem, filled, rfl⟩ := (extension?_eq_iff (listing.named _ membership)).mp ending
    exact ⟨stem, ⟨filled, membership⟩, rfl⟩
  · rintro ⟨stem, ⟨filled, membership⟩, rfl⟩
    have ending := (extension?_eq_iff (listing.named _ membership)).mpr ⟨stem, filled, rfl⟩
    exact ⟨_, List.mem_filter.mpr ⟨membership, decide_eq_true ⟨rfl, ending⟩⟩, rfl⟩

theorem IsListing.isSource_of_join {entries : List (String × EntryKind)}
    (listing : IsListing entries) {path stem : String}
    (membership : Path.join path (stem ++ ".jack") ∈ (sourceNames entries).map (Path.join path)) :
    IsSource entries stem := by
  obtain ⟨name, membership, same⟩ := List.mem_map.mp membership
  obtain ⟨other, isSource, rfl⟩ := listing.mem_sourceNames.mp membership
  obtain rfl : other = stem := by simpa using Path.join_inj same
  exact isSource

theorem IsListing.nodup_names {entries : List (String × EntryKind)} (listing : IsListing entries) :
    (entries.filterMap fun (name, kind) =>
      if kind = .file ∧ Path.extension? name = some sourceExtension then some name
      else none).Nodup := by
  rw [filterMap_names]
  exact listing.distinct.sublist (List.filter_sublist.map Prod.fst)

theorem IsListing.pairwise_sourceNames {entries : List (String × EntryKind)}
    (listing : IsListing entries) : (sourceNames entries).Pairwise (· < ·) :=
  pairwise_sortNames listing.nodup_names

theorem IsListing.sourceNames_eq_of_perm {entries listed : List (String × EntryKind)}
    (listing : IsListing entries) (same : entries.Perm listed) :
    sourceNames entries = sourceNames listed :=
  sortNames_eq_of_perm listing.nodup_names (same.filterMap _)

/-! The files for the code. -/

theorem outputPath_of_nameless {source : String} (directory : Option String)
    (nameless : Path.fileName? (Path.withExtension source outputExtension) = none) :
    outputPath source directory = Path.withExtension source outputExtension := by
  unfold outputPath
  generalize Path.withExtension source outputExtension = beside at *
  dsimp only
  rw [nameless]
  cases directory with
  | none => rfl
  | some directory => rfl

theorem outputPath_of_named {source name : String} (directory : Option String)
    (found : Path.fileName? (Path.withExtension source outputExtension) = some name) :
    outputPath source directory =
      directory.elim (Path.withExtension source outputExtension) (Path.join · name) := by
  unfold outputPath
  generalize Path.withExtension source outputExtension = beside at *
  dsimp only
  rw [found]
  cases directory with
  | none => rfl
  | some directory => rfl

section Targets

variable {stem other : String} (path : String) (directory : Option String)

/-- The name of a source with the other extension, in the chosen directory. The source `..jack`
has no such name. -/
theorem outputPath_join (filled : stem ≠ "") (named : Path.IsEntryName (stem ++ ".jack")) :
    outputPath (Path.join path (stem ++ ".jack")) directory =
      if stem = "." then Path.join path ".."
      else Path.join (directory.getD path) (stem ++ ".vm") := by
  rw [← append_jack] at named
  have beside : Path.withExtension (Path.join path (stem ++ "." ++ sourceExtension))
      outputExtension = _ := Path.withExtension_join path named filled (by decide) (by decide)
  rw [append_jack] at beside
  by_cases dot : stem = "."
  · rw [if_pos dot] at beside ⊢
    rw [outputPath_of_nameless, beside]
    rw [beside, Path.fileName?, Path.splitName?_join_up, Option.map_none]
  · rw [if_neg dot] at beside ⊢
    have renamed : Path.IsEntryName (stem ++ "." ++ outputExtension) :=
      named.replace filled dot (by decide)
    rw [outputPath_of_named directory (beside ▸ Path.fileName?_join path renamed), beside,
      append_vm]
    cases directory with
    | none => rw [Option.elim_none, Option.getD_none]
    | some directory => rw [Option.elim_some, Option.getD_some]

theorem fileName?_outputPath (filled : stem ≠ "") (named : Path.IsEntryName (stem ++ ".jack")) :
    Path.fileName? (outputPath (Path.join path (stem ++ ".jack")) directory) =
      if stem = "." then none else some (stem ++ ".vm") := by
  rw [outputPath_join path directory filled named]
  by_cases dot : stem = "."
  · rw [if_pos dot, if_pos dot, Path.fileName?, Path.splitName?_join_up, Option.map_none]
  · rw [if_neg dot, if_neg dot]
    rw [← append_jack] at named
    rw [← append_vm]
    exact Path.fileName?_join _ (named.replace filled dot (by decide))

/-- Two sources of a directory never have their code in one file. -/
theorem stem_of_outputPath_eq (filled : stem ≠ "") (named : Path.IsEntryName (stem ++ ".jack"))
    (otherFilled : other ≠ "") (otherNamed : Path.IsEntryName (other ++ ".jack"))
    (same : outputPath (Path.join path (stem ++ ".jack")) directory =
      outputPath (Path.join path (other ++ ".jack")) directory) : stem = other := by
  have sameName := congrArg Path.fileName? same
  rw [fileName?_outputPath path directory filled named,
    fileName?_outputPath path directory otherFilled otherNamed] at sameName
  by_cases dot : stem = "." <;> by_cases otherDot : other = "."
  · rw [dot, otherDot]
  · simp [dot, otherDot] at sameName
  · simp [dot, otherDot] at sameName
  · rw [if_neg dot, if_neg otherDot] at sameName
    simpa using sameName

/-- The file for the code of a source is not a source of the directory. -/
theorem outputPath_ne_join (filled : stem ≠ "") (named : Path.IsEntryName (stem ++ ".jack"))
    (otherNamed : Path.IsEntryName (other ++ ".jack")) :
    outputPath (Path.join path (stem ++ ".jack")) directory ≠
      Path.join path (other ++ ".jack") := by
  intro same
  have sameName := congrArg Path.fileName? same
  rw [fileName?_outputPath path directory filled named, Path.fileName?_join path otherNamed]
    at sameName
  by_cases dot : stem = "."
  · rw [if_pos dot] at sameName
    cases sameName
  · rw [if_neg dot, Option.some.injEq] at sameName
    have sameEnd := congrArg (·.toList.getLast?) sameName
    simp at sameEnd

end Targets

/-! Building a directory. -/

section Worlds

variable {World α β : Type} {world left : World} {path : String}
  {entries : List (String × EntryKind)}

theorem bind_run_of_ok {first : ExceptT BuildError (StateM World) α} {value : α}
    (done : first.run world = (.ok value, left))
    (next : α → ExceptT BuildError (StateM World) β) :
    (first >>= next).run world = (next value).run left := by
  change ExceptT.bindCont next (first.run world).1 (first.run world).2 = _
  rw [done]
  rfl

theorem onFile_run_of_ok {operation : StateM World (Except FileError α)} {value : α}
    (done : operation world = (.ok value, left)) (path : String) :
    (onFile path operation).run world = (.ok value, left) := by
  change ((operation world).1.mapError (BuildError.file path), (operation world).2) = _
  rw [done]
  rfl

variable [FileAccess (StateM World)]

/-- In this world the path leads to a directory with these entries. An entry that cannot be looked
at, as when its path is too long, is not one of them. They may be listed in any order, and asking
for them leaves the world as it is. -/
structure Shows (world : World) (path : String) (entries : List (String × EntryKind)) :
    Prop where
  kind : (FileAccess.kind path : StateM World _) world = (.ok .directory, world)
  list : ∃ listed, entries.Perm listed ∧
    (FileAccess.list path : StateM World _) world = (.ok listed, world)

/-- What is collected depends only on which entries there are. -/
theorem Shows.collect_run (shows : Shows world path entries) (listing : IsListing entries) :
    (collect path : ExceptT BuildError (StateM World) _).run world =
      (if (sourceNames entries).map (Path.join path) = [] then .error (.noSources path)
        else .ok ((sourceNames entries).map (Path.join path)), world) := by
  obtain ⟨listed, same, answer⟩ := shows.list
  rw [listing.sourceNames_eq_of_perm same, collect,
    bind_run_of_ok (onFile_run_of_ok shows.kind path)]
  dsimp only
  rw [bind_run_of_ok (onFile_run_of_ok answer path)]
  cases found : sourceNames listed with
  | nil => rfl
  | cons first rest => rfl

end Worlds

/-- The files for the code of these sources of a directory, given the directory for code, if
any. -/
structure OwnTargets (path : String) (directory : Option String) (sources : List String) :
    Prop where
  distinct : (sources.map (outputPath · directory)).Nodup
  apart : ∀ source ∈ sources, outputPath source directory ∉ sources
  place : ∀ stem, Path.join path (stem ++ ".jack") ∈ sources →
    outputPath (Path.join path (stem ++ ".jack")) directory =
      if stem = "." then Path.join path ".."
      else Path.join (directory.getD path) (stem ++ ".vm")
  name : ∀ stem, stem ≠ "." → Path.join path (stem ++ ".jack") ∈ sources →
    Path.fileName? (outputPath (Path.join path (stem ++ ".jack")) directory) =
      some (stem ++ ".vm")

theorem IsListing.ownTargets {entries : List (String × EntryKind)} (listing : IsListing entries)
    (path : String) (directory : Option String) :
    OwnTargets path directory ((sourceNames entries).map (Path.join path)) where
  distinct := by
    rw [List.map_map]
    refine List.Nodup.map_on ?_ (listing.pairwise_sourceNames.imp ne_of_lt)
    intro first firstMembership second secondMembership same
    obtain ⟨stem, source, rfl⟩ := listing.mem_sourceNames.mp firstMembership
    obtain ⟨other, otherSource, rfl⟩ := listing.mem_sourceNames.mp secondMembership
    rw [stem_of_outputPath_eq path directory source.filled (listing.named _ source.listed)
      otherSource.filled (listing.named _ otherSource.listed) same]
  apart := by
    intro target membership found
    obtain ⟨name, nameMembership, rfl⟩ := List.mem_map.mp membership
    obtain ⟨stem, source, rfl⟩ := listing.mem_sourceNames.mp nameMembership
    obtain ⟨otherName, otherMembership, same⟩ := List.mem_map.mp found
    obtain ⟨other, otherSource, rfl⟩ := listing.mem_sourceNames.mp otherMembership
    exact outputPath_ne_join path directory source.filled (listing.named _ source.listed)
      (listing.named _ otherSource.listed) same.symm
  place := by
    intro stem membership
    have source := listing.isSource_of_join membership
    exact outputPath_join path directory source.filled (listing.named _ source.listed)
  name := by
    intro stem more membership
    have source := listing.isSource_of_join membership
    rw [fileName?_outputPath path directory source.filled (listing.named _ source.listed),
      if_neg more]

/-- The sources of a directory are the regular files `x.jack` with something for `x`, in strictly
rising order, in whatever order the entries are listed. The code of each of them has a file of its
own, named `x.vm`, except that `..jack` gives its name to no file. -/
theorem directory_sources_have_own_targets (path : String) (entries : List (String × EntryKind))
    (listing : IsListing entries) :
    ∃ sources : List String, sources.Pairwise (· < ·) ∧
      (∀ source, source ∈ sources ↔
        ∃ stem, IsSource entries stem ∧ source = Path.join path (stem ++ ".jack")) ∧
      (∀ (World : Type) [FileAccess (StateM World)] (world : World), Shows world path entries →
        (collect path : ExceptT BuildError (StateM World) _).run world =
          (if sources = [] then .error (.noSources path) else .ok sources, world)) ∧
      ∀ directory, OwnTargets path directory sources := by
  refine ⟨(sourceNames entries).map (Path.join path), ?_, ?_, ?_, listing.ownTargets path⟩
  · exact listing.pairwise_sourceNames.map _ fun _ _ => Path.join_lt_join path
  · intro source
    rw [List.mem_map]
    constructor
    · rintro ⟨name, membership, rfl⟩
      obtain ⟨stem, isSource, rfl⟩ := listing.mem_sourceNames.mp membership
      exact ⟨stem, isSource, rfl⟩
    · rintro ⟨stem, isSource, rfl⟩
      exact ⟨_, listing.mem_sourceNames.mpr ⟨stem, isSource, rfl⟩, rfl⟩
  · intro World _ world shows
    exact shows.collect_run listing

/-- A directory with three sources, one of them `..jack`. -/
def attic : FileSystem :=
  ((((FileSystem.fresh ["work"]).addBelow ["attic", "b.jack"] (.file (.text ""))).addBelow
    ["attic", "a.b.jack"] (.file (.text ""))).addBelow
    ["attic", "..jack"] (.file (.text ""))).addBelow
    ["attic", "x.jack", ".jack"] (.file (.text ""))

def atticEntries : List (String × EntryKind) :=
  [("x.jack", .directory), ("b.jack", .file), ("..jack", .file), ("a.b.jack", .file)]

theorem isListing_atticEntries : IsListing atticEntries where
  named := by
    intro entry membership
    simp only [atticEntries, List.mem_cons, List.not_mem_nil, or_false] at membership
    obtain rfl | rfl | rfl | rfl := membership <;> exact ⟨by decide, by decide, by decide⟩
  distinct := by decide

theorem shows_attic : Shows attic "attic" atticEntries where
  kind := Prod.ext (by decide +kernel) rfl
  list := ⟨[("..jack", .file), ("a.b.jack", .file), ("b.jack", .file), ("x.jack", .directory)],
    by decide, Prod.ext (by decide +kernel) rfl⟩

theorem attic_sources_have_targets :
    IsListing atticEntries ∧ Shows attic "attic" atticEntries ∧
    ∃ sources : List String, sources.Pairwise (· < ·) ∧ "attic/a.b.jack" ∈ sources ∧
      (collect "attic" : ExceptT BuildError (StateM FileSystem) _).run attic =
        (.ok sources, attic) ∧
      OwnTargets "attic" (some "out") sources := by
  obtain ⟨sources, rising, exactly, collected, targets⟩ :=
    directory_sources_have_own_targets "attic" atticEntries isListing_atticEntries
  have membership : "attic/a.b.jack" ∈ sources :=
    (exactly _).mpr ⟨"a.b", ⟨by decide, by decide⟩, by decide⟩
  have ran := collected FileSystem attic shows_attic
  rw [if_neg (List.ne_nil_of_mem membership)] at ran
  exact ⟨isListing_atticEntries, shows_attic, sources, rising, membership, ran, targets _⟩

/-- The code of `..jack` does not go to `..vm`, even if there is a directory for code. -/
theorem dots_source_without_target :
    IsListing atticEntries ∧ IsSource atticEntries "." ∧
    outputPath (Path.join "attic" ("." ++ ".jack")) (some "out") = "attic/.." ∧
    Path.fileName? (outputPath (Path.join "attic" ("." ++ ".jack")) (some "out")) ≠
      some ("." ++ ".vm") :=
  ⟨isListing_atticEntries, ⟨by decide, by decide⟩, by decide, by decide⟩

end ClassLang.Build
