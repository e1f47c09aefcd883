import ClassLang.Files.System
import ClassLang.Proofs.Results

/-!
How file operations change a file system.

Nothing is ever removed, and nothing changes its kind. So a path that leads somewhere keeps leading
there, and what a write does to one location is all that it does.
-/

namespace ClassLang

namespace Path

/-- A path ends with a part that is not empty unless it ends with a slash. -/
theorem exists_last_part {chars : List Char} (filled : chars ≠ [])
    (noSlash : chars.getLast? ≠ some '/') :
    ∃ before last, splitSlash chars = before ++ [last] ∧ last ≠ [] := by
  induction chars with
  | nil => exact absurd rfl filled
  | cons c rest inductionHypothesis =>
      cases rest with
      | nil =>
          have ordinary : c ≠ '/' := by simpa using noSlash
          exact ⟨[], [c], by simp [splitSlash, ordinary], by simp⟩
      | cons d rest =>
          rw [List.getLast?_cons_cons] at noSlash
          obtain ⟨before, last, split, lastFilled⟩ :=
            inductionHypothesis (List.cons_ne_nil d rest) noSlash
          rw [splitSlash, split]
          by_cases slash : c = '/'
          · exact ⟨[] :: before, last, by simp [slash], lastFilled⟩
          · cases before with
            | nil => exact ⟨[], c :: last, by simp [slash], by simp⟩
            | cons part parts => exact ⟨(c :: part) :: parts, last, by simp [slash], lastFilled⟩

end Path

namespace FileSystem

variable {files next after : FileSystem}

/-! Following paths. -/

theorem start_set (files : FileSystem) (location : Location) (entry : Entry) (path : String) :
    (files.set location entry).start path = files.start path := rfl

theorem walk_append (files : FileSystem) (location : Location) (first second : List String) :
    files.walk location (first ++ second) =
      files.walk location first >>= fun reached => files.walk reached second := by
  induction first generalizing location with
  | nil => rfl
  | cons part rest inductionHypothesis =>
      simp only [List.cons_append, walk]
      split
      · rfl
      · split
        · exact inductionHypothesis location
        · split
          · exact inductionHypothesis location.dropLast
          · split
            · rfl
            · rfl
            · exact inductionHypothesis (location ++ [part])

/-- One step down to an entry that is there. -/
theorem walk_singleton {location : Location} {name : String} {entry : Entry}
    (directory : files.get? location = some .directory) (counts : Path.isStay name = false)
    (down : name ≠ "..") (short : checkName name = .ok ())
    (found : files.get? (location ++ [name]) = some entry) :
    files.walk location [name] = .ok (location ++ [name]) := by
  simp [walk, directory, counts, down, short, found]

/-- Everything that was there is still there and of the same kind. -/
structure Keeps (files after : FileSystem) : Prop where
  current : after.current = files.current
  kind : ∀ location entry, files.get? location = some entry →
    ∃ later, after.get? location = some later ∧ later.kind = entry.kind

theorem keeps_refl (files : FileSystem) : files.Keeps files where
  current := rfl
  kind _ entry found := ⟨entry, found, rfl⟩

theorem Keeps.trans (first : files.Keeps next) (second : next.Keeps after) :
    files.Keeps after where
  current := second.current.trans first.current
  kind location entry found := by
    obtain ⟨middle, foundMiddle, sameKind⟩ := first.kind location entry found
    obtain ⟨later, foundLater, stillSame⟩ := second.kind location middle foundMiddle
    exact ⟨later, foundLater, stillSame.trans sameKind⟩

theorem Keeps.directory (keeps : files.Keeps after) {location : Location}
    (found : files.get? location = some .directory) : after.get? location = some .directory := by
  obtain ⟨later, foundLater, sameKind⟩ := keeps.kind location .directory found
  cases later with
  | directory => exact foundLater
  | file contents => cases sameKind

/-- A way that could be gone can still be gone, and leads to the same location. -/
theorem Keeps.walk (keeps : files.Keeps after) {location reached : Location} {parts : List String}
    (walked : files.walk location parts = .ok reached) :
    after.walk location parts = .ok reached := by
  induction parts generalizing location with
  | nil => exact walked
  | cons part rest inductionHypothesis =>
      simp only [FileSystem.walk] at walked ⊢
      by_cases directory : files.get? location = some .directory
      · rw [if_neg (not_not_intro directory)] at walked
        rw [if_neg (not_not_intro (keeps.directory directory))]
        by_cases stays : Path.isStay part = true
        · rw [if_pos stays] at walked ⊢
          exact inductionHypothesis walked
        · rw [if_neg stays] at walked ⊢
          by_cases up : part = ".."
          · rw [if_pos up] at walked ⊢
            exact inductionHypothesis walked
          · rw [if_neg up] at walked ⊢
            cases short : checkName part with
            | error error => simp [short] at walked
            | ok _ =>
                cases found : files.get? (location ++ [part]) with
                | none => simp [short, found] at walked
                | some entry =>
                    obtain ⟨later, foundLater, -⟩ := keeps.kind _ entry found
                    simp only [short, found] at walked
                    simp only [foundLater]
                    exact inductionHypothesis walked
      · rw [if_pos directory] at walked
        cases walked

theorem Keeps.locate (keeps : files.Keeps after) {path : String} {location : Location}
    (located : files.locate path = .ok location) : after.locate path = .ok location := by
  rw [FileSystem.locate] at located ⊢
  obtain ⟨_, checked, walked⟩ := bind_eq_ok_iff.mp located
  rw [checked, ok_bind, start, keeps.current]
  exact keeps.walk walked

theorem keeps_set {location : Location} {entry : Entry} (inside : location ≠ [])
    (sameKind : ∀ old, files.get? location = some old → old.kind = entry.kind) :
    files.Keeps (files.set location entry) where
  current := rfl
  kind found old foundOld := by
    rw [get?_set files inside]
    by_cases same : location = found
    · subst same
      exact ⟨entry, by simp, (sameKind old foundOld).symm⟩
    · exact ⟨old, by simp [same, foundOld], rfl⟩

theorem keeps_set_file {location : Location} (inside : location ≠ [])
    (isFree : files.get? location ≠ some .directory) (contents : Contents) :
    files.Keeps (files.set location (.file contents)) := by
  apply keeps_set inside
  intro old found
  cases old with
  | directory => exact absurd found isFree
  | file _ => rfl

/-! Reading and writing. -/

theorem readText_of_locate {path : String} {location : Location} {text : String}
    (located : files.locate path = .ok location)
    (found : files.get? location = some (.file (.text text))) :
    files.readText path = .ok text := by
  simp [readText, find, located, found]

/-- What is read of a path depends only on the entry that it leads to. -/
theorem readText_congr {path : String} {location : Location}
    (located : files.locate path = .ok location) (locatedAfter : after.locate path = .ok location)
    (same : after.get? location = files.get? location) :
    after.readText path = files.readText path := by
  simp only [readText, find, located, locatedAfter, ok_bind, same]

theorem readText_eq_of_locate {path other : String}
    (same : files.locate path = files.locate other) :
    files.readText path = files.readText other := by
  simp only [readText, find, same]

theorem locate_of_readText {path text : String} (read : files.readText path = .ok text) :
    ∃ location, files.locate path = .ok location ∧
      files.get? location = some (.file (.text text)) := by
  rw [readText] at read
  obtain ⟨entry, found, read⟩ := bind_eq_ok_iff.mp read
  rw [find] at found
  obtain ⟨location, located, found⟩ := bind_eq_ok_iff.mp found
  refine ⟨location, located, ?_⟩
  cases there : files.get? location with
  | none => simp [there, throw, throwThe, MonadExceptOf.throw] at found
  | some reached =>
      simp only [there, pure_eq_ok, Except.ok.injEq] at found
      subst found
      match reached, read with
      | .file (.text _), rfl => rfl

theorem place_eq_ok {path name : String} {refusal : FileError} {directory : Location}
    (placed : files.place path refusal = .ok (directory, name)) :
    checkPath path = .ok () ∧ name ≠ "." ∧ name ≠ ".." ∧
      files.get? directory = some .directory ∧
      ∃ before, (Path.parts path).reverse.dropWhile (· = "") = name :: before ∧
        files.walk (files.start path) before.reverse = .ok directory := by
  rw [place] at placed
  obtain ⟨_, checked, placed⟩ := bind_eq_ok_iff.mp placed
  refine ⟨checked, ?_⟩
  cases parts : (Path.parts path).reverse.dropWhile (· = "") with
  | nil => simp [parts, throw, throwThe, MonadExceptOf.throw] at placed
  | cons last before =>
      simp only [parts] at placed
      obtain ⟨reached, walked, placed⟩ := bind_eq_ok_iff.mp placed
      split at placed
      · cases placed
      next isDirectory =>
        split at placed
        · cases placed
        next isName =>
          cases placed
          rw [not_or] at isName
          exact ⟨isName.1, isName.2, not_not.mp isDirectory, before, rfl, walked⟩

/-- A path that does not end with a slash ends with the name of the entry. -/
theorem parts_of_place {path name : String} {refusal : FileError} {directory : Location}
    (placed : files.place path refusal = .ok (directory, name))
    (noSlash : path.toList.getLast? ≠ some '/') :
    ∃ before, Path.parts path = before ++ [name] ∧ name ≠ "" ∧
      files.walk (files.start path) before = .ok directory := by
  obtain ⟨checked, -, -, -, reversed, parts, walked⟩ := place_eq_ok placed
  have filled : path.toList ≠ [] := by
    intro empty
    have blank : path = "" := String.toList_eq_nil_iff.mp empty
    simp [checkPath, blank] at checked
  obtain ⟨before, last, split, lastFilled⟩ := Path.exists_last_part filled noSlash
  have lastPart : String.ofList last ≠ "" := by
    simpa using lastFilled
  rw [Path.parts, split, List.map_append, List.map_singleton, List.reverse_append,
    List.reverse_singleton, List.singleton_append,
    List.dropWhile_cons_of_neg (by simpa using lastPart), List.cons.injEq] at parts
  obtain ⟨sameName, sameBefore⟩ := parts
  rw [← sameBefore, List.reverse_reverse] at walked
  refine ⟨before.map String.ofList, ?_, sameName ▸ lastPart, walked⟩
  rw [Path.parts, split, List.map_append, List.map_singleton, sameName]

/-- A write sets the file at the location that its path then leads to. -/
theorem writeText_eq_ok {path text : String} (written : files.writeText path text = .ok next) :
    ∃ location, location ≠ [] ∧ files.get? location ≠ some .directory ∧
      next = files.set location (.file (.text text)) ∧ next.locate path = .ok location := by
  rw [writeText] at written
  obtain ⟨⟨directory, name⟩, placed, written⟩ := bind_eq_ok_iff.mp written
  dsimp only at written
  split at written
  · cases written
  next noSlash =>
    obtain ⟨_, short, written⟩ := bind_eq_ok_iff.mp written
    split at written
    · cases written
    next isFree =>
      cases written
      have inside : directory ++ [name] ≠ [] := by simp
      obtain ⟨checked, noStay, noUp, isDirectory, -⟩ := place_eq_ok placed
      obtain ⟨before, parts, filled, walked⟩ := parts_of_place placed noSlash
      have keeps := keeps_set_file inside isFree (.text text)
      refine ⟨directory ++ [name], inside, isFree, rfl, ?_⟩
      rw [FileSystem.locate, checked, ok_bind, parts, walk_append, start_set, keeps.walk walked,
        ok_bind]
      apply walk_singleton (keeps.directory isDirectory) _ noUp short
      · exact (get?_set files inside _ _).trans (if_pos rfl)
      · simp [Path.isStay, filled, noStay]

theorem keeps_writeText {path text : String} (written : files.writeText path text = .ok next) :
    files.Keeps next := by
  obtain ⟨location, inside, isFree, rfl, -⟩ := writeText_eq_ok written
  exact keeps_set_file inside isFree (.text text)

/-! New directories. -/

/-- Directories have been added, and nothing else has changed. -/
structure GainsDirectories (files after : FileSystem) : Prop where
  current : after.current = files.current
  entries : ∀ location, after.get? location = files.get? location ∨
    files.get? location = none ∧ after.get? location = some .directory

theorem gainsDirectories_refl (files : FileSystem) : files.GainsDirectories files where
  current := rfl
  entries _ := .inl rfl

theorem GainsDirectories.trans (first : files.GainsDirectories next)
    (second : next.GainsDirectories after) : files.GainsDirectories after where
  current := second.current.trans first.current
  entries location := by
    rcases second.entries location with same | ⟨absent, added⟩
    · rw [same]
      exact first.entries location
    · rcases first.entries location with same | ⟨-, already⟩
      · exact .inr ⟨same ▸ absent, added⟩
      · rw [absent] at already
        cases already

theorem GainsDirectories.keeps (gains : files.GainsDirectories after) : files.Keeps after where
  current := gains.current
  kind location entry found := by
    rcases gains.entries location with same | ⟨absent, -⟩
    · exact ⟨entry, same.trans found, rfl⟩
    · rw [absent] at found
      cases found

/-- No file is new, and none has other contents. -/
theorem GainsDirectories.file_iff (gains : files.GainsDirectories after) (location : Location)
    (contents : Contents) :
    after.get? location = some (.file contents) ↔ files.get? location = some (.file contents) := by
  rcases gains.entries location with same | ⟨absent, added⟩
  · rw [same]
  · simp [absent, added]

theorem gainsDirectories_makeDirectory {path : String}
    (made : files.makeDirectory path = .ok next) : files.GainsDirectories next := by
  rw [makeDirectory] at made
  obtain ⟨⟨directory, name⟩, -, made⟩ := bind_eq_ok_iff.mp made
  obtain ⟨_, -, made⟩ := bind_eq_ok_iff.mp made
  split at made
  · cases made
  next isFree =>
    cases made
    refine ⟨rfl, fun location => ?_⟩
    rw [get?_set files (by simp)]
    by_cases same : directory ++ [name] = location
    · subst same
      exact .inr ⟨not_not.mp isFree, if_pos rfl⟩
    · exact .inl (if_neg same)

end FileSystem

end ClassLang
