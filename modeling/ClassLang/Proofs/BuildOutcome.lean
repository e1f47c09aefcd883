import ClassLang.Proofs.Blocks
import ClassLang.Proofs.SeparateCompilation

/-!
What comes out of a build: whether it succeeds, which subroutines the code of each unit consists
of, and which subroutine is to blame if two of them share a qualified name.
-/

namespace ClassLang

/-! The subroutines that a piece of code defines. -/

namespace Vm

def Instruction.head? : Instruction → Option String
  | .function name _ => some name
  | _ => none

/-- The names of the subroutines in a piece of code. -/
def heads (code : List Instruction) : List String :=
  code.filterMap Instruction.head?

@[simp] theorem heads_function (name : String) (count : Nat) (rest : List Instruction) :
    heads (.function name count :: rest) = name :: heads rest := rfl

@[simp] theorem heads_append (first second : List Instruction) :
    heads (first ++ second) = heads first ++ heads second :=
  List.filterMap_append

theorem heads_of_headless {code : List Instruction} (headless : Headless code) :
    heads code = [] := by
  apply List.filterMap_eq_nil_iff.mpr
  intro instruction membership
  have notHead := headless instruction membership
  cases instruction with
  | function name count => simp [Instruction.isHead] at notHead
  | _ => rfl

end Vm

open Vm

/-- The qualified names of the subroutines of a class, in the order of its text. -/
def Class.subroutineNames (cls : Class) : List String :=
  cls.subroutines.map fun subroutine => qualifiedName cls.name subroutine.name

theorem Class.map_fst_signatures (cls : Class) :
    cls.signatures.map Prod.fst = cls.subroutineNames := by
  rw [Class.signatures, List.map_map]
  rfl

theorem Subroutine.heads_code {className : String} {members : SymbolTable}
    {signatures : SignatureTable} {subroutine : Subroutine} {block : List Instruction}
    (generated : subroutine.code className members signatures = .ok block) :
    heads block = [qualifiedName className subroutine.name] := by
  obtain ⟨name, count, rest, rfl, headless⟩ := Subroutine.code_isBlock generated
  obtain ⟨own, bodyCode, after, -, -, sameBlock⟩ := Subroutine.code_eq_ok generated
  rw [List.cons_append, List.cons.injEq, Instruction.function.injEq] at sameBlock
  rw [heads_function, heads_of_headless headless, sameBlock.1.1]

theorem heads_flatten {className : String} {members : SymbolTable} {signatures : SignatureTable}
    {subroutines : List Subroutine} {parts : List (List Instruction)}
    (each : List.Forall₂ (fun subroutine block =>
      subroutine.code className members signatures = .ok block) subroutines parts) :
    heads parts.flatten =
      subroutines.map fun subroutine => qualifiedName className subroutine.name := by
  induction each with
  | nil => rfl
  | cons first _ inductionHypothesis =>
      rw [List.flatten_cons, heads_append, Subroutine.heads_code first, inductionHypothesis]
      rfl

/-- The code of a class defines the subroutines of the class and no others. -/
theorem Class.heads_code {cls : Class} {signatures : SignatureTable} {code : List Instruction}
    (generated : cls.code signatures = .ok code) : heads code = cls.subroutineNames := by
  rw [Class.code] at generated
  obtain ⟨members, -, generated⟩ := bind_eq_ok_iff.mp generated
  obtain ⟨parts, produced, generated⟩ := bind_eq_ok_iff.mp generated
  cases generated
  exact heads_flatten (forall₂_of_mapM_eq_ok produced)

/-! The first name that is taken. -/

namespace SignatureTable

variable {table : SignatureTable} {entries : List (String × Signature)}

/-- Entries that cannot all be added are added up to the first whose name is taken. -/
theorem Holds.insertAll_error (holds : table.Holds entries)
    {further : List (String × Signature)}
    (repeated : ¬ ((entries ++ further).map Prod.fst).Nodup) :
    ∃ before entry after, further = before ++ entry :: after ∧
      ((entries ++ before).map Prod.fst).Nodup ∧ entry.1 ∈ (entries ++ before).map Prod.fst ∧
      (table.insertAll further).2 = .error (.duplicate entry.1 "the build") := by
  rcases table.insertAll_cases further with ⟨admits, -⟩ |
    ⟨before, entry, after, rfl, admits, clash, next, stopped, -⟩
  · exact absurd (holds.nodup_append admits) repeated
  · refine ⟨before, entry, after, rfl, holds.nodup_append admits, ?_, by rw [stopped]⟩
    rw [List.map_append, List.mem_append, ← holds.mem_iff]
    exact clash

end SignatureTable

namespace Build

/-- All subroutines in the order in which they become known: the name of the unit and the qualified
name of the subroutine. -/
def occurrences (units : List SourceUnit) : List (String × String) :=
  units.flatMap fun source => (unitSignatures source).map fun entry => (source.name, entry.1)

theorem map_snd_occurrences (units : List SourceUnit) :
    (occurrences units).map Prod.snd = (declared units).map Prod.fst := by
  simp [occurrences, declared, List.map_flatMap, Function.comp_def]

/-- The first occurrence whose qualified name has occurred before, in a unit of this name. -/
def FirstRepeated (occurring : List (String × String)) (unit name : String) : Prop :=
  ∃ before after, occurring = before ++ (unit, name) :: after ∧
    (before.map Prod.snd).Nodup ∧ name ∈ before.map Prod.snd

theorem occurrences_of_reads {units : List SourceUnit} {named : List (String × Class)}
    (read : List.Forall₂ Reads units named) :
    occurrences units =
      named.flatMap fun unit => unit.2.signatures.map fun entry => (unit.1, entry.1) := by
  induction read with
  | nil => rfl
  | cons first _ inductionHypothesis =>
      rw [occurrences, List.flatMap_cons, List.flatMap_cons, unitSignatures_of_parse first.2,
        first.1, ← inductionHypothesis, occurrences]

theorem register_error {known : SignatureTable} {cls : Class} {error : CompileError}
    (failed : (known.insertAll cls.signatures).2 = .error error) :
    register known cls = .error error :=
  Update.result_eq_error_iff.mpr failed

/-- Class after class is registered, up to the first name that is taken. -/
theorem foldlM_register_error {named : List (String × Class)} {known : SignatureTable}
    {entries : List (String × Signature)} (holds : known.Holds entries)
    (repeated : ¬ ((entries ++ named.flatMap fun unit => unit.2.signatures).map Prod.fst).Nodup) :
    ∃ before unit name after,
      (named.flatMap fun unit => unit.2.signatures.map fun entry => (unit.1, entry.1)) =
        before ++ (unit, name) :: after ∧
      (entries.map Prod.fst ++ before.map Prod.snd).Nodup ∧
      name ∈ entries.map Prod.fst ++ before.map Prod.snd ∧
      named.foldlM (fun known unit => inUnit unit.1 (Halt.onError (register known unit.2))) known =
        .error (.reported (.unit unit (.duplicate name "the build"))) := by
  induction named generalizing known entries with
  | nil =>
      rw [List.flatMap_nil, List.append_nil] at repeated
      exact absurd holds.distinct repeated
  | cons unit rest inductionHypothesis =>
      obtain ⟨unitName, cls⟩ := unit
      rw [List.flatMap_cons, List.foldlM_cons]
      by_cases distinct : ((entries ++ cls.signatures).map Prod.fst).Nodup
      · -- The class fits, so the repetition comes later, and its names are known by then.
        obtain ⟨next, nextHolds⟩ := SignatureTable.exists_holds distinct
        rw [List.flatMap_cons, ← List.append_assoc] at repeated
        obtain ⟨before, unit, name, after, split, beforeDistinct, clash, failed⟩ :=
          inductionHypothesis nextHolds repeated
        refine ⟨cls.signatures.map (fun entry => (unitName, entry.1)) ++ before, unit, name, after,
          ?_, ?_, ?_, ?_⟩
        · rw [split, List.append_assoc]
        · simpa [Function.comp_def] using beforeDistinct
        · simpa [Function.comp_def, or_assoc] using clash
        · rw [(register_eq_ok_iff holds).mpr nextHolds]
          exact failed
      · obtain ⟨before, entry, after, split, beforeDistinct, clash, failed⟩ :=
          holds.insertAll_error distinct
        refine ⟨before.map (fun entry => (unitName, entry.1)), unitName, entry.1,
          after.map (fun entry => (unitName, entry.1)) ++ rest.flatMap fun unit =>
            unit.2.signatures.map fun entry => (unit.1, entry.1), ?_, ?_, ?_, ?_⟩
        · simp [split]
        · simpa [Function.comp_def] using beforeDistinct
        · simpa [Function.comp_def] using clash
        · rw [register_error failed]
          rfl

theorem exists_reads {units : List SourceUnit}
    (readable : ∀ source ∈ units, ∃ cls, Class.parse source.text = .ok cls) :
    ∃ named, List.Forall₂ Reads units named := by
  induction units with
  | nil => exact ⟨[], .nil⟩
  | cons source rest inductionHypothesis =>
      rw [List.forall_mem_cons] at readable
      obtain ⟨⟨cls, parsed⟩, restReadable⟩ := readable
      obtain ⟨named, read⟩ := inductionHypothesis restReadable
      exact ⟨(source.name, cls) :: named, .cons ⟨rfl, parsed⟩ read⟩

/-- A build of readable units that repeat a qualified name blames the first repetition. -/
theorem compile_of_repeated {library : Bool} {units : List SourceUnit}
    (readable : ∀ source ∈ units, ∃ cls, Class.parse source.text = .ok cls)
    (repeated : ¬ ((occurrences units).map Prod.snd).Nodup) :
    ∃ unit name, FirstRepeated (occurrences units) unit name ∧
      compile library units = .error (.reported (.unit unit (.duplicate name "the build"))) := by
  obtain ⟨named, read⟩ := exists_reads readable
  rw [map_snd_occurrences, declared_eq_of_reads read] at repeated
  obtain ⟨before, unit, name, after, split, distinct, clash, failed⟩ :=
    foldlM_register_error SignatureTable.holds_empty repeated
  rw [← occurrences_of_reads read] at split
  refine ⟨unit, name, ⟨before, after, split, distinct, clash⟩, ?_⟩
  rw [compile, classes_eq_ok_iff.mpr read, ok_bind, signatures, failed]
  rfl

/-! The signatures that a build goes by. -/

theorem lookup_eq_some_iff {entries : List (String × Signature)}
    (distinct : (entries.map Prod.fst).Nodup) (name : String) (signature : Signature) :
    entries.lookup name = some signature ↔ (name, signature) ∈ entries := by
  induction entries with
  | nil => simp
  | cons entry rest inductionHypothesis =>
      obtain ⟨key, value⟩ := entry
      rw [List.map_cons, List.nodup_cons] at distinct
      rw [List.lookup_cons, List.mem_cons, ← inductionHypothesis distinct.2]
      by_cases same : name = key
      · subst same
        have absent : rest.lookup name ≠ some signature := by
          intro found
          exact distinct.1 (List.mem_map.mpr
            ⟨_, (inductionHypothesis distinct.2).mp found, rfl⟩)
        simp [absent, eq_comm]
      · have other : (name == key) = false := by simpa using same
        simp [same, other]

theorem library_distinct : (Library.signatures.map Prod.fst).Nodup := by decide

/-- The table has the signatures of all units and, if the library is wanted, those of the library
that no unit defines. -/
def Links (library : Bool) (units : List SourceUnit) (known : SignatureTable) : Prop :=
  ∀ (name : String) (signature : Signature), known.entries[name]? = some signature ↔
    (name, signature) ∈ declared units ∨
      library = true ∧ (name, signature) ∈ Library.signatures ∧
        name ∉ (declared units).map Prod.fst

theorem links_completed {base : SignatureTable} {units : List SourceUnit}
    (holds : base.Holds (declared units)) (library : Bool) :
    Links library units (base.completed library) := by
  intro name signature
  rw [SignatureTable.getElem?_completed, Option.or_eq_some_iff, holds.found, ← holds.mem_iff]
  cases library with
  | false => simp
  | true => simp [lookup_eq_some_iff library_distinct, and_comm]

theorem Links.unique {library : Bool} {units : List SourceUnit} {first second : SignatureTable}
    (links : Links library units first) (alsoLinks : Links library units second) :
    first = second := by
  apply SignatureTable.ext_entries
  intro name
  apply Option.ext
  intro signature
  rw [links, alsoLinks]

/-- The unit has this result under its own name: the code of its class, which defines the
subroutines of the class in the order of its text. -/
def Yields (known : SignatureTable) (source : SourceUnit) (result : CompiledUnit) : Prop :=
  result.name = source.name ∧ ∃ cls, Class.parse source.text = .ok cls ∧
    cls.code known = .ok result.code ∧ heads result.code = cls.subroutineNames

theorem Compiles.yields {known : SignatureTable} {source : SourceUnit} {result : CompiledUnit}
    (compiles : Compiles known source result) : Yields known source result := by
  obtain ⟨cls, parsed, sameName, generated⟩ := compiles
  exact ⟨sameName, cls, parsed, generated, Class.heads_code generated⟩

theorem heads_of_yields {known : SignatureTable} {units : List SourceUnit}
    {compiled : List CompiledUnit} (results : List.Forall₂ (Yields known) units compiled) :
    (compiled.flatMap fun result => heads result.code) = (declared units).map Prod.fst := by
  induction results with
  | nil => rfl
  | @cons source result _ _ first _ inductionHypothesis =>
      obtain ⟨-, cls, parsed, -, defined⟩ := first
      rw [List.flatMap_cons, inductionHypothesis, defined, ← cls.map_fst_signatures, declared,
        declared, List.flatMap_cons, List.map_append, unitSignatures_of_parse parsed]

theorem exists_compiled {known : SignatureTable} {units : List SourceUnit}
    (each : ∀ source ∈ units, ∃ cls code, Class.parse source.text = .ok cls ∧
      cls.code known = .ok code) :
    ∃ compiled, List.Forall₂ (Compiles known) units compiled := by
  induction units with
  | nil => exact ⟨[], .nil⟩
  | cons source rest inductionHypothesis =>
      rw [List.forall_mem_cons] at each
      obtain ⟨⟨cls, code, parsed, generated⟩, restCompile⟩ := each
      obtain ⟨compiled, results⟩ := inductionHypothesis restCompile
      exact ⟨⟨source.name, code⟩ :: compiled, .cons ⟨cls, parsed, rfl, generated⟩ results⟩

theorem compile_succeeds_iff {library : Bool} {units : List SourceUnit} :
    (∃ compiled, compile library units = .ok compiled) ↔
      (∀ source ∈ units, ∃ cls, Class.parse source.text = .ok cls) ∧
      ((occurrences units).map Prod.snd).Nodup ∧
      ∃ known, Links library units known ∧ ∀ source ∈ units, ∀ cls,
        Class.parse source.text = .ok cls → ∃ code, cls.code known = .ok code := by
  simp only [compile_eq_ok_iff, map_snd_occurrences]
  constructor
  · rintro ⟨compiled, base, holds, results⟩
    have each : ∀ source ∈ units, ∃ cls code, Class.parse source.text = .ok cls ∧
        cls.code (base.completed library) = .ok code := by
      intro source membership
      obtain ⟨place, found⟩ := List.mem_iff_getElem?.mp membership
      obtain ⟨result, -, cls, parsed, -, generated⟩ := forall₂_getElem? results found
      exact ⟨cls, _, parsed, generated⟩
    refine ⟨?_, holds.distinct, _, links_completed holds library, ?_⟩
    · intro source membership
      obtain ⟨cls, -, parsed, -⟩ := each source membership
      exact ⟨cls, parsed⟩
    · intro source membership cls parsed
      obtain ⟨sameCls, code, alsoParsed, generated⟩ := each source membership
      rw [parsed] at alsoParsed
      cases alsoParsed
      exact ⟨code, generated⟩
  · rintro ⟨readable, distinct, known, links, coded⟩
    obtain ⟨base, holds⟩ := SignatureTable.exists_holds distinct
    rw [links.unique (links_completed holds library)] at coded
    have each : ∀ source ∈ units, ∃ cls code, Class.parse source.text = .ok cls ∧
        cls.code (base.completed library) = .ok code := by
      intro source membership
      obtain ⟨cls, parsed⟩ := readable source membership
      obtain ⟨code, generated⟩ := coded source membership cls parsed
      exact ⟨cls, code, parsed, generated⟩
    obtain ⟨compiled, results⟩ := exists_compiled each
    exact ⟨compiled, base, holds, results⟩

/-- A build succeeds exactly if all units can be read, no two subroutines share a qualified name,
and every class has code against the signatures of all. Then each unit has its code, and no
subroutine is defined twice. If units that can be read share a name, the first repetition is
reported. -/
theorem whole_build_outcome (library : Bool) (units : List SourceUnit) :
    ((∃ compiled, compile library units = .ok compiled) ↔
      (∀ source ∈ units, ∃ cls, Class.parse source.text = .ok cls) ∧
      ((occurrences units).map Prod.snd).Nodup ∧
      ∃ known, Links library units known ∧ ∀ source ∈ units, ∀ cls,
        Class.parse source.text = .ok cls → ∃ code, cls.code known = .ok code) ∧
    (∀ compiled, compile library units = .ok compiled →
      ∃ known, Links library units known ∧
        List.Forall₂ (Yields known) units compiled ∧
        (compiled.flatMap fun result => heads result.code).Nodup) ∧
    ((∀ source ∈ units, ∃ cls, Class.parse source.text = .ok cls) →
      ¬ ((occurrences units).map Prod.snd).Nodup →
      ∃ unit name, FirstRepeated (occurrences units) unit name ∧
        compile library units =
          .error (.reported (.unit unit (.duplicate name "the build")))) := by
  refine ⟨compile_succeeds_iff, ?_, compile_of_repeated⟩
  intro compiled built
  obtain ⟨base, holds, results⟩ := compile_eq_ok_iff.mp built
  have yields : List.Forall₂ (Yields (base.completed library)) units compiled :=
    results.imp fun _ _ => Compiles.yields
  refine ⟨_, links_completed holds library, yields, ?_⟩
  rw [heads_of_yields yields]
  exact holds.distinct

/-- Lamp and lantern are one class by name, so the second of them is refused, while the room and the
lamp go together. -/
theorem lamp_lantern_outcome :
    compile true [room, lamp] = .ok [⟨"Room", roomCode⟩, ⟨"Lamp", lampCode⟩] ∧
    (∃ known, Links true [room, lamp] known ∧
      List.Forall₂ (Yields known) [room, lamp] [⟨"Room", roomCode⟩, ⟨"Lamp", lampCode⟩] ∧
      ([⟨"Room", roomCode⟩, ⟨"Lamp", lampCode⟩].flatMap fun (result : CompiledUnit) =>
        heads result.code).Nodup) ∧
    (∀ source ∈ [lamp, lantern], ∃ cls, Class.parse source.text = .ok cls) ∧
    occurrences [lamp, lantern] = [("Lamp", "Lamp.used"), ("Lantern", "Lamp.used")] ∧
    ∃ unit name, FirstRepeated (occurrences [lamp, lantern]) unit name ∧
      compile true [lamp, lantern] =
        .error (.reported (.unit unit (.duplicate name "the build"))) := by
  have readable : ∀ source ∈ [lamp, lantern], ∃ cls, Class.parse source.text = .ok cls := by
    simp only [List.forall_mem_cons, List.not_mem_nil, false_implies, implies_true, and_true]
    exact ⟨⟨_, parse_lamp⟩, _, parse_lantern⟩
  have occurring :
      occurrences [lamp, lantern] = [("Lamp", "Lamp.used"), ("Lantern", "Lamp.used")] := by
    rw [occurrences, List.flatMap_cons, List.flatMap_cons, unitSignatures_of_parse parse_lamp,
      unitSignatures_of_parse parse_lantern]
    rfl
  refine ⟨compile_room_lamp, ?_, readable, occurring, ?_⟩
  · exact (whole_build_outcome true [room, lamp]).2.1 _ compile_room_lamp
  · apply (whole_build_outcome true [lamp, lantern]).2.2 readable
    rw [occurring]
    decide

end Build

end ClassLang
