import ClassLang.Build.Basic
import ClassLang.Proofs.Registration
import Mathlib.Data.Fin.VecNotation
import Mathlib.Data.List.FinRange

/-!
When a build succeeds: every unit can be read, no two subroutines share a qualified name, and
every class has code against the signatures of all of them. None of this depends on the order of
the units.
-/

namespace ClassLang.Build

open Vm

section

variable {α : Type} {name : String} {result : Except (Halt CompileError) α}

theorem inUnit_eq_ok_iff {value : α} : inUnit name result = .ok value ↔ result = .ok value := by
  cases result with
  | error halt => simp [inUnit, Except.mapError]
  | ok found => simp [inUnit, Except.mapError]

theorem inUnit_eq_error_iff {halt : Halt BuildError} :
    inUnit name result = .error halt ↔
      ∃ reason : Halt CompileError, result = .error reason ∧ halt = reason.map (.unit name) := by
  cases result with
  | error reason => simp [inUnit, Except.mapError, eq_comm]
  | ok value => simp [inUnit, Except.mapError]

end

/-- The signatures that the text of a unit declares, if it can be read. -/
def unitSignatures (source : SourceUnit) : List (String × Signature) :=
  match Class.parse source.text with
  | .ok cls => cls.signatures
  | .error _ => []

theorem unitSignatures_of_parse {source : SourceUnit} {cls : Class}
    (parsed : Class.parse source.text = .ok cls) : unitSignatures source = cls.signatures := by
  unfold unitSignatures
  rw [parsed]

/-- The signatures that the units declare together. -/
def declared (units : List SourceUnit) : List (String × Signature) :=
  units.flatMap unitSignatures

/-- The unit can be read, and its class has this code. -/
def Compiles (known : SignatureTable) (source : SourceUnit) (result : CompiledUnit) : Prop :=
  ∃ cls, Class.parse source.text = .ok cls ∧ result.name = source.name ∧
    cls.code known = .ok result.code

theorem register_eq_ok_iff {known next : SignatureTable} {entries : List (String × Signature)}
    {cls : Class} (holds : known.Holds entries) :
    register known cls = .ok next ↔ next.Holds (entries ++ cls.signatures) := by
  rw [← holds.insertAll_eq_ok_iff]
  exact Update.result_eq_ok_iff

/-- Class after class, the table comes to hold the signatures of all. -/
theorem foldlM_register_eq_ok_iff {named : List (String × Class)} {known final : SignatureTable}
    {entries : List (String × Signature)} (holds : known.Holds entries) :
    named.foldlM (fun known unit => inUnit unit.1 (Halt.onError (register known unit.2))) known =
        .ok final ↔
      final.Holds (entries ++ named.flatMap fun unit => unit.2.signatures) := by
  induction named generalizing known entries with
  | nil =>
      rw [List.flatMap_nil, List.append_nil, List.foldlM_nil]
      constructor
      · intro same
        cases same
        exact holds
      · intro finalHolds
        rw [holds.unique finalHolds]
        rfl
  | cons unit rest inductionHypothesis =>
      rw [List.foldlM_cons, bind_eq_ok_iff, List.flatMap_cons, ← List.append_assoc]
      simp only [inUnit_eq_ok_iff, Halt.onError_eq_ok_iff, register_eq_ok_iff holds]
      constructor
      · rintro ⟨next, nextHolds, folded⟩
        exact (inductionHypothesis nextHolds).mp folded
      · intro finalHolds
        -- The final table settles all names, so the table behind this class exists as well.
        have distinct := finalHolds.distinct
        rw [List.map_append] at distinct
        obtain ⟨next, nextHolds⟩ := SignatureTable.exists_holds distinct.of_append_left
        exact ⟨next, nextHolds, (inductionHypothesis nextHolds).mpr finalHolds⟩

theorem signatures_eq_ok_iff {library : Bool} {named : List (String × Class)}
    {known : SignatureTable} :
    signatures library named = .ok known ↔
      ∃ base : SignatureTable, base.Holds (named.flatMap fun unit => unit.2.signatures) ∧
        known = base.completed library := by
  rw [signatures, bind_eq_ok_iff]
  simp only [foldlM_register_eq_ok_iff SignatureTable.holds_empty, List.nil_append, pure_eq_ok,
    Except.ok.injEq, SignatureTable.completed]
  simp only [eq_comm]

/-- The name and the class of a unit that can be read. -/
def Reads (source : SourceUnit) (unit : String × Class) : Prop :=
  unit.1 = source.name ∧ Class.parse source.text = .ok unit.2

theorem classes_eq_ok_iff {units : List SourceUnit} {named : List (String × Class)} :
    classes units = .ok named ↔ List.Forall₂ Reads units named := by
  have each : ∀ (source : SourceUnit) (unit : String × Class),
      (inUnit source.name (Halt.onError (Class.parse source.text)) >>= fun cls =>
        pure (source.name, cls)) = .ok unit ↔ Reads source unit := by
    intro source unit
    obtain ⟨name, cls⟩ := unit
    simp only [bind_eq_ok_iff, inUnit_eq_ok_iff, Halt.onError_eq_ok_iff, pure_eq_ok,
      Except.ok.injEq, Prod.mk.injEq, Reads]
    constructor
    · rintro ⟨_, parsed, rfl, rfl⟩
      exact ⟨rfl, parsed⟩
    · rintro ⟨rfl, parsed⟩
      exact ⟨cls, parsed, rfl, rfl⟩
  simp only [classes, mapM_eq_ok_iff, each]

theorem declared_eq_of_reads {units : List SourceUnit} {named : List (String × Class)}
    (read : List.Forall₂ Reads units named) :
    declared units = named.flatMap fun unit => unit.2.signatures := by
  induction read with
  | nil => rfl
  | cons first _ inductionHypothesis =>
      rw [declared, List.flatMap_cons, List.flatMap_cons, unitSignatures_of_parse first.2,
        ← inductionHypothesis, declared]

/-- A unit compiles if it can be read and what was read has code. -/
theorem compiles_iff {known : SignatureTable} {source : SourceUnit} {result : CompiledUnit} :
    Compiles known source result ↔
      ∃ unit, Reads source unit ∧ result.name = unit.1 ∧ unit.2.code known = .ok result.code := by
  constructor
  · rintro ⟨cls, parsed, named, generated⟩
    exact ⟨(source.name, cls), ⟨rfl, parsed⟩, named, generated⟩
  · rintro ⟨⟨_, cls⟩, ⟨rfl, parsed⟩, named, generated⟩
    exact ⟨cls, parsed, named, generated⟩

theorem mapM_code_eq_ok_iff {known : SignatureTable} {named : List (String × Class)}
    {compiled : List CompiledUnit} :
    (named.mapM fun unit => do
      let code ← inUnit unit.1 (unit.2.code known)
      return (⟨unit.1, code⟩ : CompiledUnit)) = .ok compiled ↔
      List.Forall₂ (fun unit result => result.name = unit.1 ∧
        unit.2.code known = .ok result.code) named compiled := by
  have each : ∀ (unit : String × Class) (result : CompiledUnit),
      (inUnit unit.1 (unit.2.code known) >>= fun code => pure (⟨unit.1, code⟩ : CompiledUnit)) =
        .ok result ↔ result.name = unit.1 ∧ unit.2.code known = .ok result.code := by
    intro unit result
    obtain ⟨name, code⟩ := result
    simp only [bind_eq_ok_iff, inUnit_eq_ok_iff, pure_eq_ok, Except.ok.injEq,
      CompiledUnit.mk.injEq]
    constructor
    · rintro ⟨_, generated, rfl, rfl⟩
      exact ⟨rfl, generated⟩
    · rintro ⟨rfl, generated⟩
      exact ⟨code, generated, rfl, rfl⟩
  simp only [mapM_eq_ok_iff, each]

/-- A build succeeds exactly if the signatures of its units fit into one table and every unit
compiles against that table and the library. -/
theorem compile_eq_ok_iff {library : Bool} {units : List SourceUnit}
    {compiled : List CompiledUnit} :
    compile library units = .ok compiled ↔
      ∃ base : SignatureTable, base.Holds (declared units) ∧
        List.Forall₂ (Compiles (base.completed library)) units compiled := by
  simp only [compile, bind_eq_ok_iff, classes_eq_ok_iff, signatures_eq_ok_iff,
    mapM_code_eq_ok_iff]
  constructor
  · rintro ⟨named, read, _, ⟨base, holds, rfl⟩, coded⟩
    rw [← declared_eq_of_reads read] at holds
    refine ⟨base, holds, (forall₂_comp.mpr ⟨named, read, coded⟩).imp ?_⟩
    intro source result
    exact compiles_iff.mpr
  · rintro ⟨base, holds, each⟩
    obtain ⟨named, read, coded⟩ := forall₂_comp.mp (each.imp fun _ _ => compiles_iff.mp)
    rw [declared_eq_of_reads read] at holds
    exact ⟨named, read, _, ⟨base, holds, rfl⟩, coded⟩

/-! The order of the units. -/

theorem forall₂_ofFn_iff {α β : Type} {relation : α → β → Prop} {count : Nat}
    {inputs : Fin count → α} {outputs : Fin count → β} :
    List.Forall₂ relation (List.ofFn inputs) (List.ofFn outputs) ↔
      ∀ place, relation (inputs place) (outputs place) := by
  induction count with
  | zero => simp
  | succ count inductionHypothesis =>
      rw [List.ofFn_succ, List.ofFn_succ, List.forall₂_cons, inductionHypothesis,
        Fin.forall_fin_succ]

section

variable {library : Bool} {count : Nat} {units : Fin count → SourceUnit}

/-- A build has one result for each of its units. -/
theorem exists_ofFn_of_compile {compiled : List CompiledUnit}
    (built : compile library (List.ofFn units) = .ok compiled) :
    ∃ each : Fin count → CompiledUnit, compiled = List.ofFn each := by
  obtain ⟨base, -, results⟩ := compile_eq_ok_iff.mp built
  have sameLength := results.length_eq
  rw [List.length_ofFn] at sameLength
  subst sameLength
  exact ⟨compiled.get, (List.ofFn_get compiled).symm⟩

/-- Units and results can be put into another order together. -/
theorem compile_reorder (order : Equiv.Perm (Fin count)) {each : Fin count → CompiledUnit}
    (built : compile library (List.ofFn units) = .ok (List.ofFn each)) :
    compile library (List.ofFn (units ∘ order)) = .ok (List.ofFn (each ∘ order)) := by
  obtain ⟨base, holds, results⟩ := compile_eq_ok_iff.mp built
  have sameUnits := order.ofFn_comp_perm units
  refine compile_eq_ok_iff.mpr ⟨base, holds.perm (sameUnits.symm.flatMap_right _), ?_⟩
  rw [forall₂_ofFn_iff] at results ⊢
  intro place
  exact results (order place)

end

/-- The order of its units decides neither whether a build succeeds nor what becomes of each
unit. -/
theorem compile_independent_of_unit_order (library : Bool) {count : Nat}
    (units : Fin count → SourceUnit) (order : Equiv.Perm (Fin count)) :
    ((∃ compiled, compile library (List.ofFn units) = .ok compiled) ↔
      ∃ compiled, compile library (List.ofFn (units ∘ order)) = .ok compiled) ∧
    ∀ compiled, compile library (List.ofFn units) = .ok compiled →
      ∃ each : Fin count → CompiledUnit, compiled = List.ofFn each ∧
        compile library (List.ofFn (units ∘ order)) = .ok (List.ofFn (each ∘ order)) := by
  refine ⟨⟨?_, ?_⟩, ?_⟩
  · rintro ⟨compiled, built⟩
    obtain ⟨each, rfl⟩ := exists_ofFn_of_compile built
    exact ⟨_, compile_reorder order built⟩
  · rintro ⟨compiled, built⟩
    obtain ⟨each, rfl⟩ := exists_ofFn_of_compile built
    have back := compile_reorder order.symm built
    rw [Function.comp_assoc, Equiv.self_comp_symm, Function.comp_id] at back
    exact ⟨_, back⟩
  · intro compiled built
    obtain ⟨each, rfl⟩ := exists_ofFn_of_compile built
    exact ⟨each, rfl, compile_reorder order built⟩

def lamp : SourceUnit where
  name := "Lamp"
  text := "class Lamp \x7b field int power; " ++
    "method int used(int hours) \x7b return power * hours; \x7d \x7d"

def lampUsed : Subroutine where
  kind := .method
  returnType := .value (.primitive .int)
  name := "used"
  parameters := [⟨.primitive .int, "hours"⟩]
  locals := []
  body := [.return (some [.term (.var "power"), .op .multiply, .term (.var "hours")])]

def lampClass : Class where
  name := "Lamp"
  members := [⟨.field, .primitive .int, ["power"]⟩]
  subroutines := [lampUsed]

def lampCode : List Instruction :=
  [.function "Lamp.used" 0, .push .argument 0, .pop .pointer 0, .push .this 0, .push .argument 1,
    .call "Math.multiply" 2, .return]

theorem parse_lamp : Class.parse lamp.text = .ok lampClass := by decide +kernel

def room : SourceUnit where
  name := "Room"
  text := "class Room \x7b function int night(Lamp lamp) \x7b return lamp.used(8); \x7d \x7d"

def roomClass : Class where
  name := "Room"
  members := []
  subroutines := [
    { kind := .function
      returnType := .value (.primitive .int)
      name := "night"
      parameters := [⟨.object "Lamp", "lamp"⟩]
      locals := []
      body := [.return (some [.term (.call (.mk (some "lamp") "used" [[.term (.int 8)]]))])] }]

def roomCode : List Instruction :=
  [.function "Room.night" 0, .push .argument 0, .push .constant 8, .call "Lamp.used" 2, .return]

theorem parse_room : Class.parse room.text = .ok roomClass := by decide +kernel

theorem compile_room_lamp :
    compile true [room, lamp] = .ok [⟨"Room", roomCode⟩, ⟨"Lamp", lampCode⟩] := by
  have read : classes [room, lamp] = .ok [("Room", roomClass), ("Lamp", lampClass)] :=
    classes_eq_ok_iff.mpr (.cons ⟨rfl, parse_room⟩ (.cons ⟨rfl, parse_lamp⟩ .nil))
  rw [compile, read]
  rfl

/-- The unit that calls may stand before or behind the one that is called. -/
theorem room_lamp_in_either_order :
    compile true (List.ofFn ![room, lamp]) =
        .ok [⟨"Room", roomCode⟩, ⟨"Lamp", lampCode⟩] ∧
      ∃ each : Fin 2 → CompiledUnit,
        [⟨"Room", roomCode⟩, ⟨"Lamp", lampCode⟩] = List.ofFn each ∧
        compile true (List.ofFn (![room, lamp] ∘ Equiv.swap 0 1)) =
          .ok (List.ofFn (each ∘ Equiv.swap 0 1)) :=
  ⟨compile_room_lamp,
    (compile_independent_of_unit_order true ![room, lamp] (Equiv.swap 0 1)).2 _ compile_room_lamp⟩

end ClassLang.Build
