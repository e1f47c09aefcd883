import ClassLang.Proofs.BuildPhases
import ClassLang.Proofs.CallSites

/-!
Whether a call passes what the subroutine takes.

The number of arguments is checked, but nothing checks that a subroutine which works on an object
is called on one. A call without receiver looks up what the subroutine is. A call through a
variable always passes the variable, and a call through the name of a class passes no object.
-/

namespace ClassLang

open Vm

/-- How many values the code of a subroutine takes: its parameters and, if it is a method, the
receiver. -/
def Subroutine.inputs (subroutine : Subroutine) : Nat :=
  subroutine.parameters.length + if subroutine.kind = .method then 1 else 0

namespace CallSite

/-- How many values the call passes, if this is the subroutine that it reaches. -/
def passes (site : CallSite) (subroutine : Subroutine) : Nat :=
  match site.form with
  | .implicit => site.supplied
  | .unqualified => subroutine.inputs
  | .throughVariable => subroutine.parameters.length + 1
  | .throughClass => subroutine.parameters.length

/-- The subroutine is called in the way that it is meant to be called. -/
def Suits (site : CallSite) (subroutine : Subroutine) : Prop :=
  match site.form with
  | .implicit => subroutine.inputs = site.supplied
  | .unqualified => True
  | .throughVariable => subroutine.kind = .method
  | .throughClass => subroutine.kind ≠ .method

variable {known : SignatureTable} {site : CallSite} {subroutine : Subroutine}

theorem passes_eq_inputs_iff (site : CallSite) (subroutine : Subroutine) :
    site.passes subroutine = subroutine.inputs ↔ site.Suits subroutine := by
  obtain ⟨form, callee, supplied⟩ := site
  cases form with
  | implicit => exact eq_comm
  | unqualified => exact iff_true_intro rfl
  | throughVariable =>
      by_cases isMethod : subroutine.kind = .method
      · simp [passes, Suits, Subroutine.inputs, isMethod]
      · simp [passes, Suits, Subroutine.inputs, isMethod]
  | throughClass =>
      by_cases isMethod : subroutine.kind = .method
      · simp [passes, Suits, Subroutine.inputs, isMethod]
      · simp [passes, Suits, Subroutine.inputs, isMethod]

/-- If the subroutine is known by its signature, the number of arguments is right, and so the
form of the call decides how many values are passed. -/
theorem emitted_eq (accepted : site.check known = .ok ())
    (found : known.entries[site.callee]? = some subroutine.signature) :
    site.emitted known = (site.callee, site.passes subroutine) := by
  obtain ⟨form, callee, supplied⟩ := site
  rw [emitted, Prod.mk.injEq]
  refine ⟨rfl, ?_⟩
  by_cases explicit : form = .implicit
  · subst explicit
    exact Nat.zero_add supplied
  · have counted : subroutine.parameters.length = supplied := by
      rw [check, if_neg explicit, found] at accepted
      by_contra differs
      simp [Subroutine.signature, differs] at accepted
    cases form with
    | implicit => contradiction
    | unqualified =>
        have looked : receivers known ⟨.unqualified, callee, supplied⟩ =
            if subroutine.kind = .method then 1 else 0 := by
          simp only [receivers, found, Subroutine.signature]
        rw [looked, passes, Subroutine.inputs, counted, Nat.add_comm]
    | throughVariable => exact (Nat.add_comm 1 supplied).trans (by rw [passes, counted])
    | throughClass => exact (Nat.zero_add supplied).trans (by rw [passes, counted])

end CallSite

namespace Build

/-- One of the units defines the subroutine under this qualified name. -/
def Defines (units : List SourceUnit) (name : String) (subroutine : Subroutine) : Prop :=
  ∃ source ∈ units, ∃ cls, Class.parse source.text = .ok cls ∧ subroutine ∈ cls.subroutines ∧
    name = qualifiedName cls.name subroutine.name

variable {library : Bool} {units : List SourceUnit} {name : String} {subroutine : Subroutine}

theorem Defines.mem_declared (defines : Defines units name subroutine) :
    (name, subroutine.signature) ∈ declared units := by
  obtain ⟨source, membership, cls, parsed, own, rfl⟩ := defines
  apply List.mem_flatMap.mpr
  refine ⟨source, membership, ?_⟩
  rw [unitSignatures_of_parse parsed]
  exact List.mem_map.mpr ⟨subroutine, own, rfl⟩

/-- What the units define is known, whether the library is there or not. -/
theorem Defines.signature_known {base : SignatureTable}
    (defines : Defines units name subroutine) (holds : base.Holds (declared units)) :
    (base.completed library).entries[name]? = some subroutine.signature := by
  rw [SignatureTable.getElem?_completed, (holds.found _ _).mpr defines.mem_declared]
  rfl

/-- The instruction calls what is called at the site. If that is a subroutine of the build, the form
of the call decides how many values are passed, and they are what the subroutine takes exactly if
the form suits it. -/
structure Conveys (units : List SourceUnit) (site : CallSite) (call : String × Nat) : Prop where
  callee : call.1 = site.callee
  count : ∀ subroutine, Defines units site.callee subroutine → call.2 = site.passes subroutine
  agrees : ∀ subroutine, Defines units site.callee subroutine →
    (call.2 = subroutine.inputs ↔ site.Suits subroutine)

theorem conveys_emitted {base : SignatureTable} (holds : base.Holds (declared units))
    {site : CallSite} (accepted : site.check (base.completed library) = .ok ()) :
    Conveys units site (site.emitted (base.completed library)) where
  callee := rfl
  count subroutine defines := by
    rw [CallSite.emitted_eq accepted (defines.signature_known holds)]
  agrees subroutine defines := by
    rw [CallSite.emitted_eq accepted (defines.signature_known holds)]
    exact site.passes_eq_inputs_iff subroutine

/-- The calls in the code of a build are the calls of its classes, in their order, and a call of a
subroutine of the build passes what the subroutine takes exactly if its form suits it. -/
theorem calls_pass_inputs_iff_suited {compiled : List CompiledUnit}
    (built : compile library units = .ok compiled) :
    List.Forall₂ (fun source result => ∃ cls, Class.parse source.text = .ok cls ∧
        List.Forall₂ (Conveys units) cls.callSites (calls result.code))
      units compiled := by
  obtain ⟨base, holds, results⟩ := compile_eq_ok_iff.mp built
  apply results.imp
  rintro source result ⟨cls, parsed, -, generated⟩
  have performs := Class.code_performs generated
  refine ⟨cls, parsed, ?_⟩
  rw [performs.inOrder, List.forall₂_map_right_iff, List.forall₂_same]
  intro site membership
  exact conveys_emitted holds (performs.accepted site membership)

/-- A unit that asks one method twice: on a lamp, and on the class of lamps. -/
def yard : SourceUnit where
  name := "Yard"
  text := "class Yard \x7b function int night(Lamp lamp) " ++
    "\x7b return lamp.used(8) + Lamp.used(8); \x7d \x7d"

def yardClass : Class where
  name := "Yard"
  members := []
  subroutines := [
    { kind := .function
      returnType := .value (.primitive .int)
      name := "night"
      parameters := [⟨.object "Lamp", "lamp"⟩]
      locals := []
      body := [.return (some [
        .term (.call (.mk (some "lamp") "used" [[.term (.int 8)]])), .op .add,
        .term (.call (.mk (some "Lamp") "used" [[.term (.int 8)]]))])] }]

def yardCode : List Instruction :=
  [.function "Yard.night" 0, .push .argument 0, .push .constant 8, .call "Lamp.used" 2,
    .push .constant 8, .call "Lamp.used" 1, .operate .add, .return]

theorem parse_yard : Class.parse yard.text = .ok yardClass := by decide +kernel

theorem compile_yard_lamp :
    compile true [yard, lamp] = .ok [⟨"Yard", yardCode⟩, ⟨"Lamp", lampCode⟩] := by
  have read : classes [yard, lamp] = .ok [("Yard", yardClass), ("Lamp", lampClass)] :=
    classes_eq_ok_iff.mpr (.cons ⟨rfl, parse_yard⟩ (.cons ⟨rfl, parse_lamp⟩ .nil))
  rw [compile, read]
  rfl

theorem yard_lamp_calls :
    compile true [yard, lamp] = .ok [⟨"Yard", yardCode⟩, ⟨"Lamp", lampCode⟩] ∧
      List.Forall₂ (fun (source : SourceUnit) (result : CompiledUnit) =>
          ∃ cls, Class.parse source.text = .ok cls ∧
            List.Forall₂ (Conveys [yard, lamp]) cls.callSites (calls result.code))
        [yard, lamp] [⟨"Yard", yardCode⟩, ⟨"Lamp", lampCode⟩] :=
  ⟨compile_yard_lamp, calls_pass_inputs_iff_suited compile_yard_lamp⟩

/-- Not every call suits the subroutine: one method is given its receiver by the first call in the
yard, and misses it in the second. -/
theorem method_called_without_receiver :
    ¬ ∀ (library : Bool) (units : List SourceUnit) (compiled : List CompiledUnit),
      compile library units = .ok compiled → ∀ result ∈ compiled, ∀ name count,
        .call name count ∈ result.code → ∀ subroutine, Defines units name subroutine →
          count = subroutine.inputs := by
  intro agree
  have defined : Defines [yard, lamp] "Lamp.used" lampUsed :=
    ⟨lamp, by simp, lampClass, parse_lamp, by simp [lampClass], rfl⟩
  have called : Instruction.call "Lamp.used" 1 ∈ yardCode := by decide
  have equal := agree true [yard, lamp] _ compile_yard_lamp ⟨"Yard", yardCode⟩ (by simp) _ _
    called lampUsed defined
  contradiction

end Build

end ClassLang
