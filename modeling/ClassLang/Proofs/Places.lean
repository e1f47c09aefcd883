import ClassLang.Proofs.FirstViolation
import ClassLang.Proofs.Preservation

/-!
Where the variables of a subroutine live. The names of a storage are numbered in the order of
their declarations, so the name at a place is the name at that number. Two names that a
subroutine sees therefore never share a place.
-/

namespace ClassLang

open Vm

/-- The local names of a subroutine, across all its declarations. -/
def Subroutine.localNames (subroutine : Subroutine) : List String :=
  subroutine.locals.flatMap (·.names)

/-- The fields or the statics of a class, across all its declarations. -/
def Class.memberNames (cls : Class) (kind : MemberKind) : List String :=
  (cls.members.filter (·.kind = kind)).flatMap (·.names)

/-! The names of a storage. -/

@[simp] theorem namesIn_nil (storage : Storage) : namesIn [] storage = [] := rfl

theorem namesIn_cons (declaration : Declaration) (rest : List Declaration) (storage : Storage) :
    namesIn (declaration :: rest) storage =
      if declaration.storage = storage then declaration.name :: namesIn rest storage
      else namesIn rest storage := by
  by_cases stored : declaration.storage = storage <;> simp [namesIn, stored]

@[simp] theorem namesIn_append (first second : List Declaration) (storage : Storage) :
    namesIn (first ++ second) storage = namesIn first storage ++ namesIn second storage := by
  simp [namesIn]

section

variable {α : Type}

theorem namesIn_map (items : List α) (name : α → String) (type : α → DataType)
    (declared storage : Storage) :
    namesIn (items.map fun item => ⟨name item, type item, declared⟩) storage =
      if declared = storage then items.map name else [] := by
  by_cases stored : declared = storage <;>
    simp [namesIn, stored, List.filter_map, Function.comp_def]

/-- Declarations of several names each add them to one storage. -/
theorem namesIn_flatMap (decs : List α) (names : α → List String) (type : α → DataType)
    (declared : α → Storage) (storage : Storage) :
    namesIn (decs.flatMap fun dec => (names dec).map fun name => ⟨name, type dec, declared dec⟩)
        storage =
      (decs.filter (declared · = storage)).flatMap names := by
  induction decs with
  | nil => rfl
  | cons dec rest inductionHypothesis =>
      rw [List.flatMap_cons, namesIn_append, namesIn_map, List.map_id', inductionHypothesis]
      by_cases stored : declared dec = storage <;> simp [stored]

end

theorem Subroutine.namesIn_declarations (subroutine : Subroutine) (storage : Storage) :
    namesIn subroutine.declarations storage =
      match storage with
      | .argument => subroutine.parameters.map (·.name)
      | .local => subroutine.localNames
      | .static | .field => [] := by
  rw [Subroutine.declarations, namesIn_append, namesIn_map, namesIn_flatMap]
  cases storage <;> simp [Subroutine.localNames]

theorem Class.namesIn_declarations (cls : Class) (storage : Storage) :
    namesIn cls.declarations storage =
      match storage with
      | .static => cls.memberNames .static
      | .field => cls.memberNames .field
      | .argument | .local => [] := by
  have stored (kind : MemberKind) (storage : Storage) :
      kind.storage = storage ↔
        kind = .static ∧ storage = .static ∨ kind = .field ∧ storage = .field := by
    cases kind <;> cases storage <;> simp [MemberKind.storage]
  rw [Class.declarations, namesIn_flatMap]
  cases storage <;> simp [stored, Class.memberNames]

/-- The index of a name is its number among the names of its storage. -/
theorem getElem?_namesIn_of_locate? {declarations : List Declaration} {name : String}
    {binding : Binding} (located : locate? declarations name = some binding) :
    (namesIn declarations binding.storage)[binding.index]? = some name := by
  obtain ⟨before, declaration, after, rfl, -, rfl, rfl⟩ := locate?_eq_some_iff.mp located
  simp [namesIn_cons, ← length_namesIn]

theorem exists_declaration_of_getElem?_namesIn {declarations : List Declaration}
    {storage : Storage} {index : Nat} {name : String}
    (numbered : (namesIn declarations storage)[index]? = some name) :
    ∃ before declaration after, declarations = before ++ declaration :: after ∧
      declaration.name = name ∧ declaration.storage = storage ∧
      population before storage = index := by
  induction declarations generalizing index with
  | nil => simp at numbered
  | cons first rest inductionHypothesis =>
      rw [namesIn_cons] at numbered
      -- A declaration of the storage takes the first number and moves the others up by one.
      by_cases stored : first.storage = storage
      · rw [if_pos stored] at numbered
        cases index with
        | zero => exact ⟨[], first, rest, rfl, by simpa using numbered, stored, rfl⟩
        | succ index =>
            obtain ⟨before, declaration, after, rfl, named, sameStorage, counted⟩ :=
              inductionHypothesis (by simpa using numbered)
            refine ⟨first :: before, declaration, after, rfl, named, sameStorage, ?_⟩
            simp [population, stored, ← counted]
      · rw [if_neg stored] at numbered
        obtain ⟨before, declaration, after, rfl, named, sameStorage, counted⟩ :=
          inductionHypothesis numbered
        refine ⟨first :: before, declaration, after, rfl, named, sameStorage, ?_⟩
        simp [population, stored, ← counted]

theorem ne_name_of_nodup {before after : List Declaration} {declaration : Declaration}
    (distinct : ((before ++ declaration :: after).map (·.name)).Nodup) :
    ∀ earlier ∈ before, earlier.name ≠ declaration.name := by
  rw [List.map_append, List.map_cons, List.nodup_middle] at distinct
  intro earlier membership same
  exact (List.nodup_cons.mp distinct).1
    (List.mem_append_left _ (List.mem_map.mpr ⟨earlier, membership, same⟩))

theorem locate?_of_getElem?_namesIn {declarations : List Declaration}
    (distinct : (declarations.map (·.name)).Nodup) {storage : Storage} {index : Nat}
    {name : String} (numbered : (namesIn declarations storage)[index]? = some name) :
    ∃ type, locate? declarations name = some ⟨type, storage, index⟩ := by
  obtain ⟨before, declaration, after, rfl, rfl, rfl, rfl⟩ :=
    exists_declaration_of_getElem?_namesIn numbered
  exact ⟨declaration.type, locate?_eq_some_iff.mpr
    ⟨before, declaration, after, rfl, ne_name_of_nodup distinct, rfl, rfl⟩⟩

namespace SymbolTable

/-- A table can only be built from declarations of different names. -/
theorem Records.nodup_of_defineAll {table final : SymbolTable} {declared further : List Declaration}
    (records : table.Records declared) (distinct : (declared.map (·.name)).Nodup)
    (defined : table.defineAll further = (final, .ok ())) :
    ((declared ++ further).map (·.name)).Nodup := by
  induction further generalizing table declared with
  | nil => simpa using distinct
  | cons declaration rest inductionHypothesis =>
      obtain ⟨next, first, remaining⟩ := Update.each_cons_eq_ok_iff.mp defined
      have stillDistinct := nodup_names_append distinct (records.fresh_of_define first)
      simpa using inductionHypothesis (records.define first) stillDistinct remaining

theorem nodup_of_ofClass {cls : Class} {table : SymbolTable} (built : ofClass cls = .ok table) :
    (cls.declarations.map (·.name)).Nodup :=
  (records_empty _).nodup_of_defineAll List.nodup_nil (Update.result_eq_ok_iff.mp built)

theorem nodup_of_ofSubroutine {className : String} {subroutine : Subroutine}
    {table : SymbolTable} (built : ofSubroutine className subroutine = .ok table) :
    (subroutine.declarations.map (·.name)).Nodup :=
  (records_empty _).nodup_of_defineAll List.nodup_nil (Update.result_eq_ok_iff.mp built)

end SymbolTable

/-! Places in a frame. -/

namespace Frame

variable {frame : Frame} {name : String}

theorem resolve_eq_ok_iff {place : Segment × Nat} :
    frame.resolve name = .ok place ↔
      ∃ binding, frame.scope.get? name = some binding ∧ frame.location binding = place := by
  unfold Frame.resolve
  cases frame.scope.get? name <;> simp

/-- A place tells the storage and the index. -/
theorem eq_of_location_eq {first second : Binding}
    (same : frame.location first = frame.location second) :
    first.storage = second.storage ∧ first.index = second.index := by
  simp only [Frame.location, Prod.mk.injEq] at same
  obtain ⟨sameSegment, sameIndex⟩ := same
  have sameStorage : first.storage = second.storage := by
    cases stored : first.storage <;> cases otherStored : second.storage <;>
      simp [stored, otherStored, Segment.ofStorage] at sameSegment ⊢
  rw [sameStorage] at sameIndex
  exact ⟨sameStorage, by omega⟩

/-- A call on a variable pushes the place of the variable. -/
theorem target_of_resolve {segment : Segment} {index : Nat}
    (resolved : frame.resolve name = .ok (segment, index)) {called className : String}
    {code : List Instruction} (targeted : frame.target (some name) called = .ok (className, code)) :
    code = [.push segment index] := by
  obtain ⟨binding, bound, located⟩ := resolve_eq_ok_iff.mp resolved
  simp only [Frame.target, bound] at targeted
  split at targeted
  · contradiction
  · rw [located] at targeted
    cases targeted
    rfl

end Frame

section

variable {cls : Class} {subroutine : Subroutine} {members own : SymbolTable}
  {signatures : SignatureTable} {name : String}

/-- The name at a place is the one with its number among the names of the subroutine and of its
class. The two have no storage in common. -/
theorem Subroutine.numbered_of_resolve (recordsMembers : members.Records cls.declarations)
    (recordsOwn : own.Records subroutine.declarations) {place : Segment × Nat}
    (resolved : (subroutine.frame cls.name signatures members own).resolve name = .ok place) :
    ∃ binding : Binding,
      (namesIn (subroutine.declarations ++ cls.declarations) binding.storage)[binding.index]? =
        some name ∧
      (subroutine.frame cls.name signatures members own).location binding = place := by
  obtain ⟨binding, bound, located⟩ := Frame.resolve_eq_ok_iff.mp resolved
  refine ⟨binding, ?_, located⟩
  simp only [Subroutine.frame, Scope.get?, recordsOwn.get?, recordsMembers.get?,
    Option.orElse_eq_orElse, Option.orElse_eq_or, Option.or_eq_some_iff] at bound
  rw [namesIn_append]
  rcases bound with ownBound | ⟨-, memberBound⟩
  · have numbered := getElem?_namesIn_of_locate? ownBound
    rw [List.getElem?_append_left (List.getElem?_eq_some_iff.mp numbered).1]
    exact numbered
  · have numbered := getElem?_namesIn_of_locate? memberBound
    obtain ⟨before, declaration, after, split, -, -, rfl⟩ := locate?_eq_some_iff.mp memberBound
    have membership : declaration ∈ cls.declarations := by simp [split]
    have unused : namesIn subroutine.declarations declaration.storage = [] := by
      rw [subroutine.namesIn_declarations]
      rcases cls.storage_of_mem_declarations membership with stored | stored <;> simp [stored]
    simpa [unused] using numbered

variable {storage : Storage} {index : Nat}

theorem Subroutine.resolve_own (signatures : SignatureTable)
    (ownBuilt : SymbolTable.ofSubroutine cls.name subroutine = .ok own)
    (numbered : (namesIn subroutine.declarations storage)[index]? = some name) :
    (subroutine.frame cls.name signatures members own).resolve name =
      .ok (.ofStorage storage,
        index + if storage = .argument ∧ subroutine.kind = .method then 1 else 0) := by
  obtain ⟨type, located⟩ :=
    locate?_of_getElem?_namesIn (SymbolTable.nodup_of_ofSubroutine ownBuilt) numbered
  refine Frame.resolve_eq_ok_iff.mpr ⟨⟨type, storage, index⟩, ?_, rfl⟩
  simp [Subroutine.frame, Scope.get?, (SymbolTable.records_ofSubroutine ownBuilt).get?, located]

/-- A class variable that the subroutine does not hide. -/
theorem Subroutine.resolve_member (signatures : SignatureTable)
    (membersBuilt : SymbolTable.ofClass cls = .ok members)
    (ownBuilt : SymbolTable.ofSubroutine cls.name subroutine = .ok own)
    (visible : name ∉ subroutine.declarations.map (·.name))
    (numbered : (namesIn cls.declarations storage)[index]? = some name) :
    (subroutine.frame cls.name signatures members own).resolve name =
      .ok (.ofStorage storage,
        index + if storage = .argument ∧ subroutine.kind = .method then 1 else 0) := by
  have unhidden : locate? subroutine.declarations name = none :=
    locate?_eq_none_iff.mpr fun declaration membership named =>
      visible (List.mem_map.mpr ⟨declaration, membership, named⟩)
  obtain ⟨type, located⟩ :=
    locate?_of_getElem?_namesIn (SymbolTable.nodup_of_ofClass membersBuilt) numbered
  refine Frame.resolve_eq_ok_iff.mpr ⟨⟨type, storage, index⟩, ?_, rfl⟩
  simp [Subroutine.frame, Scope.get?, (SymbolTable.records_ofSubroutine ownBuilt).get?,
    (SymbolTable.records_ofClass membersBuilt).get?, unhidden, located]

end

/-- Where a frame puts the variables that a subroutine sees. -/
structure Frame.Arranges (frame : Frame) (cls : Class) (subroutine : Subroutine) : Prop where
  /-- No two names share a place. -/
  apart : ∀ {first second : String} {place : Segment × Nat},
    frame.resolve first = .ok place → frame.resolve second = .ok place → first = second
  /-- A call on a variable reads it from its place, too. -/
  receiver : ∀ {name called className : String} {segment : Segment} {index : Nat}
    {code : List Instruction}, frame.resolve name = .ok (segment, index) →
    frame.target (some name) called = .ok (className, code) → code = [.push segment index]
  parameter : ∀ {index : Nat} {parameter : Parameter},
    subroutine.parameters[index]? = some parameter →
    frame.resolve parameter.name =
      .ok (.argument, if subroutine.kind = .method then index + 1 else index)
  localName : ∀ {index : Nat} {name : String}, subroutine.localNames[index]? = some name →
    frame.resolve name = .ok (.local, index)
  field : ∀ {index : Nat} {name : String}, (cls.memberNames .field)[index]? = some name →
    name ∉ subroutine.declarations.map (·.name) → frame.resolve name = .ok (.this, index)
  static : ∀ {index : Nat} {name : String}, (cls.memberNames .static)[index]? = some name →
    name ∉ subroutine.declarations.map (·.name) → frame.resolve name = .ok (.static, index)

/-- The code of a subroutine has every variable in a place of its own: parameters, local names,
fields and statics each in the order of their declarations. -/
theorem Subroutine.frame_arranges_variables {cls : Class} {subroutine : Subroutine}
    {members own : SymbolTable} (signatures : SignatureTable)
    (membersBuilt : SymbolTable.ofClass cls = .ok members)
    (ownBuilt : SymbolTable.ofSubroutine cls.name subroutine = .ok own) :
    (subroutine.frame cls.name signatures members own).Arranges cls subroutine where
  apart := by
    intro first second place firstResolved secondResolved
    have recordsMembers := SymbolTable.records_ofClass membersBuilt
    have recordsOwn := SymbolTable.records_ofSubroutine ownBuilt
    obtain ⟨firstBinding, firstNumbered, located⟩ :=
      Subroutine.numbered_of_resolve recordsMembers recordsOwn firstResolved
    obtain ⟨secondBinding, secondNumbered, sameLocation⟩ :=
      Subroutine.numbered_of_resolve recordsMembers recordsOwn secondResolved
    obtain ⟨sameStorage, sameIndex⟩ :=
      Frame.eq_of_location_eq (located.trans sameLocation.symm)
    rw [sameStorage, sameIndex, secondNumbered] at firstNumbered
    exact (Option.some.inj firstNumbered).symm
  receiver := fun resolved targeted => Frame.target_of_resolve resolved targeted
  parameter := by
    intro index parameter placed
    have numbered : (namesIn subroutine.declarations .argument)[index]? = some parameter.name := by
      simp [subroutine.namesIn_declarations, placed]
    rw [Subroutine.resolve_own signatures ownBuilt numbered]
    by_cases method : subroutine.kind = .method <;> simp [method, Segment.ofStorage]
  localName := by
    intro index name placed
    have numbered : (namesIn subroutine.declarations .local)[index]? = some name := by
      rw [subroutine.namesIn_declarations]
      exact placed
    simpa [Segment.ofStorage] using Subroutine.resolve_own signatures ownBuilt numbered
  field := by
    intro index name placed visible
    have numbered : (namesIn cls.declarations .field)[index]? = some name := by
      rw [cls.namesIn_declarations]
      exact placed
    simpa [Segment.ofStorage] using
      Subroutine.resolve_member signatures membersBuilt ownBuilt visible numbered
  static := by
    intro index name placed visible
    have numbered : (namesIn cls.declarations .static)[index]? = some name := by
      rw [cls.namesIn_declarations]
      exact placed
    simpa [Segment.ofStorage] using
      Subroutine.resolve_member signatures membersBuilt ownBuilt visible numbered

/-- A method that hides a static and a field of its class. -/
def roverFollow : Subroutine where
  kind := .method
  returnType := .void
  name := "follow"
  parameters := [⟨.object "Rover", "other"⟩, ⟨.primitive .int, "x"⟩]
  locals := [⟨.primitive .int, ["made", "step"]⟩, ⟨.primitive .boolean, ["near"]⟩]
  body := [.return none]

def rover : Class where
  name := "Rover"
  members := [⟨.static, .primitive .int, ["made"]⟩, ⟨.field, .primitive .int, ["x", "y"]⟩,
    ⟨.static, .primitive .int, ["lost"]⟩, ⟨.field, .object "Rover", ["leader"]⟩]
  subroutines := [roverFollow]

theorem roverFollow_arranged :
    ∃ members own, SymbolTable.ofClass rover = .ok members ∧
      SymbolTable.ofSubroutine rover.name roverFollow = .ok own ∧
      (roverFollow.frame rover.name {} members own).Arranges rover roverFollow ∧
      (roverFollow.frame rover.name {} members own).resolve "x" = .ok (.argument, 2) ∧
      (roverFollow.frame rover.name {} members own).resolve "near" = .ok (.local, 2) ∧
      (roverFollow.frame rover.name {} members own).resolve "leader" = .ok (.this, 2) ∧
      (roverFollow.frame rover.name {} members own).resolve "lost" = .ok (.static, 1) := by
  obtain ⟨members, membersBuilt⟩ : ∃ members, SymbolTable.ofClass rover = .ok members :=
    ⟨_, rfl⟩
  obtain ⟨own, ownBuilt⟩ : ∃ own, SymbolTable.ofSubroutine rover.name roverFollow = .ok own :=
    ⟨_, rfl⟩
  have arranged := Subroutine.frame_arranges_variables {} membersBuilt ownBuilt
  have secondParameter : roverFollow.parameters[1]? = some ⟨.primitive .int, "x"⟩ := rfl
  exact ⟨members, own, membersBuilt, ownBuilt, arranged, arranged.parameter secondParameter,
    arranged.localName rfl, arranged.field rfl (by decide), arranged.static rfl (by decide)⟩

end ClassLang
