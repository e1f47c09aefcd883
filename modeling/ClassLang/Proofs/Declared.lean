import ClassLang.Scope.Table

/-!
What a list of declarations says about a name, without a table: the first declaration of the
name counts, and its place is the number of declarations of the same storage before it. The
table that is built from the declarations says the same.
-/

namespace ClassLang

def locate? (declarations : List Declaration) (name : String) : Option Binding :=
  (declarations.find? (·.name = name)).map fun declaration =>
    ⟨declaration.type, declaration.storage,
      (declarations.takeWhile (·.name ≠ name)).countP (·.storage = declaration.storage)⟩

/-- How many of the declarations belong to a storage. -/
def population (declarations : List Declaration) (storage : Storage) : Nat :=
  declarations.countP (·.storage = storage)

@[simp] theorem population_append (before after : List Declaration) (storage : Storage) :
    population (before ++ after) storage =
      population before storage + population after storage := by
  simp [population]

@[simp] theorem population_singleton (declaration : Declaration) (storage : Storage) :
    population [declaration] storage = if declaration.storage = storage then 1 else 0 := by
  simp [population, List.countP_singleton]

theorem locate?_eq_none_iff {declarations : List Declaration} {name : String} :
    locate? declarations name = none ↔ ∀ declaration ∈ declarations, declaration.name ≠ name := by
  simp [locate?]

/-- The first declaration of a name settles it. -/
theorem locate?_eq_some_iff {declarations : List Declaration} {name : String}
    {binding : Binding} :
    locate? declarations name = some binding ↔
      ∃ before declaration after, declarations = before ++ declaration :: after ∧
        (∀ earlier ∈ before, earlier.name ≠ name) ∧ declaration.name = name ∧
        binding = ⟨declaration.type, declaration.storage,
          population before declaration.storage⟩ := by
  have upTo : ∀ (before after : List Declaration) (declaration : Declaration),
      (∀ earlier ∈ before, earlier.name ≠ name) → declaration.name = name →
      (before ++ declaration :: after).takeWhile (·.name ≠ name) = before := by
    intro before after declaration others named
    rw [List.takeWhile_append_of_pos (by simpa using others)]
    simp [named]
  constructor
  · intro located
    obtain ⟨declaration, found, rfl⟩ := Option.map_eq_some_iff.mp located
    obtain ⟨named, before, after, rfl, others⟩ := List.find?_eq_some_iff_append.mp found
    simp only [decide_eq_true_eq, Bool.not_eq_true', decide_eq_false_iff_not] at named others
    exact ⟨before, declaration, after, rfl, others, named, by
      rw [upTo before after declaration others named]; rfl⟩
  · rintro ⟨before, declaration, after, rfl, others, named, rfl⟩
    have found : (before ++ declaration :: after).find? (·.name = name) = some declaration :=
      List.find?_eq_some_iff_append.mpr ⟨by simpa using named, before, after, rfl, by
        simpa using others⟩
    simp only [locate?, found, Option.map_some]
    rw [upTo before after declaration others named]
    rfl

theorem locate?_append {declarations : List Declaration} {name : String} {binding : Binding}
    (located : locate? declarations name = some binding) (further : List Declaration) :
    locate? (declarations ++ further) name = some binding := by
  obtain ⟨before, declaration, after, rfl, others, named, rfl⟩ := locate?_eq_some_iff.mp located
  exact locate?_eq_some_iff.mpr
    ⟨before, declaration, after ++ further, by simp, others, named, rfl⟩

theorem locate?_append_singleton {declarations : List Declaration} {declaration : Declaration}
    (fresh : locate? declarations declaration.name = none) (name : String) :
    locate? (declarations ++ [declaration]) name =
      if declaration.name = name then
        some ⟨declaration.type, declaration.storage, population declarations declaration.storage⟩
      else
        locate? declarations name := by
  split
  next named =>
    subst named
    exact locate?_eq_some_iff.mpr
      ⟨declarations, declaration, [], rfl, locate?_eq_none_iff.mp fresh, rfl, rfl⟩
  next other =>
    cases located : locate? declarations name with
    | some binding => exact locate?_append located [declaration]
    | none =>
        have absent := locate?_eq_none_iff.mp located
        apply locate?_eq_none_iff.mpr
        intro found membership
        rcases List.mem_append.mp membership with inside | last
        · exact absent found inside
        · rw [List.mem_singleton.mp last]
          exact other

/-- The index of a name lies below the number of names of its storage. -/
theorem index_lt_of_locate? {declarations : List Declaration} {name : String} {binding : Binding}
    (located : locate? declarations name = some binding) :
    binding.index < population declarations binding.storage := by
  obtain ⟨before, declaration, after, rfl, -, -, rfl⟩ := locate?_eq_some_iff.mp located
  have ownCount : population [declaration] declaration.storage = 1 := by simp
  have split : before ++ declaration :: after = before ++ [declaration] ++ after := by simp
  change population before declaration.storage < population _ declaration.storage
  rw [split, population_append, population_append, ownCount]
  omega

namespace SymbolTable

/-- The table binds exactly the declared names, each to the place of its declaration. -/
structure Records (table : SymbolTable) (declarations : List Declaration) : Prop where
  get? : ∀ name, table.get? name = locate? declarations name
  count : ∀ storage, table.count storage = population declarations storage

theorem records_empty (scope : String) : Records { scope := scope } [] where
  get? name := by simp [SymbolTable.get?, locate?]
  count storage := by cases storage <;> rfl

theorem Records.define {table next : SymbolTable} {declarations : List Declaration}
    {declaration : Declaration} (records : table.Records declarations)
    (defined : table.define declaration = (next, .ok ())) :
    next.Records (declarations ++ [declaration]) where
  get? name := by
    have fresh : locate? declarations declaration.name = none := by
      rw [← records.get?]
      unfold SymbolTable.define at defined
      split at defined
      next => cases defined
      next absent => simpa [SymbolTable.get?] using absent
    rw [get?_define defined, locate?_append_singleton fresh, records.get?, records.count]
  count storage := by
    rw [count_define defined, population_append, population_singleton, records.count]
    split <;> rfl

theorem Records.defineAll {table final : SymbolTable} {declared further : List Declaration}
    (records : table.Records declared) (defined : table.defineAll further = (final, .ok ())) :
    final.Records (declared ++ further) := by
  induction further generalizing table declared with
  | nil =>
      cases defined
      simpa using records
  | cons declaration rest inductionHypothesis =>
      obtain ⟨next, first, remaining⟩ := Update.each_cons_eq_ok_iff.mp defined
      simpa using inductionHypothesis (records.define first) remaining

theorem records_ofClass {cls : Class} {table : SymbolTable} (built : ofClass cls = .ok table) :
    table.Records cls.declarations := by
  simpa using (records_empty _).defineAll (Update.result_eq_ok_iff.mp built)

theorem records_ofSubroutine {className : String} {subroutine : Subroutine} {table : SymbolTable}
    (built : ofSubroutine className subroutine = .ok table) :
    table.Records subroutine.declarations := by
  simpa using (records_empty _).defineAll (Update.result_eq_ok_iff.mp built)

end SymbolTable

/-- What a name stands for inside a subroutine of a class. -/
def Class.locate? (cls : Class) (subroutine : Subroutine) (name : String) : Option Binding :=
  ClassLang.locate? subroutine.declarations name <|> ClassLang.locate? cls.declarations name

/-- The variables of a class never live in the places of a single call. -/
theorem Class.storage_of_mem_declarations {cls : Class} {declaration : Declaration}
    (membership : declaration ∈ cls.declarations) :
    declaration.storage = .static ∨ declaration.storage = .field := by
  simp only [Class.declarations, List.mem_flatMap, List.mem_map] at membership
  obtain ⟨dec, -, name, -, rfl⟩ := membership
  cases dec.kind <;> simp [MemberKind.storage]

theorem Class.population_declarations (cls : Class) {storage : Storage}
    (ownStorage : storage = .argument ∨ storage = .local) :
    population cls.declarations storage = 0 := by
  apply List.countP_eq_zero.mpr
  intro declaration membership
  rcases cls.storage_of_mem_declarations membership with stored | stored <;>
    rcases ownStorage with rfl | rfl <;> simp [stored]

end ClassLang
