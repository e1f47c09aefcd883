import ClassLang.Proofs.Places

/-!
A symbol table over a whole run of definitions.

Any names may be tried, in any order. A table takes a name that is new to it as long as the
storage has room, and is not changed by a name that it refuses. So at every point of the run the
names of a storage are numbered from zero in the order in which the table took them.
-/

namespace ClassLang.SymbolTable

/-- The table after attempts at several names. An attempt that fails does not end the run. -/
def attemptAll (table : SymbolTable) (attempts : List Declaration) : SymbolTable :=
  attempts.foldl (fun table declaration => (table.define declaration).1) table

/-- Those of the attempts that succeed, in their order. -/
def successes (table : SymbolTable) : List Declaration → List Declaration
  | [] => []
  | declaration :: rest =>
      match table.define declaration with
      | (next, .ok ()) => declaration :: next.successes rest
      | (next, .error _) => next.successes rest

/-- The table knows exactly what was defined in it, and every definition found the name new and
room for it. -/
structure Tracks (table : SymbolTable) (scope : String) (defined : List Declaration) : Prop where
  scope : table.scope = scope
  records : table.Records defined
  distinct : (defined.map (·.name)).Nodup
  bounded : ∀ storage, table.count storage ≤ capacity

variable {table : SymbolTable} {scope : String} {defined : List Declaration}

theorem tracks_empty (scope : String) : Tracks { scope := scope } scope [] where
  scope := rfl
  records := records_empty scope
  distinct := List.nodup_nil
  bounded storage := by
    rw [(records_empty scope).count]
    exact Nat.zero_le _

theorem Tracks.define {next : SymbolTable} {declaration : Declaration}
    (tracks : table.Tracks scope defined)
    (room : table.count declaration.storage < capacity)
    (taken : table.define declaration = (next, .ok ())) :
    next.Tracks scope (defined ++ [declaration]) where
  scope := (scope_define taken).trans tracks.scope
  records := tracks.records.define taken
  distinct := nodup_names_append tracks.distinct (tracks.records.fresh_of_define taken)
  bounded storage := by
    rw [count_define taken]
    split
    next same =>
      subst same
      exact room
    next => exact tracks.bounded storage

/-- What becomes of one attempt: the name is taken already, or its storage is full, or the table
takes it. -/
theorem Tracks.define_cases (tracks : table.Tracks scope defined) (declaration : Declaration) :
    (declaration.name ∈ defined.map (·.name) ∧
      table.define declaration =
        (table, .error (.reported (.duplicate declaration.name scope)))) ∨
    (declaration.name ∉ defined.map (·.name) ∧ table.count declaration.storage = capacity ∧
      table.define declaration = (table, .error .overflow)) ∨
    (declaration.name ∉ defined.map (·.name) ∧ table.count declaration.storage < capacity ∧
      ∃ next, table.define declaration = (next, .ok ()) ∧
        next.Tracks scope (defined ++ [declaration])) := by
  rw [← tracks.records.mem_iff, ← tracks.scope]
  by_cases bound : declaration.name ∈ table.bindings
  · exact .inl ⟨bound, by simp [SymbolTable.define, bound]⟩
  · by_cases room : table.count declaration.storage < capacity
    · obtain ⟨next, taken⟩ : ∃ next, table.define declaration = (next, .ok ()) := by
        simp [SymbolTable.define, bound, room]
      refine .inr (.inr ⟨bound, room, next, taken, ?_⟩)
      rw [tracks.scope]
      exact tracks.define room taken
    · have full := Nat.le_antisymm (tracks.bounded declaration.storage) (Nat.le_of_not_lt room)
      exact .inr (.inl ⟨bound, full, by simp [SymbolTable.define, bound, room]⟩)

/-- The successful attempts are what the table knows in the end. -/
theorem Tracks.attemptAll (tracks : table.Tracks scope defined) (attempts : List Declaration) :
    (table.attemptAll attempts).Tracks scope (defined ++ table.successes attempts) := by
  induction attempts generalizing table defined with
  | nil =>
      rw [successes, List.append_nil]
      exact tracks
  | cons declaration rest inductionHypothesis =>
      rw [SymbolTable.attemptAll, List.foldl_cons, successes]
      rcases tracks.define_cases declaration with ⟨-, refused⟩ | ⟨-, -, refused⟩ |
        ⟨-, -, next, taken, nextTracks⟩
      · rw [refused]
        exact inductionHypothesis tracks
      · rw [refused]
        exact inductionHypothesis tracks
      · rw [taken, List.append_cons]
        exact inductionHypothesis nextTracks

/-- The table has numbered these definitions. -/
structure Numbers (table : SymbolTable) (defined : List Declaration) : Prop where
  /-- No name is defined twice, whatever the storage. -/
  distinct : (defined.map (·.name)).Nodup
  count : ∀ storage, table.count storage = (namesIn defined storage).length
  /-- The names of a storage have the numbers below their count, in the order of their
  definitions. -/
  numbered : ∀ storage index name,
    (∃ type, table.get? name = some ⟨type, storage, index⟩) ↔
      (namesIn defined storage)[index]? = some name
  /-- A name stands for what its definition said, with the number of definitions of the same
  storage before it. -/
  found : ∀ name binding, table.get? name = some binding ↔
    ∃ before declaration after, defined = before ++ declaration :: after ∧
      declaration.name = name ∧
      binding = ⟨declaration.type, declaration.storage,
        (namesIn before declaration.storage).length⟩

theorem Tracks.numbers (tracks : table.Tracks scope defined) : table.Numbers defined where
  distinct := tracks.distinct
  count storage := by rw [tracks.records.count, length_namesIn]
  numbered storage index name := by
    simp only [tracks.records.get?]
    constructor
    · rintro ⟨type, located⟩
      exact getElem?_namesIn_of_locate? located
    · exact locate?_of_getElem?_namesIn tracks.distinct
  found name binding := by
    rw [tracks.records.get?, locate?_eq_some_iff]
    simp only [length_namesIn]
    constructor
    · rintro ⟨before, declaration, after, split, -, named, same⟩
      exact ⟨before, declaration, after, split, named, same⟩
    · rintro ⟨before, declaration, after, rfl, rfl, same⟩
      exact ⟨before, declaration, after, rfl, ne_name_of_nodup tracks.distinct, rfl, same⟩

/-- How the table answers an attempt, when these are its definitions: a name that it has is
refused, a new name in a full storage brings everything to a halt, and any other new name is taken.
Unless it is taken, nothing changes. -/
structure Answers (table : SymbolTable) (scope : String) (defined : List Declaration)
    (declaration : Declaration) : Prop where
  repeated : table.define declaration =
      (table, .error (.reported (.duplicate declaration.name scope))) ↔
    declaration.name ∈ defined.map (·.name)
  full : table.define declaration = (table, .error .overflow) ↔
    declaration.name ∉ defined.map (·.name) ∧ table.count declaration.storage = 65535
  taken : (∃ next, table.define declaration = (next, .ok ())) ↔
    declaration.name ∉ defined.map (·.name) ∧ table.count declaration.storage < 65535

theorem Tracks.answers (tracks : table.Tracks scope defined) (declaration : Declaration) :
    table.Answers scope defined declaration := by
  rcases tracks.define_cases declaration with ⟨known, refused⟩ | ⟨fresh, full, refused⟩ |
    ⟨fresh, room, next, taken, -⟩
  · constructor <;> simp [refused, known]
  · have full : table.count declaration.storage = 65535 := full
    constructor <;> simp [refused, fresh, full]
  · have room : table.count declaration.storage < 65535 := room
    constructor <;> simp [taken, fresh, room, room.ne]

/-- After any attempts at definitions, the table has numbered the successful ones, and it answers
the next attempt accordingly. -/
theorem attempts_number_definitions (scope : String) (attempts : List Declaration)
    (declaration : Declaration) :
    (attemptAll { scope := scope } attempts).Numbers (successes { scope := scope } attempts) ∧
      (attemptAll { scope := scope } attempts).Answers scope
        (successes { scope := scope } attempts) declaration := by
  have tracks := (tracks_empty scope).attemptAll attempts
  rw [List.nil_append] at tracks
  exact ⟨tracks.numbers, tracks.answers declaration⟩

/-- The refused attempt leaves no gap in the numbers. -/
example :
    (attemptAll { scope := "here" } [⟨"x", .primitive .int, .field⟩,
      ⟨"x", .primitive .char, .static⟩, ⟨"y", .primitive .int, .field⟩]).get? "y" =
        some ⟨.primitive .int, .field, 1⟩ := rfl

end ClassLang.SymbolTable
