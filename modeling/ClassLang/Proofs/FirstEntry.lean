import ClassLang.Proofs.Registration

/-!
A signature table over a whole run of operations.

Entries come one by one, as defaults, class by class or with the library, in any order. The first
entry under a name stays whatever comes later. A second one is refused where it is not a default,
and a class is then left off at the subroutine that is to blame.
-/

namespace ClassLang.SignatureTable

/-- What can be done to a table. -/
inductive Operation where
  | insert (name : String) (signature : Signature)
  | insertDefault (name : String) (signature : Signature)
  | register (cls : Class)
  | addLibrary

/-- The table after an operation, and whether the operation succeeds. -/
def perform (table : SignatureTable) : Operation → Update SignatureTable CompileError
  | .insert name signature => table.insert name signature
  | .insertDefault name signature => (table.insertDefault name signature, .ok ())
  | .register cls => table.register cls
  | .addLibrary => (table.addLibrary, .ok ())

/-- The table after several operations. One that fails does not end the run. -/
def performAll (table : SignatureTable) (operations : List Operation) : SignatureTable :=
  operations.foldl (fun table operation => (table.perform operation).1) table

/-! What the operations supply, without a table. -/

/-- The entries before the first whose name is known, or is the name of one before it. -/
def upToRepeated (known : List (String × Signature)) :
    List (String × Signature) → List (String × Signature)
  | [] => []
  | entry :: rest =>
      if entry.1 ∈ known.map Prod.fst then [] else entry :: upToRepeated (known ++ [entry]) rest

/-- The entries that an operation comes to, when these are known. A class that repeats a name does
not come to what stands behind the repetition. -/
def Operation.supplies (known : List (String × Signature)) :
    Operation → List (String × Signature)
  | .insert name signature => [(name, signature)]
  | .insertDefault name signature => [(name, signature)]
  | .register cls => upToRepeated known cls.signatures
  | .addLibrary => Library.signatures

/-- What is known, and behind it all that the operations supply, in order. -/
def supplied (known : List (String × Signature)) : List Operation → List (String × Signature)
  | [] => known
  | operation :: rest => supplied (known ++ operation.supplies known) rest

theorem prefix_supplied (known : List (String × Signature)) (operations : List Operation) :
    known <+: supplied known operations := by
  induction operations generalizing known with
  | nil => exact List.prefix_rfl
  | cons operation rest inductionHypothesis =>
      exact (List.prefix_append known _).trans (inductionHypothesis _)

variable {table : SignatureTable} {known : List (String × Signature)}

/-- An entry that is refused or passed over adds nothing to what is known. -/
theorem extends_of_mem {name : String} (taken : name ∈ table.entries) (signature : Signature) :
    table.Extends table [(name, signature)] := by
  intro found
  rw [List.lookup_cons]
  by_cases same : found = name
  · subst same
    obtain ⟨old, present⟩ := Option.isSome_iff_exists.mp
      (Std.ExtTreeMap.isSome_getElem?_iff_mem.mpr taken)
    rw [present, Option.some_or]
  · have other : (found == name) = false := by simpa using same
    simp [other]

theorem Extends.insertAll (described : table.Extends {} known)
    (entries : List (String × Signature)) :
    (table.insertAll entries).1.Extends table (upToRepeated known entries) := by
  induction entries generalizing table known with
  | nil => exact extends_nil table
  | cons entry rest inductionHypothesis =>
      obtain ⟨name, signature⟩ := entry
      have taken_iff : name ∈ table.entries ↔ name ∈ known.map Prod.fst := by
        rw [described.mem_iff]
        simp
      rw [SignatureTable.insertAll, upToRepeated]
      by_cases taken : name ∈ table.entries
      · rw [Update.each_of_error (insert_of_mem taken signature), if_pos (taken_iff.mp taken)]
        exact extends_nil table
      · obtain ⟨grown, inserted⟩ := exists_insert_of_not_mem taken signature
        have extended := extends_insert inserted
        rw [Update.each_of_ok inserted, if_neg (mt taken_iff.mpr taken)]
        exact extended.append (inductionHypothesis (described.append extended))

/-- An operation leaves what there is and adds what it supplies under new names. -/
theorem Extends.perform (described : table.Extends {} known) (operation : Operation) :
    (table.perform operation).1.Extends table (operation.supplies known) := by
  cases operation with
  | insert name signature =>
      rw [SignatureTable.perform]
      by_cases taken : name ∈ table.entries
      · rw [insert_of_mem taken]
        exact extends_of_mem taken signature
      · obtain ⟨next, inserted⟩ := exists_insert_of_not_mem taken signature
        rw [inserted]
        exact extends_insert inserted
  | insertDefault name signature => exact extends_insertDefaults table [(name, signature)]
  | register cls => exact described.insertAll cls.signatures
  | addLibrary => exact extends_insertDefaults table Library.signatures

/-- Whatever the operations, the table has the first entry that they supply under each name. -/
theorem Extends.performAll (described : table.Extends {} known) (operations : List Operation) :
    (table.performAll operations).Extends {} (supplied known operations) := by
  induction operations generalizing table known with
  | nil => exact described
  | cons operation rest inductionHypothesis =>
      exact inductionHypothesis (described.append (described.perform operation))

theorem Extends.getElem?_eq (described : table.Extends {} known) (name : String) :
    table.entries[name]? = known.lookup name := by
  rw [described]
  simp

theorem Extends.kept (described : table.Extends {} known) (operations : List Operation)
    {name : String} {signature : Signature} (present : table.entries[name]? = some signature) :
    (table.performAll operations).entries[name]? = some signature := by
  obtain ⟨further, whole⟩ := prefix_supplied known operations
  rw [described.getElem?_eq] at present
  rw [(described.performAll operations).getElem?_eq, ← whole, List.lookup_append, present,
    Option.some_or]

/-- Either all subroutines of the class are new and the table gets them, or it gets those before
the first whose name it has by then, and the others are left off. -/
def Registers (table : SignatureTable) (cls : Class) : Prop :=
  (table.Admits cls.signatures ∧
    ∃ next, table.perform (.register cls) = (next, .ok ()) ∧ next.Extends table cls.signatures) ∨
  ∃ before subroutine after, cls.subroutines = before ++ subroutine :: after ∧
    table.Admits { cls with subroutines := before }.signatures ∧
    (qualifiedName cls.name subroutine.name ∈ table.entries ∨
      ∃ earlier ∈ before, earlier.name = subroutine.name) ∧
    ∃ next, table.perform (.register cls) =
        (next, .error (.duplicate (qualifiedName cls.name subroutine.name) "the build")) ∧
      next.Extends table { cls with subroutines := before }.signatures

theorem qualifiedName_inj_right {className first second : String} :
    qualifiedName className first = qualifiedName className second ↔ first = second := by
  simp [qualifiedName, ← String.toList_inj]

/-- A pair of names without a dot shares its qualified name with no other pair. -/
theorem eq_of_qualifiedName_eq {className subroutine otherClass other : String}
    (plainClass : '.' ∉ className.toList) (plain : '.' ∉ subroutine.toList)
    (same : qualifiedName className subroutine = qualifiedName otherClass other) :
    className = otherClass ∧ subroutine = other := by
  have sameChars : className.toList ++ '.' :: subroutine.toList =
      otherClass.toList ++ '.' :: other.toList := by
    simpa [qualifiedName, ← String.toList_inj] using same
  obtain ⟨sameClass, -, sameName⟩ :=
    (List.append_cons_inj_of_notMem plainClass plain).mp sameChars
  exact ⟨String.toList_inj.mp sameClass, String.toList_inj.mp sameName⟩

theorem registers (table : SignatureTable) (cls : Class) : table.Registers cls := by
  rcases table.insertAll_cases cls.signatures with whole |
    ⟨before, entry, after, split, admits, clash, next, stopped, extended⟩
  · exact .inl whole
  · obtain ⟨earlier, others, listed, rfl, behind⟩ := List.map_eq_append_iff.mp split
    obtain ⟨subroutine, rest, rfl, rfl, -⟩ := List.map_eq_cons_iff.mp behind
    refine .inr ⟨earlier, subroutine, rest, listed, admits, ?_, next, stopped, extended⟩
    refine clash.imp_right fun repeated => ?_
    simpa [qualifiedName_inj_right] using repeated

/-- What a table that these operations supplied says, and how it takes the next operation. -/
structure FirstWins (table : SignatureTable) (known : List (String × Signature)) : Prop where
  /-- Of the entries under a name, the first one counts. -/
  found : ∀ className subroutine,
    table.get? className subroutine = known.lookup (qualifiedName className subroutine)
  kept : ∀ operations (name : String) signature, table.entries[name]? = some signature →
    (table.performAll operations).entries[name]? = some signature
  refuses_iff : ∀ name signature,
    table.perform (.insert name signature) = (table, .error (.duplicate name "the build")) ↔
      name ∈ table.entries
  takes_iff : ∀ name signature,
    (∃ next, table.perform (.insert name signature) = (next, .ok ())) ↔ name ∉ table.entries
  registers : ∀ cls, table.Registers cls
  /-- The library fills the gaps, and then there are none. -/
  library : ∃ next, table.perform .addLibrary = (next, .ok ()) ∧
    next.Extends table Library.signatures ∧ next.perform .addLibrary = (next, .ok ())

theorem perform_insert (table : SignatureTable) (name : String) (signature : Signature) :
    (name ∈ table.entries ∧
      table.perform (.insert name signature) = (table, .error (.duplicate name "the build"))) ∨
    (name ∉ table.entries ∧ ∃ next, table.perform (.insert name signature) = (next, .ok ())) := by
  by_cases taken : name ∈ table.entries
  · exact .inl ⟨taken, insert_of_mem taken signature⟩
  · exact .inr ⟨taken, exists_insert_of_not_mem taken signature⟩

theorem addLibrary_again (table : SignatureTable) :
    table.addLibrary.addLibrary = table.addLibrary := by
  apply ext_entries
  intro name
  have once := extends_insertDefaults table Library.signatures name
  have twice := extends_insertDefaults table.addLibrary Library.signatures name
  rw [addLibrary, twice, addLibrary, once, Option.or_assoc, Option.or_self]

theorem Extends.firstWins (described : table.Extends {} known) : table.FirstWins known where
  found className subroutine := described.getElem?_eq (qualifiedName className subroutine)
  kept operations _ _ present := described.kept operations present
  refuses_iff name signature := by
    rcases table.perform_insert name signature with ⟨taken, refused⟩ | ⟨fresh, next, inserted⟩
    · simp [taken, refused]
    · simp [fresh, inserted]
  takes_iff name signature := by
    rcases table.perform_insert name signature with ⟨taken, refused⟩ | ⟨fresh, next, inserted⟩
    · simp [taken, refused]
    · simp [fresh, inserted]
  registers cls := table.registers cls
  library := by
    refine ⟨table.addLibrary, rfl, extends_insertDefaults table Library.signatures, ?_⟩
    rw [SignatureTable.perform, addLibrary_again]

/-- Over any run of operations the first entry under each name stays, and names without a dot do
not get into each other's way. -/
theorem operations_keep_first_entries (operations : List Operation) :
    (performAll {} operations).FirstWins (supplied [] operations) ∧
      ∀ className subroutine otherClass other : String,
        '.' ∉ className.toList → '.' ∉ subroutine.toList →
        qualifiedName className subroutine = qualifiedName otherClass other →
        className = otherClass ∧ subroutine = other := by
  refine ⟨((extends_nil {}).performAll operations).firstWins, ?_⟩
  intro className subroutine otherClass other plainClass plain same
  exact eq_of_qualifiedName_eq plainClass plain same

/-- A subroutine of which only the signature matters. -/
def bare (kind : SubroutineKind) (name : String) (parameters : List Parameter) : Subroutine where
  kind := kind
  returnType := .void
  name := name
  parameters := parameters
  locals := []
  body := [.return none]

/-- Two classes, of which the first takes a name of the library and the second one repeats a name
of its own, then the library, a default and the first class again. -/
def mixedRun : List Operation :=
  [.register ⟨"Math", [], [bare .function "divide" [⟨.primitive .int, "by"⟩]]⟩,
    .register ⟨"Twin", [], [bare .function "one" [], bare .method "one" [], bare .method "two" []]⟩,
    .addLibrary, .insertDefault "Twin.two" ⟨.void, .function, 4⟩,
    .register ⟨"Math", [], [bare .function "divide" []]⟩]

theorem mixedRun_first_entries :
    (performAll {} mixedRun).get? "Math" "divide" = some ⟨.void, .function, 1⟩ ∧
      (performAll {} mixedRun).get? "Math" "multiply" =
        some ⟨.value (.primitive .int), .function, 2⟩ ∧
      (performAll {} mixedRun).get? "Twin" "one" = some ⟨.void, .function, 0⟩ ∧
      (performAll {} mixedRun).get? "Twin" "two" = some ⟨.void, .function, 4⟩ ∧
      ('.' ∉ "Twin".toList ∧ '.' ∉ "two".toList ∧
        qualifiedName "Twin" "two" ≠ qualifiedName "Twi" "ntwo") := by
  obtain ⟨wins, apart⟩ := operations_keep_first_entries mixedRun
  have plainClass : '.' ∉ "Twin".toList := by decide
  have plain : '.' ∉ "two".toList := by decide
  refine ⟨(wins.found _ _).trans rfl, (wins.found _ _).trans rfl, (wins.found _ _).trans rfl,
    (wins.found _ _).trans rfl, plainClass, plain, fun same => ?_⟩
  obtain ⟨sameClass, -⟩ := apart "Twin" "two" "Twi" "ntwo" plainClass plain same
  contradiction

end ClassLang.SignatureTable
