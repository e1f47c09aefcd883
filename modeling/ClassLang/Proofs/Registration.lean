import ClassLang.Proofs.Results
import ClassLang.Scope.Library
import Mathlib.Data.List.Induction
import Mathlib.Data.List.Nodup
import Mathlib.Data.List.Perm.Basic

/-!
What a signature table knows.

Entries that are put into a table one after the other are all there in the end, provided that no
name comes twice, and then it does not matter in which order they came. The library only fills
the gaps.
-/

namespace ClassLang.SignatureTable

variable {table next : SignatureTable} {entries : List (String × Signature)}

theorem ext_entries {first second : SignatureTable}
    (same : ∀ name : String, first.entries[name]? = second.entries[name]?) : first = second := by
  cases first with
  | mk firstEntries =>
      cases second with
      | mk secondEntries => exact congrArg mk (Std.ExtTreeMap.ext_getElem? same)

/-- The table has these entries and no others, and no name stands in two of them. -/
structure Holds (table : SignatureTable) (entries : List (String × Signature)) : Prop where
  distinct : (entries.map Prod.fst).Nodup
  found : ∀ name signature, table.entries[name]? = some signature ↔ (name, signature) ∈ entries

theorem fresh_of_nodup {before after : List (String × Signature)} {entry : String × Signature}
    (distinct : ((before ++ entry :: after).map Prod.fst).Nodup) :
    entry.1 ∉ before.map Prod.fst := by
  intro taken
  rw [List.map_append, List.nodup_append] at distinct
  exact distinct.2.2 entry.1 taken entry.1 (by simp) rfl

theorem holds_empty : Holds {} [] where
  distinct := List.nodup_nil
  found := by simp

theorem Holds.mem_iff (holds : table.Holds entries) (name : String) :
    name ∈ table.entries ↔ name ∈ entries.map Prod.fst := by
  rw [← Std.ExtTreeMap.isSome_getElem?_iff_mem, Option.isSome_iff_exists]
  simp [holds.found]

theorem Holds.perm {others : List (String × Signature)} (holds : table.Holds entries)
    (same : entries.Perm others) : table.Holds others where
  distinct := (same.map Prod.fst).nodup_iff.mp holds.distinct
  found name signature := by rw [holds.found, same.mem_iff]

/-- The entries settle the table. -/
theorem Holds.unique {first second : SignatureTable} (holds : first.Holds entries)
    (alsoHolds : second.Holds entries) : first = second := by
  apply ext_entries
  intro name
  apply Option.ext
  intro signature
  rw [holds.found, alsoHolds.found]

theorem Holds.of_insert (holds : table.Holds entries) {name : String} {signature : Signature}
    (inserted : table.insert name signature = (next, .ok ())) :
    next.Holds (entries ++ [(name, signature)]) := by
  have fresh : name ∉ entries.map Prod.fst := by
    rw [← holds.mem_iff]
    intro taken
    simp [SignatureTable.insert, taken] at inserted
  refine ⟨?_, ?_⟩
  · rw [List.map_append]
    exact List.nodup_append_comm.mp (List.nodup_cons.mpr ⟨fresh, holds.distinct⟩)
  · intro other otherSignature
    rw [getElem?_insert inserted, List.mem_append, List.mem_singleton, ← holds.found]
    by_cases same : name = other
    · subst same
      have absent : table.entries[name]? = none := by
        rw [← holds.mem_iff] at fresh
        simpa using fresh
      simp [absent, eq_comm]
    · simp [same, Ne.symm same]

theorem Holds.exists_insert (holds : table.Holds entries) {name : String} (signature : Signature)
    (fresh : name ∉ entries.map Prod.fst) : ∃ next, table.insert name signature = (next, .ok ()) := by
  rw [← holds.mem_iff] at fresh
  exact ⟨_, if_neg fresh⟩

/-- Entries can be added exactly if their names are new and differ, and then they are all there. -/
theorem Holds.insertAll_eq_ok_iff (holds : table.Holds entries)
    {further : List (String × Signature)} :
    table.insertAll further = (next, .ok ()) ↔ next.Holds (entries ++ further) := by
  induction further generalizing table entries with
  | nil =>
      rw [List.append_nil, SignatureTable.insertAll, Update.each]
      constructor
      · intro same
        cases same
        exact holds
      · intro nextHolds
        rw [holds.unique nextHolds]
  | cons entry rest inductionHypothesis =>
      obtain ⟨name, signature⟩ := entry
      rw [SignatureTable.insertAll]
      rcases inserted : table.insert name signature with ⟨grown, error | _⟩
      · rw [Update.each_of_error inserted]
        constructor
        · intro impossible
          cases impossible
        · intro nextHolds
          obtain ⟨other, succeeded⟩ :=
            holds.exists_insert signature (fresh_of_nodup nextHolds.distinct)
          rw [inserted] at succeeded
          cases succeeded
      · rw [Update.each_of_ok inserted, List.append_cons]
        exact inductionHypothesis (holds.of_insert inserted)

theorem exists_holds (distinct : (entries.map Prod.fst).Nodup) :
    ∃ table : SignatureTable, table.Holds entries := by
  induction entries using List.reverseRecOn with
  | nil => exact ⟨{}, holds_empty⟩
  | append_singleton before entry inductionHypothesis =>
      have distinctBefore : (before.map Prod.fst).Nodup := by
        rw [List.map_append] at distinct
        exact distinct.of_append_left
      obtain ⟨table, holds⟩ := inductionHypothesis distinctBefore
      obtain ⟨next, inserted⟩ := holds.exists_insert entry.2 (fresh_of_nodup distinct)
      exact ⟨next, holds.of_insert inserted⟩

/-! Entries that come to a table whatever it has already. -/

/-- The entries have different names, and the table has none of these. -/
structure Admits (table : SignatureTable) (entries : List (String × Signature)) : Prop where
  distinct : (entries.map Prod.fst).Nodup
  fresh : ∀ name ∈ entries.map Prod.fst, name ∉ table.entries

/-- The first table has what the second one has, and under every other name the first of the
entries. -/
def Extends (next table : SignatureTable) (entries : List (String × Signature)) : Prop :=
  ∀ name : String, next.entries[name]? = table.entries[name]?.or (entries.lookup name)

theorem extends_nil (table : SignatureTable) : table.Extends table [] := by
  intro name
  simp

theorem Extends.append {final : SignatureTable} {further : List (String × Signature)}
    (first : next.Extends table entries) (second : final.Extends next further) :
    final.Extends table (entries ++ further) := by
  intro name
  rw [second, first, List.lookup_append, Option.or_assoc]

theorem Extends.mem_iff (extended : next.Extends table entries) (name : String) :
    name ∈ next.entries ↔ name ∈ table.entries ∨ name ∈ entries.map Prod.fst := by
  rw [← Std.ExtTreeMap.isSome_getElem?_iff_mem, extended, Option.isSome_or, Bool.or_eq_true,
    Std.ExtTreeMap.isSome_getElem?_iff_mem, List.lookup_isSome_iff, List.mem_map]
  simp only [beq_iff_eq, @eq_comm _ name]

theorem insert_of_mem {name : String} (taken : name ∈ table.entries) (signature : Signature) :
    table.insert name signature = (table, .error (.duplicate name "the build")) :=
  if_pos taken

theorem exists_insert_of_not_mem {name : String} (fresh : name ∉ table.entries)
    (signature : Signature) : ∃ next, table.insert name signature = (next, .ok ()) :=
  ⟨_, if_neg fresh⟩

theorem extends_insert {name : String} {signature : Signature}
    (inserted : table.insert name signature = (next, .ok ())) :
    next.Extends table [(name, signature)] := by
  have fresh : name ∉ table.entries := by
    intro taken
    rw [insert_of_mem taken] at inserted
    cases inserted
  intro found
  rw [getElem?_insert inserted, List.lookup_cons]
  by_cases same : name = found
  · subst same
    simp [fresh]
  · have other : (found == name) = false := by simpa using Ne.symm same
    simp [same, other]

/-- Entries are added one after the other, all of them or those before the first whose name is
taken. -/
theorem insertAll_cases (table : SignatureTable) (entries : List (String × Signature)) :
    (table.Admits entries ∧
      ∃ next, table.insertAll entries = (next, .ok ()) ∧ next.Extends table entries) ∨
    ∃ before entry after, entries = before ++ entry :: after ∧ table.Admits before ∧
      (entry.1 ∈ table.entries ∨ entry.1 ∈ before.map Prod.fst) ∧
      ∃ next, table.insertAll entries = (next, .error (.duplicate entry.1 "the build")) ∧
        next.Extends table before := by
  have admitsNone (table : SignatureTable) : table.Admits [] := ⟨List.nodup_nil, by simp⟩
  induction entries generalizing table with
  | nil => exact .inl ⟨admitsNone table, table, rfl, extends_nil table⟩
  | cons entry rest inductionHypothesis =>
      obtain ⟨name, signature⟩ := entry
      by_cases taken : name ∈ table.entries
      · have refused := insert_of_mem taken signature
        exact .inr ⟨[], (name, signature), rest, rfl, admitsNone table, .inl taken, table,
          Update.each_of_error refused rest, extends_nil table⟩
      · obtain ⟨grown, inserted⟩ := exists_insert_of_not_mem taken signature
        have extended := extends_insert inserted
        -- What the grown table admits has names other than the one that it has just got.
        have admitsCons {others : List (String × Signature)} (admits : grown.Admits others) :
            table.Admits ((name, signature) :: others) := by
          have apart : ∀ other ∈ others.map Prod.fst, other ≠ name ∧ other ∉ table.entries := by
            intro other membership
            have absent := admits.fresh other membership
            rw [extended.mem_iff, not_or] at absent
            exact ⟨by simpa using absent.2, absent.1⟩
          refine ⟨List.nodup_cons.mpr ⟨fun membership => ?_, admits.distinct⟩, ?_⟩
          · exact (apart name membership).1 rfl
          · rw [List.map_cons, List.forall_mem_cons]
            exact ⟨taken, fun other membership => (apart other membership).2⟩
        rw [insertAll, Update.each_of_ok inserted]
        rcases inductionHypothesis grown with ⟨admits, next, added, later⟩ |
          ⟨before, entry, after, rfl, admits, clash, next, stopped, later⟩
        · exact .inl ⟨admitsCons admits, next, added, extended.append later⟩
        · rw [extended.mem_iff, or_assoc, List.map_singleton, List.mem_singleton] at clash
          exact .inr ⟨(name, signature) :: before, entry, after, rfl, admitsCons admits,
            by simpa using clash, next, stopped, extended.append later⟩

theorem Holds.nodup_append {further : List (String × Signature)} (holds : table.Holds entries)
    (admits : table.Admits further) : ((entries ++ further).map Prod.fst).Nodup := by
  rw [List.map_append, List.nodup_append]
  refine ⟨holds.distinct, admits.distinct, fun name known other added same => ?_⟩
  apply admits.fresh other added
  rw [holds.mem_iff, ← same]
  exact known

/-! The library. -/

/-- A default counts only where there is no entry, and the first one under a name counts. -/
theorem extends_insertDefaults (table : SignatureTable) (defaults : List (String × Signature)) :
    (table.insertDefaults defaults).Extends table defaults := by
  intro name
  induction defaults generalizing table with
  | nil => simp [insertDefaults]
  | cons entry rest inductionHypothesis =>
      obtain ⟨key, signature⟩ := entry
      have step := inductionHypothesis (table.insertDefault key signature)
      rw [getElem?_insertDefault] at step
      rw [insertDefaults, List.foldl_cons]
      refine step.trans ?_
      rw [List.lookup_cons]
      by_cases same : key = name
      · subst same
        by_cases taken : key ∈ table.entries
        · simp [taken]
        · simp [taken]
      · have other : (name == key) = false := by simpa using Ne.symm same
        simp [same, other]

/-- The table that code is generated with: the entries of the classes and, if it is wanted, the
library. -/
def completed (library : Bool) (table : SignatureTable) : SignatureTable :=
  if library then table.addLibrary else table

theorem getElem?_completed (library : Bool) (table : SignatureTable) (name : String) :
    (table.completed library).entries[name]? =
      table.entries[name]?.or (if library then Library.signatures.lookup name else none) := by
  cases library with
  | false => simp [completed]
  | true => exact extends_insertDefaults table Library.signatures name

end ClassLang.SignatureTable
