import ClassLang.Code.Class
import ClassLang.Proofs.Declared
import ClassLang.Proofs.Results
import ClassLang.Proofs.Violations
import Mathlib.Data.List.Perm.Subperm

/-!
Code generation accepts the classes that break no rule, and reports the first violation of the
others.
-/

namespace ClassLang

variable {ε α β : Type}

/-- The outcome that a list of violations calls for. -/
def Reports (outcome : Except ε α) : List ε → Prop
  | [] => ∃ value, outcome = .ok value
  | first :: _ => outcome = .error first

theorem reports_ok (value : α) : Reports (.ok value) ([] : List ε) := ⟨value, rfl⟩

/-- The violations of a second step come behind those of the first, since the second step is
only taken if there are none. -/
theorem Reports.bind {first : Except ε α} {next : α → Except ε β}
    {before after : List ε} (reported : Reports first before)
    (later : ∀ value, first = .ok value → Reports (next value) after) :
    Reports (first >>= next) (before ++ after) := by
  cases before with
  | nil =>
      obtain ⟨value, succeeded⟩ := reported
      rw [succeeded]
      exact later value succeeded
  | cons violation _ =>
      change first = .error violation at reported
      rw [reported]
      rfl

/-- A step that cannot fail adds nothing. -/
theorem Reports.bind_ok {first : Except ε α} {next : α → β}
    {before : List ε} (reported : Reports first before) :
    Reports (first >>= fun value => .ok (next value)) before := by
  simpa using reported.bind fun value _ => reports_ok (next value)

theorem reports_mapM {step : α → Except ε β} {violations : α → List ε} :
    (values : List α) → (∀ value ∈ values, Reports (step value) (violations value)) →
      Reports (values.mapM step) (values.flatMap violations)
  | [], _ => reports_ok []
  | first :: rest, reported => by
      rw [List.mapM_cons, List.flatMap_cons]
      refine (reported first List.mem_cons_self).bind fun _ _ => ?_
      exact (reports_mapM rest fun value membership =>
        reported value (List.mem_cons_of_mem _ membership)).bind_ok

theorem Reports.ok_iff {outcome : Except ε α} {violations : List ε}
    (reported : Reports outcome violations) :
    (∃ value, outcome = .ok value) ↔ violations = [] := by
  cases violations with
  | nil => exact ⟨fun _ => rfl, fun _ => reported⟩
  | cons first _ =>
      change outcome = .error first at reported
      simp [reported]

theorem Reports.error_iff {outcome : Except ε α} {violations : List ε}
    (reported : Reports outcome violations) (error : ε) :
    outcome = .error error ↔ violations.head? = some error := by
  cases violations with
  | nil =>
      obtain ⟨value, succeeded⟩ := reported
      simp [succeeded]
  | cons first _ =>
      change outcome = .error first at reported
      simp [reported]

theorem Reports.onError {outcome : Except ε α} {violations : List ε}
    (reported : Reports outcome violations) :
    Reports (Halt.onError outcome) (violations.map .reported) := by
  cases violations with
  | nil =>
      obtain ⟨value, succeeded⟩ := reported
      exact ⟨value, by rw [succeeded]; rfl⟩
  | cons first _ =>
      change outcome = .error first at reported
      rw [reported]
      rfl

theorem length_namesIn (declarations : List Declaration) (storage : Storage) :
    (namesIn declarations storage).length = population declarations storage := by
  rw [namesIn, List.length_map, population, List.countP_eq_length_filter]

theorem nodup_names_append {declared : List Declaration} {declaration : Declaration}
    (distinct : (declared.map (·.name)).Nodup) (fresh : declaration.name ∉ declared.map (·.name)) :
    ((declared ++ [declaration]).map (·.name)).Nodup := by
  rw [List.map_append]
  exact List.nodup_append_comm.mp (List.nodup_cons.mpr ⟨fresh, distinct⟩)

/-- As long as no name is repeated, there is room for the next one. -/
theorem WithinCapacity.room {declared rest : List Declaration} {declaration : Declaration}
    (fits : WithinCapacity (declared ++ declaration :: rest))
    (distinct : (declared.map (·.name)).Nodup)
    (fresh : declaration.name ∉ declared.map (·.name)) :
    population declared declaration.storage < SymbolTable.capacity := by
  have smaller : (namesIn declared declaration.storage).Sublist (declared.map (·.name)) :=
    List.filter_sublist.map _
  have ownDistinct : (declaration.name :: namesIn declared declaration.storage).Nodup :=
    List.nodup_cons.mpr ⟨fun membership => fresh (smaller.subset membership),
      distinct.sublist smaller⟩
  have included : declaration.name :: namesIn declared declaration.storage ⊆
      (namesIn (declared ++ declaration :: rest) declaration.storage).dedup := by
    intro name membership
    rw [List.mem_dedup]
    simp only [namesIn, List.filter_append, List.map_append, List.mem_append]
    rcases List.mem_cons.mp membership with rfl | earlier
    · exact .inr (by simp)
    · exact .inl earlier
  have bounded := (List.subperm_of_subset ownDistinct included).length_le
  rw [List.length_cons, length_namesIn] at bounded
  exact Nat.lt_of_lt_of_le bounded (fits declaration.storage)

namespace SymbolTable

theorem scope_define {table next : SymbolTable} {declaration : Declaration}
    (defined : table.define declaration = (next, .ok ())) : next.scope = table.scope := by
  unfold define at defined
  split at defined
  · cases defined
  · split at defined
    · cases defined
      rfl
    · cases defined

theorem Records.mem_iff {table : SymbolTable} {declared : List Declaration}
    (records : table.Records declared) (name : String) :
    name ∈ table.bindings ↔ name ∈ declared.map (·.name) := by
  have located := records.get? name
  rw [SymbolTable.get?] at located
  rw [← Std.ExtTreeMap.isSome_getElem?_iff_mem, located, ← Option.ne_none_iff_isSome, Ne,
    locate?_eq_none_iff]
  simp

theorem Records.fresh_of_define {table next : SymbolTable} {declared : List Declaration}
    {declaration : Declaration} (records : table.Records declared)
    (defined : table.define declaration = (next, .ok ())) :
    declaration.name ∉ declared.map (·.name) := by
  rw [← records.mem_iff]
  intro bound
  simp [SymbolTable.define, bound] at defined

theorem Records.define_reports {table : SymbolTable} {declared rest : List Declaration}
    {declaration : Declaration} (records : table.Records declared)
    (distinct : (declared.map (·.name)).Nodup)
    (fits : WithinCapacity (declared ++ declaration :: rest)) :
    Reports (table.define declaration).result
      ((if declaration.name ∈ declared.map (·.name) then
        [.duplicate declaration.name table.scope] else []).map .reported) := by
  simp only [SymbolTable.define, ← records.mem_iff]
  split
  next => rfl
  next unbound =>
    have fresh := mt (records.mem_iff _).mpr unbound
    rw [if_pos (by rw [records.count]; exact fits.room distinct fresh)]
    exact reports_ok _

theorem Records.defineAll_reports {table : SymbolTable} {declared further : List Declaration}
    (records : table.Records declared) (distinct : (declared.map (·.name)).Nodup)
    (fits : WithinCapacity (declared ++ further)) :
    Reports (table.defineAll further).result
      ((repetitions table.scope (declared.map (·.name)) further).map .reported) := by
  -- The table knows the declarations before; none of them is a repetition, or it would have
  -- been reported.
  induction further generalizing table declared with
  | nil => exact reports_ok table
  | cons declaration rest inductionHypothesis =>
      rw [SymbolTable.defineAll, Update.result_each, List.foldlM_cons, repetitions,
        List.map_append]
      refine (records.define_reports distinct fits).bind fun next succeeded => ?_
      have defined := Update.result_eq_ok_iff.mp succeeded
      have stillDistinct := nodup_names_append distinct (records.fresh_of_define defined)
      have reported := inductionHypothesis (records.define defined) stillDistinct
        (by simpa using fits)
      rw [scope_define defined, List.map_append, SymbolTable.defineAll,
        Update.result_each] at reported
      exact reported

theorem ofClass_reports {cls : Class} (fits : WithinCapacity cls.declarations) :
    Reports (ofClass cls)
      ((repetitions ("class `" ++ cls.name ++ "`") [] cls.declarations).map .reported) :=
  (records_empty _).defineAll_reports List.nodup_nil fits

theorem ofSubroutine_reports {className : String} {subroutine : Subroutine}
    (fits : WithinCapacity subroutine.declarations) :
    Reports (ofSubroutine className subroutine)
      ((repetitions ("`" ++ qualifiedName className subroutine.name ++ "`") []
        subroutine.declarations).map .reported) :=
  (records_empty _).defineAll_reports List.nodup_nil fits

end SymbolTable

/-- The frame says of every name what is declared at the site. -/
structure Frame.Describes (frame : Frame) (site : Site) : Prop where
  className : frame.className = site.cls.name
  subroutine : frame.subroutine = site.place
  signatures : frame.signatures = site.signatures
  type : ∀ name, (frame.scope.get? name).map (·.type) = site.type? name

namespace Frame.Describes

variable {frame : Frame} {site : Site}

theorem resolve_reports (describes : frame.Describes site) (name : String) :
    Reports (frame.resolve name) (site.undeclared name) := by
  rw [Site.undeclared, ← describes.type, Frame.resolve, ← describes.subroutine]
  cases frame.scope.get? name with
  | some binding => exact reports_ok _
  | none => rfl

theorem checkArity_reports (describes : frame.Describes site) (className name : String)
    (supplied : Nat) :
    Reports (frame.checkArity className name supplied)
      (site.miscounted className name supplied) := by
  rw [Frame.checkArity, Site.miscounted, describes.signatures]
  cases site.signatures.get? className name with
  | none => exact reports_ok ()
  | some signature =>
      by_cases agrees : signature.parameters = supplied
      · simp only [if_pos agrees]
        exact reports_ok ()
      · simp only [if_neg agrees]
        rfl

/-- Either the receiver cannot take calls, or only the number of arguments can be wrong. -/
theorem target_cases (describes : frame.Describes site) (receiver : Option String)
    (name : String) (supplied : Nat) :
    (∃ error, frame.target receiver name = .error error ∧
      site.misdirected receiver name supplied = [error]) ∨
    ∃ className receiverCode, frame.target receiver name = .ok (className, receiverCode) ∧
      site.misdirected receiver name supplied = site.miscounted className name supplied := by
  cases receiver with
  | none => exact .inr ⟨_, _, rfl, by rw [describes.className]; rfl⟩
  | some receiver =>
      simp only [Frame.target, Site.misdirected, ← describes.type]
      cases frame.scope.get? receiver with
      | none => exact .inr ⟨_, _, rfl, rfl⟩
      | some binding =>
          obtain ⟨type, storage, index⟩ := binding
          cases type with
          | primitive type => exact .inl ⟨_, rfl, rfl⟩
          | object className => exact .inr ⟨_, _, rfl, rfl⟩

theorem malformed_reports (describes : frame.Describes site) :
    Reports (.error frame.malformed : Except CompileError α) [site.broken] := by
  rw [Frame.malformed, Site.broken, describes.subroutine]
  rfl

end Frame.Describes

section Body

variable {frame : Frame} {site : Site}

mutual

theorem Term.code_reports (describes : frame.Describes site) : (term : Term) →
    Reports (term.code frame) (term.violations site)
  | .int _ => reports_ok _
  | .string _ => reports_ok _
  | .constant _ => reports_ok _
  | .var name => by
      rw [Term.code, Term.violations, ← List.append_nil (site.undeclared name)]
      exact (describes.resolve_reports name).bind fun _ _ => reports_ok _
  | .item array index => by
      rw [Term.code, Term.violations]
      refine (describes.resolve_reports array).bind fun _ _ => ?_
      exact (Expression.code_reports describes index).bind_ok
  | .paren inner => by
      rw [Term.code, Term.violations]
      exact Expression.code_reports describes inner
  | .unary _ operand => by
      rw [Term.code, Term.violations]
      exact (Term.code_reports describes operand).bind_ok
  | .call call => by
      rw [Term.code, Term.violations]
      exact Call.code_reports describes call

theorem Expression.code_reports (describes : frame.Describes site) :
    (elements : List Element) →
    Reports (Expression.code frame elements) (Expression.violations site elements)
  | [] => by
      rw [Expression.code, Expression.violations]
      rfl
  | .op _ :: _ => by
      rw [Expression.code, Expression.violations]
      exact describes.malformed_reports
  | .term first :: rest => by
      rw [Expression.code, Expression.violations]
      refine (Term.code_reports describes first).bind fun _ _ => ?_
      exact (Expression.operationsCode_reports describes rest []).bind_ok

theorem Expression.operationsCode_reports (describes : frame.Describes site) :
    (elements : List Element) →
    (pending : List BinaryOp) →
    Reports (Expression.operationsCode frame elements pending)
      (Expression.operationsViolations site elements)
  | [], pending => by
      rw [Expression.operationsCode, Expression.operationsViolations]
      exact reports_ok _
  | .op op :: .term operand :: rest, pending => by
      rw [Expression.operationsCode, Expression.operationsViolations]
      refine (Term.code_reports describes operand).bind fun _ _ => ?_
      exact (Expression.operationsCode_reports describes rest (op :: pending)).bind_ok
  | [.op _], _ => by
      simpa [Expression.operationsCode, Expression.operationsViolations] using
        describes.malformed_reports
  | .op _ :: .op _ :: _, _ => by
      simpa [Expression.operationsCode, Expression.operationsViolations] using
        describes.malformed_reports
  | .term _ :: _, _ => by
      simpa [Expression.operationsCode, Expression.operationsViolations] using
        describes.malformed_reports

theorem Call.code_reports (describes : frame.Describes site) : (call : Call) →
    Reports (call.code frame) (call.violations site)
  | .mk receiver name arguments => by
      rw [Call.code, Call.violations]
      rcases describes.target_cases receiver name arguments.length with
        ⟨error, failed, misdirected⟩ | ⟨className, receiverCode, found, misdirected⟩
      · rw [failed, misdirected]
        rfl
      · rw [found, misdirected]
        refine (describes.checkArity_reports className name arguments.length).bind fun _ _ => ?_
        exact (Call.argumentsCode_reports describes arguments).bind_ok

theorem Call.argumentsCode_reports (describes : frame.Describes site) :
    (arguments : List (List Element)) →
    Reports (Call.argumentsCode frame arguments) (Call.argumentsViolations site arguments)
  | [] => reports_ok _
  | first :: rest => by
      rw [Call.argumentsCode, Call.argumentsViolations]
      refine (Expression.code_reports describes first).bind fun _ _ => ?_
      exact (Call.argumentsCode_reports describes rest).bind_ok

end

namespace Statement

mutual

theorem code_reports (describes : frame.Describes site) : (statement : Statement) →
    (labels : Labels) → Reports (statement.code frame labels) (statement.violations site)
  | .let name none value, labels => by
      rw [Statement.code, Statement.violations]
      refine (describes.resolve_reports name).bind fun _ _ => ?_
      exact (Expression.code_reports describes value).bind_ok
  | .let name (some index) value, labels => by
      rw [Statement.code, Statement.violations, List.append_assoc]
      refine (describes.resolve_reports name).bind fun _ _ => ?_
      refine (Expression.code_reports describes index).bind fun _ _ => ?_
      exact (Expression.code_reports describes value).bind_ok
  | .if condition thenBranch elseBranch, labels => by
      rw [Statement.code, Statement.violations, List.append_assoc]
      refine (Expression.code_reports describes condition).bind fun _ _ => ?_
      refine (codeAll_reports describes thenBranch _).bind fun ⟨_, between⟩ _ => ?_
      exact (codeAll_reports describes elseBranch between).bind_ok
  | .while condition body, labels => by
      rw [Statement.code, Statement.violations]
      refine (Expression.code_reports describes condition).bind fun _ _ => ?_
      exact (codeAll_reports describes body _).bind_ok
  | .do call, labels => by
      rw [Statement.code, Statement.violations]
      exact (Call.code_reports describes call).bind_ok
  | .return none, labels => reports_ok _
  | .return (some value), labels => by
      rw [Statement.code, Statement.violations]
      exact (Expression.code_reports describes value).bind_ok

theorem codeAll_reports (describes : frame.Describes site) : (statements : List Statement) →
    (labels : Labels) → Reports (codeAll frame statements labels) (violationsAll site statements)
  | [], labels => by
      rw [codeAll, violationsAll]
      exact reports_ok _
  | first :: rest, labels => by
      rw [codeAll, violationsAll]
      refine (code_reports describes first labels).bind fun ⟨_, between⟩ _ => ?_
      exact (codeAll_reports describes rest between).bind_ok

end

end Statement

end Body

/-- The type that a table gives to a name is the one that it was declared with. -/
theorem type_locate? (declarations : List Declaration) (name : String) :
    (locate? declarations name).map (·.type) =
      (declarations.find? (·.name = name)).map (·.type) := by
  rw [locate?, Option.map_map]
  rfl

theorem describes_of_records (site : Site) {members own : SymbolTable}
    (membersRecord : members.Records site.cls.declarations)
    (ownRecord : own.Records site.subroutine.declarations) :
    (site.subroutine.frame site.cls.name site.signatures members own).Describes site where
  className := rfl
  subroutine := rfl
  signatures := rfl
  type name := by
    rw [Subroutine.frame, Scope.get?, membersRecord.get?, ownRecord.get?, Site.type?,
      List.find?_append,
      Option.orElse_eq_orElse, Option.orElse_eq_or, Option.map_or, Option.map_or, type_locate?,
      type_locate?]

theorem Subroutine.code_reports {cls : Class} {members : SymbolTable} {subroutine : Subroutine}
    (membersRecord : members.Records cls.declarations)
    (fits : WithinCapacity subroutine.declarations) (signatures : SignatureTable) :
    Reports (subroutine.code cls.name members signatures)
      ((subroutine.violations cls signatures).map .reported) := by
  rw [Subroutine.code, Subroutine.violations, List.map_append]
  refine (SymbolTable.ofSubroutine_reports fits).bind fun own built => ?_
  have ownRecord := SymbolTable.records_ofSubroutine built
  have describes := describes_of_records ⟨cls, subroutine, signatures⟩ membersRecord ownRecord
  exact (Statement.codeAll_reports describes subroutine.body {}).onError.bind_ok

theorem Class.code_reports {cls : Class} (fits : cls.WithinCapacity)
    (signatures : SignatureTable) :
    Reports (cls.code signatures) ((cls.violations signatures).map .reported) := by
  rw [Class.code, Class.violations, List.map_append, List.map_flatMap]
  refine (SymbolTable.ofClass_reports fits.1).bind fun members built => ?_
  have membersRecord := SymbolTable.records_ofClass built
  have blocks := reports_mapM cls.subroutines fun subroutine membership =>
    Subroutine.code_reports membersRecord (fits.2 subroutine membership) signatures
  exact blocks.bind_ok

/-- Exactly the classes without violations have code, and of the others the first violation is
reported. -/
theorem Class.code_reports_first_violation (cls : Class) (signatures : SignatureTable)
    (fits : cls.WithinCapacity) :
    ((∃ code, cls.code signatures = .ok code) ↔ cls.violations signatures = []) ∧
      ∀ error, cls.code signatures = .error (.reported error) ↔
        (cls.violations signatures).head? = some error := by
  have reported := Class.code_reports fits signatures
  constructor
  · rw [reported.ok_iff, List.map_eq_nil_iff]
  · intro error
    rw [reported.error_iff, List.head?_map]
    cases (cls.violations signatures).head? <;> simp

/-- A class that assigns to a variable it does not declare the result of a call on a number. -/
def meter : Class where
  name := "Meter"
  members := [⟨.field, .primitive .int, ["level"]⟩]
  subroutines := [
    { kind := .method
      returnType := .void
      name := "sink"
      parameters := [⟨.primitive .int, "limit"⟩]
      locals := []
      body := [
        .let "depth" none [.term (.call (.mk (some "level") "below" [[.term (.var "limit")]]))],
        .return none] }]

theorem meter_code_reports_target :
    meter.WithinCapacity ∧
      meter.violations {} =
        [.unresolved "depth" "Meter.sink", .invalidReceiver "level" (.primitive .int)] ∧
      meter.code {} = .error (.reported (.unresolved "depth" "Meter.sink")) := by
  have fits : meter.WithinCapacity := by
    refine ⟨fun storage => ?_, fun subroutine membership storage => ?_⟩
    · cases storage <;> decide
    · rw [List.mem_singleton.mp membership]
      cases storage <;> decide
  exact ⟨fits, rfl, ((Class.code_reports_first_violation meter {} fits).2 _).mpr rfl⟩

end ClassLang
