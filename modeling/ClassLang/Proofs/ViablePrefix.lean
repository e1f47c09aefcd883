import ClassLang.Proofs.Reading
import ClassLang.Proofs.Recognition

/-!
Where reading fails, the tokens so far can still be completed, and the token at which it stops
cannot follow them.

This is shown for one way of building readers after the other. Two readers in a row need one
condition: what the second one takes must be something that may follow the first.
-/

namespace ClassLang.Grammar

open Reader

variable {α β κ : Type} {bound : Nat} {follow followFirst : List Token → Prop}

/-- The reader takes the tokens as a value in front of all that may follow. -/
def Reader.Spans (reader : Reader α) (front : List Token) (value : α)
    (follow : List Token → Prop) : Prop :=
  ∀ rest, follow rest → reader (front ++ rest) = .ok (value, rest)

/-- One token behind what the reader has taken decides how it ends, and where it fails, tokens
can be found that let it succeed instead. -/
structure ViableAt (reader : Reader α) (follow : List Token → Prop) (tokens : List Token) :
    Prop where
  taken : ∀ value rest, reader tokens = .ok (value, rest) → ∃ front, tokens = front ++ rest ∧
    reader.Spans front value fun other => other.head? = rest.head? ∨ follow other
  stopped : ∀ failure, reader tokens = .error failure → ∃ front,
    tokens = front ++ failure.remaining ∧
    (∀ other, other.head? = failure.remaining.head? →
      reader (front ++ other) = .error ⟨failure.expected, other⟩) ∧
    ∃ missing value, reader.Spans (front ++ missing) value follow

/-- The reader is viable at all lists of fewer than so many tokens. -/
structure ViableBelow (bound : Nat) (reader : Reader α) (follow : List Token → Prop) : Prop where
  fillable : ∃ tokens value, reader.Spans tokens value follow
  viable : ∀ tokens, tokens.length < bound → ViableAt reader follow tokens

/-! Readers one after the other. -/

theorem head?_append_congr {front first second : List Token} (same : first.head? = second.head?) :
    (front ++ first).head? = (front ++ second).head? := by
  rw [List.head?_append, List.head?_append, same]

/-- What stands behind the first reader has the head that it had, or may follow it. -/
theorem head?_or_follows {front rest other : List Token}
    (fits : front = [] → other.head? = rest.head? ∨ followFirst other) :
    (front ++ other).head? = (front ++ rest).head? ∨ followFirst (front ++ other) := by
  cases front with
  | nil => exact fits rfl
  | cons token front => exact .inl rfl

section

variable {first : Reader α} {next : α → Reader β}

theorem Reader.Spans.bind {front further : List Token} {value : α} {result : β}
    (spans : first.Spans front value followFirst)
    (spansNext : (next value).Spans further result follow)
    (fits : ∀ value tokens result rest, next value tokens = .ok (result, rest) → follow rest →
      followFirst tokens) :
    (first >>= next).Spans (front ++ further) result follow := by
  intro rest follows
  have takenNext := spansNext rest follows
  rw [List.append_assoc, bind_apply, spans _ (fits _ _ _ _ takenNext follows)]
  exact takenNext

theorem ViableAt.bind {tokens : List Token} (viable : ViableAt first followFirst tokens)
    (viableNext : ∀ value rest, first tokens = .ok (value, rest) →
      ViableAt (next value) follow rest)
    (fillable : ∀ value, ∃ tokens result, (next value).Spans tokens result follow)
    (fits : ∀ value tokens result rest, next value tokens = .ok (result, rest) → follow rest →
      followFirst tokens) :
    ViableAt (first >>= next) follow tokens where
  taken result rest succeeded := by
    obtain ⟨⟨value, middle⟩, takenFirst, takenNext⟩ := bind_eq_ok_iff.mp succeeded
    obtain ⟨front, rfl, spans⟩ := viable.taken value middle takenFirst
    obtain ⟨further, rfl, spansNext⟩ :=
      (viableNext value middle takenFirst).taken result rest takenNext
    refine ⟨front ++ further, by simp, fun other follows => ?_⟩
    have takenOther := spansNext other follows
    rw [List.append_assoc, bind_apply, spans (further ++ other)]
    · exact takenOther
    · refine head?_or_follows fun empty => follows.imp_right fun followsOther => ?_
      subst empty
      exact fits _ _ _ _ takenOther followsOther
  stopped failure failed := by
    rcases bind_eq_error_iff.mp failed with failedFirst | ⟨⟨value, middle⟩, takenFirst, failedNext⟩
    · obtain ⟨front, split, same, missing, value, spans⟩ := viable.stopped failure failedFirst
      obtain ⟨further, result, spansNext⟩ := fillable value
      refine ⟨front, split, fun other sameHead => ?_, missing ++ further, result, ?_⟩
      · rw [bind_apply, same other sameHead]
        rfl
      · rw [← List.append_assoc]
        exact spans.bind spansNext fits
    · obtain ⟨front, rfl, spans⟩ := viable.taken value middle takenFirst
      obtain ⟨further, rfl, same, missing, result, spansNext⟩ :=
        (viableNext value middle takenFirst).stopped failure failedNext
      refine ⟨front ++ further, by simp, fun other sameHead => ?_, missing, result, ?_⟩
      · rw [List.append_assoc, bind_apply, spans _ (.inl (head?_append_congr sameHead))]
        exact same other sameHead
      · intro rest follows
        have takenRest := spansNext rest follows
        rw [List.append_assoc] at takenRest
        rw [List.append_assoc, List.append_assoc, bind_apply, spans (further ++ (missing ++ rest))]
        · exact takenRest
        · refine head?_or_follows fun empty => .inr ?_
          subst empty
          exact fits _ _ _ _ takenRest follows

theorem ViableBelow.bindWithin {further : Nat} (viable : ViableBelow bound first followFirst)
    (viableNext : ∀ value, ViableBelow further (next value) follow)
    (within : ∀ tokens value rest, tokens.length < bound → first tokens = .ok (value, rest) →
      rest.length < further)
    (fits : ∀ value tokens result rest, next value tokens = .ok (result, rest) → follow rest →
      followFirst tokens) :
    ViableBelow bound (first >>= next) follow where
  fillable := by
    obtain ⟨front, value, spans⟩ := viable.fillable
    obtain ⟨further, result, spansNext⟩ := (viableNext value).fillable
    exact ⟨front ++ further, result, spans.bind spansNext fits⟩
  viable tokens few := by
    refine (viable.viable tokens few).bind ?_ (fun value => (viableNext value).fillable) fits
    intro value rest taken
    exact (viableNext value).viable rest (within tokens value rest few taken)

theorem ViableBelow.bind (viable : ViableBelow bound first followFirst)
    (viableNext : ∀ value, ViableBelow bound (next value) follow)
    (fits : ∀ value tokens result rest, next value tokens = .ok (result, rest) → follow rest →
      followFirst tokens) :
    ViableBelow bound (first >>= next) follow := by
  refine viable.bindWithin viableNext ?_ fits
  intro tokens value rest few taken
  obtain ⟨front, rfl, -⟩ := (viable.viable tokens few).taken value rest taken
  rw [List.length_append] at few
  omega

/-- Anything may follow the first reader. -/
theorem ViableBelow.andThen (viable : ViableBelow bound first fun _ => True)
    (viableNext : ∀ value, ViableBelow bound (next value) follow) :
    ViableBelow bound (first >>= next) follow :=
  viable.bind viableNext fun _ _ _ _ _ _ => trivial

end

theorem ViableBelow.weaken {reader : Reader α} (viable : ViableBelow bound reader followFirst)
    (included : ∀ rest, follow rest → followFirst rest) : ViableBelow bound reader follow where
  fillable := by
    obtain ⟨tokens, value, spans⟩ := viable.fillable
    exact ⟨tokens, value, fun rest follows => spans rest (included rest follows)⟩
  viable tokens within := {
    taken := fun value rest succeeded => by
      obtain ⟨front, split, spans⟩ := (viable.viable tokens within).taken value rest succeeded
      exact ⟨front, split, fun other follows => spans other (follows.imp_right (included other))⟩
    stopped := fun failure failed => by
      obtain ⟨front, split, same, missing, value, spans⟩ :=
        (viable.viable tokens within).stopped failure failed
      exact ⟨front, split, same, missing, value,
        fun rest follows => spans rest (included rest follows)⟩ }

theorem ViableBelow.mono {reader : Reader α} (viable : ViableBelow bound reader follow)
    {smaller : Nat} (less : smaller ≤ bound) : ViableBelow smaller reader follow :=
  ⟨viable.fillable, fun tokens within => viable.viable tokens (by omega)⟩

theorem viableBelow_pure (value : α) : ViableBelow bound (pure value) follow where
  fillable := ⟨[], value, fun rest _ => rfl⟩
  viable tokens _ := {
    taken := fun other rest succeeded => by
      cases succeeded
      exact ⟨[], rfl, fun other _ => rfl⟩
    stopped := fun failure failed => by cases failed }

theorem ViableBelow.map {reader : Reader α} (viable : ViableBelow bound reader follow)
    (change : α → β) : ViableBelow bound (do let value ← reader; return change value) follow := by
  refine viable.bind (fun value => viableBelow_pure (change value)) ?_
  intro value tokens result rest succeeded follows
  cases succeeded
  exact follows

theorem Reader.exists_of_map {reader : Reader α} {change : α → β} {tokens rest : List Token}
    {result : β}
    (succeeded : (do let value ← reader; return change value : Reader β) tokens =
      .ok (result, rest)) :
    ∃ value, reader tokens = .ok (value, rest) := by
  obtain ⟨⟨value, _⟩, taken, done⟩ := bind_eq_ok_iff.mp succeeded
  cases done
  exact ⟨value, taken⟩

/-! Single tokens. -/

theorem viableBelow_single {expected : Expectation} {accept : Token → Option α} {value : α}
    (token : Token) (accepted : accept token = some value) :
    ViableBelow bound (single expected accept) follow where
  fillable := ⟨[token], value, fun rest _ => by simp [single, accepted]⟩
  viable tokens _ := by
    cases tokens with
    | nil =>
        refine ⟨fun _ _ succeeded => by simp [single] at succeeded, fun failure failed => ?_⟩
        cases failed
        refine ⟨[], rfl, fun other empty => ?_, [token], value, ?_⟩
        · rw [List.head?_eq_none_iff.mp empty]
          rfl
        · intro rest _
          simp [single, accepted]
    | cons found behind =>
        cases known : accept found with
        | some other =>
            refine ⟨fun _ _ succeeded => ?_, fun _ failed => by simp [single, known] at failed⟩
            simp only [single, known, Except.ok.injEq, Prod.mk.injEq] at succeeded
            obtain ⟨rfl, rfl⟩ := succeeded
            exact ⟨[found], rfl, fun rest _ => by simp [single, known]⟩
        | none =>
            refine ⟨fun _ _ succeeded => by simp [single, known] at succeeded, fun _ failed => ?_⟩
            simp only [single, known, Except.error.injEq] at failed
            subst failed
            refine ⟨[], rfl, fun other sameHead => ?_, [token], value, ?_⟩
            · obtain ⟨rest, rfl⟩ := List.head?_eq_some_iff.mp sameHead
              simp [single, known]
            · intro rest _
              simp [single, accepted]

theorem expect_viable (expected : Token) :
    ViableBelow bound (reading (expect expected)) follow := by
  rw [reading_expect]
  exact viableBelow_single expected (if_pos rfl)

theorem identifier_viable : ViableBelow bound (reading identifier) follow := by
  rw [reading_identifier]
  exact viableBelow_single (.identifier "x") rfl

theorem dataType_viable : ViableBelow bound (reading dataType) follow := by
  rw [reading_dataType]
  exact viableBelow_single (.identifier "X") rfl

theorem returnType_viable : ViableBelow bound (reading returnType) follow := by
  rw [reading_returnType]
  exact viableBelow_single (.keyword .void) rfl

/-- A closing token may follow the first reader. -/
theorem ViableBelow.closedBy {first : Reader α} {next : α → Reader β} {symbol : Symbol}
    (viable : ViableBelow bound first followFirst)
    (closes : ∀ rest, followFirst (.symbol symbol :: rest))
    (viableNext : ∀ value, ViableBelow bound (next value) follow) :
    ViableBelow bound (do let value ← first; reading (expectSymbol symbol); next value) follow := by
  refine viable.bind
    (fun value => (expect_viable _).andThen fun _ => viableNext value) ?_
  intro value tokens result rest succeeded _
  obtain ⟨⟨_, behind⟩, taken, -⟩ := bind_eq_ok_iff.mp succeeded
  rw [outcome_expectSymbol.mp taken]
  exact closes behind

/-! Choices. -/

theorem ViableAt.cons {outer inner : Reader α} {token : Token} {rest : List Token}
    (viable : ViableAt inner follow rest)
    (goesOn : ∀ behind, outer (token :: behind) = inner behind) :
    ViableAt outer follow (token :: rest) where
  taken value left succeeded := by
    rw [goesOn] at succeeded
    obtain ⟨front, rfl, spans⟩ := viable.taken value left succeeded
    exact ⟨token :: front, rfl, fun other follows => (goesOn _).trans (spans other follows)⟩
  stopped failure failed := by
    rw [goesOn] at failed
    obtain ⟨front, shape, same, missing, value, spans⟩ := viable.stopped failure failed
    exact ⟨token :: front, by rw [shape, List.cons_append],
      fun other sameHead => (goesOn _).trans (same other sameHead), missing, value,
      fun behind follows => (goesOn _).trans (spans behind follows)⟩

theorem allowed_append {allowed : Option Token → Prop} {front rest other : List Token}
    (here : allowed (front ++ rest).head?) (fits : front = [] → allowed other.head?) :
    allowed (front ++ other).head? := by
  cases front with
  | nil => exact fits rfl
  | cons token front => exact here

/-- One reader does what the other does wherever the next token allows it. -/
theorem ViableAt.of_agree {outer inner : Reader α} (allowed : Option Token → Prop)
    {tokens : List Token} (viable : ViableAt inner follow tokens) (here : allowed tokens.head?)
    (agree : ∀ tokens, allowed tokens.head? → outer tokens = inner tokens)
    (apart : ∀ tokens value rest, inner tokens = .ok (value, rest) → follow rest →
      allowed tokens.head?) :
    ViableAt outer follow tokens where
  taken value rest succeeded := by
    rw [agree tokens here] at succeeded
    obtain ⟨front, rfl, spans⟩ := viable.taken value rest succeeded
    refine ⟨front, rfl, fun other follows => ?_⟩
    have taken := spans other follows
    rw [agree _ (allowed_append here fun empty => ?_), taken]
    subst empty
    rcases follows with sameHead | followsOther
    · rwa [sameHead]
    · exact apart other value other taken followsOther
  stopped failure failed := by
    rw [agree tokens here] at failed
    obtain ⟨front, shape, same, missing, value, spans⟩ := viable.stopped failure failed
    rw [shape] at here
    refine ⟨front, shape, fun other sameHead => ?_, missing, value, fun rest follows => ?_⟩
    · rw [agree _ (by rwa [head?_append_congr sameHead]), same other sameHead]
    · have taken := spans rest follows
      rw [List.append_assoc] at taken ⊢
      rw [agree _ (allowed_append here fun empty => ?_), taken]
      subst empty
      exact apart _ value rest taken follows

section

variable {branch : Token → Option (Reader α)}

theorem choose_of_some {otherwise reader : Reader α} {token : Token}
    (leads : branch token = some reader) (rest : List Token) :
    choose branch otherwise (token :: rest) = reader rest := by
  simp only [choose, leads]

theorem viableAt_choose {otherwise : Reader α} {tokens : List Token}
    (few : tokens.length < bound + 1)
    (branches : ∀ token reader, branch token = some reader → ViableBelow bound reader follow)
    (others : (∀ token ∈ tokens.head?, branch token = none) →
      ViableAt (choose branch otherwise) follow tokens) :
    ViableAt (choose branch otherwise) follow tokens := by
  cases tokens with
  | nil => exact others (by simp)
  | cons token rest =>
      cases leads : branch token with
      | none => exact others (by simpa using leads)
      | some reader =>
          have viable := (branches token reader leads).viable rest (by simpa using few)
          exact viable.cons (choose_of_some leads)

/-- What the other reader takes must not start with a token that leads on. -/
theorem ViableBelow.choose {otherwise : Reader α}
    (branches : ∀ token reader, branch token = some reader → ViableBelow bound reader follow)
    (viable : ViableBelow (bound + 1) otherwise follow)
    (apart : ∀ tokens value rest, otherwise tokens = .ok (value, rest) → follow rest →
      ∀ token ∈ tokens.head?, branch token = none) :
    ViableBelow (bound + 1) (choose branch otherwise) follow where
  fillable := by
    obtain ⟨tokens, value, spans⟩ := viable.fillable
    refine ⟨tokens, value, fun rest follows => ?_⟩
    have taken := spans rest follows
    rw [choose_of_none (apart _ _ _ taken follows), taken]
  viable tokens few := by
    refine viableAt_choose few branches fun other => ?_
    exact (viable.viable tokens few).of_agree (fun head => ∀ token ∈ head, branch token = none)
      other (fun _ => choose_of_none) apart

theorem ViableBelow.chooseOrFail {expected : Expectation}
    (branches : ∀ token reader, branch token = some reader → ViableBelow bound reader follow)
    {token : Token} {reader : Reader α} (possible : branch token = some reader) :
    ViableBelow (bound + 1) (Reader.choose branch (fail expected)) follow := by
  obtain ⟨tokens, value, spans⟩ := (branches token reader possible).fillable
  have filled : (Reader.choose branch (fail expected)).Spans (token :: tokens) value follow :=
    fun rest follows => (choose_of_some possible _).trans (spans rest follows)
  refine ⟨⟨_, _, filled⟩, fun tokens few => viableAt_choose few branches fun other => ?_⟩
  refine ⟨fun value rest succeeded => ?_, fun failure failed => ?_⟩
  · rw [choose_of_none other] at succeeded
    cases succeeded
  · rw [choose_of_none other] at failed
    cases failed
    refine ⟨[], rfl, fun rest sameHead => ?_, _, _, filled⟩
    rw [List.nil_append, choose_of_none (by rwa [sameHead])]
    rfl

end

theorem ViableBelow.ifNext {expected : Token} {reader otherwise : Reader α}
    (viable : ViableBelow bound reader follow)
    (viableOther : ViableBelow (bound + 1) otherwise follow)
    (apart : ∀ tokens value rest, otherwise tokens = .ok (value, rest) → follow rest →
      Stops (· == expected) tokens) :
    ViableBelow (bound + 1) (ifNext expected reader otherwise) follow := by
  refine ViableBelow.choose ?_ viableOther ?_
  · intro token found leads
    obtain ⟨-, -, rfl⟩ := Option.map_eq_some_iff.mp leads
    exact viable
  · intro tokens value rest taken follows token inFront
    have other : token ≠ expected := by
      simpa using apart tokens value rest taken follows token inFront
    simp [startsWith, other]

/-- Before a closing token there may be nothing. -/
theorem ViableBelow.upTo {closing : Token} {items : Reader (List α)}
    (viable : ViableBelow bound items fun rest => rest.head? = some closing)
    (apart : ∀ tokens values rest, items tokens = .ok (values, rest) →
      tokens.head? ≠ some closing) :
    ViableBelow bound (upTo closing items) fun rest => rest.head? = some closing where
  fillable := ⟨[], [], fun _ closes => if_pos closes⟩
  viable tokens few := by
    by_cases closed : tokens.head? = some closing
    · refine ⟨fun values rest succeeded => ?_, fun failure failed => ?_⟩
      · rw [Reader.upTo, if_pos closed] at succeeded
        cases succeeded
        exact ⟨[], rfl, fun other follows => if_pos (follows.elim (·.trans closed) id)⟩
      · rw [Reader.upTo, if_pos closed] at failed
        cases failed
    · exact (viable.viable tokens few).of_agree (· ≠ some closing) closed
        (fun _ other => if_neg other)
        fun tokens values rest taken _ => apart tokens values rest taken

/-! Repetition. -/

section

variable {loop : Reader α} {start : Token → Option κ} {item : κ → Reader β} {empty : α}
  {extend : κ → β → α → α} {followItem : List Token → Prop}
  (unfolds : loop = choose
    (fun token => (start token).map fun kind => do
      let value ← item kind
      let others ← loop
      return extend kind value others)
    (pure empty))

include unfolds

/-- What a loop takes starts with a token that starts an item, if it takes anything. -/
theorem loop_cases {tokens rest : List Token} {found : α}
    (taken : loop tokens = .ok (found, rest)) :
    tokens = rest ∨ ∃ token kind behind, tokens = token :: behind ∧ start token = some kind := by
  cases tokens with
  | nil =>
      rw [unfolds] at taken
      cases taken
      exact .inl rfl
  | cons token behind =>
      cases started : start token with
      | some kind => exact .inr ⟨token, kind, behind, rfl, started⟩
      | none =>
          rw [unfolds, choose_of_none (by simp [started])] at taken
          cases taken
          exact .inl rfl

theorem loop_follows (ends : ∀ rest, follow rest → followItem rest)
    (again : ∀ token kind rest, start token = some kind → followItem (token :: rest))
    {tokens rest : List Token} {found : α} (taken : loop tokens = .ok (found, rest))
    (follows : follow rest) : followItem tokens := by
  rcases loop_cases unfolds taken with rfl | ⟨token, kind, behind, rfl, started⟩
  · exact ends tokens follows
  · exact again token kind behind started

/-- Items may follow each other, and what follows the last one starts no further item. -/
theorem loop_viable (items : ∀ kind, ViableBelow bound (item kind) followItem)
    (ends : ∀ rest, follow rest → Stops (fun token => (start token).isSome) rest ∧ followItem rest)
    (again : ∀ token kind rest, start token = some kind → followItem (token :: rest)) :
    ViableBelow bound loop follow := by
  have none : ∀ rest, follow rest → ∀ token ∈ rest.head?, start token = none := by
    intro rest follows token inFront
    simpa using (ends rest follows).1 token inFront
  induction bound with
  | zero =>
      refine ⟨⟨[], empty, fun rest follows => ?_⟩, fun tokens few => by omega⟩
      rw [List.nil_append, unfolds, choose_of_none (by simpa using none rest follows)]
      rfl
  | succ bound inductionHypothesis =>
      rw [unfolds]
      refine ViableBelow.choose ?_ (viableBelow_pure empty) ?_
      · intro token reader leads
        obtain ⟨kind, -, rfl⟩ := Option.map_eq_some_iff.mp leads
        have viable := inductionHypothesis fun kind => (items kind).mono (Nat.le_succ bound)
        refine ((items kind).mono (Nat.le_succ bound)).bind (fun value => viable.map _) ?_
        intro value tokens result rest succeeded follows
        obtain ⟨found, taken⟩ := exists_of_map succeeded
        exact loop_follows unfolds (fun rest follows => (ends rest follows).2) again taken follows
      · intro tokens value rest succeeded follows
        cases succeeded
        simpa using none tokens follows

end

/-- An item may be followed by a comma. -/
theorem separated_viable {item : Reader α} {others : Reader (List α)}
    (unfolds : others = Reader.ifNext (.symbol .comma)
      (do
        let next ← item
        let more ← others
        return next :: more)
      (pure []))
    (viable : ViableBelow bound item followFirst)
    (ends : ∀ rest, follow rest → Stops (· == .symbol .comma) rest ∧ followFirst rest)
    (again : ∀ rest, followFirst (.symbol .comma :: rest)) :
    ViableBelow bound (do let first ← item; let more ← others; return first :: more) follow := by
  have afterComma : ∀ token (kind : Unit) rest, startsWith (.symbol .comma) token = some kind →
      followFirst (token :: rest) := by
    intro token _ rest started
    rw [startsWith_eq_some_iff.mp started]
    exact again rest
  have viableOthers : ViableBelow bound others follow :=
    loop_viable unfolds (fun _ => viable) (by simpa only [isSome_startsWith] using ends) afterComma
  refine viable.bind (fun first => viableOthers.map _) ?_
  intro first tokens result rest succeeded follows
  obtain ⟨found, taken⟩ := exists_of_map succeeded
  exact loop_follows unfolds (fun rest follows => (ends rest follows).2) afterComma taken follows

theorem commaSeparated_viable {item : Production α}
    (viable : ViableBelow bound (reading item) fun _ => True) :
    ViableBelow bound (reading (commaSeparated item)) (Stops (· == .symbol .comma)) := by
  rw [reading_commaSeparated]
  exact separated_viable (reading_many_skipping _ item) viable (fun _ stops => ⟨stops, trivial⟩)
    fun _ => trivial

/-! Terms, calls and expressions. -/

theorem stops_of_operator? (token : Token) (op : BinaryOp) (rest : List Token)
    (started : operator? token = some op) : Stops continuesName (token :: rest) := by
  rw [operator?_eq_some_iff.mp started]
  exact stops_operator op rest

section

variable (terms : ViableBelow bound (reading term) (Stops continuesName))

include terms

theorem operations_viable : ViableBelow bound (reading operations) (Stops continuesExpression) :=
  loop_viable reading_operations (fun _ => terms)
    (fun _ stops => (stops_of_continuesExpression stops).symm) stops_of_operator?

theorem expression_viable : ViableBelow bound (reading expression) (Stops continuesExpression) := by
  rw [reading_expression]
  refine terms.bind (fun first => (operations_viable terms).map _) ?_
  intro first tokens result rest succeeded stops
  obtain ⟨found, taken⟩ := exists_of_map succeeded
  have ends (rest : List Token) (stops : Stops continuesExpression rest) :
      Stops continuesName rest := (stops_of_continuesExpression stops).1
  exact loop_follows reading_operations ends stops_of_operator? taken stops

theorem arguments_viable :
    ViableBelow bound (reading arguments) fun rest => rest.head? = some (.symbol .rightParen) := by
  rw [reading_arguments]
  refine ViableBelow.upTo
    (separated_viable reading_moreArguments (expression_viable terms) ?_ ?_) ?_
  · intro rest closes
    obtain ⟨behind, rfl⟩ := List.head?_eq_some_iff.mp closes
    exact ⟨stops_cons.mpr rfl, stops_cons.mpr rfl⟩
  · intro rest
    exact stops_cons.mpr rfl
  · intro tokens values rest succeeded closes
    obtain ⟨⟨first, middle⟩, taken, -⟩ := bind_eq_ok_iff.mp succeeded
    simpa using stops_of_takes_expression taken (.inl rfl) _ closes

theorem supplied_viable : ViableBelow bound supplied follow :=
  (arguments_viable terms).closedBy (fun _ => rfl) fun _ => viableBelow_pure _

theorem ownCall_viable (name : String) : ViableBelow bound (ownCall name) follow :=
  (supplied_viable terms).map _

theorem callOn_viable (receiver : String) : ViableBelow bound (callOn receiver) follow :=
  identifier_viable.andThen fun _ => (expect_viable _).andThen fun _ =>
    (supplied_viable terms).map _

theorem nameBranch_viable (first : String) (token : Token) (reader : Reader Term)
    (leads : nameBranch first token = some reader) : ViableBelow bound reader follow := by
  unfold nameBranch at leads
  split at leads
  · cases leads
    exact (expression_viable terms).closedBy (fun _ => stops_cons.mpr rfl) fun _ =>
      viableBelow_pure _
  · cases leads
    exact (ownCall_viable terms first).map _
  · cases leads
    exact (callOn_viable terms first).map _
  · cases leads

theorem name_viable (first : String) :
    ViableBelow bound (choose (nameBranch first) (pure (.var first))) (Stops continuesName) := by
  refine (ViableBelow.choose (nameBranch_viable terms first) (viableBelow_pure _) ?_).mono
    (Nat.le_succ bound)
  intro tokens value rest succeeded stops token inFront
  cases succeeded
  exact nameBranch_eq_none_iff.mpr (stops token inFront)

theorem termBranch_viable (token : Token) (reader : Reader Term)
    (leads : termBranch token = some reader) :
    ViableBelow bound reader (Stops continuesName) := by
  cases token with
  | int value =>
      cases leads
      exact viableBelow_pure _
  | string text =>
      cases leads
      exact viableBelow_pure _
  | identifier first =>
      cases leads
      exact name_viable terms first
  | keyword keyword =>
      cases keyword with
      | constant value =>
          cases leads
          exact viableBelow_pure _
      | _ => cases leads
  | symbol symbol =>
      cases symbol with
      | leftParen =>
          cases leads
          exact (expression_viable terms).closedBy (fun _ => stops_cons.mpr rfl) fun _ =>
            viableBelow_pure _
      | minus =>
          cases leads
          exact terms.map _
      | tilde =>
          cases leads
          exact terms.map _
      | _ => cases leads

end

theorem term_viable (bound : Nat) : ViableBelow bound (reading term) (Stops continuesName) := by
  rw [reading_term]
  -- Terms inside a term stand behind its first token, so there are fewer tokens left for them.
  induction bound with
  | zero =>
      exact ⟨⟨[.int 0], .int 0, fun _ _ => rfl⟩, fun tokens few => by omega⟩
  | succ bound inductionHypothesis =>
      rw [← reading_term] at inductionHypothesis
      exact ViableBelow.chooseOrFail (termBranch_viable inductionHypothesis)
        (rfl : termBranch (.int 0) = some _)

theorem callee_viable (first : String) :
    ViableBelow bound (reading (callee first)) (Stops (· == .symbol .dot)) := by
  rw [reading_callee]
  refine (ViableBelow.ifNext (identifier_viable.map _) (viableBelow_pure _) ?_).mono
    (Nat.le_succ bound)
  intro tokens value rest succeeded stops
  cases succeeded
  exact stops

theorem call_viable (first : String) : ViableBelow bound (reading (call first)) follow := by
  rw [reading_call]
  exact (callee_viable first).closedBy (fun _ => stops_cons.mpr rfl) fun _ =>
    (supplied_viable (term_viable bound)).map _

/-! Statements. -/

theorem anyExpression_viable :
    ViableBelow bound (reading expression) (Stops continuesExpression) :=
  expression_viable (term_viable bound)

theorem index_viable :
    ViableBelow bound (reading index) (Stops (· == .symbol .leftBracket)) := by
  rw [reading_index]
  refine (ViableBelow.ifNext (anyExpression_viable.closedBy (fun _ => stops_cons.mpr rfl) fun _ =>
    viableBelow_pure _) (viableBelow_pure _) ?_).mono (Nat.le_succ bound)
  intro tokens value rest succeeded stops
  cases succeeded
  exact stops

theorem condition_viable : ViableBelow bound (reading condition) follow := by
  rw [reading_condition]
  exact (expect_viable _).andThen fun _ =>
    anyExpression_viable.closedBy (fun _ => stops_cons.mpr rfl) fun _ => viableBelow_pure _

theorem returnValue_viable : ViableBelow bound (reading returnValue) follow := by
  rw [reading_returnValue]
  refine (ViableBelow.ifNext (viableBelow_pure _) (anyExpression_viable.closedBy
    (fun _ => stops_cons.mpr rfl) fun _ => viableBelow_pure _) ?_).mono (Nat.le_succ bound)
  intro tokens value rest succeeded _
  obtain ⟨⟨found, middle⟩, taken, -⟩ := bind_eq_ok_iff.mp succeeded
  exact stops_of_takes_expression taken (.inr rfl)

/-- Statements end at a closing brace, and no statement starts with `else`. -/
theorem statements_viable
    (viable : ViableBelow bound (reading statement) (Stops (· == .keyword .else))) :
    ViableBelow bound (reading statements)
      fun rest => rest.head? = some (.symbol .rightBrace) := by
  induction bound with
  | zero =>
      refine ⟨⟨[], [], fun rest closes => ?_⟩, fun tokens few => by omega⟩
      rw [reading_statements]
      exact if_pos closes
  | succ bound inductionHypothesis =>
      have others := inductionHypothesis (viable.mono (Nat.le_succ bound))
      rw [reading_statements]
      refine ViableBelow.upTo (viable.bindWithin (fun first => others.map _) ?_ ?_) ?_
      · intro tokens first rest few taken
        have shorter : rest.length < tokens.length := Takes.shorter taken
        omega
      · intro first tokens result rest succeeded _
        obtain ⟨found, taken⟩ := exists_of_map succeeded
        exact (stops_of_takes_statements taken).1
      · intro tokens values rest succeeded closes
        obtain ⟨⟨first, middle⟩, taken, -⟩ := bind_eq_ok_iff.mp succeeded
        simpa using (stops_of_takes_statement taken).1 _ closes

section

variable (viable : ViableBelow bound (reading statement) (Stops (· == .keyword .else)))

include viable

theorem block_viable : ViableBelow bound (reading block) follow := by
  rw [reading_block]
  exact (expect_viable _).andThen fun _ =>
    (statements_viable viable).closedBy (fun _ => rfl) fun _ => viableBelow_pure _

theorem alternative_viable :
    ViableBelow bound (reading alternative) (Stops (· == .keyword .else)) := by
  rw [reading_alternative]
  refine (ViableBelow.ifNext (block_viable viable) (viableBelow_pure _) ?_).mono (Nat.le_succ bound)
  intro tokens value rest succeeded stops
  cases succeeded
  exact stops

theorem statementBranch_viable (token : Token) (reader : Reader Statement)
    (leads : statementBranch token = some reader) :
    ViableBelow bound reader (Stops (· == .keyword .else)) := by
  unfold statementBranch at leads
  split at leads
  · cases leads
    exact identifier_viable.andThen fun _ =>
      index_viable.closedBy (fun _ => stops_cons.mpr rfl) fun _ =>
        anyExpression_viable.closedBy (fun _ => stops_cons.mpr rfl) fun _ => viableBelow_pure _
  · cases leads
    exact condition_viable.andThen fun _ => (block_viable viable).andThen fun _ =>
      (alternative_viable viable).map _
  · cases leads
    exact condition_viable.andThen fun _ => (block_viable viable).map _
  · cases leads
    exact identifier_viable.andThen fun first =>
      (call_viable first).andThen fun _ => (expect_viable _).map _
  · cases leads
    exact returnValue_viable.map _
  · cases leads

end

theorem statement_viable (bound : Nat) :
    ViableBelow bound (reading statement) (Stops (· == .keyword .else)) := by
  rw [reading_statement]
  induction bound with
  | zero =>
      exact ⟨⟨[.keyword .return, .symbol .semicolon], .return none, fun _ _ => rfl⟩,
        fun tokens few => by omega⟩
  | succ bound inductionHypothesis =>
      rw [← reading_statement] at inductionHypothesis
      exact ViableBelow.chooseOrFail (statementBranch_viable inductionHypothesis)
        (rfl : statementBranch (.keyword .return) = some _)

/-- A statement that begins with a keyword of its own. -/
theorem keyworded_viable {keyword : Keyword} {branch : Reader Statement}
    (leads : statementBranch (.keyword keyword) = some branch) :
    ViableBelow bound (do reading (expectKeyword keyword); branch)
      (Stops (· == .keyword .else)) :=
  (expect_viable _).andThen fun _ =>
    statementBranch_viable (statement_viable bound) (.keyword keyword) branch leads

/-! Declarations and classes. -/

theorem nameList_viable : ViableBelow bound (reading nameList) follow := by
  rw [reading_nameList]
  exact (commaSeparated_viable identifier_viable).closedBy (fun _ => stops_cons.mpr rfl) fun _ =>
    viableBelow_pure _

theorem parameter_viable : ViableBelow bound (reading parameter) follow := by
  rw [reading_parameter]
  exact dataType_viable.andThen fun _ => identifier_viable.map _

theorem parameters_viable :
    ViableBelow bound (reading parameters)
      fun rest => rest.head? = some (.symbol .rightParen) := by
  rw [reading_parameters]
  refine ViableBelow.upTo ((commaSeparated_viable parameter_viable).weaken ?_) ?_
  · intro rest closes
    obtain ⟨behind, rfl⟩ := List.head?_eq_some_iff.mp closes
    exact stops_cons.mpr rfl
  · intro tokens values rest taken
    obtain ⟨first, middle, takenFirst, -⟩ := takes_commaSeparated.mp taken
    rw [outcome_parameter.mp takenFirst]
    cases first.type <;> simp [DataType.token]

theorem memberRest_viable (kind : MemberKind) : ViableBelow bound (memberRest kind) follow :=
  dataType_viable.andThen fun _ => nameList_viable.map _

theorem memberDec_viable : ViableBelow bound (reading memberDec) follow := by
  rw [reading_memberDec]
  have kind : memberKind? (.keyword (.member .static)) = some .static := rfl
  exact (viableBelow_single _ kind).andThen memberRest_viable

theorem localDec_viable : ViableBelow bound (reading localDec) follow := by
  rw [reading_localDec]
  exact dataType_viable.andThen fun _ => nameList_viable.map _

/-- Items of which each ends by itself. -/
theorem sequence_viable {loop : Reader (List α)} {start : Token → Option κ} {item : κ → Reader α}
    (unfolds : loop = choose
      (fun token => (start token).map fun kind => do
        let value ← item kind
        let others ← loop
        return value :: others)
      (pure []))
    (items : ∀ kind, ViableBelow bound (item kind) fun _ => True) :
    ViableBelow bound loop (Stops fun token => (start token).isSome) :=
  loop_viable unfolds items (fun _ stops => ⟨stops, trivial⟩) fun _ _ _ _ => trivial

theorem members_viable :
    ViableBelow bound (reading (many startsMember memberDec)) (Stops startsMember) :=
  sequence_viable (reading_many_kinds (fun _ => rfl) reading_memberDec) memberRest_viable

theorem locals_viable :
    ViableBelow bound (reading (many (· == .keyword .var) (skipping localDec)))
      (Stops (· == .keyword .var)) := by
  have viable : ViableBelow bound _ (Stops fun token => (startsWith _ token).isSome) :=
    sequence_viable (reading_many_skipping (.keyword .var) localDec) fun _ => localDec_viable
  simpa only [isSome_startsWith] using viable

theorem subroutineBody_viable : ViableBelow bound (reading subroutineBody) follow := by
  rw [reading_subroutineBody]
  refine (expect_viable _).andThen fun _ => locals_viable.bind (fun _ =>
    (statements_viable (statement_viable bound)).closedBy (fun _ => rfl) fun _ =>
      viableBelow_pure _) ?_
  intro locals tokens result rest succeeded _
  obtain ⟨⟨found, middle⟩, taken, -⟩ := bind_eq_ok_iff.mp succeeded
  exact (stops_of_takes_statements taken).2

theorem subroutineRest_viable (kind : SubroutineKind) :
    ViableBelow bound (subroutineRest kind) follow :=
  returnType_viable.andThen fun _ => identifier_viable.andThen fun _ =>
    (expect_viable _).andThen fun _ => parameters_viable.closedBy (fun _ => rfl) fun _ =>
    subroutineBody_viable.map _

theorem subroutineDec_viable : ViableBelow bound (reading subroutineDec) follow := by
  rw [reading_subroutineDec]
  have kind : subroutineKind? (.keyword (.subroutine .method)) = some .method := rfl
  exact (viableBelow_single _ kind).andThen subroutineRest_viable

theorem subroutines_viable :
    ViableBelow bound (reading (many startsSubroutine subroutineDec)) (Stops startsSubroutine) :=
  sequence_viable (reading_many_kinds (fun _ => rfl) reading_subroutineDec) subroutineRest_viable

theorem classDec_viable : ViableBelow bound (reading classDec) follow := by
  rw [reading_classDec]
  refine (expect_viable _).andThen fun _ => identifier_viable.andThen fun _ =>
    (expect_viable _).andThen fun _ =>
    members_viable.bind (fun _ =>
      subroutines_viable.closedBy (fun _ => stops_cons.mpr rfl) fun _ => viableBelow_pure _) ?_
  intro members tokens result rest succeeded _
  obtain ⟨⟨found, middle⟩, taken, further⟩ := bind_eq_ok_iff.mp succeeded
  obtain ⟨⟨_, behind⟩, closed, -⟩ := bind_eq_ok_iff.mp further
  rw [outcome_expectSymbol.mp closed] at taken
  exact stops_member_of_takes_subroutines taken

theorem finish_viable : ViableBelow bound finish fun rest => rest = [] where
  fillable := ⟨[], (), fun rest ended => by rw [ended]; rfl⟩
  viable tokens _ := by
    cases tokens with
    | nil =>
        refine ⟨fun _ _ succeeded => ?_, fun _ failed => nomatch failed⟩
        cases succeeded
        refine ⟨[], rfl, fun other follows => ?_⟩
        rw [follows.elim List.head?_eq_none_iff.mp id]
        rfl
    | cons token behind =>
        refine ⟨fun _ _ succeeded => by simp [finish] at succeeded, fun _ failed => ?_⟩
        cases failed
        refine ⟨[], rfl, fun other sameHead => ?_, [], (), fun rest ended => by rw [ended]; rfl⟩
        obtain ⟨rest, rfl⟩ := List.head?_eq_some_iff.mp sameHead
        rfl

theorem wholeClass_viable (tokens : List Token) :
    ViableAt wholeClass (fun rest => rest = []) tokens := by
  have viable : ViableBelow (tokens.length + 1) wholeClass fun rest => rest = [] :=
    classDec_viable.andThen fun _ => finish_viable.map _
  exact viable.viable tokens (Nat.lt_succ_self _)

end ClassLang.Grammar

namespace ClassLang

open Grammar

/-- How many tokens stand before the one at which reading stopped. -/
def Grammar.Failure.position (failure : Failure) (tokens : List Token) : Nat :=
  tokens.length - failure.remaining.length

theorem Class.ofTokens_eq_ok_of_wholeClass {tokens rest : List Token} {cls : Class}
    (taken : wholeClass tokens = .ok (cls, rest)) : Class.ofTokens tokens = .ok cls := by
  rw [Class.ofTokens_eq, taken]
  rfl

theorem Class.ofTokens_eq_error_iff {tokens : List Token} {failure : Failure} :
    Class.ofTokens tokens = .error failure ↔ wholeClass tokens = .error failure := by
  rw [Class.ofTokens_eq]
  cases wholeClass tokens with
  | error other => simp [Except.map]
  | ok found => simp [Except.map]

/-- Tokens that are no class are refused at the first one that cannot be right: what stands
before it begins some class, together with it nothing does, and the error names it. -/
theorem Class.ofTokens_refuses_first_impossible_token {tokens : List Token} {failure : Failure}
    (failed : Class.ofTokens tokens = .error failure) :
    failure.position tokens ≤ tokens.length ∧
      failure.remaining = tokens.drop (failure.position tokens) ∧
      (∃ accepted cls, Class.ofTokens accepted = .ok cls ∧
        tokens.take (failure.position tokens) <+: accepted) ∧
      (failure.position tokens < tokens.length → ∀ accepted cls,
        Class.ofTokens accepted = .ok cls →
        ¬ tokens.take (failure.position tokens + 1) <+: accepted) ∧
      failure.error = .unexpected failure.expected.describe
        (match tokens[failure.position tokens]? with
        | some token => token.describe
        | none => "end of input") := by
  obtain ⟨front, shape, same, missing, cls, spans⟩ :=
    (wholeClass_viable tokens).stopped failure (Class.ofTokens_eq_error_iff.mp failed)
  have position : failure.position tokens = front.length := by
    rw [Failure.position, shape, List.length_append]
    omega
  rw [position]
  refine ⟨?_, ?_, ⟨front ++ missing, cls, ?_, ?_⟩, ?_, ?_⟩
  · rw [shape, List.length_append]
    omega
  · rw [shape, List.drop_left]
  · have taken := spans [] rfl
    rw [List.append_nil] at taken
    exact Class.ofTokens_eq_ok_of_wholeClass taken
  · rw [shape, List.take_left]
    exact List.prefix_append front missing
  · intro inside accepted other isAccepted starts
    obtain ⟨token, rest, remaining⟩ : ∃ token rest, failure.remaining = token :: rest := by
      apply List.exists_cons_of_length_pos
      rw [shape, List.length_append] at inside
      omega
    rw [shape, remaining, List.take_length_add_append] at starts
    obtain ⟨after, rfl⟩ := starts
    have refused := same (token :: after) (by rw [remaining]; rfl)
    have whole : front ++ (token :: rest).take 1 ++ after = front ++ token :: after :=
      List.append_assoc ..
    rw [whole, Class.ofTokens_eq_error_iff.mpr refused] at isAccepted
    cases isAccepted
  · rw [Failure.error, shape, List.getElem?_append_right (Nat.le_refl _), Nat.sub_self]
    cases failure.remaining <;> rfl

/-- A parenthesis that is not closed before the semicolon. -/
def unclosed : List Token :=
  [.keyword .cls, .identifier "Door", .symbol .leftBrace,
    .keyword (.subroutine .function), .keyword (.primitive .int), .identifier "width",
    .symbol .leftParen, .symbol .rightParen, .symbol .leftBrace,
    .keyword .return, .symbol .leftParen, .int 3, .symbol .plus, .int 4, .symbol .semicolon,
    .symbol .rightBrace, .symbol .rightBrace]

def unclosedFailure : Failure where
  expected := .token (.symbol .rightParen)
  remaining := [.symbol .semicolon, .symbol .rightBrace, .symbol .rightBrace]

theorem unclosed_refused_at_semicolon :
    Class.ofTokens unclosed = .error unclosedFailure ∧
      (∃ accepted cls, Class.ofTokens accepted = .ok cls ∧ unclosed.take 14 <+: accepted) ∧
      (∀ accepted cls, Class.ofTokens accepted = .ok cls → ¬ unclosed.take 15 <+: accepted) ∧
      unclosedFailure.error = .unexpected "`)`" "`;`" := by
  have failed : Class.ofTokens unclosed = .error unclosedFailure := by decide +kernel
  obtain ⟨-, -, begins, impossible, named⟩ := Class.ofTokens_refuses_first_impossible_token failed
  exact ⟨failed, begins, impossible (by decide), named.trans (by decide)⟩

end ClassLang
