import ClassLang.Proofs.ViablePrefix

/-!
Parsing moves forward.

From any position a production takes some of the tokens that follow, whether it succeeds or fails,
and where it must take a token to succeed it has moved on. So each loop over productions comes to
an end, after no more rounds than there are tokens left.
-/

namespace ClassLang.Grammar

open Reader

variable {α β κ : Type} {reader : Reader α} {least : Nat} {follow : List Token → Prop}

/-! Productions. -/

/-- From any position the reader moves forward, if at all, and stays within the tokens. If it
succeeds it has taken at least so many of them. -/
def Proceeds (reader : Reader α) (least : Nat) : Prop :=
  ∀ (tokens : List Token) (start : Nat), start ≤ tokens.length →
    (∃ value stop, reader (tokens.drop start) = .ok (value, tokens.drop stop) ∧
      start + least ≤ stop ∧ stop ≤ tokens.length) ∨
    ∃ expected stop, reader (tokens.drop start) = .error ⟨expected, tokens.drop stop⟩ ∧
      start ≤ stop ∧ stop ≤ tokens.length

/-- What stands behind some of the tokens from a position on starts at a later position. -/
theorem exists_drop_eq {tokens front rest : List Token} {start : Nat}
    (inside : start ≤ tokens.length) (split : tokens.drop start = front ++ rest) :
    rest = tokens.drop (start + front.length) ∧ start + front.length ≤ tokens.length := by
  have lengths := congrArg List.length split
  rw [List.length_drop, List.length_append] at lengths
  refine ⟨?_, by omega⟩
  rw [← List.drop_drop, split, List.drop_left]

theorem proceeds_of_viable (viable : ∀ tokens, ViableAt reader follow tokens)
    (shorter : ∀ tokens value rest, reader tokens = .ok (value, rest) →
      rest.length + least ≤ tokens.length) : Proceeds reader least := by
  intro tokens start inside
  have viableHere := viable (tokens.drop start)
  cases found : reader (tokens.drop start) with
  | ok result =>
      obtain ⟨value, rest⟩ := result
      obtain ⟨front, split, -⟩ := viableHere.taken value rest found
      obtain ⟨rfl, within⟩ := exists_drop_eq inside split
      have taken := shorter _ _ _ found
      rw [List.length_drop, List.length_drop] at taken
      exact .inl ⟨value, _, rfl, by omega, within⟩
  | error failure =>
      obtain ⟨expected, remaining⟩ := failure
      obtain ⟨front, split, -⟩ := viableHere.stopped _ found
      obtain ⟨rfl, within⟩ := exists_drop_eq inside split
      exact .inr ⟨expected, _, rfl, Nat.le_add_right _ _, within⟩

theorem viableAt_of_below (viable : ∀ bound, ViableBelow bound reader follow)
    (tokens : List Token) : ViableAt reader follow tokens :=
  (viable _).viable tokens (Nat.lt_succ_self _)

/-- A production that succeeds has taken at least one token. -/
theorem production_proceeds {production : Production α} (follow : List Token → Prop)
    (viable : ∀ bound, ViableBelow bound (reading production) follow) :
    Proceeds (reading production) 1 :=
  proceeds_of_viable (viableAt_of_below viable) fun _ _ _ taken => Takes.shorter taken

theorem optional_proceeds
    {production : (tokens : List Token) → Except Failure (Parsed (tokens.length + 1) α)}
    (viable : ∀ bound, ViableBelow bound (reading production) follow) :
    Proceeds (reading production) 0 :=
  proceeds_of_viable (viableAt_of_below viable) fun _ _ _ taken =>
    Nat.le_of_lt_succ (Takes.shorter taken)

/-- A statement takes its keyword and at least one more token. -/
theorem statement_shorter {tokens rest : List Token} {found : Statement}
    (taken : Takes statement tokens found rest) : rest.length + 2 ≤ tokens.length := by
  cases takes_statement.mp taken with
  | «let» position value =>
      have beforeValue := position.shorter
      have behindValue := value.shorter
      simp only [List.length_cons] at *
      omega
  | «if» test thenBranch elseBranch =>
      have behindTest := test.shorter
      have behindThen := thenBranch.shorter
      have behindElse := elseBranch.shorter
      simp only [List.length_cons] at *
      omega
  | «while» test body =>
      have behindTest := test.shorter
      have behindBody := body.shorter
      simp only [List.length_cons] at *
      omega
  | «do» called =>
      have behindCall := called.shorter
      simp only [List.length_cons] at *
      omega
  | «return» value =>
      have behindValue := value.shorter
      simp only [List.length_cons] at *
      omega

theorem statement_proceeds : Proceeds (reading statement) 2 :=
  proceeds_of_viable (viableAt_of_below statement_viable) fun _ _ _ taken =>
    statement_shorter taken

/-- So does each kind of statement, whatever token stands where its keyword should be. -/
theorem keyworded_proceeds {production : Production Statement} {keyword : Keyword}
    {branch : Reader Statement}
    (unfolds : reading production = do reading (expectKeyword keyword); branch)
    (leads : statementBranch (.keyword keyword) = some branch) :
    Proceeds (reading production) 1 := by
  refine production_proceeds (Stops (· == .keyword .else)) fun bound => ?_
  rw [unfolds]
  exact keyworded_viable leads

theorem wholeClass_proceeds : Proceeds wholeClass 1 := by
  refine proceeds_of_viable wholeClass_viable fun tokens cls rest taken => ?_
  obtain ⟨⟨found, middle⟩, takenClass, further⟩ := bind_eq_ok_iff.mp taken
  obtain ⟨⟨_, last⟩, ended, done⟩ := bind_eq_ok_iff.mp further
  cases done
  have shorter : middle.length < tokens.length := Takes.shorter takenClass
  cases middle with
  | nil =>
      cases ended
      exact shorter
  | cons token behind => cases ended

/-! Loops. -/

/-- A loop that has settled on a round, or on leaving, and settles again behind every round. It
completes so many rounds, and may fail in one more. -/
inductive Repeats (enter : List Token → Option (Reader (List β))) :
    Option (Reader (List β)) → List Token → Nat → Except Failure (List β × List Token) → Prop where
  | leave {tokens} : Repeats enter none tokens 0 (.ok ([], tokens))
  | fail {round tokens failure} : round tokens = .error failure →
      Repeats enter (some round) tokens 0 (.error failure)
  | again {round tokens found rest rounds result} : round tokens = .ok (found, rest) →
      Repeats enter (enter rest) rest rounds result →
      Repeats enter (some round) tokens (rounds + 1)
        (result.map fun more => (found ++ more.1, more.2))

/-- The round, if there is one, and then the others. -/
def continued (entered : Option (Reader (List β))) (others : Reader (List β)) : Reader (List β) :=
  fun tokens =>
    match entered with
    | none => .ok ([], tokens)
    | some round => do
        let (found, rest) ← round tokens
        (others rest).map fun more => (found ++ more.1, more.2)

/-- The reader is the loop: it makes one round and goes on, or leaves. -/
def IsLoop (enter : List Token → Option (Reader (List β))) (loop : Reader (List β)) : Prop :=
  ∀ tokens, loop tokens = continued (enter tokens) loop tokens

/-- If the round succeeds, it takes at least so many tokens. -/
def RoundTakes (least : Nat) (entered : Option (Reader (List β))) (tokens : List Token) : Prop :=
  ∀ round ∈ entered, ∀ found rest, round tokens = .ok (found, rest) →
    rest.length + least ≤ tokens.length

section

variable {enter first : List Token → Option (Reader (List β))} {loop : Reader (List β)}
  {entered : Option (Reader (List β))} {tokens : List Token} {rounds : Nat}
  {result : Except Failure (List β × List Token)}

/-- If the rounds behind it come to an end, so does a loop that begins with this round. -/
theorem exists_repeats_continued
    (later : ∀ round ∈ entered, ∀ found rest, round tokens = .ok (found, rest) →
      ∃ rounds, Repeats enter (enter rest) rest rounds (loop rest)) :
    ∃ rounds, Repeats enter entered tokens rounds (continued entered loop tokens) := by
  cases entered with
  | none => exact ⟨0, .leave⟩
  | some round =>
      simp only [continued]
      cases ended : round tokens with
      | error failure => exact ⟨0, .fail ended⟩
      | ok taken =>
          obtain ⟨found, rest⟩ := taken
          obtain ⟨rounds, repeats⟩ := later round rfl found rest ended
          exact ⟨rounds + 1, .again ended repeats⟩

theorem IsLoop.exists_repeats (isLoop : IsLoop enter loop)
    (moves : ∀ tokens, RoundTakes 1 (enter tokens) tokens) (tokens : List Token) :
    ∃ rounds, Repeats enter (enter tokens) tokens rounds (loop tokens) := by
  induction size : tokens.length using Nat.strongRecOn generalizing tokens with
  | ind size inductionHypothesis =>
      subst size
      rw [isLoop tokens]
      refine exists_repeats_continued fun round isNext found rest ended => ?_
      have shorter := moves tokens round isNext found rest ended
      exact inductionHypothesis rest.length (by omega) rest rfl

/-- The rounds share the tokens. -/
theorem Repeats.mul_le (repeats : Repeats enter entered tokens rounds result)
    (moves : ∀ tokens, RoundTakes least (enter tokens) tokens)
    (movesFirst : RoundTakes least entered tokens) : least * rounds ≤ tokens.length := by
  induction repeats with
  | leave => exact Nat.zero_le _
  | fail _ => exact Nat.zero_le _
  | again ended _ inductionHypothesis =>
      have shorter := movesFirst _ rfl _ _ ended
      have fewer := inductionHypothesis (moves _)
      rw [Nat.mul_succ]
      omega

/-- A loop that is not entered at the end begins no more rounds than there are tokens, one that
fails included. -/
theorem Repeats.lt_length_of_error (repeats : Repeats enter entered tokens rounds result)
    {failure : Failure} (failed : result = .error failure)
    (moves : ∀ tokens, RoundTakes 1 (enter tokens) tokens) (guarded : enter [] = none)
    (movesFirst : RoundTakes 1 entered tokens) (inside : entered ≠ none → tokens ≠ []) :
    rounds < tokens.length := by
  induction repeats with
  | leave => cases failed
  | fail _ => exact List.length_pos_of_ne_nil (inside nofun)
  | @again _ _ _ rest _ result ended _ inductionHypothesis =>
      have shorter := movesFirst _ rfl _ _ ended
      have failedLater : result = .error failure := by
        cases result with
        | ok more => cases failed
        | error other => exact failed
      have fewer := inductionHypothesis failedLater (moves rest) fun isEntered atEnd => by
        rw [atEnd] at isEntered
        exact isEntered guarded
      omega

/-- Whatever tokens are left, the loop ends. It completes no more rounds than there are tokens, and
with a round that fails there are no more either, unless not even one token is left. -/
def LoopEnds (first enter : List Token → Option (Reader (List β))) (loop : Reader (List β)) :
    Prop :=
  ∀ tokens, ∃ rounds, Repeats enter (first tokens) tokens rounds (loop tokens) ∧
    rounds ≤ tokens.length ∧
    ∀ failure, loop tokens = .error failure → tokens = [] ∨ rounds < tokens.length

/-- The first round of this loop is entered like the others. -/
abbrev WhileEnds (enter : List Token → Option (Reader (List β))) (loop : Reader (List β)) : Prop :=
  LoopEnds enter enter loop

theorem IsLoop.whileEnds (isLoop : IsLoop enter loop)
    (moves : ∀ tokens, RoundTakes 1 (enter tokens) tokens) (guarded : enter [] = none) :
    WhileEnds enter loop := by
  intro tokens
  obtain ⟨rounds, repeats⟩ := isLoop.exists_repeats moves tokens
  have few := repeats.mul_le moves (moves tokens)
  rw [Nat.one_mul] at few
  refine ⟨rounds, repeats, few, fun failure failed => .inr ?_⟩
  refine repeats.lt_length_of_error failed moves guarded (moves tokens) fun isEntered atEnd => ?_
  rw [atEnd] at isEntered
  exact isEntered guarded

/-- A loop may also be entered at the end, if each round that succeeds takes two tokens. -/
theorem IsLoop.loopEnds {whole : Reader (List β)} (isLoop : IsLoop enter loop)
    (unfolds : ∀ tokens, whole tokens = continued (first tokens) loop tokens)
    (moves : ∀ tokens, RoundTakes 2 (enter tokens) tokens)
    (movesFirst : ∀ tokens, RoundTakes 2 (first tokens) tokens) : LoopEnds first enter whole := by
  intro tokens
  rw [unfolds tokens]
  have movesOne : ∀ tokens, RoundTakes 1 (enter tokens) tokens :=
    fun tokens round isNext found rest ended =>
      Nat.le_of_succ_le (moves tokens round isNext found rest ended)
  obtain ⟨rounds, repeats⟩ : ∃ rounds, Repeats enter (first tokens) tokens rounds _ :=
    exists_repeats_continued fun _ _ _ rest _ => isLoop.exists_repeats movesOne rest
  have few := repeats.mul_le moves (movesFirst tokens)
  refine ⟨rounds, repeats, by omega, fun _ _ => ?_⟩
  rw [← List.length_eq_zero_iff]
  omega

end

/-- A round that reads one item. -/
def one (item : Reader α) : Reader (List α) := do
  let value ← item
  return [value]

theorem continued_one (item : Reader α) (others : Reader (List α)) :
    continued (some (one item)) others = (do
      let value ← item
      let more ← others
      return value :: more) := by
  funext tokens
  simp only [continued, one, Reader.bind_apply]
  cases item tokens with
  | error failure => rfl
  | ok taken =>
      rw [ok_bind, ok_bind]
      change (others taken.2).map _ = _
      cases others taken.2 <;> rfl

theorem roundTakes_one {item : Reader α} {tokens : List Token}
    (shorter : ∀ value rest, item tokens = .ok (value, rest) →
      rest.length + least ≤ tokens.length) : RoundTakes least (some (one item)) tokens := by
  intro round isNext found rest ended
  cases isNext
  obtain ⟨value, taken⟩ := exists_of_map ended
  exact shorter value rest taken

/-- The rounds of a loop over items, for as long as the next token starts one. -/
def itemRounds (starts : Token → Bool) (item : Production α) (tokens : List Token) :
    Option (Reader (List α)) :=
  if tokens.head?.any starts then some (one (reading item)) else none

theorem itemRounds_takes {starts : Token → Bool} {item : Production α}
    (shorter : ∀ tokens value rest, ¬ Stops starts tokens → Takes item tokens value rest →
      rest.length + least ≤ tokens.length) (tokens : List Token) :
    RoundTakes least (itemRounds starts item tokens) tokens := by
  unfold itemRounds
  split
  next started =>
    exact roundTakes_one fun value rest => shorter tokens value rest (not_stops_iff.mpr started)
  next => exact nofun

theorem itemRounds_isLoop (starts : Token → Bool) (item : Production α) :
    IsLoop (itemRounds starts item) (reading (many starts item)) := by
  intro tokens
  conv_lhs => rw [reading_many, ← continued_one]
  unfold whileNext itemRounds
  split <;> rfl

theorem many_whileEnds (starts : Token → Bool) (item : Production α) :
    WhileEnds (itemRounds starts item) (reading (many starts item)) :=
  (itemRounds_isLoop starts item).whileEnds
    (itemRounds_takes fun _ _ _ _ taken => Takes.shorter taken) rfl

/-- The rounds of a loop over items, each behind the token that starts it. -/
def startedBy (start : Token → Option κ) (item : κ → Reader α) (found : κ → α → List β) :
    List Token → Option (Reader (List β))
  | [] => none
  | token :: _ => (start token).map fun kind tokens =>
      (do let value ← item kind; return found kind value : Reader (List β)) tokens.tail

section

variable {start : Token → Option κ} {item : κ → Reader α} {found : κ → α → List β}

theorem startedBy_takes
    (items : ∀ kind tokens value rest, item kind tokens = .ok (value, rest) →
      rest.length ≤ tokens.length) (tokens : List Token) :
    RoundTakes 1 (startedBy start item found tokens) tokens := by
  intro round isNext taken rest ended
  cases tokens with
  | nil => cases isNext
  | cons token tokens =>
      obtain ⟨kind, -, rfl⟩ := Option.map_eq_some_iff.mp isNext
      obtain ⟨value, takenItem⟩ := exists_of_map ended
      have shorter := items kind tokens value rest takenItem
      rw [List.length_cons]
      omega

theorem startedBy_isLoop {loop : Reader (List β)}
    (unfolds : loop = choose
      (fun token => (start token).map fun kind => do
        let value ← item kind
        let others ← loop
        return found kind value ++ others)
      (pure [])) : IsLoop (startedBy start item found) loop := by
  intro tokens
  cases tokens with
  | nil =>
      rw [unfolds]
      rfl
  | cons token tokens =>
      cases started : start token with
      | none =>
          rw [unfolds, choose_of_none (by simp [started])]
          simp only [startedBy, started, Option.map_none]
          rfl
      | some kind =>
          have entered : loop (token :: tokens) = (do
              let value ← item kind
              let others ← loop
              return found kind value ++ others : Reader (List β)) tokens := by
            conv_lhs => rw [unfolds]
            exact choose_of_some (by rw [started, Option.map_some]) tokens
          rw [entered]
          simp only [continued, startedBy, started, Option.map_some, List.tail_cons,
            Reader.bind_apply]
          cases item kind tokens with
          | error failure => rfl
          | ok taken =>
              rw [ok_bind, ok_bind]
              change _ = (loop taken.2).map _
              cases loop taken.2 <;> rfl

theorem startedBy_whileEnds {loop : Reader (List β)}
    (unfolds : loop = choose
      (fun token => (start token).map fun kind => do
        let value ← item kind
        let others ← loop
        return found kind value ++ others)
      (pure []))
    (items : ∀ kind tokens value rest, item kind tokens = .ok (value, rest) →
      rest.length ≤ tokens.length) : WhileEnds (startedBy start item found) loop :=
  (startedBy_isLoop unfolds).whileEnds (startedBy_takes items) rfl

end

/-- The rounds of a loop over statements, up to a closing brace. It does not look for the end of
the tokens. -/
def untilBrace (tokens : List Token) : Option (Reader (List Statement)) :=
  if tokens.head? = some (.symbol .rightBrace) then none else some (one (reading statement))

theorem untilBrace_takes (tokens : List Token) : RoundTakes 2 (untilBrace tokens) tokens := by
  unfold untilBrace
  split
  · exact nofun
  · exact roundTakes_one fun _ _ => statement_shorter

theorem untilBrace_isLoop : IsLoop untilBrace (reading statements) := by
  intro tokens
  conv_lhs => rw [reading_statements, ← continued_one]
  unfold upTo untilBrace
  split <;> rfl

theorem statements_whileEnds : WhileEnds untilBrace (reading statements) :=
  untilBrace_isLoop.loopEnds untilBrace_isLoop untilBrace_takes untilBrace_takes

/-- A parameter takes its type and its name. -/
theorem parameter_shorter {tokens rest : List Token} {found : Parameter}
    (taken : Takes parameter tokens found rest) : rest.length + 2 ≤ tokens.length := by
  rw [outcome_parameter.mp taken]
  simp

/-- The loop over parameters reads one before it looks for a comma. -/
theorem parameters_loopEnds :
    LoopEnds (fun _ => some (one (reading parameter)))
      (itemRounds (· == .symbol .comma) (skipping parameter))
      (reading (commaSeparated parameter)) := by
  refine (itemRounds_isLoop _ _).loopEnds ?_ (itemRounds_takes ?_) ?_
  · intro tokens
    rw [reading_commaSeparated, continued_one]
  · intro tokens found rest started taken
    obtain ⟨behind, rfl⟩ := not_stops_beq_iff.mp started
    exact Nat.le_succ_of_le (parameter_shorter (takes_skipping_cons.mp taken))
  · intro tokens
    exact roundTakes_one fun _ _ => parameter_shorter

/-! All productions and loops. -/

/-- Every production moves forward only. Those that can end without having taken a token say so
by a zero. -/
structure ProductionsProceed : Prop where
  expect : ∀ token, Proceeds (reading (expect token)) 1
  identifier : Proceeds (reading identifier) 1
  dataType : Proceeds (reading dataType) 1
  nameList : Proceeds (reading nameList) 1
  term : Proceeds (reading term) 1
  expression : Proceeds (reading expression) 1
  operations : Proceeds (reading operations) 0
  callee : ∀ first, Proceeds (reading (callee first)) 0
  call : ∀ first, Proceeds (reading (call first)) 1
  arguments : Proceeds (reading arguments) 0
  moreArguments : Proceeds (reading moreArguments) 0
  index : Proceeds (reading index) 0
  condition : Proceeds (reading condition) 1
  returnValue : Proceeds (reading returnValue) 1
  statement : Proceeds (reading statement) 2
  letStatement : Proceeds (reading letStatement) 1
  ifStatement : Proceeds (reading ifStatement) 1
  whileStatement : Proceeds (reading whileStatement) 1
  doStatement : Proceeds (reading doStatement) 1
  returnStatement : Proceeds (reading returnStatement) 1
  statements : Proceeds (reading statements) 0
  block : Proceeds (reading block) 1
  alternative : Proceeds (reading alternative) 0
  returnType : Proceeds (reading returnType) 1
  parameter : Proceeds (reading parameter) 1
  parameters : Proceeds (reading parameters) 0
  members : Proceeds (reading (many startsMember memberDec)) 0
  memberDec : Proceeds (reading memberDec) 1
  locals : Proceeds (reading (many (· == .keyword .var) (skipping localDec))) 0
  localDec : Proceeds (reading localDec) 1
  subroutineBody : Proceeds (reading subroutineBody) 1
  subroutines : Proceeds (reading (many startsSubroutine subroutineDec)) 0
  subroutineDec : Proceeds (reading subroutineDec) 1
  classDec : Proceeds (reading classDec) 1
  wholeClass : Proceeds wholeClass 1

theorem moreArguments_viable (bound : Nat) :
    ViableBelow bound (reading moreArguments)
      fun rest => rest.head? = some (.symbol .rightParen) := by
  refine loop_viable reading_moreArguments (fun _ => anyExpression_viable) ?_ ?_
  · intro rest closes
    obtain ⟨behind, rfl⟩ := List.head?_eq_some_iff.mp closes
    exact ⟨stops_cons.mpr rfl, stops_cons.mpr rfl⟩
  · intro token kind rest started
    rw [startsWith_eq_some_iff.mp started]
    exact stops_cons.mpr rfl

theorem productionsProceed : ProductionsProceed where
  expect token := production_proceeds (fun _ => True) fun _ => expect_viable token
  identifier := production_proceeds (fun _ => True) fun _ => identifier_viable
  dataType := production_proceeds (fun _ => True) fun _ => dataType_viable
  nameList := production_proceeds (fun _ => True) fun _ => nameList_viable
  term := production_proceeds _ term_viable
  expression := production_proceeds _ fun _ => anyExpression_viable
  operations := optional_proceeds fun bound => operations_viable (term_viable bound)
  callee first := optional_proceeds fun _ => callee_viable first
  call first := production_proceeds (fun _ => True) fun _ => call_viable first
  arguments := optional_proceeds fun bound => arguments_viable (term_viable bound)
  moreArguments := optional_proceeds moreArguments_viable
  index := optional_proceeds fun _ => index_viable
  condition := production_proceeds (fun _ => True) fun _ => condition_viable
  returnValue := production_proceeds (fun _ => True) fun _ => returnValue_viable
  statement := statement_proceeds
  letStatement := keyworded_proceeds reading_letStatement rfl
  ifStatement := keyworded_proceeds reading_ifStatement rfl
  whileStatement := keyworded_proceeds reading_whileStatement rfl
  doStatement := keyworded_proceeds reading_doStatement rfl
  returnStatement := keyworded_proceeds reading_returnStatement rfl
  statements := optional_proceeds fun bound => statements_viable (statement_viable bound)
  block := production_proceeds (fun _ => True) fun bound =>
    block_viable (statement_viable bound)
  alternative := optional_proceeds fun bound => alternative_viable (statement_viable bound)
  returnType := production_proceeds (fun _ => True) fun _ => returnType_viable
  parameter := production_proceeds (fun _ => True) fun _ => parameter_viable
  parameters := optional_proceeds fun _ => parameters_viable
  memberDec := production_proceeds (fun _ => True) fun _ => memberDec_viable
  members := optional_proceeds fun _ => members_viable
  localDec := production_proceeds (fun _ => True) fun _ => localDec_viable
  locals := optional_proceeds fun _ => locals_viable
  subroutineBody := production_proceeds (fun _ => True) fun _ => subroutineBody_viable
  subroutineDec := production_proceeds (fun _ => True) fun _ => subroutineDec_viable
  subroutines := optional_proceeds fun _ => subroutines_viable
  classDec := production_proceeds (fun _ => True) fun _ => classDec_viable
  wholeClass := wholeClass_proceeds

/-- Every loop over productions completes at most as many rounds as there are tokens left. A loop
over statements or parameters begins a round, which fails, even if there are none left. -/
structure LoopsEnd : Prop where
  members : WhileEnds (itemRounds startsMember memberDec) (reading (many startsMember memberDec))
  subroutines : WhileEnds (itemRounds startsSubroutine subroutineDec)
    (reading (many startsSubroutine subroutineDec))
  names : WhileEnds (itemRounds (· == .symbol .comma) (skipping identifier))
    (reading (many (· == .symbol .comma) (skipping identifier)))
  parameters : LoopEnds (fun _ => some (one (reading parameter)))
    (itemRounds (· == .symbol .comma) (skipping parameter)) (reading (commaSeparated parameter))
  locals : WhileEnds (itemRounds (· == .keyword .var) (skipping localDec))
    (reading (many (· == .keyword .var) (skipping localDec)))
  statements : WhileEnds untilBrace (reading statements)
  operations : WhileEnds
    (startedBy operator? (fun _ => reading term) fun op operand => [.op op, .term operand])
    (reading operations)
  arguments : WhileEnds
    (startedBy (startsWith (.symbol .comma)) (fun _ => reading expression) fun _ value => [value])
    (reading moreArguments)

theorem loopsEnd : LoopsEnd where
  members := many_whileEnds _ _
  subroutines := many_whileEnds _ _
  names := many_whileEnds _ _
  parameters := parameters_loopEnds
  locals := many_whileEnds _ _
  statements := statements_whileEnds
  operations := startedBy_whileEnds reading_operations fun _ _ _ _ taken =>
    Nat.le_of_lt (Takes.shorter taken)
  arguments := startedBy_whileEnds reading_moreArguments fun _ _ _ _ taken =>
    Nat.le_of_lt (Takes.shorter taken)

/-- From every position of every list of tokens, the productions move forward only and stay within
the tokens, and so their loops end. -/
theorem productions_proceed_and_loops_end : ProductionsProceed ∧ LoopsEnd :=
  ⟨productionsProceed, loopsEnd⟩

end ClassLang.Grammar
