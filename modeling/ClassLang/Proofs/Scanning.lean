import ClassLang.Proofs.CursorRuns
import ClassLang.Proofs.Lexing

/-!
Comments and tokens found by a cursor.

Taking out comments and finding tokens can be done by a cursor that runs over the text once. These
runs end, they never ask for a lexeme that is not there, and each of their rounds takes the next
piece of the text.
-/

namespace ClassLang

namespace Comment

open Text Scan

/-- Pass over the rest of a block comment. -/
def closeBlock : Scan Unit :=
  loop (fun _ => do
    match ← act Cursor.advance with
    | some '*' => return if ← act (Cursor.advanceIf '/') then .inl () else .inr ()
    | some _ => return .inr ()
    | none => return .inl ()) ()

/-- What becomes of a character that has just been read. -/
def round (c : Char) : Scan (Option Char) := do
  match c, ← look Cursor.peek with
  | '/', some '/' =>
      let _ ← advanceWhile (· ≠ '\n')
      return none
  | '/', some '*' =>
      let _ ← act Cursor.advance
      closeBlock
      return none
  | c, _ => return some c

def scan : Scan (List (Round (Option Char))) := rounds (step (act Cursor.advance) round)

variable {text : List Char}

theorem blockLength_add (first second : Nat) (rest : List Char) :
    blockLength (first + second) rest = first + blockLength second rest := by
  fun_induction blockLength second rest with
  | case1 => rfl
  | case2 => rfl
  | case3 second c others noEnd inductionHypothesis =>
      rw [blockLength, Nat.add_assoc, inductionHypothesis]
      exact noEnd

theorem closeBlock_scans {position : Nat} {rest : List Char} (inside : position ≤ text.length)
    (ahead : text.drop position = rest) :
    Scans closeBlock text position () (blockLength position rest) := by
  induction rest generalizing position with
  | nil =>
      obtain rfl : position = text.length :=
        Nat.le_antisymm inside (List.drop_eq_nil_iff.mp ahead)
      exact scans_loop_done (scans_advance_end.bind (scans_pure _ _))
  | cons c rest inductionHypothesis =>
      have behind := drop_succ_of_drop ahead
      have goesOn := inductionHypothesis (lt_length_of_drop ahead) behind
      by_cases star : c = '*'
      · subst star
        by_cases slash : rest.head? = some '/'
        · obtain ⟨others, rfl⟩ := List.head?_eq_some_iff.mp slash
          exact scans_loop_done
            ((scans_advance ahead).bind ((scans_advanceIf behind).bind (scans_pure _ _)))
        · rw [blockLength_cons fun _ => slash]
          have noSlash : (text.drop (position + 1)).head? ≠ some '/' := by rwa [behind]
          exact scans_loop_again ((scans_advance ahead).bind
            ((scans_advanceIf_other (lt_length_of_drop ahead) noSlash).bind (scans_pure _ _))) goesOn
      · rw [blockLength_cons fun isStar => absurd isStar star]
        refine scans_loop_again ((scans_advance ahead).bind ?_) goesOn
        split
        case h_1 isStar => exact absurd (Option.some.inj isStar) star
        case h_2 => exact scans_pure _ _
        case h_3 nothing => cases nothing

theorem round_scans {position : Nat} {c : Char} {rest : List Char}
    (ahead : text.drop position = c :: rest) :
    Scans (Comment.round c) text (position + 1) (cut c rest).1
      (position + 1 + (cut c rest).2) := by
  have behind := drop_succ_of_drop ahead
  rw [Comment.round]
  refine (scans_peek _).bind ?_
  rw [behind]
  obtain ⟨-, rfl, d, first, opens⟩ | ⟨single, noOpening⟩ := cut_cases c rest
  · obtain ⟨others, rfl⟩ := List.head?_eq_some_iff.mp first
    obtain rfl | rfl := opens
    · have done := advanceWhile_eq (· ≠ '\n') (Nat.succ_le_of_lt (lt_length_of_drop ahead))
      rw [behind, List.takeWhile_cons_of_pos (by decide)] at done
      exact (scans_advanceWhile done).bind (scans_pure _ _)
    · have closed := closeBlock_scans (lt_length_of_drop behind) (drop_succ_of_drop behind)
      rw [Nat.succ_eq_add_one, blockLength_add (position + 1) 1] at closed
      exact (scans_advance behind).bind (closed.bind (scans_pure _ _))
  · rw [single]
    split
    case h_1 first => exact absurd rfl (noOpening rfl _ first).1
    case h_2 first => exact absurd rfl (noOpening rfl _ first).2
    case h_3 => exact scans_pure _ _

theorem follows : Follows (step (act Cursor.advance) Comment.round) cut where
  ends _ := scans_step_end scans_advance_end _
  piece ahead := scans_step (scans_advance ahead) (round_scans ahead)

end Comment

namespace Token

open Text Scan

/-- A string, behind its opening quote. -/
def scanString : Scan (Option Token) := do
  match ← look (Cursor.find? · '"') with
  | some stop =>
      let text ← lexeme (← look Cursor.position) stop
      act fun cursor => ((), cursor.seek (stop + 1))
      return some (.string text)
  | none => return none

def scanNumber : Scan (Option Token) := do
  return some (.int (decimal (← advanceWhile Char.isDigit).toList))

def scanWord : Scan (Option Token) := do
  return some (ofWord (← advanceWhile continuesWord))

/-- What starts with a character that has not been read yet. -/
def round (c : Char) : Scan (Option Token) := do
  if isBlank c then
    let _ ← act Cursor.advance
    return none
  else if c = '"' then
    let _ ← act Cursor.advance
    scanString
  else if c.isDigit then
    scanNumber
  else if startsWord c then
    scanWord
  else
    let _ ← act Cursor.advance
    return (Symbol.ofChar? c).map .symbol

def scan : Scan (List (Round (Option Token))) := rounds (step (look Cursor.peek) round)

variable {text : List Char}

/-- A run of characters of a kind, read from its first one on. -/
theorem scans_run {kind : Char → Bool} {position : Nat} {c : Char} {rest : List Char}
    (ahead : text.drop position = c :: rest) (first : kind c = true) :
    Scans (advanceWhile kind) text position (String.ofList (c :: rest.takeWhile kind))
      (position + 1 + (rest.takeWhile kind).length) := by
  have done := advanceWhile_eq kind (Nat.le_of_lt (lt_length_of_drop ahead))
  rw [ahead, List.takeWhile_cons_of_pos first, List.length_cons, Nat.add_comm _ 1,
    ← Nat.add_assoc] at done
  exact scans_advanceWhile done

theorem idxOf?_append {c : Char} {inside : List Char} (absent : c ∉ inside) (after : List Char) :
    (inside ++ c :: after).idxOf? c = some inside.length := by
  induction inside with
  | nil => simp [List.idxOf?_cons]
  | cons d inside inductionHypothesis =>
      obtain ⟨other, absent⟩ := not_or.mp (mt List.mem_cons.mpr absent)
      simp [List.idxOf?_cons, Ne.symm other, inductionHypothesis absent]

theorem scanString_closed {position : Nat} {inside after : List Char}
    (ahead : text.drop position = inside ++ '"' :: after) (unquoted : '"' ∉ inside) :
    Scans scanString text position (some (.string (String.ofList inside)))
      (position + inside.length + 1) := by
  have found : Cursor.find? ⟨text, position⟩ '"' = some (position + inside.length) := by
    simp [Cursor.find?, Cursor.rest, ahead, idxOf?_append unquoted]
  have lengths := congrArg List.length ahead
  simp only [List.length_drop, List.length_append, List.length_cons] at lengths
  have taken : (text.drop position).take (position + inside.length - position) = inside := by
    rw [ahead, Nat.add_sub_cancel_left, List.take_left]
  have lexeme : Scans (lexeme position (position + inside.length)) text position _ position :=
    scans_lexeme (Nat.le_add_right _ _) (by omega) position
  rw [taken] at lexeme
  have moved : Scans (act fun cursor => ((), cursor.seek (position + inside.length + 1))) text
      position () (position + inside.length + 1) := scans_act rfl (by omega) (by omega)
  rw [scanString]
  refine (scans_look _ position).bind ?_
  rw [found]
  exact (scans_look Cursor.position position).bind (lexeme.bind (moved.bind (scans_pure _ _)))

theorem scanString_open {position : Nat} {rest : List Char} (ahead : text.drop position = rest)
    (unclosed : '"' ∉ rest) : Scans scanString text position none position := by
  have found : Cursor.find? ⟨text, position⟩ '"' = none := by
    simpa [Cursor.find?, Cursor.rest, ahead] using unclosed
  rw [scanString]
  refine (scans_look _ position).bind ?_
  rw [found]
  exact scans_pure _ _

theorem round_quote {position : Nat} {rest : List Char} (ahead : text.drop position = '"' :: rest) :
    Scans (Token.round '"') text position (cut '"' rest).1 (position + 1 + (cut '"' rest).2) := by
  have noBlank : isBlank '"' = false := by decide
  have entered : Token.round '"' = (do let _ ← act Cursor.advance; scanString) := by
    simp [Token.round, noBlank]
  rw [entered]
  refine (scans_advance ahead).bind ?_
  by_cases closed : '"' ∈ rest
  · obtain ⟨inside, after, rfl, unquoted⟩ := List.eq_append_cons_of_mem closed
    rw [cut_string unquoted after]
    exact scanString_closed (drop_succ_of_drop ahead) unquoted
  · have nothing : cut '"' rest = (none, 0) := by simp [cut, noBlank, closed]
    rw [nothing]
    exact scanString_open (drop_succ_of_drop ahead) closed

theorem round_scans {position : Nat} {c : Char} {rest : List Char}
    (ahead : text.drop position = c :: rest) :
    Scans (Token.round c) text position (cut c rest).1 (position + 1 + (cut c rest).2) := by
  by_cases quote : c = '"'
  · subst quote
    exact round_quote ahead
  · rw [Token.round, cut, if_neg quote, if_neg quote]
    by_cases blank : isBlank c = true
    · rw [if_pos blank, if_pos blank]
      exact (scans_advance ahead).bind (scans_pure _ _)
    · rw [if_neg blank, if_neg blank]
      by_cases digit : c.isDigit = true
      · rw [if_pos digit, if_pos digit]
        refine (scans_run ahead digit).bind ?_
        rw [String.toList_ofList]
        exact scans_pure _ _
      · rw [if_neg digit, if_neg digit]
        by_cases letter : startsWord c = true
        · rw [if_pos letter, if_pos letter]
          exact (scans_run ahead (continuesWord_of_startsWord letter)).bind (scans_pure _ _)
        · rw [if_neg letter, if_neg letter]
          exact (scans_advance ahead).bind (scans_pure _ _)

theorem follows : Follows (step (look Cursor.peek) Token.round) cut where
  ends text := by
    have finished : Scans (look Cursor.peek) text text.length _ _ := scans_peek text.length
    rw [List.drop_length] at finished
    exact scans_step_end finished _
  piece {text position c rest} ahead := by
    have next : Scans (look Cursor.peek) text position _ _ := scans_peek position
    rw [ahead, List.head?_cons] at next
    exact scans_step next (round_scans ahead)

end Token

/-- Scanning a source for comments, and what is left of it for tokens, is safe and makes progress.
What the scans find is the text without comments, and its tokens. -/
theorem scans_cover_source (source : String) :
    (∃ values, Text.Sweeps Comment.scan source.toList values ∧
      Comment.strip source = String.ofList (values.filterMap id)) ∧
    (∃ values, Text.Sweeps Token.scan (Comment.strip source).toList values ∧
      Token.tokenize source = values.filterMap id) :=
  ⟨⟨_, Comment.follows.sweeps _, rfl⟩, ⟨_, Token.follows.sweeps _, rfl⟩⟩

end ClassLang
