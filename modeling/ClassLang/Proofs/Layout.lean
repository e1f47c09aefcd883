import ClassLang.Proofs.Lexing
import Mathlib.Data.List.Chain

/-!
The layout of a source text does not matter.

A text is written lexeme by lexeme, with blanks before, between and behind them. The blanks
between two lexemes may be missing wherever the first one cannot go on with the second. Lexing
finds the same tokens in every such text, as long as nothing in it opens a comment.
-/

namespace ClassLang

open Text

/-- What is written for one token. -/
inductive Lexeme where
  | word (first : Char) (others : List Char) (starts : Token.startsWord first = true)
      (goesOn : others.all Token.continuesWord = true)
  | number (first : Char) (others : List Char)
      (digits : (first :: others).all Char.isDigit = true)
  | string (text : String) (unquoted : '"' ∉ text.toList)
  | symbol (mark : Symbol)

namespace Lexeme

def chars : Lexeme → List Char
  | .word first others _ _ => first :: others
  | .number first others _ => first :: others
  | .string text _ => '"' :: text.toList ++ ['"']
  | .symbol mark => [mark.char]

/-- A word stands for the keyword that it spells, or else for a name, and a number for its value
modulo `2 ^ 32`. -/
def token : Lexeme → Token
  | .word first others _ _ => .ofWord (String.ofList (first :: others))
  | .number first others _ => .int (UInt32.ofNat (Nat.ofDigitChars 10 (first :: others) 0))
  | .string text _ => .string text
  | .symbol mark => .symbol mark

/-- The first lexeme goes on with the second if nothing stands between them. -/
def runsInto : Lexeme → Lexeme → Bool
  | .word .., .word .. => true
  | .word .., .number .. => true
  | .number .., .number .. => true
  | _, _ => false

def goesOnWith : Lexeme → Char → Bool
  | .word .., c => Token.continuesWord c
  | .number .., c => c.isDigit
  | .string .., _ => false
  | .symbol _, _ => false

theorem exists_chars (lexeme : Lexeme) : ∃ first others, lexeme.chars = first :: others := by
  cases lexeme with
  | word first others _ _ => exact ⟨first, others, rfl⟩
  | number first others _ => exact ⟨first, others, rfl⟩
  | string text _ => exact ⟨'"', text.toList ++ ['"'], rfl⟩
  | symbol mark => exact ⟨mark.char, [], rfl⟩

/-- A lexeme is read whole if it does not go on with what follows. -/
theorem lex_chars (lexeme : Lexeme) {rest : List Char}
    (stops : ∀ c ∈ rest.head?, lexeme.goesOnWith c = false) :
    Token.lex (lexeme.chars ++ rest) = lexeme.token :: Token.lex rest := by
  cases lexeme with
  | word first others starts goesOn =>
      exact Token.lex_word starts (List.all_eq_true.mp goesOn) stops
  | number first others digits =>
      rw [List.all_eq_true, List.forall_mem_cons] at digits
      rw [chars, Token.lex_number digits.1 digits.2 stops, Token.decimal_eq_ofNat, token]
  | string text unquoted =>
      rw [chars, List.append_assoc, List.singleton_append, Token.lex_string unquoted,
        String.ofList_toList, token]
  | symbol mark => exact Token.lex_symbol mark rest

theorem goesOnWith_blank (lexeme : Lexeme) {c : Char} (blank : isBlank c = true) :
    lexeme.goesOnWith c = false := by
  have noWord := Token.not_continuesWord_of_isBlank blank
  cases lexeme with
  | word first others starts goesOn => exact noWord
  | number first others digits =>
      have breaks : Token.Breaks [c] := Token.breaks_cons.mpr noWord
      exact breaks.not_isDigit c rfl
  | string text unquoted => rfl
  | symbol mark => rfl

/-- No lexeme goes on with the first character of another, unless it runs into it. -/
theorem goesOnWith_next (lexeme next : Lexeme) (apart : lexeme.runsInto next = false) {c : Char}
    (first : c ∈ next.chars.head?) : lexeme.goesOnWith c = false := by
  cases lexeme with
  | word _ _ _ _ =>
      cases next with
      | word _ _ _ _ => simp [runsInto] at apart
      | number _ _ _ => simp [runsInto] at apart
      | string text _ =>
          obtain rfl : '"' = c := by simpa [chars] using first
          exact Token.not_continuesWord_quote
      | symbol mark =>
          obtain rfl : mark.char = c := by simpa [chars] using first
          exact (Token.symbol_class mark).2.2.2.2
  | number _ _ _ =>
      cases next with
      | word head _ starts _ =>
          obtain rfl : head = c := by simpa [chars] using first
          exact (Token.not_startsWord starts).2.2
      | number _ _ _ => simp [runsInto] at apart
      | string text _ =>
          obtain rfl : '"' = c := by simpa [chars] using first
          rfl
      | symbol mark =>
          obtain rfl : mark.char = c := by simpa [chars] using first
          exact (Token.symbol_class mark).2.2.1
  | string _ _ => rfl
  | symbol _ => rfl

end Lexeme

/-- Blanks, or nothing. -/
structure Gap where
  chars : List Char
  blank : chars.all isBlank = true

theorem Gap.lex_chars (gap : Gap) (rest : List Char) :
    Token.lex (gap.chars ++ rest) = Token.lex rest := by
  obtain ⟨chars, blank⟩ := gap
  induction chars with
  | nil => rfl
  | cons c others inductionHypothesis =>
      rw [List.all_cons, Bool.and_eq_true] at blank
      rw [List.cons_append, Token.lex_blank blank.1]
      exact inductionHypothesis blank.2

/-- Lexemes with what stands behind each of them. -/
abbrev Layout : Type := List (Lexeme × Gap)

namespace Layout

def chars (layout : Layout) : List Char :=
  layout.flatMap fun item => item.1.chars ++ item.2.chars

/-- Something stands between two lexemes wherever the first would run into the second. -/
def Separated (layout : Layout) : Prop :=
  layout.IsChain fun item next => item.1.runsInto next.1 = true → item.2.chars ≠ []

instance (layout : Layout) : Decidable layout.Separated :=
  inferInstanceAs (Decidable (layout.IsChain fun item next =>
    item.1.runsInto next.1 = true → item.2.chars ≠ []))

/-- What follows a lexeme does not go on with it. -/
theorem Separated.stops {lexeme : Lexeme} {gap : Gap} {rest : Layout}
    (separated : Separated ((lexeme, gap) :: rest)) :
    ∀ c ∈ (gap.chars ++ rest.chars).head?, lexeme.goesOnWith c = false := by
  intro c first
  by_cases joined : gap.chars = []
  · rw [joined, List.nil_append] at first
    cases rest with
    | nil => simp [chars] at first
    | cons next more =>
        apply lexeme.goesOnWith_next next.1
        · apply Bool.eq_false_iff.mpr
          intro runs
          exact (List.isChain_cons_cons.mp separated).1 runs joined
        · obtain ⟨head, others, shape⟩ := next.1.exists_chars
          simpa [chars, shape] using first
  · obtain ⟨d, others, shape⟩ := List.exists_cons_of_ne_nil joined
    apply lexeme.goesOnWith_blank
    apply List.all_eq_true.mp gap.blank
    have same : d = c := by simpa [shape] using first
    simp [shape, same]

theorem lex_layout {layout : Layout} (separated : layout.Separated) :
    Token.lex layout.chars = layout.map fun item => item.1.token := by
  induction layout with
  | nil => rfl
  | cons item rest inductionHypothesis =>
      obtain ⟨lexeme, gap⟩ := item
      have later := inductionHypothesis separated.tail
      calc Token.lex (chars ((lexeme, gap) :: rest))
          = Token.lex (lexeme.chars ++ (gap.chars ++ chars rest)) := by
            simp [chars]
        _ = lexeme.token :: Token.lex (gap.chars ++ chars rest) :=
            lexeme.lex_chars separated.stops
        _ = lexeme.token :: Token.lex (chars rest) := by rw [gap.lex_chars]
        _ = lexeme.token :: rest.map fun item => item.1.token := by rw [later]

end Layout

/-- Lexing recovers the tokens that were written, whatever the layout. -/
theorem Layout.tokenize_recovers_tokens (lead : Gap) (layout : Layout)
    (separated : layout.Separated) (clean : Clean (lead.chars ++ layout.chars)) :
    Token.tokenize (String.ofList (lead.chars ++ layout.chars)) =
      layout.map fun item => item.1.token := by
  have unchanged : Comment.strip (String.ofList (lead.chars ++ layout.chars)) =
      String.ofList (lead.chars ++ layout.chars) := by
    rw [Comment.strip_eq_self_iff, String.toList_ofList]
    exact clean
  rw [Token.tokenize, unchanged, String.toList_ofList, lead.lex_chars, lex_layout separated]

def Gap.none : Gap := ⟨[], rfl⟩

def Gap.space : Gap := ⟨[' '], rfl⟩

/-- Hardly any blanks, and a number that is too large. -/
def crowded : Layout :=
  [(.word 'i' ['f'] (by decide) (by decide), .none), (.symbol .leftParen, .none),
    (.word 'x' ['1'] (by decide) (by decide), .none), (.symbol .less, .none),
    (.number '4' "294967298".toList (by decide), .none),
    (.word '_' ['n'] (by decide) (by decide), .none), (.string "a b" (by decide), .none),
    (.symbol .slash, .none), (.number '2' [] (by decide), .space),
    (.number '7' [] (by decide), .none), (.symbol .rightParen, .space)]

theorem tokenize_crowded :
    Token.tokenize " if(x1<4294967298_n\"a b\"/2 7) " =
      [.keyword .if, .symbol .leftParen, .identifier "x1", .symbol .less, .int 2,
        .identifier "_n", .string "a b", .symbol .slash, .int 2, .int 7, .symbol .rightParen] :=
  Layout.tokenize_recovers_tokens .space crowded (by decide) (by decide +kernel)

end ClassLang
