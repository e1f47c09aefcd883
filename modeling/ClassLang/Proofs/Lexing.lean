import ClassLang.Proofs.Characters
import ClassLang.Proofs.Comments
import ClassLang.Proofs.Printable
import Std.Data.String.ToNat

/-!
How pieces of source text are read.

A piece reads as tokens if these tokens come first, whatever follows. A word or a number needs
something behind it that cannot go on with it.
-/

namespace ClassLang

open Text

namespace Token

theorem lex_nil : lex [] = [] := rfl

theorem lex_cons (c : Char) (rest : List Char) :
    lex (c :: rest) = (cut c rest).1.toList ++ lex (rest.drop (cut c rest).2) :=
  filterMap_pieces_cons cut c rest

theorem not_continuesWord_quote : continuesWord '"' = false := by decide +kernel

/-- What comes first does not go on with a word or a number. -/
def Breaks (text : List Char) : Prop :=
  ∀ c ∈ text.head?, continuesWord c = false

@[simp] theorem breaks_cons {c : Char} {rest : List Char} :
    Breaks (c :: rest) ↔ continuesWord c = false := by
  simp [Breaks]

theorem Breaks.not_isDigit {text : List Char} (breaks : Breaks text) :
    ∀ d ∈ text.head?, d.isDigit = false := by
  intro d membership
  apply Bool.eq_false_iff.mpr
  intro digit
  have goesOn := continuesWord_of_isDigit digit
  rw [breaks d membership] at goesOn
  contradiction

theorem lex_blank {c : Char} (blank : isBlank c = true) (rest : List Char) :
    lex (c :: rest) = lex rest := by
  rw [lex_cons]
  simp [cut, blank]

theorem lex_symbol (symbol : Symbol) (rest : List Char) :
    lex (symbol.char :: rest) = .symbol symbol :: lex rest := by
  obtain ⟨noBlank, noQuote, noDigit, noLetter, -⟩ := symbol_class symbol
  rw [lex_cons]
  simp [cut, noBlank, noQuote, noDigit, noLetter]

theorem cut_string {inside : List Char} (unquoted : '"' ∉ inside) (after : List Char) :
    cut '"' (inside ++ '"' :: after) =
      (some (.string (String.ofList inside)), inside.length + 1) := by
  have noBlank : isBlank '"' = false := by decide
  have taken : (inside ++ '"' :: after).takeWhile (fun c => !decide (c = '"')) = inside := by
    apply takeWhile_append_of_breaks
    · intro c membership
      have other : c ≠ '"' := fun quote => unquoted (quote ▸ membership)
      simpa using other
    · simp
  simp [cut, noBlank, taken]

theorem lex_string {text : List Char} (unquoted : '"' ∉ text) (rest : List Char) :
    lex ('"' :: text ++ '"' :: rest) = .string (String.ofList text) :: lex rest := by
  rw [List.cons_append, lex_cons, cut_string unquoted]
  simp

theorem lex_word {c : Char} {word rest : List Char} (starts : startsWord c = true)
    (goesOn : ∀ d ∈ word, continuesWord d = true) (breaks : Breaks rest) :
    lex (c :: word ++ rest) = ofWord (String.ofList (c :: word)) :: lex rest := by
  obtain ⟨noBlank, noQuote, noDigit⟩ := not_startsWord starts
  rw [List.cons_append, lex_cons]
  simp [cut, noBlank, noQuote, noDigit, starts, takeWhile_append_of_breaks goesOn breaks]

theorem lex_number {c : Char} {digits rest : List Char} (first : c.isDigit = true)
    (others : ∀ d ∈ digits, d.isDigit = true) (stops : ∀ d ∈ rest.head?, d.isDigit = false) :
    lex (c :: digits ++ rest) = .int (decimal (c :: digits)) :: lex rest := by
  obtain ⟨noBlank, noQuote⟩ := not_isDigit first
  rw [List.cons_append, lex_cons]
  simp [cut, noBlank, noQuote, first, takeWhile_append_of_breaks others stops]

theorem decimal_eq_ofNat (digits : List Char) :
    decimal digits = UInt32.ofNat (Nat.ofDigitChars 10 digits 0) := by
  have general : ∀ (digits : List Char) (value : Nat),
      digits.foldl (fun value digit => value * 10 + UInt32.ofNat (digit.toNat - '0'.toNat))
        (UInt32.ofNat value) = UInt32.ofNat (Nat.ofDigitChars 10 digits value) := by
    intro digits
    induction digits with
    | nil => intro value; rfl
    | cons digit rest inductionHypothesis =>
        intro value
        rw [List.foldl_cons, Nat.ofDigitChars_cons, ← inductionHypothesis]
        congr 1
        simp [Nat.mul_comm]
  exact general digits 0

end Token

/-- Whatever follows, the text holds no comment and reads as the tokens. -/
structure ClosedAs (text : String) (tokens : List Token) : Prop where
  kept : ∀ rest, Comment.kept (text.toList ++ rest) = text.toList ++ Comment.kept rest
  lexed : ∀ rest, Token.lex (text.toList ++ rest) = tokens ++ Token.lex rest

/-- The text holds no comment, and reads as the tokens if what follows does not go on with a
word. -/
structure ReadsAs (text : String) (tokens : List Token) : Prop where
  kept : ∀ rest, Comment.kept (text.toList ++ rest) = text.toList ++ Comment.kept rest
  lexed : ∀ rest, Token.Breaks rest →
    Token.lex (text.toList ++ rest) = tokens ++ Token.lex rest

section

variable {first second : String} {firstTokens secondTokens : List Token}

theorem ClosedAs.as {tokens : List Token} (closed : ClosedAs first firstTokens)
    (same : firstTokens = tokens) : ClosedAs first tokens :=
  same ▸ closed

theorem ClosedAs.reads (closed : ClosedAs first firstTokens) : ReadsAs first firstTokens where
  kept := closed.kept
  lexed rest _ := closed.lexed rest

theorem closed_empty : ClosedAs "" [] where
  kept _ := rfl
  lexed _ := rfl

theorem kept_append
    (keptFirst : ∀ rest, Comment.kept (first.toList ++ rest) = first.toList ++ Comment.kept rest)
    (keptSecond : ∀ rest,
      Comment.kept (second.toList ++ rest) = second.toList ++ Comment.kept rest)
    (rest : List Char) :
    Comment.kept ((first ++ second).toList ++ rest) =
      (first ++ second).toList ++ Comment.kept rest := by
  rw [String.toList_append, List.append_assoc, keptFirst, keptSecond, List.append_assoc]

theorem ClosedAs.append (closedFirst : ClosedAs first firstTokens)
    (closedSecond : ClosedAs second secondTokens) :
    ClosedAs (first ++ second) (firstTokens ++ secondTokens) where
  kept := kept_append closedFirst.kept closedSecond.kept
  lexed rest := by
    rw [String.toList_append, List.append_assoc, closedFirst.lexed, closedSecond.lexed,
      List.append_assoc]

theorem ClosedAs.append_reads (closed : ClosedAs first firstTokens)
    (reads : ReadsAs second secondTokens) :
    ReadsAs (first ++ second) (firstTokens ++ secondTokens) where
  kept := kept_append closed.kept reads.kept
  lexed rest breaks := by
    rw [String.toList_append, List.append_assoc, closed.lexed, reads.lexed rest breaks,
      List.append_assoc]

/-- A text that starts with a break closes the one before. -/
theorem ReadsAs.append_closed (reads : ReadsAs first firstTokens)
    (closed : ClosedAs second secondTokens)
    (breaks : ∀ rest, Token.Breaks (second.toList ++ rest)) :
    ClosedAs (first ++ second) (firstTokens ++ secondTokens) where
  kept := kept_append reads.kept closed.kept
  lexed rest := by
    rw [String.toList_append, List.append_assoc, reads.lexed _ (breaks rest), closed.lexed,
      List.append_assoc]

end

/-! Words and numbers. -/

theorem kept_of_no_slash {text : String} (noSlash : '/' ∉ text.toList) (rest : List Char) :
    Comment.kept (text.toList ++ rest) = text.toList ++ Comment.kept rest := by
  apply Comment.kept_append_of_clean
  · exact ⟨fun opening => noSlash (opening.subset (by simp)),
      fun opening => noSlash (opening.subset (by simp))⟩
  · intro slash
    exact absurd (List.mem_of_getLast? slash) noSlash

theorem not_continuesWord_slash : Token.continuesWord '/' = false := by decide +kernel

theorem reads_word {text : String} {first : Char} {others : List Char}
    (shape : text.toList = first :: others) (starts : Token.startsWord first = true)
    (goesOn : ∀ c ∈ others, Token.continuesWord c = true) :
    ReadsAs text [Token.ofWord text] where
  kept := by
    apply kept_of_no_slash
    intro slash
    rw [shape] at slash
    have continues : Token.continuesWord '/' = true := by
      rcases List.mem_cons.mp slash with rfl | inside
      · exact Token.continuesWord_of_startsWord starts
      · exact goesOn _ inside
    rw [not_continuesWord_slash] at continues
    contradiction
  lexed rest breaks := by
    rw [shape, Token.lex_word starts goesOn breaks, ← shape, String.ofList_toList]
    rfl

theorem IsName.reads {name : String} (isName : IsName name) :
    ReadsAs name [.identifier name] := by
  obtain ⟨⟨first, others, shape, starts, goesOn⟩, noKeyword⟩ := isName
  have identifies : Token.ofWord name = .identifier name := by
    have unknown : Keyword.ofWord? name = none := by
      simpa [Keyword.ofWord?] using noKeyword
    simp [Token.ofWord, unknown]
  rw [← identifies]
  exact reads_word shape starts goesOn

theorem Keyword.reads (keyword : Keyword) : ReadsAs keyword.word [.keyword keyword] := by
  have identifies : Token.ofWord keyword.word = .keyword keyword := by simp [Token.ofWord]
  have isWord : ∀ keyword ∈ Keyword.all, keyword.word.toList ≠ [] ∧
      keyword.word.toList.head?.all Token.startsWord ∧
      keyword.word.toList.tail.all Token.continuesWord := by decide +kernel
  obtain ⟨nonempty, starts, goesOn⟩ := isWord keyword (Keyword.mem_all keyword)
  obtain ⟨first, others, shape⟩ := List.exists_cons_of_ne_nil nonempty
  rw [shape] at starts goesOn
  rw [← identifies]
  exact reads_word shape (by simpa using starts) (by simpa using goesOn)

theorem reads_number (value : UInt32) : ReadsAs (toString value.toNat) [.int value] := by
  have digits : (toString value.toNat).toList = Nat.toDigits 10 value.toNat := Nat.toList_repr
  have allDigits : ∀ c ∈ Nat.toDigits 10 value.toNat, c.isDigit = true :=
    fun c membership => Nat.isDigit_of_mem_toDigits (by decide) (by decide) membership
  obtain ⟨first, others, shape⟩ :=
    List.exists_cons_of_ne_nil (show Nat.toDigits 10 value.toNat ≠ [] from Nat.toDigits_ne_nil)
  have same : Token.decimal (first :: others) = value := by
    rw [← shape, Token.decimal_eq_ofNat, Nat.ofDigitChars_ten_toDigits, UInt32.ofNat_toNat]
  constructor
  · apply kept_of_no_slash
    rw [digits]
    intro slash
    exact absurd (allDigits _ slash) (by decide)
  · intro rest breaks
    rw [digits, shape, Token.lex_number (allDigits first (by simp [shape])) ?_ breaks.not_isDigit,
      same]
    · rfl
    · intro c membership
      exact allDigits c (by simp [shape, membership])

/-! Strings and marks. -/

/-- Between quotes, nothing opens a comment. -/
theorem kept_quoted {chars : List Char} (clean : Clean chars) (rest : List Char) :
    Comment.kept (chars ++ '"' :: rest) = chars ++ '"' :: Comment.kept rest := by
  rw [Comment.kept_append_of_clean clean, Comment.kept_cons (by decide)]
  simp

theorem Quotable.closed {text : String} (quotable : Quotable text) :
    ClosedAs ("\"" ++ text ++ "\"") [.string text] := by
  obtain ⟨unquoted, clean⟩ := quotable
  have shape : ("\"" ++ text ++ "\"").toList = '"' :: text.toList ++ ['"'] := by simp
  constructor
  · intro rest
    rw [shape, List.append_assoc, List.cons_append, Comment.kept_cons (by decide),
      List.singleton_append, kept_quoted clean]
    simp
  · intro rest
    rw [shape, List.append_assoc, List.singleton_append, Token.lex_string unquoted,
      String.ofList_toList]
    rfl

/-- Blanks and symbols other than the slash. -/
def isMark (c : Char) : Bool :=
  isBlank c || (Symbol.ofChar? c).isSome && c != '/'

/-- The symbols among the characters. -/
def marks (text : String) : List Token :=
  (text.toList.filterMap Symbol.ofChar?).map .symbol

theorem closed_marks {text : String} (allMarks : text.toList.all isMark = true) :
    ClosedAs text (marks text) := by
  have each : ∀ c ∈ text.toList, isMark c = true := List.all_eq_true.mp allMarks
  constructor
  · apply kept_of_no_slash
    intro slash
    exact absurd (each _ slash) (by decide)
  · intro rest
    rw [marks]
    generalize text.toList = chars at each
    induction chars with
    | nil => rfl
    | cons c others inductionHypothesis =>
        have later := inductionHypothesis fun d membership => each d (by simp [membership])
        rcases Bool.or_eq_true_iff.mp (each c (by simp)) with blank | other
        · have noSymbol : Symbol.ofChar? c = none := by
            cases found : Symbol.ofChar? c with
            | none => rfl
            | some symbol =>
                obtain rfl := Symbol.ofChar?_eq_some_iff.mp found
                rw [(Token.symbol_class symbol).1] at blank
                contradiction
          rw [List.cons_append, Token.lex_blank blank, later]
          simp [noSymbol]
        · obtain ⟨symbol, found⟩ := Option.isSome_iff_exists.mp (Bool.and_eq_true_iff.mp other).1
          obtain rfl := Symbol.ofChar?_eq_some_iff.mp found
          rw [List.cons_append, Token.lex_symbol, later]
          simp

theorem not_continuesWord_of_isMark {c : Char} (mark : isMark c = true) :
    Token.continuesWord c = false := by
  rcases Bool.or_eq_true_iff.mp mark with blank | other
  · exact Token.not_continuesWord_of_isBlank blank
  · obtain ⟨symbol, found⟩ := Option.isSome_iff_exists.mp (Bool.and_eq_true_iff.mp other).1
    obtain rfl := Symbol.ofChar?_eq_some_iff.mp found
    exact (Token.symbol_class symbol).2.2.2.2

/-- Marks close a word before them. -/
theorem ReadsAs.append_marks {first : String} {tokens : List Token}
    (reads : ReadsAs first tokens) (text : String) (allMarks : text.toList.all isMark = true)
    (nonempty : text.toList ≠ []) : ClosedAs (first ++ text) (tokens ++ marks text) := by
  refine reads.append_closed (closed_marks allMarks) fun rest => ?_
  obtain ⟨c, others, shape⟩ := List.exists_cons_of_ne_nil nonempty
  rw [shape] at allMarks ⊢
  simp only [List.all_cons, Bool.and_eq_true] at allMarks
  simpa using not_continuesWord_of_isMark allMarks.1

theorem Keyword.closed (keyword : Keyword) : ClosedAs (keyword.word ++ " ") [.keyword keyword] :=
  keyword.reads.append_marks " " (by decide) (by decide)

/-- A binary operator is printed with a blank behind it, so that a slash opens no comment. -/
theorem BinaryOp.closed (op : BinaryOp) :
    ClosedAs (op.symbol.char.toString ++ " ") [.symbol op.symbol] where
  kept rest := by
    have shape : (op.symbol.char.toString ++ " ").toList = [op.symbol.char, ' '] := by simp
    have blank : Comment.kept (' ' :: rest) = ' ' :: Comment.kept rest :=
      Comment.kept_cons (by decide) rest
    rw [shape]
    by_cases slash : op.symbol.char = '/'
    · rw [slash]
      change Comment.kept ('/' :: ' ' :: rest) = _
      rw [Comment.kept_single (by simp), blank]
      rfl
    · change Comment.kept (op.symbol.char :: ' ' :: rest) = _
      rw [Comment.kept_cons slash, blank]
      rfl
  lexed rest := by
    have shape : (op.symbol.char.toString ++ " ").toList = [op.symbol.char, ' '] := by simp
    rw [shape]
    change Token.lex (op.symbol.char :: ' ' :: rest) = _
    rw [Token.lex_symbol, Token.lex_blank (by decide)]
    rfl

theorem ClosedAs.tokenize {text : String} {tokens : List Token} (closed : ClosedAs text tokens) :
    Token.tokenize text = tokens := by
  have kept := closed.kept []
  have lexed := closed.lexed []
  rw [List.append_nil, Comment.kept_nil, List.append_nil] at kept
  rw [List.append_nil, Token.lex_nil, List.append_nil] at lexed
  rw [Token.tokenize, Comment.strip_eq, String.toList_ofList, kept, lexed]

/-! Every token comes from a text without comments, so its name or its string is one that could
be printed. -/

namespace Token

/-- What the lexer makes of a name or a string can be printed. -/
def Valid : Token → Prop
  | .identifier name => IsName name
  | .string text => Quotable text
  | _ => True

/-- Every token starts somewhere in the text. -/
theorem exists_cut_of_mem_lex {token : Token} {text : List Char} (membership : token ∈ lex text) :
    ∃ c rest, c :: rest <:+ text ∧ (cut c rest).1 = some token := by
  induction text using pieces_induction cut with
  | nil => simp [lex_nil] at membership
  | piece c rest inductionHypothesis =>
      rw [lex_cons, List.mem_append] at membership
      rcases membership with here | later
      · exact ⟨c, rest, List.suffix_rfl, by simpa using here⟩
      · have dropped : rest.drop (cut c rest).2 <:+ c :: rest :=
          (List.drop_suffix _ rest).trans (List.suffix_cons c rest)
        obtain ⟨d, others, suffix, found⟩ := inductionHypothesis later
        exact ⟨d, others, suffix.trans dropped, found⟩

theorem valid_ofWord {c : Char} {word : List Char} (starts : startsWord c = true)
    (goesOn : ∀ d ∈ word, continuesWord d = true) :
    (ofWord (String.ofList (c :: word))).Valid := by
  unfold ofWord
  split
  · trivial
  · next unknown =>
    refine ⟨⟨c, word, by simp, starts, goesOn⟩, fun keyword _ same => ?_⟩
    rw [Keyword.ofWord?_eq_some_iff.mpr same] at unknown
    contradiction

theorem valid_of_cut {token : Token} {c : Char} {rest : List Char} (clean : Clean rest)
    (found : (cut c rest).1 = some token) : token.Valid := by
  simp only [cut] at found
  split at found
  · contradiction
  · split at found
    · split at found
      · cases found
        have before : rest.takeWhile (· ≠ '"') <:+: rest := (List.takeWhile_prefix _).isInfix
        have unquoted : '"' ∉ rest.takeWhile (· ≠ '"') := by
          intro quote
          simpa using List.all_eq_true.mp List.all_takeWhile _ quote
        simp only [Valid, Quotable, String.toList_ofList]
        exact ⟨unquoted, clean.within before⟩
      · contradiction
    · split at found
      · cases found
        trivial
      · split at found
        · next starts =>
          cases found
          exact valid_ofWord starts (List.all_eq_true.mp List.all_takeWhile)
        · obtain ⟨symbol, -, rfl⟩ := Option.map_eq_some_iff.mp found
          trivial

theorem tokenize_valid (source : String) : ∀ token ∈ tokenize source, token.Valid := by
  intro token membership
  rw [tokenize, Comment.strip_eq, String.toList_ofList] at membership
  obtain ⟨c, rest, suffix, found⟩ := exists_cut_of_mem_lex membership
  have inside : rest <:+: Comment.kept source.toList :=
    ((List.suffix_cons c rest).trans suffix).isInfix
  exact valid_of_cut ((Comment.kept_clean _).within inside) found

end Token

end ClassLang
