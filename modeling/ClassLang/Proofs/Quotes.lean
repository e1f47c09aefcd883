import ClassLang.Proofs.Lexing

/-!
Quotes pair up from left to right.

The first quote of a text opens a string and the second one closes it, whatever stands between
them and around them, and so it goes on behind them. A quote that is left over at the end
separates like a blank.
-/

namespace ClassLang

open Text

/-- The characters stand between two neighbouring quotes, with twice the number of quotes before
them. -/
def QuotedAt (text : List Char) (number : Nat) (inside : List Char) : Prop :=
  ∃ before after, text = before ++ '"' :: (inside ++ '"' :: after) ∧
    before.count '"' = 2 * number ∧ '"' ∉ inside

/-- The number of quotes before it tells one quote from the others. -/
theorem eq_of_count_eq {before other rest later : List Char}
    (same : before ++ '"' :: rest = other ++ '"' :: later)
    (sameCount : before.count '"' = other.count '"') : before = other ∧ rest = later := by
  induction before generalizing other with
  | nil =>
      cases other with
      | nil => exact ⟨rfl, by simpa using same⟩
      | cons d more =>
          obtain ⟨rfl, -⟩ := List.cons.inj same
          simp at sameCount
  | cons c others inductionHypothesis =>
      cases other with
      | nil =>
          obtain ⟨rfl, -⟩ := List.cons.inj same
          simp at sameCount
      | cons d more =>
          obtain ⟨rfl, sameTail⟩ := List.cons.inj same
          rw [List.count_cons, List.count_cons, Nat.add_right_cancel_iff] at sameCount
          obtain ⟨rfl, rfl⟩ := inductionHypothesis sameTail sameCount
          exact ⟨rfl, rfl⟩

theorem quotedAt_skip {skipped rest inside : List Char} {number : Nat}
    (unquoted : '"' ∉ skipped) :
    QuotedAt (skipped ++ rest) number inside ↔ QuotedAt rest number inside := by
  have none : skipped.count '"' = 0 := List.count_eq_zero.mpr unquoted
  constructor
  · rintro ⟨before, after, split, counted, unquotedInside⟩
    rcases List.append_eq_append_iff.mp split with ⟨between, rfl, shape⟩ | ⟨between, rfl, shape⟩
    · rw [List.count_append, none, Nat.zero_add] at counted
      exact ⟨between, after, shape, counted, unquotedInside⟩
    · cases between with
      | nil =>
          rw [List.append_nil] at none
          exact ⟨[], after, shape.symm, by simpa [none] using counted, unquotedInside⟩
      | cons d more =>
          obtain ⟨rfl, -⟩ := List.cons.inj shape
          simp at unquoted
  · rintro ⟨before, after, rfl, counted, unquotedInside⟩
    exact ⟨skipped ++ before, after, by simp, by rw [List.count_append, none, counted]; omega,
      unquotedInside⟩

section

variable {first rest inside : List Char}

theorem quotedAt_zero_iff (unquoted : '"' ∉ first) :
    QuotedAt ('"' :: (first ++ '"' :: rest)) 0 inside ↔ first = inside := by
  constructor
  · rintro ⟨before, after, split, counted, unquotedInside⟩
    have opening : [] ++ '"' :: (first ++ '"' :: rest) =
        before ++ '"' :: (inside ++ '"' :: after) := split
    obtain ⟨-, behind⟩ := eq_of_count_eq opening (by simp [counted])
    have sameCount : first.count '"' = inside.count '"' := by
      rw [List.count_eq_zero.mpr unquoted, List.count_eq_zero.mpr unquotedInside]
    exact (eq_of_count_eq behind sameCount).1
  · rintro rfl
    exact ⟨[], rest, rfl, rfl, unquoted⟩

theorem quotedAt_succ_iff {number : Nat} (unquoted : '"' ∉ first) :
    QuotedAt ('"' :: (first ++ '"' :: rest)) (number + 1) inside ↔
      QuotedAt rest number inside := by
  have none : first.count '"' = 0 := List.count_eq_zero.mpr unquoted
  constructor
  · rintro ⟨before, after, split, counted, unquotedInside⟩
    cases before with
    | nil => simp at counted
    | cons c others =>
        obtain ⟨rfl, splitOthers⟩ := List.cons.inj split
        rw [List.count_cons_self] at counted
        -- The quote that closes the first string comes before the one that opens this string.
        have closing : '"' ∈ others := List.count_pos_iff.mp (by omega)
        obtain ⟨inner, between, rfl, unquotedInner⟩ := List.eq_append_cons_of_mem closing
        have noneInner : inner.count '"' = 0 := List.count_eq_zero.mpr unquotedInner
        have closingFirst : first ++ '"' :: rest =
            inner ++ '"' :: (between ++ '"' :: (inside ++ '"' :: after)) := by
          simpa using splitOthers
        obtain ⟨rfl, shape⟩ := eq_of_count_eq closingFirst (none.trans noneInner.symm)
        rw [List.count_append, List.count_cons_self, none] at counted
        exact ⟨between, after, shape, by omega, unquotedInside⟩
  · rintro ⟨before, after, rfl, counted, unquotedInside⟩
    refine ⟨'"' :: (first ++ '"' :: before), after, by simp, ?_, unquotedInside⟩
    rw [List.count_cons_self, List.count_append, List.count_cons_self, none, counted]
    omega

end

theorem QuotedAt.two_le_count {text inside : List Char} {number : Nat}
    (quoted : QuotedAt text number inside) : 2 ≤ text.count '"' := by
  obtain ⟨before, after, rfl, -, -⟩ := quoted
  rw [List.count_append, List.count_cons_self, List.count_append, List.count_cons_self]
  omega

/-- The strings are what stands between the first quote of the text and the second, between the
third and the fourth, and so on. -/
structure PairsQuotes (text : List Char) (strings : List String) : Prop where
  count : strings.length = text.count '"' / 2
  quoted : ∀ number inside,
    strings[number]? = some inside ↔ QuotedAt text number inside.toList

theorem pairsQuotes_none {text : List Char} (few : text.count '"' < 2) : PairsQuotes text [] where
  count := by
    rw [List.length_nil]
    omega
  quoted number inside := by
    constructor
    · simp
    · intro quoted
      have enough := quoted.two_le_count
      omega

section

variable {rest : List Char} {strings : List String}

theorem PairsQuotes.skip {skipped : List Char} (unquoted : '"' ∉ skipped)
    (pairs : PairsQuotes rest strings) : PairsQuotes (skipped ++ rest) strings where
  count := by rw [pairs.count, List.count_append, List.count_eq_zero.mpr unquoted, Nat.zero_add]
  quoted number inside := by rw [pairs.quoted, quotedAt_skip unquoted]

theorem PairsQuotes.string {first : List Char} (unquoted : '"' ∉ first)
    (pairs : PairsQuotes rest strings) :
    PairsQuotes ('"' :: (first ++ '"' :: rest)) (String.ofList first :: strings) where
  count := by
    rw [List.length_cons, pairs.count, List.count_cons_self, List.count_append,
      List.count_cons_self, List.count_eq_zero.mpr unquoted]
    omega
  quoted number inside := by
    cases number with
    | zero =>
        rw [quotedAt_zero_iff unquoted, List.getElem?_cons_zero, Option.some.injEq,
          ← String.toList_inj, String.toList_ofList]
    | succ number =>
        rw [quotedAt_succ_iff unquoted, List.getElem?_cons_succ, pairs.quoted]

end

namespace Token

/-- The text of a string constant. -/
def text? : Token → Option String
  | .string text => some text
  | _ => none

/-- The texts of the string constants among the tokens. -/
def strings (tokens : List Token) : List String :=
  tokens.filterMap text?

theorem text?_ofWord (word : String) : (ofWord word).text? = none := by
  unfold ofWord
  split <;> rfl

theorem quote_not_mem_takeWhile {goesOn : Char → Bool} (stops : goesOn '"' = false)
    (text : List Char) : '"' ∉ text.takeWhile goesOn := by
  intro quote
  have goes := List.all_eq_true.mp List.all_takeWhile _ quote
  rw [stops] at goes
  contradiction

/-- The first piece of a text is a string, a quote that nothing closes, or something that has
nothing to do with quotes. -/
theorem cut_cases (c : Char) (rest : List Char) :
    (c = '"' ∧ ∃ inside after, rest = inside ++ '"' :: after ∧ '"' ∉ inside ∧
      cut c rest = (some (.string (String.ofList inside)), inside.length + 1)) ∨
    (c = '"' ∧ '"' ∉ rest ∧ cut c rest = (none, 0)) ∨
    (c ≠ '"' ∧ (cut c rest).1.bind text? = none ∧ '"' ∉ rest.take (cut c rest).2) := by
  by_cases quote : c = '"'
  · subst quote
    by_cases closed : '"' ∈ rest
    · obtain ⟨inside, after, rfl, unquoted⟩ := List.eq_append_cons_of_mem closed
      exact .inl ⟨rfl, inside, after, rfl, unquoted, cut_string unquoted after⟩
    · have noBlank : isBlank '"' = false := by decide
      exact .inr (.inl ⟨rfl, closed, by simp [cut, noBlank, closed]⟩)
  · refine .inr (.inr ⟨quote, ?_⟩)
    unfold cut
    rw [if_neg quote]
    split
    · simp
    · split
      · refine ⟨rfl, ?_⟩
        rw [← List.prefix_iff_eq_take.mp (List.takeWhile_prefix _)]
        exact quote_not_mem_takeWhile (by decide) rest
      · split
        · refine ⟨text?_ofWord _, ?_⟩
          rw [← List.prefix_iff_eq_take.mp (List.takeWhile_prefix _)]
          exact quote_not_mem_takeWhile not_continuesWord_quote rest
        · cases Symbol.ofChar? c <;> simp [text?]

theorem strings_lex_cons (c : Char) (rest : List Char) :
    strings (lex (c :: rest)) =
      ((cut c rest).1.bind text?).toList ++ strings (lex (rest.drop (cut c rest).2)) := by
  rw [lex_cons, strings, List.filterMap_append, strings]
  cases (cut c rest).1 with
  | none => rfl
  | some token => cases token <;> rfl

theorem lex_pairs_quotes (text : List Char) : PairsQuotes text (strings (lex text)) := by
  induction text using pieces_induction cut with
  | nil => exact pairsQuotes_none (by decide)
  | piece c rest later =>
      rw [strings_lex_cons]
      rcases cut_cases c rest with ⟨rfl, inside, after, rfl, unquoted, taken⟩ |
        ⟨rfl, unclosed, taken⟩ | ⟨other, noString, unquoted⟩
      · rw [taken] at later ⊢
        have behind : (inside ++ '"' :: after).drop (inside.length + 1) = after := by simp
        rw [behind] at later ⊢
        exact later.string unquoted
      · rw [taken, List.drop_zero] at later ⊢
        have none : rest.count '"' = 0 := List.count_eq_zero.mpr unclosed
        have noStrings : strings (lex rest) = [] := by
          apply List.eq_nil_of_length_eq_zero
          rw [later.count, none]
        rw [noStrings]
        exact pairsQuotes_none (by rw [List.count_cons_self, none]; omega)
      · have whole : c :: rest =
            (c :: rest.take (cut c rest).2) ++ rest.drop (cut c rest).2 := by
          rw [List.cons_append, List.take_append_drop]
        rw [noString, Option.toList_none, List.nil_append, whole]
        exact later.skip (List.not_mem_cons_of_ne_of_not_mem (Ne.symm other) unquoted)

/-! A quote that is left over. -/

theorem takeWhile_append_stop {goesOn : Char → Bool} {d : Char} (stops : goesOn d = false)
    (text after : List Char) : (text ++ d :: after).takeWhile goesOn = text.takeWhile goesOn := by
  induction text with
  | nil => simp [stops]
  | cons c others inductionHypothesis =>
      rw [List.cons_append, List.takeWhile_cons, List.takeWhile_cons, inductionHypothesis]

/-- The first piece ends before a character that cannot go on with it. Only a string could reach
further, so its closing quote must come before. -/
theorem cut_append {c d : Char} {others : List Char} (closed : c = '"' → '"' ∈ others)
    (stops : continuesWord d = false) (after : List Char) :
    cut c (others ++ d :: after) = cut c others ∧ (cut c others).2 ≤ others.length := by
  by_cases quote : c = '"'
  · subst quote
    obtain ⟨inside, between, rfl, unquoted⟩ := List.eq_append_cons_of_mem (closed rfl)
    rw [List.append_assoc, List.cons_append, cut_string unquoted, cut_string unquoted]
    simp
  · have breaks : Breaks (d :: after) := breaks_cons.mpr stops
    have noDigit : d.isDigit = false := breaks.not_isDigit d rfl
    unfold cut
    rw [if_neg quote, if_neg quote, takeWhile_append_stop noDigit, takeWhile_append_stop stops]
    refine ⟨rfl, ?_⟩
    split
    · simp
    · split
      · exact (List.takeWhile_prefix _).length_le
      · split
        · exact (List.takeWhile_prefix _).length_le
        · simp

/-- The quotes behind the first piece are as many as before, or two less. -/
theorem even_drop_cut {c : Char} {others : List Char}
    (even : (c :: others).count '"' % 2 = 0) :
    (c = '"' → '"' ∈ others) ∧ (others.drop (cut c others).2).count '"' % 2 = 0 := by
  rcases cut_cases c others with ⟨rfl, inside, after, rfl, unquoted, taken⟩ |
    ⟨rfl, unclosed, -⟩ | ⟨other, -, unquoted⟩
  · have none : inside.count '"' = 0 := List.count_eq_zero.mpr unquoted
    rw [List.count_cons_self, List.count_append, List.count_cons_self, none] at even
    refine ⟨by simp, ?_⟩
    rw [taken]
    simp only [List.drop_append, List.drop_eq_nil_of_le (Nat.le_succ inside.length)]
    simp
    omega
  · rw [List.count_cons_self, List.count_eq_zero.mpr unclosed] at even
    contradiction
  · refine ⟨fun quote => absurd quote other, ?_⟩
    have whole := congrArg (List.count '"') (List.take_append_drop (cut c others).2 others)
    rw [List.count_append, List.count_eq_zero.mpr unquoted, Nat.zero_add] at whole
    rwa [whole, ← List.count_cons_of_ne other]

/-- A quote that nothing closes separates like a blank. -/
theorem lex_lone_quote {before after : List Char} (even : before.count '"' % 2 = 0)
    (last : '"' ∉ after) : lex (before ++ '"' :: after) = lex (before ++ ' ' :: after) := by
  have blankStops : continuesWord ' ' = false := not_continuesWord_of_isBlank (by decide)
  induction before using pieces_induction cut with
  | nil =>
      have noBlank : isBlank '"' = false := by decide
      rw [List.nil_append, List.nil_append, lex_blank (c := ' ') (by decide), lex_cons]
      simp [cut, noBlank, last]
  | piece c others later =>
      obtain ⟨closed, evenLater⟩ := even_drop_cut even
      have atQuote := cut_append closed not_continuesWord_quote after
      have atBlank := cut_append closed blankStops after
      rw [List.cons_append, List.cons_append, lex_cons, lex_cons, atQuote.1, atBlank.1,
        List.drop_append_of_le_length atQuote.2, List.drop_append_of_le_length atQuote.2,
        later evenLater]

end Token

/-- A blank can stand for any character without opening a comment. -/
theorem Clean.blank {before after : List Char} {c : Char} (clean : Clean (before ++ c :: after)) :
    Clean (before ++ ' ' :: after) := by
  induction before with
  | nil => exact clean_cons_iff.mpr ⟨(clean_cons_iff.mp clean).1, fun slash => by simp at slash⟩
  | cons d others inductionHypothesis =>
      obtain ⟨cleanOthers, noOpening⟩ := clean_cons_iff.mp clean
      refine clean_cons_iff.mpr ⟨inductionHypothesis cleanOthers, fun slash e first => ?_⟩
      cases others with
      | nil =>
          obtain rfl : ' ' = e := by simpa using first
          decide
      | cons f more => exact noOpening slash e first

theorem Token.tokenize_of_clean {text : List Char} (clean : Clean text) :
    tokenize (String.ofList text) = lex text := by
  rw [tokenize, Comment.strip_eq_self_iff.mpr (by rwa [String.toList_ofList]),
    String.toList_ofList]

/-- The strings of a source text are what its quotes enclose, pair by pair. If their number is
odd, the last quote does what a blank would do in its place. -/
theorem Token.tokenize_pairs_quotes (source : String) :
    PairsQuotes (Comment.strip source).toList (strings (tokenize source)) ∧
      ((Comment.strip source).toList.count '"' % 2 = 1 →
        ∃ before after, (Comment.strip source).toList = before ++ '"' :: after ∧ '"' ∉ after ∧
          tokenize source = tokenize (String.ofList (before ++ ' ' :: after))) := by
  refine ⟨lex_pairs_quotes _, fun odd => ?_⟩
  have clean := Comment.strip_clean source
  rw [tokenize]
  generalize (Comment.strip source).toList = text at odd clean
  have quote : '"' ∈ text.reverse := by
    rw [List.mem_reverse]
    exact List.count_pos_iff.mp (by omega)
  obtain ⟨later, earlier, split, last⟩ := List.eq_append_cons_of_mem quote
  obtain rfl : text = earlier.reverse ++ '"' :: later.reverse := by
    simpa using congrArg List.reverse split
  rw [← List.mem_reverse] at last
  rw [List.count_append, List.count_cons_self, List.count_eq_zero.mpr last] at odd
  refine ⟨earlier.reverse, later.reverse, rfl, last, ?_⟩
  rw [lex_lone_quote (by omega) last, tokenize_of_clean clean.blank]

def quotedSource : String := "put(\"a b\");//\"\n\"c"

/-- A quote inside a comment does not count, and the third one of the others closes nothing. -/
theorem Token.third_quote_separates :
    (Comment.strip quotedSource).toList.count '"' % 2 = 1 ∧
      PairsQuotes "put(\"a b\");\n\"c".toList ["a b"] ∧
      tokenize quotedSource = tokenize "put(\"a b\");\n c" := by
  have stripped : Comment.strip quotedSource = "put(\"a b\");\n\"c" := by decide +kernel
  have found : strings (tokenize quotedSource) = ["a b"] := by decide +kernel
  have odd : (Comment.strip quotedSource).toList.count '"' % 2 = 1 := by
    rw [stripped]
    decide
  obtain ⟨pairs, separates⟩ := tokenize_pairs_quotes quotedSource
  obtain ⟨before, after, split, last, same⟩ := separates odd
  rw [stripped] at split pairs
  rw [found] at pairs
  have counted := congrArg (List.count '"') split
  rw [List.count_append, List.count_cons_self, List.count_eq_zero.mpr last] at counted
  have third : before ++ '"' :: after = "put(\"a b\");\n".toList ++ '"' :: ['c'] := split.symm
  obtain ⟨rfl, rfl⟩ := eq_of_count_eq third (Nat.succ.inj counted.symm)
  exact ⟨odd, pairs, same⟩

end ClassLang
