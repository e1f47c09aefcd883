import ClassLang.Comment

/-!
What stays of a text when its comments are taken out.

A text is clean if nothing in it opens a comment. Clean texts stay as they are, what stays of any
text is clean, and behind a clean text that does not end in a slash a comment goes whole and
alone.
-/

namespace ClassLang

open Text

namespace Text

theorem takeWhile_append_of_breaks {goesOn : Char → Bool} {first rest : List Char}
    (all : ∀ c ∈ first, goesOn c = true) (stops : ∀ c ∈ rest.head?, goesOn c = false) :
    (first ++ rest).takeWhile goesOn = first := by
  rw [List.takeWhile_append_of_pos all]
  cases rest with
  | nil => simp
  | cons c rest => simp [stops c (by simp)]

/-- Two characters stand together at the start of a text or further on. -/
theorem pair_infix_cons_iff {first second c : Char} {text : List Char} :
    [first, second] <:+: c :: text ↔
      c = first ∧ second ∈ text.head? ∨ [first, second] <:+: text := by
  rw [List.infix_cons_iff]
  cases text with
  | nil => simp
  | cons d others => simp [List.cons_prefix_cons, eq_comm]

end Text

/-- Nothing in the text opens a comment. -/
def Clean (text : List Char) : Prop :=
  ¬ ['/', '/'] <:+: text ∧ ¬ ['/', '*'] <:+: text

instance (text : List Char) : Decidable (Clean text) :=
  inferInstanceAs (Decidable (¬ ['/', '/'] <:+: text ∧ ¬ ['/', '*'] <:+: text))

theorem clean_nil : Clean [] := by simp [Clean]

theorem clean_cons_iff {c : Char} {text : List Char} :
    Clean (c :: text) ↔ Clean text ∧ (c = '/' → ∀ d ∈ text.head?, d ≠ '/' ∧ d ≠ '*') := by
  rw [Clean, pair_infix_cons_iff, pair_infix_cons_iff, Clean]
  constructor
  · rintro ⟨noLine, noBlock⟩
    rw [not_or] at noLine noBlock
    refine ⟨⟨noLine.2, noBlock.2⟩, fun slash d first => ⟨?_, ?_⟩⟩
    · rintro rfl
      exact noLine.1 ⟨slash, first⟩
    · rintro rfl
      exact noBlock.1 ⟨slash, first⟩
  · rintro ⟨clean, noOpening⟩
    constructor
    · rintro (⟨slash, first⟩ | inside)
      · exact (noOpening slash _ first).1 rfl
      · exact clean.1 inside
    · rintro (⟨slash, first⟩ | inside)
      · exact (noOpening slash _ first).2 rfl
      · exact clean.2 inside

theorem Clean.within {part text : List Char} (clean : Clean text) (inside : part <:+: text) :
    Clean part :=
  ⟨fun opening => clean.1 (opening.trans inside), fun opening => clean.2 (opening.trans inside)⟩

namespace Comment

/-- The characters outside comments. -/
def kept (text : List Char) : List Char :=
  (pieces cut text).filterMap id

theorem strip_eq (text : String) : strip text = String.ofList (kept text.toList) := rfl

@[simp] theorem kept_nil : kept [] = [] := rfl

theorem kept_step (c : Char) (rest : List Char) :
    kept (c :: rest) = (cut c rest).1.toList ++ kept (rest.drop (cut c rest).2) :=
  filterMap_pieces_cons cut c rest

/-- Either a comment starts or the character is kept. -/
theorem cut_cases (c : Char) (rest : List Char) :
    (cut c rest).1 = none ∧ c = '/' ∧ (∃ d ∈ rest.head?, d = '/' ∨ d = '*') ∨
      cut c rest = (some c, 0) ∧ (c = '/' → ∀ d ∈ rest.head?, d ≠ '/' ∧ d ≠ '*') := by
  unfold cut
  split
  · exact .inl ⟨rfl, rfl, '/', rfl, .inl rfl⟩
  · exact .inl ⟨rfl, rfl, '*', rfl, .inr rfl⟩
  · next noLine noBlock =>
    refine .inr ⟨rfl, fun slash d first => ?_⟩
    obtain ⟨others, rfl⟩ := List.head?_eq_some_iff.mp first
    constructor
    · rintro rfl
      exact noLine others slash rfl
    · rintro rfl
      exact noBlock others slash rfl

/-- A character is kept unless it is a slash that opens a comment. -/
theorem kept_single {c : Char} {rest : List Char}
    (noOpening : c = '/' → ∀ d ∈ rest.head?, d ≠ '/' ∧ d ≠ '*') :
    kept (c :: rest) = c :: kept rest := by
  rcases cut_cases c rest with ⟨-, slash, d, first, opens⟩ | ⟨single, -⟩
  · have other := noOpening slash d first
    rcases opens with rfl | rfl
    · exact absurd rfl other.1
    · exact absurd rfl other.2
  · rw [kept_step, single]
    rfl

theorem kept_cons {c : Char} (other : c ≠ '/') (rest : List Char) :
    kept (c :: rest) = c :: kept rest :=
  kept_single fun slash => absurd slash other

/-- What is kept opens no comment: behind a slash that is kept stands a character that is kept
as well. -/
theorem kept_clean (text : List Char) : Clean (kept text) := by
  induction text using pieces_induction cut with
  | nil => exact clean_nil
  | piece c rest later =>
      rw [kept_step]
      rcases cut_cases c rest with ⟨comment, -⟩ | ⟨single, noOpening⟩
      · simpa [comment] using later
      · rw [single] at later ⊢
        refine clean_cons_iff.mpr ⟨later, fun slash d first => ?_⟩
        cases rest with
        | nil => simp at first
        | cons e others =>
            have other := noOpening slash e (by simp)
            rw [List.drop_zero, kept_cons other.1] at first
            obtain rfl : e = d := by simpa using first
            exact other

/-- A clean text is kept, unless its last slash opens a comment together with what follows. -/
theorem kept_append_of_clean {text rest : List Char} (clean : Clean text)
    (noOpening : text.getLast? = some '/' → ∀ d ∈ rest.head?, d ≠ '/' ∧ d ≠ '*') :
    kept (text ++ rest) = text ++ kept rest := by
  induction text with
  | nil => rfl
  | cons c others inductionHypothesis =>
      obtain ⟨cleanOthers, inside⟩ := clean_cons_iff.mp clean
      have later : kept (others ++ rest) = others ++ kept rest := by
        apply inductionHypothesis cleanOthers
        intro slash
        apply noOpening
        rw [List.getLast?_cons, slash]
        rfl
      rw [List.cons_append, kept_single, later, List.cons_append]
      intro slash d first
      cases others with
      | nil => exact noOpening (by simp [slash]) d first
      | cons e more => exact inside slash d first

theorem kept_eq_self_iff {text : List Char} : kept text = text ↔ Clean text := by
  constructor
  · intro same
    rw [← same]
    exact kept_clean text
  · intro clean
    have whole : kept (text ++ []) = text ++ kept [] := kept_append_of_clean clean (by simp)
    simpa using whole

/-! Comments go whole, and nothing else goes. -/

/-- A line comment goes up to the end of its line. -/
theorem kept_line {line rest : List Char} (oneLine : '\n' ∉ line)
    (ends : ∀ c ∈ rest.head?, c = '\n') : kept ('/' :: '/' :: (line ++ rest)) = kept rest := by
  have whole : (line ++ rest).takeWhile (· ≠ '\n') = line := by
    apply takeWhile_append_of_breaks
    · intro c membership
      have other : c ≠ '\n' := fun newline => oneLine (newline ▸ membership)
      exact decide_eq_true other
    · intro c first
      simp [ends c first]
  have taken : cut '/' ('/' :: (line ++ rest)) = (none, line.length + 1) := by
    rw [cut, whole]
  rw [kept_step, taken]
  simp

theorem blockLength_cons {c : Char} {rest : List Char} (goesOn : c = '*' → '/' ∉ rest.head?)
    (length : Nat) : blockLength length (c :: rest) = blockLength (length + 1) rest := by
  rw [blockLength]
  rintro others rfl rfl
  exact goesOn rfl rfl

/-- A block comment that nothing closes reaches to the end. -/
theorem blockLength_of_open {body : List Char} (unclosed : ¬ ['*', '/'] <:+: body)
    (length : Nat) : blockLength length body = length + body.length := by
  induction body generalizing length with
  | nil => rfl
  | cons c others inductionHypothesis =>
      rw [pair_infix_cons_iff, not_or, not_and] at unclosed
      rw [blockLength_cons unclosed.1, inductionHypothesis unclosed.2, List.length_cons]
      omega

/-- A block comment reaches through the first mark that closes it. -/
theorem blockLength_of_closed {body : List Char} (unclosed : ¬ ['*', '/'] <:+: body)
    (rest : List Char) (length : Nat) :
    blockLength length (body ++ '*' :: '/' :: rest) = length + body.length + 2 := by
  induction body generalizing length with
  | nil => rfl
  | cons c others inductionHypothesis =>
      rw [pair_infix_cons_iff, not_or, not_and] at unclosed
      -- A star at the end of the body stands before the star of the mark.
      have goesOn : c = '*' → '/' ∉ (others ++ '*' :: '/' :: rest).head? := by
        intro star
        cases others with
        | nil => simp
        | cons d more => exact unclosed.1 star
      rw [List.cons_append, blockLength_cons goesOn, inductionHypothesis unclosed.2,
        List.length_cons]
      omega

theorem kept_block {body : List Char} (unclosed : ¬ ['*', '/'] <:+: body) (rest : List Char) :
    kept ('/' :: '*' :: (body ++ '*' :: '/' :: rest)) = kept rest := by
  have taken : cut '/' ('*' :: (body ++ '*' :: '/' :: rest)) = (none, body.length + 3) := by
    rw [cut, blockLength_of_closed unclosed]
    congr 1
    omega
  rw [kept_step, taken]
  simp

theorem kept_openBlock {body : List Char} (unclosed : ¬ ['*', '/'] <:+: body) :
    kept ('/' :: '*' :: body) = [] := by
  have taken : cut '/' ('*' :: body) = (none, body.length + 1) := by
    rw [cut, blockLength_of_open unclosed, Nat.add_comm]
  rw [kept_step, taken]
  simp

theorem strip_eq_self_iff {text : String} : strip text = text ↔ Clean text.toList := by
  rw [strip_eq, ← String.toList_inj, String.toList_ofList, kept_eq_self_iff]

theorem strip_clean (text : String) : Clean (strip text).toList := by
  rw [strip_eq, String.toList_ofList]
  exact kept_clean text.toList

theorem strip_line {line rest : String} (oneLine : '\n' ∉ line.toList)
    (ends : ∀ c ∈ rest.toList.head?, c = '\n') : strip ("//" ++ line ++ rest) = strip rest := by
  simp only [strip_eq, String.toList_append]
  exact congrArg String.ofList (kept_line oneLine ends)

theorem strip_block {body : String} (unclosed : ¬ ['*', '/'] <:+: body.toList) (rest : String) :
    strip ("/*" ++ body ++ "*/" ++ rest) = strip rest := by
  simp only [strip_eq, String.toList_append]
  exact congrArg String.ofList (by simpa using kept_block unclosed rest.toList)

theorem strip_openBlock {body : String} (unclosed : ¬ ['*', '/'] <:+: body.toList) :
    strip ("/*" ++ body) = "" := by
  simp only [strip_eq, String.toList_append]
  exact congrArg String.ofList (kept_openBlock unclosed)

/-- Nothing in the text opens a comment, not even its last character with one that follows. -/
def Sealed (text : String) : Prop :=
  Clean text.toList ∧ text.toList.getLast? ≠ some '/'

instance (text : String) : Decidable (Sealed text) :=
  inferInstanceAs (Decidable (Clean text.toList ∧ text.toList.getLast? ≠ some '/'))

theorem Sealed.strip_append {before : String} (isSealed : Sealed before) (rest : String) :
    strip (before ++ rest) = before ++ strip rest := by
  have keptBefore : kept (before.toList ++ rest.toList) = before.toList ++ kept rest.toList :=
    kept_append_of_clean isSealed.1 fun slash => absurd slash isSealed.2
  rw [strip_eq, String.toList_append, keptBefore, String.ofList_append, String.ofList_toList,
    strip_eq]

/-- Comments, and nothing else, are taken out of every text. -/
structure TakesOutComments (strip : String → String) : Prop where
  clean : ∀ text, Clean (strip text).toList
  unchanged_iff : ∀ text, strip text = text ↔ Clean text.toList
  again : ∀ text, strip (strip text) = strip text
  line : ∀ before line rest : String, Sealed before → '\n' ∉ line.toList →
    strip (before ++ "//" ++ line ++ "\n" ++ rest) = before ++ strip ("\n" ++ rest)
  lastLine : ∀ before line : String, Sealed before → '\n' ∉ line.toList →
    strip (before ++ "//" ++ line) = before
  block : ∀ before body rest : String, Sealed before → ¬ ['*', '/'] <:+: body.toList →
    strip (before ++ "/*" ++ body ++ "*/" ++ rest) = before ++ strip rest
  openBlock : ∀ before body : String, Sealed before → ¬ ['*', '/'] <:+: body.toList →
    strip (before ++ "/*" ++ body) = before

theorem strip_takes_out_comments : TakesOutComments strip where
  clean := strip_clean
  unchanged_iff _ := strip_eq_self_iff
  again text := strip_eq_self_iff.mpr (strip_clean text)
  line before line rest isSealed oneLine := by
    have shape : before ++ "//" ++ line ++ "\n" ++ rest =
        before ++ ("//" ++ line ++ ("\n" ++ rest)) := by
      simp only [String.append_assoc]
    rw [shape, isSealed.strip_append, strip_line oneLine (by simp)]
  lastLine before line isSealed oneLine := by
    have shape : before ++ "//" ++ line = before ++ ("//" ++ line ++ "") := by
      simp only [String.append_assoc, String.append_empty]
    rw [shape, isSealed.strip_append, strip_line oneLine (by simp)]
    exact String.append_empty
  block before body rest isSealed unclosed := by
    have shape : before ++ "/*" ++ body ++ "*/" ++ rest =
        before ++ ("/*" ++ body ++ "*/" ++ rest) := by
      simp only [String.append_assoc]
    rw [shape, isSealed.strip_append, strip_block unclosed]
  openBlock before body isSealed unclosed := by
    rw [String.append_assoc, isSealed.strip_append, strip_openBlock unclosed,
      String.append_empty]

/-- A comment of stars alone, one that is opened inside a line comment, and one that nothing
closes. -/
theorem starred_comments_taken_out :
    strip "a/b/***/c//*\nd/*/" = "a/bc\nd" ∧ strip "a/bc\nd" = "a/bc\nd" := by
  have stars := strip_takes_out_comments.block "a/b" "*" "c//*\nd/*/" (by decide +kernel)
    (by decide)
  have line := strip_takes_out_comments.line "c" "*" "d/*/" (by decide +kernel) (by decide)
  have last := strip_takes_out_comments.openBlock "\nd" "/" (by decide +kernel) (by decide)
  have again := (strip_takes_out_comments.unchanged_iff "a/bc\nd").mpr (by decide +kernel)
  have whole : strip "a/b/***/c//*\nd/*/" = "a/b" ++ ("c" ++ "\nd") :=
    stars.trans (congrArg ("a/b" ++ ·) (line.trans (congrArg ("c" ++ ·) last)))
  exact ⟨whole, again⟩

end Comment

end ClassLang
