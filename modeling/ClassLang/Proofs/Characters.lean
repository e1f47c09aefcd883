import ClassLang.Token.Lexer

/-!
The classes of characters that the lexer tells apart. Blanks, quotes, digits, letters and marks
have nothing in common, so the order of its tests does not matter for the first character of a
token.
-/

namespace ClassLang

namespace Text

/-- No interval of the first list meets one of the second. -/
def Apart (first second : List (Nat × Nat)) : Prop :=
  ∀ range ∈ first, ∀ other ∈ second, range.2 < other.1 ∨ other.2 < range.1

instance (first second : List (Nat × Nat)) : Decidable (Apart first second) :=
  inferInstanceAs (Decidable (∀ range ∈ first, ∀ other ∈ second, _ ∨ _))

theorem inRanges_eq_false_of_apart {code : Nat} {first second : List (Nat × Nat)}
    (apart : Apart first second) (inside : inRanges code first = true) :
    inRanges code second = false := by
  obtain ⟨range, membership, atLeast, atMost⟩ := exists_of_inRanges inside
  apply Bool.eq_false_iff.mpr
  intro also
  obtain ⟨other, otherMembership, otherAtLeast, otherAtMost⟩ := exists_of_inRanges also
  rcases apart range membership other otherMembership with below | above
  · omega
  · omega

def digitRanges : List (Nat × Nat) :=
  [(0x30, 0x39)]

theorem isDigit_eq_inRanges (c : Char) : c.isDigit = inRanges c.toNat digitRanges := by
  have bounds : c.isDigit = true ↔ 0x30 ≤ c.toNat ∧ c.toNat ≤ 0x39 := by
    simp only [Char.isDigit, Bool.and_eq_true, decide_eq_true_eq]
    exact Iff.rfl
  rw [Bool.eq_iff_iff, bounds]
  simp only [digitRanges, inRanges]
  split
  · simp
    omega
  · split <;> simp <;> omega

theorem isNumeric_of_isDigit {c : Char} (digit : c.isDigit = true) : isNumeric c = true := by
  rw [isDigit_eq_inRanges] at digit
  obtain ⟨range, membership, atLeast, atMost⟩ := exists_of_inRanges digit
  obtain rfl := List.mem_singleton.mp membership
  -- The ASCII digits are the first interval of the numbers.
  unfold isNumeric numericRanges inRanges
  rw [if_neg (by omega), if_pos (by omega)]

end Text

namespace Token

open Text

theorem startsWord_cases {c : Char} (starts : startsWord c = true) :
    isAlphabetic c = true ∨ c = '_' := by
  simpa [startsWord] using starts

theorem continuesWord_of_startsWord {c : Char} (starts : startsWord c = true) :
    continuesWord c = true := by
  rcases startsWord_cases starts with alphabetic | rfl
  · simp [continuesWord, isAlphanumeric, alphabetic]
  · decide

theorem continuesWord_of_isDigit {c : Char} (digit : c.isDigit = true) :
    continuesWord c = true := by
  simp [continuesWord, isAlphanumeric, isNumeric_of_isDigit digit]

/-- Neither a blank nor a quote nor a digit starts a word. -/
theorem not_startsWord {c : Char} (starts : startsWord c = true) :
    isBlank c = false ∧ c ≠ '"' ∧ c.isDigit = false := by
  rcases startsWord_cases starts with alphabetic | rfl
  · have noBlank : Apart alphabeticRanges blankRanges := by decide +kernel
    have noDigit : Apart alphabeticRanges digitRanges := by decide +kernel
    refine ⟨inRanges_eq_false_of_apart noBlank alphabetic, ?_, ?_⟩
    · intro quote
      rw [quote] at alphabetic
      have noLetter : ¬ isAlphabetic '"' = true := by decide +kernel
      exact noLetter alphabetic
    · rw [isDigit_eq_inRanges]
      exact inRanges_eq_false_of_apart noDigit alphabetic
  · decide

theorem not_isDigit {c : Char} (digit : c.isDigit = true) : isBlank c = false ∧ c ≠ '"' := by
  rw [isDigit_eq_inRanges] at digit
  have noBlank : Apart digitRanges blankRanges := by decide
  refine ⟨inRanges_eq_false_of_apart noBlank digit, ?_⟩
  rintro rfl
  exact absurd digit (by decide)

theorem not_continuesWord_of_isBlank {c : Char} (blank : isBlank c = true) :
    continuesWord c = false := by
  have noLetter : Apart blankRanges alphabeticRanges := by decide +kernel
  have noNumber : Apart blankRanges numericRanges := by decide +kernel
  have letter : isAlphabetic c = false := inRanges_eq_false_of_apart noLetter blank
  have number : isNumeric c = false := inRanges_eq_false_of_apart noNumber blank
  have underscore : c ≠ '_' := by
    rintro rfl
    exact absurd blank (by decide)
  simp [continuesWord, isAlphanumeric, letter, number, underscore]

theorem symbol_class (symbol : Symbol) : isBlank symbol.char = false ∧ symbol.char ≠ '"' ∧
    symbol.char.isDigit = false ∧ startsWord symbol.char = false ∧
    continuesWord symbol.char = false := by
  cases symbol <;> decide +kernel

end Token

end ClassLang
