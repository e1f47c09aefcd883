/-!
Character classes given as closed intervals of code points in rising order.
-/

namespace ClassLang.Text

/-- Whether a code point lies in one of the intervals. The intervals rise, so the
search ends at the first one that starts above the code point. -/
def inRanges (code : Nat) : List (Nat × Nat) → Bool
  | [] => false
  | (first, last) :: rest =>
      if code < first then false
      else if code ≤ last then true
      else inRanges code rest

theorem exists_of_inRanges {code : Nat} {ranges : List (Nat × Nat)}
    (inside : inRanges code ranges = true) :
    ∃ range ∈ ranges, range.1 ≤ code ∧ code ≤ range.2 := by
  induction ranges with
  | nil => simp [inRanges] at inside
  | cons range rest inductionHypothesis =>
      obtain ⟨first, last⟩ := range
      simp only [inRanges] at inside
      split at inside
      · contradiction
      · split at inside
        · exact ⟨(first, last), by simp, by omega, by assumption⟩
        · obtain ⟨found, membership, bounds⟩ := inductionHypothesis inside
          exact ⟨found, List.mem_cons_of_mem _ membership, bounds⟩

end ClassLang.Text
