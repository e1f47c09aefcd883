/-!
Updates that may fail. What an update has made of the state is there in either case.
-/

namespace ClassLang

/-- The state after an update, and whether the update succeeded. -/
abbrev Update (σ ε : Type) : Type := σ × Except ε Unit

namespace Update

variable {σ ε α : Type}

/-- Make one update for each item, up to the first that fails. Those before it stay. -/
def each (step : σ → α → Update σ ε) (state : σ) : List α → Update σ ε
  | [] => (state, .ok ())
  | item :: rest =>
      match step state item with
      | (next, .ok ()) => each step next rest
      | (next, .error error) => (next, .error error)

section

variable {step : σ → α → Update σ ε} {state next : σ} {item : α}

theorem each_of_ok (done : step state item = (next, .ok ())) (rest : List α) :
    each step state (item :: rest) = each step next rest := by
  rw [each, done]

theorem each_of_error {error : ε} (failed : step state item = (next, .error error))
    (rest : List α) : each step state (item :: rest) = (next, .error error) := by
  rw [each, failed]

theorem each_cons_eq_ok_iff {rest : List α} {final : σ} :
    each step state (item :: rest) = (final, .ok ()) ↔
      ∃ next, step state item = (next, .ok ()) ∧ each step next rest = (final, .ok ()) := by
  rcases made : step state item with ⟨next, error | _⟩
  · simp [each_of_error made]
  · simp [each_of_ok made]

end

/-- The state, if the update succeeded. -/
def result : Update σ ε → Except ε σ
  | (state, .ok ()) => .ok state
  | (_, .error error) => .error error

theorem result_eq_ok_iff {update : Update σ ε} {state : σ} :
    update.result = .ok state ↔ update = (state, .ok ()) := by
  rcases update with ⟨made, _ | _⟩ <;> simp [result]

theorem result_eq_error_iff {update : Update σ ε} {error : ε} :
    update.result = .error error ↔ update.2 = .error error := by
  rcases update with ⟨made, _ | _⟩ <;> simp [result]

/-- If only the result counts, the updates are steps of which each needs the one before it. -/
theorem result_each (step : σ → α → Update σ ε) (state : σ) (items : List α) :
    (each step state items).result = items.foldlM (fun state item => (step state item).result)
      state := by
  induction items generalizing state with
  | nil => rfl
  | cons item rest inductionHypothesis =>
      rw [each, List.foldlM_cons]
      rcases step state item with ⟨next, error | _⟩
      · rfl
      · exact inductionHypothesis next

end Update

end ClassLang
