import Mathlib.Data.List.Forall2

/-!
Steps that may fail, one after the other.
-/

namespace ClassLang

variable {ε α β : Type}

@[simp] theorem pure_eq_ok (value : α) : (pure value : Except ε α) = .ok value := rfl

@[simp] theorem ok_bind (value : α) (next : α → Except ε β) :
    ((.ok value : Except ε α) >>= next) = next value := rfl

@[simp] theorem error_bind (error : ε) (next : α → Except ε β) :
    ((.error error : Except ε α) >>= next) = .error error := rfl

/-- Two steps succeed exactly when both do. -/
theorem bind_eq_ok_iff {first : Except ε α} {next : α → Except ε β} {result : β} :
    (first >>= next) = .ok result ↔ ∃ value, first = .ok value ∧ next value = .ok result := by
  cases first with
  | error error => simp
  | ok value => simp

/-- Two steps fail if the first one does, or else the second. -/
theorem bind_eq_error_iff {first : Except ε α} {next : α → Except ε β} {error : ε} :
    (first >>= next) = .error error ↔
      first = .error error ∨ ∃ value, first = .ok value ∧ next value = .error error := by
  cases first with
  | error error => simp
  | ok value => simp

theorem map_eq_ok_iff {first : Except ε α} {change : α → β} {result : β} :
    first.map change = .ok result ↔ ∃ value, first = .ok value ∧ change value = result := by
  cases first with
  | error error => simp [Except.map]
  | ok value => simp [Except.map]

theorem forall₂_of_mapM_eq_ok {produce : α → Except ε β} {inputs : List α} {outputs : List β}
    (produced : inputs.mapM produce = .ok outputs) :
    List.Forall₂ (fun input output => produce input = .ok output) inputs outputs := by
  induction inputs generalizing outputs with
  | nil =>
      cases produced
      exact .nil
  | cons input rest inductionHypothesis =>
      rw [List.mapM_cons] at produced
      obtain ⟨output, first, produced⟩ := bind_eq_ok_iff.mp produced
      obtain ⟨others, later, produced⟩ := bind_eq_ok_iff.mp produced
      cases produced
      exact .cons first (inductionHypothesis later)

/-- A step for every input succeeds exactly when each of them does. -/
theorem mapM_eq_ok_iff {produce : α → Except ε β} {inputs : List α} {outputs : List β} :
    inputs.mapM produce = .ok outputs ↔
      List.Forall₂ (fun input output => produce input = .ok output) inputs outputs := by
  constructor
  · exact forall₂_of_mapM_eq_ok
  · intro each
    induction each with
    | nil => rfl
    | cons first _ inductionHypothesis =>
        rw [List.mapM_cons, first, ok_bind, inductionHypothesis]
        rfl

/-- A step for every input fails with the error of the first input for which it fails. -/
theorem mapM_eq_error_iff {produce : α → Except ε β} {inputs : List α} {error : ε} :
    inputs.mapM produce = .error error ↔
      ∃ before input after outputs, inputs = before ++ input :: after ∧
        List.Forall₂ (fun input output => produce input = .ok output) before outputs ∧
        produce input = .error error := by
  constructor
  · intro failed
    induction inputs with
    | nil => cases failed
    | cons input rest inductionHypothesis =>
        rw [List.mapM_cons, bind_eq_error_iff] at failed
        rcases failed with failed | ⟨output, succeeded, failed⟩
        · exact ⟨[], input, rest, [], rfl, .nil, failed⟩
        · rcases bind_eq_error_iff.mp failed with failed | ⟨outputs, -, impossible⟩
          · obtain ⟨before, other, after, outputs, rfl, each, failed⟩ :=
              inductionHypothesis failed
            exact ⟨input :: before, other, after, output :: outputs, rfl, .cons succeeded each,
              failed⟩
          · cases impossible
  · rintro ⟨before, input, after, outputs, rfl, each, failed⟩
    induction each with
    | nil =>
        rw [List.nil_append, List.mapM_cons, failed]
        rfl
    | cons succeeded _ inductionHypothesis =>
        rw [List.cons_append, List.mapM_cons, succeeded, ok_bind, inductionHypothesis]
        rfl

theorem mapM_congr {produce other : α → Except ε β} {inputs : List α}
    (same : ∀ input ∈ inputs, produce input = other input) :
    inputs.mapM produce = inputs.mapM other := by
  induction inputs with
  | nil => rfl
  | cons input rest inductionHypothesis =>
      rw [List.forall_mem_cons] at same
      rw [List.mapM_cons, List.mapM_cons, same.1, inductionHypothesis same.2]

theorem forall₂_getElem? {relation : α → β → Prop} {inputs : List α} {outputs : List β}
    (each : List.Forall₂ relation inputs outputs) {place : Nat} {input : α}
    (found : inputs[place]? = some input) :
    ∃ output, outputs[place]? = some output ∧ relation input output := by
  induction each generalizing place with
  | nil => simp at found
  | cons related _ inductionHypothesis =>
      cases place with
      | zero =>
          cases found
          exact ⟨_, rfl, related⟩
      | succ place => exact inductionHypothesis found

/-- Two relations, one after the other, from list to list. -/
theorem forall₂_comp {γ : Type} {first : α → β → Prop} {second : β → γ → Prop}
    {inputs : List α} {outputs : List γ} :
    List.Forall₂ (fun input output => ∃ middle, first input middle ∧ second middle output)
        inputs outputs ↔
      ∃ between, List.Forall₂ first inputs between ∧ List.Forall₂ second between outputs := by
  constructor
  · intro each
    induction each with
    | nil => exact ⟨[], .nil, .nil⟩
    | cons related _ inductionHypothesis =>
        obtain ⟨middle, before, behind⟩ := related
        obtain ⟨between, firsts, seconds⟩ := inductionHypothesis
        exact ⟨middle :: between, .cons before firsts, .cons behind seconds⟩
  · rintro ⟨between, firsts, seconds⟩
    induction firsts generalizing outputs with
    | nil =>
        cases seconds
        exact .nil
    | cons before _ inductionHypothesis =>
        cases seconds with
        | cons behind seconds => exact .cons ⟨_, before, behind⟩ (inductionHypothesis seconds)

end ClassLang
