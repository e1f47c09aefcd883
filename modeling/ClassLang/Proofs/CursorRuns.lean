import ClassLang.Text.Cursor
import ClassLang.Text.Pieces
import Mathlib.Data.PFun

/-!
Programs that run a cursor over a text.

Their loops end only when they find what they look for. Every position that the cursor takes and
every lexeme that it is asked for is recorded. A run is steady if the cursor only moves forward and
stays in the text, as do the lexemes. A loop whose every round takes the piece that a cut cuts off
runs steadily over the whole text, and finds what the pieces stand for.
-/

namespace ClassLang

namespace Text

/-- What a scan does with its cursor. -/
inductive Event where
  | stand (position : Nat)
  | lexeme (start stop : Nat)

structure Scanner where
  cursor : Cursor
  /-- What was done so far, the first first. -/
  log : List Event := []

/-- A program that moves a cursor. It has no result if it asks for a lexeme that is not there, or
if it does not end. -/
abbrev Scan : Type → Type := StateT Scanner Part

/-- One round of a loop over a text: where it began and ended, and what it found. -/
structure Round (α : Type) where
  start : Nat
  stop : Nat
  value : α

namespace Scan

variable {α β σ : Type}

def look (view : Cursor → α) : Scan α := fun scanner => .some (view scanner.cursor, scanner)

def act (operation : Cursor → α × Cursor) : Scan α := fun scanner =>
  let (value, cursor) := operation scanner.cursor
  .some (value, ⟨cursor, scanner.log ++ [.stand cursor.position]⟩)

def lexeme (start stop : Nat) : Scan String := fun scanner =>
  (Part.ofOption (scanner.cursor.lexeme? start stop)).map fun text =>
    (text, ⟨scanner.cursor, scanner.log ++ [.lexeme start stop]⟩)

/-- Repeat until there is a result. What is not a result is handed to the next round. -/
def loop (body : σ → Scan (β ⊕ σ)) (state : σ) : Scan β := fun scanner =>
  PFun.fix (fun now : σ × Scanner =>
    (body now.1 now.2).map fun (outcome, after) => outcome.map (·, after) (·, after))
    (state, scanner)

/-- Pass over characters of a kind. -/
def pass (kind : Char → Bool) : Scan Unit :=
  loop (fun _ => do
    if ← look (·.peek.any kind) then
      let _ ← act Cursor.advance
      return .inr ()
    else
      return .inl ()) ()

def advanceWhile (kind : Char → Bool) : Scan String := do
  let start ← look Cursor.position
  pass kind
  lexeme start (← look Cursor.position)

/-- One round, if there is a next character to begin it with. -/
def step (next : Scan (Option Char)) (round : Char → Scan α) : Scan (Option α) := do
  match ← next with
  | some c => return some (← round c)
  | none => return none

/-- Make rounds, behind earlier ones, for as long as there is something to begin them with. -/
def roundsAfter (step : Scan (Option α)) : List (Round α) → Scan (List (Round α)) :=
  loop fun earlier => do
    let start ← look Cursor.position
    match ← step with
    | some value => return .inr (earlier ++ [⟨start, ← look Cursor.position, value⟩])
    | none => return .inl earlier

def rounds (step : Scan (Option α)) : Scan (List (Round α)) := roundsAfter step []

end Scan

variable {α β σ : Type} {text : List Char}

/-! Logs. -/

/-- What the log records leads from one position of the text to another. The cursor never goes
back and never leaves the text, and every lexeme lies in the text. -/
inductive Steady (text : List Char) : Nat → List Event → Nat → Prop where
  | still {position} : Steady text position [] position
  | stand {start next stop log} : start ≤ next → next ≤ text.length → Steady text next log stop →
      Steady text start (.stand next :: log) stop
  | lexeme {start first last stop log} : first ≤ last → last ≤ text.length →
      Steady text start log stop → Steady text start (.lexeme first last :: log) stop

theorem Steady.append {start middle stop : Nat} {first second : List Event}
    (before : Steady text start first middle) (after : Steady text middle second stop) :
    Steady text start (first ++ second) stop := by
  induction before with
  | still => exact after
  | stand forward inside _ inductionHypothesis =>
      exact .stand forward inside (inductionHypothesis after)
  | lexeme order inside _ inductionHypothesis =>
      exact .lexeme order inside (inductionHypothesis after)

theorem Steady.inside {start stop : Nat} {log : List Event} (steady : Steady text start log stop)
    (within : start ≤ text.length) : stop ≤ text.length := by
  induction steady with
  | still => exact within
  | stand _ inside _ inductionHypothesis => exact inductionHypothesis inside
  | lexeme _ _ _ inductionHypothesis => exact inductionHypothesis within

/-! Programs. -/

/-- The program runs from one position of the text to another, steadily, and gives this value. -/
def Scans (program : Scan α) (text : List Char) (start : Nat) (value : α) (stop : Nat) : Prop :=
  ∃ log, Steady text start log stop ∧ ∀ earlier,
    program ⟨⟨text, start⟩, earlier⟩ = .some (value, ⟨⟨text, stop⟩, earlier ++ log⟩)

theorem Scans.bind {first : Scan α} {next : α → Scan β} {start middle stop : Nat} {value : α}
    {result : β} (before : Scans first text start value middle)
    (after : Scans (next value) text middle result stop) :
    Scans (first >>= next) text start result stop := by
  obtain ⟨firstLog, firstSteady, ran⟩ := before
  obtain ⟨secondLog, secondSteady, ranOn⟩ := after
  refine ⟨firstLog ++ secondLog, firstSteady.append secondSteady, fun earlier => ?_⟩
  change (first ⟨⟨text, start⟩, earlier⟩ >>= fun (value, scanner) => next value scanner) = _
  rw [ran, Part.bind_eq_bind, Part.bind_some]
  dsimp only
  rw [ranOn, List.append_assoc]

theorem Scans.inside {program : Scan α} {start stop : Nat} {value : α}
    (scans : Scans program text start value stop) (within : start ≤ text.length) :
    stop ≤ text.length := by
  obtain ⟨log, steady, -⟩ := scans
  exact steady.inside within

theorem scans_pure (value : α) (position : Nat) :
    Scans (pure value) text position value position :=
  ⟨[], .still, fun earlier => by rw [List.append_nil]; rfl⟩

theorem scans_look (view : Cursor → α) (position : Nat) :
    Scans (Scan.look view) text position (view ⟨text, position⟩) position :=
  ⟨[], .still, fun earlier => by rw [List.append_nil]; rfl⟩

theorem scans_loop_done {body : σ → Scan (β ⊕ σ)} {state : σ} {value : β} {start stop : Nat}
    (done : Scans (body state) text start (.inl value) stop) :
    Scans (Scan.loop body state) text start value stop := by
  obtain ⟨log, steady, ran⟩ := done
  refine ⟨log, steady, fun earlier => Part.eq_some_iff.mpr (PFun.fix_stop ?_)⟩
  rw [ran, Part.map_some]
  exact Part.mem_some _

theorem scans_loop_again {body : σ → Scan (β ⊕ σ)} {state next : σ} {value : β}
    {start middle stop : Nat} (once : Scans (body state) text start (.inr next) middle)
    (again : Scans (Scan.loop body next) text middle value stop) :
    Scans (Scan.loop body state) text start value stop := by
  obtain ⟨firstLog, firstSteady, ran⟩ := once
  obtain ⟨secondLog, secondSteady, ranOn⟩ := again
  refine ⟨firstLog ++ secondLog, firstSteady.append secondSteady, fun earlier => ?_⟩
  rw [← List.append_assoc, ← ranOn]
  refine PFun.fix_fwd_eq ?_
  rw [ran, Part.map_some]
  exact Part.mem_some _

theorem scans_act {operation : Cursor → α × Cursor} {start stop : Nat} {value : α}
    (done : operation ⟨text, start⟩ = (value, ⟨text, stop⟩)) (forward : start ≤ stop)
    (inside : stop ≤ text.length) : Scans (Scan.act operation) text start value stop :=
  ⟨[.stand stop], .stand forward inside .still, fun earlier => by simp [Scan.act, done]⟩

theorem scans_lexeme {start stop : Nat} (order : start ≤ stop) (inside : stop ≤ text.length)
    (position : Nat) : Scans (Scan.lexeme start stop) text position
      (String.ofList ((text.drop start).take (stop - start))) position :=
  ⟨[.lexeme start stop], .lexeme order inside .still, fun earlier => by
    simp [Scan.lexeme, Cursor.lexeme?, order, inside]⟩

theorem lt_length_of_drop {position : Nat} {c : Char} {rest : List Char}
    (ahead : text.drop position = c :: rest) : position < text.length :=
  Nat.lt_of_not_le fun behind => by simp [List.drop_eq_nil_of_le behind] at ahead

theorem drop_succ_of_drop {position : Nat} {c : Char} {rest : List Char}
    (ahead : text.drop position = c :: rest) : text.drop (position + 1) = rest := by
  rw [← List.drop_drop, ahead, List.drop_succ_cons, List.drop_zero]

theorem scans_advance {position : Nat} {c : Char} {rest : List Char}
    (ahead : text.drop position = c :: rest) :
    Scans (Scan.act Cursor.advance) text position (some c) (position + 1) := by
  have done : Cursor.advance ⟨text, position⟩ = (some c, ⟨text, position + 1⟩) := by
    simp [Cursor.advance, Cursor.peek, Cursor.rest, ahead, Cursor.skip, Cursor.seek]
  exact scans_act done (Nat.le_succ _) (lt_length_of_drop ahead)

/-- At the end nothing is read. -/
theorem scans_advance_end :
    Scans (Scan.act Cursor.advance) text text.length none text.length := by
  have done : Cursor.advance ⟨text, text.length⟩ = (none, ⟨text, text.length⟩) := by
    simp [Cursor.advance, Cursor.peek, Cursor.rest]
  exact scans_act done (Nat.le_refl _) (Nat.le_refl _)

theorem scans_advanceIf {position : Nat} {c : Char} {rest : List Char}
    (ahead : text.drop position = c :: rest) :
    Scans (Scan.act (Cursor.advanceIf c)) text position true (position + 1) := by
  have done : Cursor.advanceIf c ⟨text, position⟩ = (true, ⟨text, position + 1⟩) := by
    simp [Cursor.advanceIf, Cursor.peek, Cursor.rest, ahead, Cursor.skip, Cursor.seek]
  exact scans_act done (Nat.le_succ _) (lt_length_of_drop ahead)

theorem scans_advanceIf_other {position : Nat} {c : Char} (inside : position ≤ text.length)
    (other : (text.drop position).head? ≠ some c) :
    Scans (Scan.act (Cursor.advanceIf c)) text position false position :=
  scans_act (if_neg other) (Nat.le_refl _) inside

theorem scans_peek (position : Nat) :
    Scans (Scan.look Cursor.peek) text position (text.drop position).head? position :=
  scans_look Cursor.peek position

theorem scans_ahead (kind : Char → Bool) {position : Nat} {rest : List Char}
    (ahead : text.drop position = rest) :
    Scans (Scan.look (·.peek.any kind)) text position (rest.head?.any kind) position := by
  subst ahead
  exact scans_look _ position

theorem scans_pass (kind : Char → Bool) {position : Nat} {rest : List Char}
    (ahead : text.drop position = rest) :
    Scans (Scan.pass kind) text position () (position + (rest.takeWhile kind).length) := by
  induction rest generalizing position with
  | nil => exact scans_loop_done ((scans_ahead kind ahead).bind (scans_pure _ position))
  | cons c rest inductionHypothesis =>
      have next := scans_ahead kind ahead
      rw [List.head?_cons, Option.any_some] at next
      cases more : kind c with
      | true =>
          rw [List.takeWhile_cons_of_pos more, List.length_cons, Nat.add_comm _ 1,
            ← Nat.add_assoc]
          rw [more] at next
          exact scans_loop_again (next.bind ((scans_advance ahead).bind (scans_pure _ _)))
            (inductionHypothesis (drop_succ_of_drop ahead))
      | false =>
          rw [List.takeWhile_cons_of_neg (by simp [more])]
          rw [more] at next
          exact scans_loop_done (next.bind (scans_pure _ position))

theorem lexeme?_eq_some {cursor : Cursor} {start stop : Nat} {lexeme : String}
    (found : cursor.lexeme? start stop = some lexeme) :
    start ≤ stop ∧ stop ≤ cursor.text.length ∧
      String.ofList ((cursor.text.drop start).take (stop - start)) = lexeme := by
  unfold Cursor.lexeme? at found
  split at found
  case isTrue bounds => exact ⟨bounds.1, bounds.2, Option.some.inj found⟩
  case isFalse => cases found

theorem advanceWhile_eq (kind : Char → Bool) {position : Nat} (inside : position ≤ text.length) :
    Cursor.advanceWhile kind ⟨text, position⟩ =
      (some (String.ofList ((text.drop position).takeWhile kind)),
        ⟨text, position + ((text.drop position).takeWhile kind).length⟩) := by
  have short := (List.takeWhile_prefix kind (l := text.drop position)).length_le
  rw [List.length_drop] at short
  have bounds : position ≤ position + ((text.drop position).takeWhile kind).length ∧
      position + ((text.drop position).takeWhile kind).length ≤ text.length := by
    omega
  simp only [Cursor.advanceWhile, Cursor.lexeme?, Cursor.skip, Cursor.seek, Cursor.rest,
    if_pos bounds, Nat.add_sub_cancel_left,
    ← List.prefix_iff_eq_take.mp (List.takeWhile_prefix kind)]

/-- The loop that passes over characters of a kind does what the operation of the cursor does. -/
theorem scans_advanceWhile {kind : Char → Bool} {start stop : Nat} {lexeme : String}
    (done : Cursor.advanceWhile kind ⟨text, start⟩ = (some lexeme, ⟨text, stop⟩)) :
    Scans (Scan.advanceWhile kind) text start lexeme stop := by
  have passed : Scans (Scan.pass kind) text start () _ := scans_pass kind rfl
  rw [Cursor.advanceWhile, Prod.mk.injEq] at done
  obtain ⟨found, reached⟩ := done
  obtain rfl : start + ((text.drop start).takeWhile kind).length = stop :=
    congrArg Cursor.position reached
  obtain ⟨order, inside, rfl⟩ := lexeme?_eq_some found
  rw [Scan.advanceWhile]
  exact (scans_look Cursor.position start).bind
    (passed.bind ((scans_look Cursor.position _).bind (scans_lexeme order inside _)))

/-! Rounds. -/

/-- Each round begins where the one before ended and takes at least one character, up to the end
of the text. -/
inductive Covers (text : List Char) : Nat → List (Round α) → Prop where
  | nil : Covers text text.length []
  | cons {start stop value rounds} : start < stop → stop ≤ text.length →
      Covers text stop rounds → Covers text start (⟨start, stop, value⟩ :: rounds)

/-- The characters that a round takes. -/
def Round.taken (text : List Char) (round : Round α) : List Char :=
  (text.drop round.start).take (round.stop - round.start)

theorem Covers.flatMap_taken {start : Nat} {rounds : List (Round α)}
    (covers : Covers text start rounds) : rounds.flatMap (Round.taken text) = text.drop start := by
  induction covers with
  | nil => simp
  | @cons start stop value rounds forward _ _ inductionHypothesis =>
      have split := List.take_append_drop (stop - start) (text.drop start)
      rw [List.drop_drop, Nat.add_sub_cancel' (Nat.le_of_lt forward)] at split
      rw [List.flatMap_cons, inductionHypothesis]
      exact split

theorem scans_step {next : Scan (Option Char)} {round : Char → Scan α} {start middle stop : Nat}
    {c : Char} {value : α} (began : Scans next text start (some c) middle)
    (ended : Scans (round c) text middle value stop) :
    Scans (Scan.step next round) text start (some value) stop :=
  began.bind (ended.bind (scans_pure _ _))

theorem scans_step_end {next : Scan (Option Char)} {start stop : Nat}
    (nothing : Scans next text start none stop) (round : Char → Scan α) :
    Scans (Scan.step next round) text start none stop :=
  nothing.bind (scans_pure _ _)

/-- Each step takes the piece that the cut cuts off. -/
structure Follows (step : Scan (Option α)) (cut : Cut α) : Prop where
  ends : ∀ text : List Char, Scans step text text.length none text.length
  piece : ∀ {text : List Char} {position c rest}, text.drop position = c :: rest →
    Scans step text position (some (cut c rest).1) (position + 1 + (cut c rest).2)

theorem Follows.rounds {step : Scan (Option α)} {cut : Cut α} (follows : Follows step cut)
    {position : Nat} (inside : position ≤ text.length) (earlier : List (Round α)) :
    ∃ rounds, Scans (Scan.roundsAfter step earlier) text position (earlier ++ rounds) text.length ∧
      Covers text position rounds ∧ rounds.map Round.value = pieces cut (text.drop position) := by
  induction ahead : text.drop position using pieces_induction cut
    generalizing position earlier with
  | nil =>
      obtain rfl : position = text.length :=
        Nat.le_antisymm inside (List.drop_eq_nil_iff.mp ahead)
      refine ⟨[], ?_, .nil, rfl⟩
      rw [List.append_nil]
      exact scans_loop_done ((scans_look _ _).bind ((follows.ends text).bind (scans_pure _ _)))
  | piece c rest inductionHypothesis =>
      have taken := follows.piece ahead
      have behind : text.drop (position + 1 + (cut c rest).2) = rest.drop (cut c rest).2 := by
        rw [← List.drop_drop, drop_succ_of_drop ahead]
      have reached := taken.inside inside
      obtain ⟨rounds, ran, covers, values⟩ := inductionHypothesis reached
        (earlier ++ [⟨position, _, (cut c rest).1⟩]) behind
      refine ⟨⟨position, _, (cut c rest).1⟩ :: rounds, ?_, .cons (by omega) reached covers, ?_⟩
      · rw [List.append_assoc] at ran
        exact scans_loop_again ((scans_look _ _).bind (taken.bind ((scans_look _ _).bind
          (scans_pure _ _)))) ran
      · rw [List.map_cons, values, pieces_cons]

/-- The scan ends at the end of the text without asking for a lexeme that is not there. It moves
forward only, each of its rounds takes at least one character, and together they take every
character once. -/
def Sweeps (program : Scan (List (Round α))) (text : List Char) (values : List α) :
    Prop :=
  ∃ rounds log, program ⟨⟨text, 0⟩, []⟩ = .some (rounds, ⟨⟨text, text.length⟩, log⟩) ∧
    Steady text 0 log text.length ∧ Covers text 0 rounds ∧
    rounds.flatMap (Round.taken text) = text ∧ rounds.map Round.value = values

theorem Follows.sweeps {step : Scan (Option α)} {cut : Cut α} (follows : Follows step cut)
    (text : List Char) : Sweeps (Scan.rounds step) text (pieces cut text) := by
  obtain ⟨rounds, ⟨log, steady, ran⟩, covers, values⟩ :=
    follows.rounds (Nat.zero_le text.length) []
  exact ⟨rounds, log, ran [], steady, covers, covers.flatMap_taken, values⟩

end Text

end ClassLang
