import Mathlib.Data.List.Basic

/-! # Sequential readers

A reader goes once over the cells of an object, and checks every read against the end.  A read that
does not fit fails; a skip that does not fit shows up as an overrun.  A scan is a loop whose rounds
take a reader further until one of them ends it.
-/

namespace CLib

/-- The operations on the states `σ` of a reader.  `Left buff cells` says that the reader is inside
its object and that these cells are still before it. -/
structure Reader (α σ : Type) where
  start : List α → σ
  remaining : σ → Nat
  overrun : σ → Bool
  get : σ → Option α × σ
  getBytes : Nat → σ → Option (List α) × σ
  skip : Nat → σ → σ
  Left : σ → List α → Prop
  left_start : ∀ cells, Left (start cells) cells
  remaining_left : ∀ {buff cells}, Left buff cells → remaining buff = cells.length
  overrun_left : ∀ {buff cells}, Left buff cells → overrun buff = false
  get_nil : ∀ {buff}, Left buff [] → (get buff).1 = none
  get_cons : ∀ {buff cell cells}, Left buff (cell :: cells) →
    (get buff).1 = some cell ∧ Left (get buff).2 cells
  getBytes_short : ∀ {count buff cells}, Left buff cells → cells.length < count →
    (getBytes count buff).1 = none
  getBytes_fits : ∀ {count buff cells}, Left buff cells → count ≤ cells.length →
    (getBytes count buff).1 = some (cells.take count) ∧
      Left (getBytes count buff).2 (cells.drop count)
  skip_short : ∀ {count buff cells}, Left buff cells → cells.length < count →
    overrun (skip count buff) = true
  skip_fits : ∀ {count buff cells}, Left buff cells → count ≤ cells.length →
    Left (skip count buff) (cells.drop count)

/-- An object and a position in it. -/
def Reader.cursor (α : Type) : Reader α (List α × Nat) where
  start cells := (cells, 0)
  remaining buff := buff.1.length - buff.2
  overrun buff := buff.1.length < buff.2
  get buff := (buff.1[buff.2]?, buff.1, buff.2 + 1)
  getBytes count buff :=
    if buff.2 + count ≤ buff.1.length then
      (some ((buff.1.drop buff.2).take count), buff.1, buff.2 + count)
    else (none, buff)
  skip count buff := (buff.1, buff.2 + count)
  Left buff cells := buff.2 ≤ buff.1.length ∧ buff.1.drop buff.2 = cells
  left_start cells := ⟨Nat.zero_le _, rfl⟩
  remaining_left left := by rw [← left.2, List.length_drop]
  overrun_left left := decide_eq_false (Nat.not_lt.mpr left.1)
  get_nil left := List.getElem?_eq_none (List.drop_eq_nil_iff.mp left.2)
  get_cons := by
    rintro ⟨object, position⟩ cell cells ⟨_, left⟩
    dsimp only at left ⊢
    have inside : position < object.length := by
      have size := congrArg List.length left
      rw [List.length_drop, List.length_cons] at size
      omega
    rw [List.drop_eq_getElem_cons inside] at left
    obtain ⟨rfl, rfl⟩ := List.cons.inj left
    exact ⟨List.getElem?_eq_getElem inside, inside, rfl⟩
  getBytes_short := by
    rintro count ⟨object, position⟩ cells ⟨inside, rfl⟩ short
    dsimp only at inside short ⊢
    rw [List.length_drop] at short
    rw [if_neg (by omega)]
  getBytes_fits := by
    rintro count ⟨object, position⟩ cells ⟨inside, rfl⟩ fits
    dsimp only at inside fits ⊢
    rw [List.length_drop] at fits
    have room : position + count ≤ object.length := by omega
    simp [room, List.drop_drop]
  skip_short := by
    rintro count ⟨object, position⟩ cells ⟨inside, rfl⟩ short
    dsimp only at inside short ⊢
    rw [List.length_drop] at short
    exact decide_eq_true (by omega)
  skip_fits := by
    rintro count ⟨object, position⟩ cells ⟨inside, rfl⟩ fits
    dsimp only at inside fits ⊢
    rw [List.length_drop] at fits
    exact ⟨by omega, List.drop_drop.symm⟩

namespace Reader

variable {α σ : Type} (reader : Reader α σ) {buff : σ} {cells : List α}

/-- A cell is read, or there is none. -/
theorem get_cases (left : reader.Left buff cells) :
    (cells = [] ∧ ∃ after, reader.get buff = (none, after)) ∨
      ∃ cell rest after, cells = cell :: rest ∧ reader.get buff = (some cell, after) ∧
        reader.Left after rest := by
  cases cells with
  | nil => exact .inl ⟨rfl, _, Prod.ext (reader.get_nil left) rfl⟩
  | cons cell rest =>
    obtain ⟨read, left⟩ := reader.get_cons left
    exact .inr ⟨cell, rest, _, rfl, Prod.ext read rfl, left⟩

theorem getBytes_cases (left : reader.Left buff cells) (count : Nat) :
    (cells.length < count ∧ ∃ after, reader.getBytes count buff = (none, after)) ∨
      count ≤ cells.length ∧ ∃ after, reader.getBytes count buff = (some (cells.take count), after) ∧
        reader.Left after (cells.drop count) := by
  obtain short | fits := Nat.lt_or_ge cells.length count
  · exact .inl ⟨short, _, Prod.ext (reader.getBytes_short left short) rfl⟩
  · obtain ⟨read, left⟩ := reader.getBytes_fits left fits
    exact .inr ⟨fits, _, Prod.ext read rfl, left⟩

/-- What an optional skip leads to, as the check for an overrun tells. -/
theorem skip_cases (left : reader.Left buff cells) (count : Nat) (wanted : Prop) [Decidable wanted] :
    (reader.overrun (if wanted then reader.skip count buff else buff) = true ∧
        cells.length < if wanted then count else 0) ∨
      reader.overrun (if wanted then reader.skip count buff else buff) = false ∧
        (if wanted then count else 0) ≤ cells.length ∧
        reader.Left (if wanted then reader.skip count buff else buff)
          (cells.drop (if wanted then count else 0)) := by
  by_cases skips : wanted
  · simp only [skips, if_true]
    obtain short | fits := Nat.lt_or_ge cells.length count
    · exact .inl ⟨reader.skip_short left short, short⟩
    · have left := reader.skip_fits left fits
      exact .inr ⟨reader.overrun_left left, fits, left⟩
  · simp only [skips, if_false]
    exact .inr ⟨reader.overrun_left left, Nat.zero_le _, left⟩

end Reader

/-! ## Scans -/

/-- What a round of a scan comes to. -/
inductive ScanRound (σ : Type) where
  | ended
  | found
  | next (buff : σ)

/-- A scan of at most `fuel` rounds; `none` when the rounds do not end it. -/
def scan {σ : Type} (round : σ → ScanRound σ) : Nat → σ → Option Bool
  | 0, _ => none
  | fuel + 1, buff =>
    match round buff with
    | .ended => some false
    | .found => some true
    | .next buff => scan round fuel buff

/-- A scan ends when each of its rounds takes the reader further. -/
theorem scan_ends {α σ : Type} (reader : Reader α σ) {round : σ → ScanRound σ}
    (progress : ∀ buff cells next, reader.Left buff cells → round buff = .next next →
      ∃ rest, reader.Left next rest ∧ rest.length < cells.length)
    {fuel : Nat} {buff : σ} {cells : List α} (left : reader.Left buff cells)
    (enough : cells.length < fuel) : ∃ found, scan round fuel buff = some found := by
  induction fuel generalizing buff cells with
  | zero => exact absurd enough (Nat.not_lt_zero _)
  | succ fuel inductionHypothesis =>
    rw [scan]
    cases outcome : round buff with
    | ended => exact ⟨false, rfl⟩
    | found => exact ⟨true, rfl⟩
    | next next =>
      obtain ⟨rest, left, shorter⟩ := progress buff cells next left outcome
      exact inductionHypothesis left (by omega)

end CLib
