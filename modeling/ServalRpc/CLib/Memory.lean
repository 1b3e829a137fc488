import Mathlib.Algebra.Ring.Int.Defs
import Mathlib.Algebra.Ring.Nat
import Mathlib.Data.List.Basic

/-! # Bounded objects of a C program

A C object is the list of its cells.  Loads and copies that leave the object stop the
program with a `Fault`.  A `Block` is an object whose stores must not stop the program,
because the claim of interest is about the index that was stored to: a store outside the
block leaves the cells alone and its index is kept in `stray`.
-/

namespace CLib

/-- Why a program stopped: it touched a cell outside the object it points into, or it
followed a null pointer. -/
inductive Fault where
  | readOutOfBounds
  | writeOutOfBounds
  | nullPointer
  deriving DecidableEq, Repr

/-! ## Loads and copies -/

def load {α : Type} (object : List α) (index : Nat) : Except Fault α :=
  match object[index]? with
  | some cell => .ok cell
  | none => .error .readOutOfBounds

def loadRange {α : Type} (object : List α) (start count : Nat) : Except Fault (List α) :=
  if start + count ≤ object.length then .ok ((object.drop start).take count)
  else .error .readOutOfBounds

/-- `memcpy(&object[offset], cells, cells.length)`. -/
def storeRange {α : Type} (object : List α) (offset : Nat) (cells : List α) :
    Except Fault (List α) :=
  if offset + cells.length ≤ object.length then
    .ok (object.take offset ++ cells ++ object.drop (offset + cells.length))
  else .error .writeOutOfBounds

def deref {α : Type} (pointer : Option α) : Except Fault α :=
  match pointer with
  | some value => .ok value
  | none => .error .nullPointer

/-- The `count` bytes from the start of `object` on, with what lies `behind` it in memory. -/
def overread {α : Type} (object : List α) (behind : Nat → α) (count : Nat) : List α :=
  (List.range count).map fun index => object.getD index (behind index)

/-- An `int` at type `size_t` (64 bits). -/
def sizeOfInt (value : Int) : Nat :=
  (value % 2 ^ 64).toNat

/-- What the cast to `int` (32 bits) makes of a `double` with this whole part: one that does not fit
becomes `INT_MIN`. -/
@[irreducible] def castInt (whole : Int) : Int :=
  if -2 ^ 31 ≤ whole ∧ whole < 2 ^ 31 then whole else -2 ^ 31

/-- `left - right` at type `size_t` (64 bits): below zero the difference wraps. -/
def sizeSub (left right : Nat) : Nat :=
  if right ≤ left then left - right else left + 2 ^ 64 - right

theorem load_of_lt {α : Type} {object : List α} {index : Nat} (bound : index < object.length) :
    load object index = .ok object[index] := by
  simp [load, bound]

theorem load_of_le {α : Type} {object : List α} {index : Nat} (bound : object.length ≤ index) :
    load object index = .error .readOutOfBounds := by
  simp [load, bound]

theorem load_of_head? {α : Type} {object : List α} {cell : α} (first : object.head? = some cell) :
    load object 0 = .ok cell := by
  cases object with
  | nil => cases first
  | cons head rest => exact congrArg Except.ok (Option.some.inj first)

theorem length_ne_zero_of_load {α : Type} {object : List α} {cell : α}
    (loaded : load object 0 = .ok cell) : object.length ≠ 0 := by
  intro empty
  cases (load_of_le (Nat.le_of_eq empty)).symm.trans loaded

theorem load_overread {α : Type} (object : List α) (behind : Nat → α) {count index : Nat}
    (inside : index < count) :
    load (overread object behind count) index = .ok (object.getD index (behind index)) := by
  rw [load_of_lt (by simpa [overread] using inside)]
  simp [overread]

theorem overread_length {α : Type} (object : List α) (behind : Nat → α) (count : Nat) :
    (overread object behind count).length = count := by
  rw [overread, List.length_map, List.length_range]

theorem overread_self {α : Type} (object : List α) (behind : Nat → α) :
    overread object behind object.length = object := by
  apply List.ext_getElem (by simp [overread])
  intro index inside inside'
  simp [overread, inside']

theorem overread_of_le {α : Type} {object : List α} (behind : Nat → α) {count : Nat}
    (inside : count ≤ object.length) : overread object behind count = object.take count := by
  apply List.ext_getElem (by simp [overread, inside])
  intro index bound _
  have lt : index < object.length := by
    rw [overread, List.length_map, List.length_range] at bound
    omega
  simp [overread, lt]

theorem prefix_overread {α : Type} {object : List α} (behind : Nat → α) {count : Nat}
    (inside : object.length ≤ count) : object <+: overread object behind count := by
  rw [List.prefix_iff_eq_take]
  apply List.ext_getElem (by simp [overread, inside])
  intro index bound _
  simp [overread, bound]

theorem overread_head? {α : Type} (object : List α) (behind : Nat → α) {count : Nat}
    (nonzero : count ≠ 0) :
    (overread object behind count).head? = some (object.getD 0 (behind 0)) := by
  simp [overread, List.head?_range, nonzero]

theorem sizeOfInt_natCast {value : Nat} (bound : value < 2 ^ 64) : sizeOfInt value = value := by
  unfold sizeOfInt
  omega

theorem castInt_of_inside {whole : Int} (inside : -2 ^ 31 ≤ whole ∧ whole < 2 ^ 31) :
    castInt whole = whole := by
  rw [castInt, if_pos inside]

theorem castInt_of_outside {whole : Int} (outside : ¬(-2 ^ 31 ≤ whole ∧ whole < 2 ^ 31)) :
    castInt whole = -2 ^ 31 := by
  rw [castInt, if_neg outside]

theorem loadRange_of_le {α : Type} {object : List α} {start count : Nat}
    (bound : start + count ≤ object.length) :
    loadRange object start count = .ok ((object.drop start).take count) := by
  simp [loadRange, bound]

theorem loadRange_eq_ok_iff {α : Type} {object cells : List α} {start count : Nat} :
    loadRange object start count = .ok cells ↔
      start + count ≤ object.length ∧ (object.drop start).take count = cells := by
  unfold loadRange
  split
  · rename_i inside
    simp [inside]
  · rename_i outside
    simp [outside]

theorem loadRange_of_lt {α : Type} {object : List α} {start count : Nat}
    (outside : object.length < start + count) :
    loadRange object start count = .error .readOutOfBounds := by
  simp [loadRange, Nat.not_le.mpr outside]

/-- What lies behind an object does not change what is read inside it. -/
theorem load_append {α : Type} {object : List α} {index : Nat} {cell : α}
    (loaded : load object index = .ok cell) (behind : List α) :
    load (object ++ behind) index = .ok cell := by
  unfold load at loaded ⊢
  cases found : object[index]? with
  | none =>
    rw [found] at loaded
    cases loaded
  | some cell =>
    rw [found] at loaded
    obtain ⟨inside, same⟩ := List.getElem?_eq_some_iff.mp found
    rw [List.getElem?_append_left inside, found]
    exact loaded

theorem load_append_right {α : Type} (front object : List α) (index : Nat) :
    load (front ++ object) (front.length + index) = load object index := by
  unfold load
  rw [List.getElem?_append_right (Nat.le_add_right _ _), Nat.add_sub_cancel_left]

theorem loadRange_append {α : Type} {object cells : List α} {start count : Nat}
    (loaded : loadRange object start count = .ok cells) (behind : List α) :
    loadRange (object ++ behind) start count = .ok cells := by
  obtain ⟨inside, rfl⟩ := loadRange_eq_ok_iff.mp loaded
  apply loadRange_eq_ok_iff.mpr
  constructor
  · rw [List.length_append]
    omega
  · rw [List.drop_append_of_le_length (by omega), List.take_append_of_le_length]
    rw [List.length_drop]
    omega

/-- A copy to the end of what has been written so far extends it. -/
theorem storeRange_at_end {α : Type} (written rest cells : List α) (offset : Nat)
    (atEnd : offset = written.length) (room : cells.length ≤ rest.length) :
    storeRange (written ++ rest) offset cells =
      .ok (written ++ cells ++ rest.drop cells.length) := by
  subst atEnd
  simp [storeRange, room, List.drop_append]

theorem storeRange_length {α : Type} {object result cells : List α} {offset : Nat}
    (stored : storeRange object offset cells = .ok result) : result.length = object.length := by
  unfold storeRange at stored
  split at stored
  · cases stored
    simp only [List.length_append, List.length_take, List.length_drop]
    omega
  · cases stored

/-- A sequence of two steps returns when both do. -/
theorem bind_eq_ok_iff {ε α β : Type} {first : Except ε α} {next : α → Except ε β}
    {result : β} :
    first >>= next = .ok result ↔ ∃ value, first = .ok value ∧ next value = .ok result := by
  cases first <;> simp [bind, Except.bind]

theorem unit_bind_eq_ok_iff {ε β : Type} {first : Except ε Unit} {next : Except ε β} {result : β} :
    (first >>= fun _ => next) = .ok result ↔ first = .ok () ∧ next = .ok result := by
  cases first <;> simp [bind, Except.bind]

/-- Each result of a sequence of calls is that of one of them. -/
theorem exists_of_mapM_ok {ε α β : Type} {call : α → Except ε β} {inputs : List α} {results : List β}
    (called : inputs.mapM call = .ok results) :
    ∀ result ∈ results, ∃ input ∈ inputs, call input = .ok result := by
  induction inputs generalizing results with
  | nil =>
    obtain rfl := Except.ok.inj called
    exact fun _ member => nomatch member
  | cons input inputs inductionHypothesis =>
    rw [List.mapM_cons] at called
    obtain ⟨first, firstCalled, called⟩ := bind_eq_ok_iff.mp called
    obtain ⟨rest, restCalled, called⟩ := bind_eq_ok_iff.mp called
    obtain rfl := Except.ok.inj called
    intro result member
    obtain rfl | member := List.mem_cons.mp member
    · exact ⟨input, List.mem_cons_self, firstCalled⟩
    · obtain ⟨other, isInput, otherCalled⟩ := inductionHypothesis restCalled result member
      exact ⟨other, List.mem_cons_of_mem input isInput, otherCalled⟩

theorem ok_bind {ε α β : Type} (value : α) (next : α → Except ε β) :
    (Except.ok value >>= next) = next value := rfl

theorem mapError_eq_ok_iff {ε ε' α : Type} {read : Except ε α} {cause : ε → ε'} {value : α} :
    read.mapError cause = .ok value ↔ read = .ok value := by
  cases read <;> simp [Except.mapError]

theorem map_eq_ok_iff {ε α β : Type} {run : Except ε α} {view : α → β} {value : β} :
    run.map view = .ok value ↔ ∃ result, run = .ok result ∧ view result = value := by
  cases run <;> simp [Except.map]

@[simp] theorem deref_some {α : Type} (value : α) : deref (some value) = .ok value := rfl

@[simp] theorem deref_none {α : Type} : deref (none : Option α) = .error .nullPointer := rfl

theorem deref_eq_ok_iff {α : Type} (pointer : Option α) (value : α) :
    deref pointer = .ok value ↔ pointer = some value := by
  cases pointer <;> simp

/-- What is followed is no null pointer. -/
theorem isSome_of_deref {α : Type} {pointer : Option α} {value : α}
    (followed : deref pointer = .ok value) : pointer.isSome :=
  Option.isSome_of_eq_some ((deref_eq_ok_iff pointer value).mp followed)

theorem sizeSub_of_le {left right : Nat} (ordered : right ≤ left) :
    sizeSub left right = left - right :=
  if_pos ordered

/-! ## Stops to be avoided -/

/-- The run does not stop for one of these reasons. -/
def Avoids {ε α : Type} (bad : ε → Prop) (run : Except ε α) : Prop :=
  ∀ stop, run = .error stop → ¬ bad stop

section Avoids

variable {ε α β : Type} {bad : ε → Prop}

theorem avoids_ok (value : α) : Avoids bad (.ok value) := by
  intro stop stopped
  cases stopped

theorem avoids_error_iff {stop : ε} : Avoids bad (.error stop : Except ε α) ↔ ¬ bad stop := by
  simp [Avoids]

theorem avoids_bind_iff {first : Except ε α} {next : α → Except ε β} :
    Avoids bad (first >>= next) ↔
      Avoids bad first ∧ ∀ value, first = .ok value → Avoids bad (next value) := by
  cases first with
  | error stop => simp [Avoids, bind, Except.bind]
  | ok value => simp [Avoids, bind, Except.bind]

end Avoids

/-- A read or a copy leaves its object. -/
def OutOfBounds (fault : Fault) : Prop := fault ≠ .nullPointer

instance (fault : Fault) : Decidable (OutOfBounds fault) := inferInstanceAs (Decidable (_ ≠ _))

/-! ## Arrays of pointers -/

def derefAt {α : Type} (pointers : List (Option α)) (index : Nat) : Except Fault α := do
  deref (← load pointers index)

/-- The values behind the first `count` pointers of an array. -/
def derefRange {α : Type} (pointers : List (Option α)) (count : Nat) : Except Fault (List α) :=
  (List.range count).mapM (derefAt pointers)

theorem derefAt_eq_ok_iff {α : Type} {pointers : List (Option α)} {index : Nat} {value : α} :
    derefAt pointers index = .ok value ↔ pointers[index]? = some (some value) := by
  unfold derefAt load
  cases pointers[index]? with
  | none => simp [bind, Except.bind]
  | some pointer => cases pointer <;> simp [bind, Except.bind]

theorem derefRange_succ {α : Type} (pointers : List (Option α)) (count : Nat) :
    derefRange pointers (count + 1) = (do
      let front ← derefRange pointers count
      let value ← derefAt pointers count
      pure (front ++ [value])) := by
  rw [derefRange, List.range_succ, List.mapM_append]
  simp only [List.mapM_cons, List.mapM_nil, bind_assoc, pure_bind]
  rfl

/-- The walk succeeds exactly when the pointers lie in the array and none of them is null. -/
theorem derefRange_eq_ok_iff {α : Type} {pointers : List (Option α)} {count : Nat}
    {values : List α} :
    derefRange pointers count = .ok values ↔
      count ≤ pointers.length ∧ pointers.take count = values.map some := by
  induction count generalizing values with
  | zero =>
    have empty : derefRange pointers 0 = .ok [] := rfl
    cases values <;> simp [empty]
  | succ count inductionHypothesis =>
    rw [derefRange_succ]
    constructor
    · intro walked
      obtain ⟨front, frontWalked, walked⟩ := bind_eq_ok_iff.mp walked
      obtain ⟨value, found, last⟩ := bind_eq_ok_iff.mp walked
      cases last
      obtain ⟨_, frontEqual⟩ := inductionHypothesis.mp frontWalked
      obtain ⟨inside, cell⟩ := List.getElem?_eq_some_iff.mp (derefAt_eq_ok_iff.mp found)
      exact ⟨inside, by rw [List.take_succ_eq_append_getElem inside, frontEqual, cell]; simp⟩
    · rintro ⟨inside, equal⟩
      rw [List.take_succ_eq_append_getElem inside] at equal
      obtain ⟨front, last, rfl, frontEqual, lastEqual⟩ := List.map_eq_append_iff.mp equal.symm
      obtain ⟨value, rfl, cell⟩ := List.map_eq_singleton_iff.mp lastEqual
      have frontWalked := inductionHypothesis.mpr ⟨Nat.le_of_succ_le inside, frontEqual.symm⟩
      have found := derefAt_eq_ok_iff.mpr (List.getElem?_eq_some_iff.mpr ⟨inside, cell.symm⟩)
      exact bind_eq_ok_iff.mpr ⟨front, frontWalked, bind_eq_ok_iff.mpr ⟨value, found, rfl⟩⟩

theorem derefAt_of_derefRange {α : Type} {pointers : List (Option α)} {count : Nat} {first : α}
    {rest : List α} (walked : derefRange pointers count = .ok (first :: rest)) :
    derefAt pointers 0 = .ok first := by
  have front := (derefRange_eq_ok_iff.mp walked).2
  rw [derefAt_eq_ok_iff]
  cases pointers with
  | nil => simp at front
  | cons pointer pointers =>
    cases count with
    | zero => cases front
    | succ count => simpa using (List.cons.inj front).1

/-- The walk over an array whose first pointer has been replaced. -/
theorem derefRange_replace {α : Type} {pointers : List (Option α)} {count : Nat} {first : α}
    {rest : List α} (walked : derefRange pointers count = .ok (first :: rest)) (value : α) :
    derefRange (some value :: pointers.drop 1) count = .ok (value :: rest) := by
  obtain ⟨inside, front⟩ := derefRange_eq_ok_iff.mp walked
  rw [derefRange_eq_ok_iff]
  cases pointers with
  | nil => simp at front
  | cons pointer pointers =>
    cases count with
    | zero => cases front
    | succ count => exact ⟨inside, congrArg (some value :: ·) (List.cons.inj front).2⟩

/-- Pointers none of which is null are the pointers to some values. -/
theorem exists_eq_map_some {α : Type} {pointers : List (Option α)} (filled : none ∉ pointers) :
    ∃ values : List α, pointers = values.map some := by
  induction pointers with
  | nil => exact ⟨[], rfl⟩
  | cons pointer pointers inductionHypothesis =>
    simp only [List.mem_cons, not_or] at filled
    obtain ⟨values, rfl⟩ := inductionHypothesis filled.2
    cases pointer with
    | none => exact absurd rfl filled.1
    | some value => exact ⟨value :: values, rfl⟩

/-! ## Blocks -/

/-- A fixed number of cells, and the indices outside them that were stored to. -/
structure Block (α : Type) where
  cells : List α
  stray : List Nat
  deriving DecidableEq, Repr

namespace Block

variable {α : Type}

/-- `calloc(size, ...)`: every cell holds `zero`. -/
def calloc (size : Nat) (zero : α) : Block α :=
  ⟨List.replicate size zero, []⟩

def store (block : Block α) (index : Nat) (value : α) : Block α :=
  if index < block.cells.length then { block with cells := block.cells.set index value }
  else { block with stray := block.stray ++ [index] }

/-- A store to a part of the cell at `index`. -/
def update (block : Block α) (index : Nat) (part : α → α) : Block α :=
  if index < block.cells.length then { block with cells := block.cells.modify index part }
  else { block with stray := block.stray ++ [index] }

/-- Stores at consecutive indices from `index` on. -/
def storeFrom (block : Block α) (index : Nat) : List α → Block α
  | [] => block
  | value :: values => (block.store index value).storeFrom (index + 1) values

theorem store_of_lt {block : Block α} {index : Nat} (bound : index < block.cells.length)
    (value : α) : block.store index value = ⟨block.cells.set index value, block.stray⟩ := by
  simp [store, bound]

theorem store_of_le {block : Block α} {index : Nat} (bound : block.cells.length ≤ index)
    (value : α) : block.store index value = ⟨block.cells, block.stray ++ [index]⟩ := by
  simp [store, Nat.not_lt.mpr bound]

@[simp] theorem store_length (block : Block α) (index : Nat) (value : α) :
    (block.store index value).cells.length = block.cells.length := by
  unfold store
  split <;> simp

/-- A store adds to `stray` exactly when its index lies outside the block. -/
theorem store_stray_eq_iff (block : Block α) (index : Nat) (value : α) :
    (block.store index value).stray = block.stray ↔ index < block.cells.length := by
  unfold store
  split <;> simp_all

theorem update_of_lt {block : Block α} {index : Nat} (bound : index < block.cells.length)
    (part : α → α) : block.update index part = ⟨block.cells.modify index part, block.stray⟩ := by
  simp [update, bound]

theorem update_of_le {block : Block α} {index : Nat} (bound : block.cells.length ≤ index)
    (part : α → α) : block.update index part = ⟨block.cells, block.stray ++ [index]⟩ := by
  simp [update, Nat.not_lt.mpr bound]

theorem update_length (block : Block α) (index : Nat) (part : α → α) :
    (block.update index part).cells.length = block.cells.length := by
  unfold update
  split <;> simp

/-- A partial store to a cell that was just stored to. -/
theorem update_set {cells : List α} {index : Nat} (bound : index < cells.length) (value : α)
    (stray : List Nat) (part : α → α) :
    (⟨cells.set index value, stray⟩ : Block α).update index part =
      ⟨cells.set index (part value), stray⟩ := by
  rw [update_of_lt (by simpa using bound), List.modify_eq_set_getElem?]
  simp [bound]

/-- A partial store adds to `stray` exactly when its index lies outside the block. -/
theorem update_stray_eq_iff (block : Block α) (index : Nat) (part : α → α) :
    (block.update index part).stray = block.stray ↔ index < block.cells.length := by
  unfold update
  split <;> simp_all

theorem store_head? {block : Block α} {index : Nat} (behind : index ≠ 0) (value : α) :
    (block.store index value).cells.head? = block.cells.head? := by
  unfold store
  split
  · cases cells : block.cells with
    | nil => rfl
    | cons first rest =>
      cases index with
      | zero => exact absurd rfl behind
      | succ index => rfl
  · rfl

theorem storeFrom_head? {block : Block α} {index : Nat} (behind : index ≠ 0) (values : List α) :
    (block.storeFrom index values).cells.head? = block.cells.head? := by
  induction values generalizing block index with
  | nil => rfl
  | cons value values inductionHypothesis =>
    rw [storeFrom, inductionHypothesis (Nat.succ_ne_zero index), store_head? behind]

@[simp] theorem storeFrom_length (block : Block α) (index : Nat) (values : List α) :
    (block.storeFrom index values).cells.length = block.cells.length := by
  induction values generalizing block index with
  | nil => rfl
  | cons value values inductionHypothesis =>
    simp [storeFrom, inductionHypothesis]

theorem storeFrom_of_le {block : Block α} {index : Nat} (outside : block.cells.length ≤ index)
    (values : List α) :
    block.storeFrom index values =
      ⟨block.cells, block.stray ++ List.range' index values.length⟩ := by
  induction values generalizing block index with
  | nil => simp [storeFrom]
  | cons value values inductionHypothesis =>
    rw [storeFrom, store_of_le outside]
    have next := @inductionHypothesis ⟨block.cells, block.stray ++ [index]⟩ (index + 1)
      (Nat.le_succ_of_le outside)
    rw [next]
    simp [List.range'_succ]

/-- Consecutive stores fill the block from `index` on; those that no longer fit are stray. -/
theorem storeFrom_of_ge {block : Block α} {index : Nat} (inside : index ≤ block.cells.length)
    (values : List α) :
    block.storeFrom index values =
      ⟨block.cells.take index ++ values.take (block.cells.length - index) ++
          block.cells.drop (index + values.length),
        block.stray ++ List.range' block.cells.length
          (values.length - (block.cells.length - index))⟩ := by
  induction values generalizing block index with
  | nil => simp [storeFrom]
  | cons value values inductionHypothesis =>
    obtain bound | full := Nat.lt_or_eq_of_le inside
    · rw [storeFrom, store_of_lt bound, inductionHypothesis (by simpa using Nat.succ_le_of_lt bound)]
      have room : block.cells.length - index = block.cells.length - (index + 1) + 1 := by omega
      simp only [List.length_set, List.length_cons, room, List.take_succ_cons, mk.injEq]
      constructor
      · have front : (block.cells.set index value).take (index + 1) =
            block.cells.take index ++ [value] := by
          have length : (block.cells.take index).length = index := by simp; omega
          rw [List.take_set, List.take_succ_eq_append_getElem bound,
            List.set_append_right _ _ (Nat.le_of_eq length), length]
          simp
        rw [front, List.drop_set_of_lt (by omega)]
        simp [Nat.add_assoc, Nat.add_comm 1]
      · congr 2; omega
    · rw [storeFrom_of_le (Nat.le_of_eq full.symm)]
      simp [full]

theorem storeFrom_of_fits {block : Block α} {index : Nat} {values : List α}
    (fits : index + values.length ≤ block.cells.length) :
    block.storeFrom index values =
      ⟨block.cells.take index ++ values ++ block.cells.drop (index + values.length),
        block.stray⟩ := by
  have room : values.length - (block.cells.length - index) = 0 := by omega
  rw [storeFrom_of_ge (by omega), List.take_of_length_le (show values.length ≤ _ by omega), room]
  simp

/-- Filling a fresh block from its first cell on. -/
theorem calloc_storeFrom (size : Nat) (zero : α) (values : List α) :
    (calloc size zero).storeFrom 0 values =
      ⟨values.take size ++ List.replicate (size - values.length) zero,
        List.range' size (values.length - size)⟩ := by
  simp [storeFrom_of_ge, calloc]

/-- A block of pointers is filled completely, and only inside, by exactly as many values as it
has cells. -/
theorem calloc_storeFrom_full_iff {β : Type} (size : Nat) (values : List β) :
    (((calloc size none).storeFrom 0 (values.map some)).stray = [] ∧
      none ∉ ((calloc size none).storeFrom 0 (values.map some)).cells) ↔ values.length = size := by
  have filled : none ∉ (values.map some).take size := fun member => by
    simpa using List.mem_of_mem_take member
  simp only [calloc_storeFrom, List.length_map, List.mem_append, filled, List.mem_replicate,
    false_or, and_true, List.range'_eq_nil_iff]
  omega

theorem calloc_storeFrom_of_length {β : Type} {size : Nat} {values : List β}
    (full : values.length = size) :
    (calloc size none).storeFrom 0 (values.map some) = ⟨values.map some, []⟩ := by
  subst full
  rw [calloc_storeFrom, List.length_map, List.take_of_length_le (by simp)]
  simp

end Block

end CLib
