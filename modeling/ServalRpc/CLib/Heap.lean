import ServalRpc.CLib.Memory

/-! # Objects on the heap

The heap grants a request or refuses it.  What it grants has no more cells than `PTRDIFF_MAX`,
and the cells that a reallocation adds hold whatever the heap has there.
-/

namespace CLib

variable {α : Type}

/-- `PTRDIFF_MAX` (64 bits). -/
def ptrdiffMax : Nat := 2 ^ 63 - 1

/-- `calloc(size, ...)`: a null pointer when the heap refuses. -/
def calloc (granted : Bool) (size : Nat) (zero : α) : Option (List α) :=
  if granted ∧ size ≤ ptrdiffMax then some (List.replicate size zero) else none

/-- `realloc(object, size)`.  The request is granted with `some` cells behind the old ones, and a
null pointer is an object without cells. -/
def realloc (heap : Option (Nat → α)) (object : Option (List α)) (size : Nat) :
    Option (List α) :=
  if size ≤ ptrdiffMax then heap.map fun cells => overread (object.getD []) cells size else none

/-- An object only becomes larger: its cells are the front of the new ones. -/
theorem realloc_grows {heap : Option (Nat → α)} {object block : List α} {size : Nat}
    (larger : object.length ≤ size) (granted : realloc heap (some object) size = some block) :
    size ≤ ptrdiffMax ∧ ∃ rest, block = object ++ rest ∧ object.length + rest.length = size := by
  unfold realloc at granted
  split at granted
  · rename_i small
    obtain ⟨cells, -, rfl⟩ := Option.map_eq_some_iff.mp granted
    obtain ⟨rest, split⟩ := prefix_overread cells larger
    refine ⟨small, rest, split.symm, ?_⟩
    rw [← List.length_append, split, overread, List.length_map, List.length_range]
  · cases granted

/-- Making room for more text behind a text, copying it there and ending it again. -/
theorem append_terminated {heap : Option (Nat → α)} {zero : α} {text block : List α}
    (chunk : List α)
    (granted : realloc heap (some (text ++ [zero])) (text.length + chunk.length + 1) =
      some block) :
    ∃ copied, storeRange block text.length chunk = .ok copied ∧
      storeRange copied (text.length + chunk.length) [zero] = .ok (text ++ chunk ++ [zero]) := by
  obtain ⟨-, rest, rfl, room⟩ := realloc_grows (by simp) granted
  simp only [List.length_append, List.length_singleton] at room
  -- The old terminator is the first cell that the copy replaces.
  rw [List.append_assoc]
  refine ⟨_, storeRange_at_end text ([zero] ++ rest) chunk _ rfl ?_, ?_⟩
  · simp only [List.length_append, List.length_singleton]
    omega
  · have left : (([zero] ++ rest).drop chunk.length).length = [zero].length := by
      simp only [List.length_drop, List.length_append, List.length_singleton]
      omega
    rw [storeRange_at_end (text ++ chunk) _ [zero] _ (by simp) (Nat.le_of_eq left.symm),
      List.drop_of_length_le (Nat.le_of_eq left), List.append_nil]

end CLib
