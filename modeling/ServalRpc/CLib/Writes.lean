import ServalRpc.CLib.CString

/-! # Writes to arrays of declared sizes

Where a program writes without looking at lengths, what matters of a write is which cells of which
array it touches.  The trace of a function lists its writes in order; unlike a run it does not end
at the first one that leaves its array.
-/

namespace CLib

/-- `count` cells are written from index `start` of an array that has `size` cells. -/
structure Write (β : Type) where
  buffer : β
  size : Nat
  start : Nat
  count : Nat
  deriving DecidableEq, Repr

namespace Write

variable {α β : Type}

def Inside (write : Write β) : Prop := write.start + write.count ≤ write.size

instance (write : Write β) : Decidable write.Inside :=
  inferInstanceAs (Decidable (_ ≤ _))

/-- `sprintf` and `strcpy`: a text and its NUL. -/
def text (buffer : β) (size : Nat) (string : CString) : Write β :=
  ⟨buffer, size, 0, string.length + 1⟩

/-- `strcat`: a text and its NUL behind the `present` bytes that are there. -/
def append (buffer : β) (size present : Nat) (string : CString) : Write β :=
  ⟨buffer, size, present, string.length + 1⟩

/-- The indices behind the array that are written. -/
def outside (write : Write β) : List Nat :=
  List.range' (max write.start write.size)
    (write.start + write.count - max write.start write.size)

@[simp] theorem text_buffer (buffer : β) (size : Nat) (string : CString) :
    (text buffer size string).buffer = buffer := rfl

@[simp] theorem text_inside_iff (buffer : β) (size : Nat) (string : CString) :
    (text buffer size string).Inside ↔ string.length < size := by
  simp only [Inside, text]
  omega

/-- What consecutive stores leave of their block is what the write has outside. -/
theorem storeFrom_stray (block : Block α) (values : List α) (write : Write β)
    (size : block.cells.length = write.size) (count : values.length = write.count) :
    (block.storeFrom write.start values).stray = block.stray ++ write.outside := by
  rw [outside, ← size, ← count]
  obtain inside | behind := Nat.le_total write.start block.cells.length
  · have excess : write.start + values.length - block.cells.length =
        values.length - (block.cells.length - write.start) := by omega
    rw [Block.storeFrom_of_ge inside, Nat.max_eq_right inside, excess]
  · rw [Block.storeFrom_of_le behind, Nat.max_eq_left behind, Nat.add_sub_cancel_left]

/-- Every write of a trace stays in its array. -/
def AllInside (trace : List (Write β)) : Prop := ∀ write ∈ trace, write.Inside

theorem allInside_append_iff {front back : List (Write β)} :
    AllInside (front ++ back) ↔ AllInside front ∧ AllInside back :=
  List.forall_mem_append

@[simp] theorem allInside_nil : AllInside ([] : List (Write β)) :=
  List.forall_mem_nil _

@[simp] theorem allInside_cons_iff {write : Write β} {trace : List (Write β)} :
    AllInside (write :: trace) ↔ write.Inside ∧ AllInside trace :=
  List.forall_mem_cons

end Write

end CLib
