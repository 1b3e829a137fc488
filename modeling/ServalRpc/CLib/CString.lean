import Mathlib.Data.List.TakeWhile
import ServalRpc.CLib.Memory

/-! # C strings

A `CString` is the text of a NUL-terminated string, without its terminator.  Reading one
out of an object scans for the terminator and faults when the object ends first.
-/

namespace CLib

structure CString where
  bytes : List UInt8
  nulFree : 0 ∉ bytes
  deriving DecidableEq

namespace CString

@[ext] theorem ext {left right : CString} (equal : left.bytes = right.bytes) : left = right := by
  cases left
  cases right
  simpa using equal

/-- The string that starts at the head of `memory`, were a NUL to follow its end. -/
def upToNul (memory : List UInt8) : CString :=
  ⟨memory.takeWhile (· != 0), fun member => by simpa using List.mem_takeWhile_imp member⟩

def ofChars (chars : List Char) : CString :=
  upToNul (chars.map fun char => UInt8.ofNat char.toNat)

/-- A letter, `count` times. -/
def ofLetter (count : Nat) (letter : UInt8) (visible : letter ≠ 0) : CString :=
  ⟨List.replicate count letter, fun member => visible (List.eq_of_mem_replicate member).symm⟩

def length (string : CString) : Nat := string.bytes.length

instance : Append CString where
  append left right := ⟨left.bytes ++ right.bytes, by simp [left.nulFree, right.nulFree]⟩

/-- The `length + 1` bytes that a string occupies. -/
def terminated (string : CString) : List UInt8 := string.bytes ++ [0]

/-- `sprintf` with `%u`. -/
def decimal (number : Nat) : CString :=
  ofChars (Nat.toDigits 10 number)

/-- The string at the start of an object, as `strlen` and `strcpy` find it. -/
def read (memory : List UInt8) : Except Fault CString :=
  if 0 ∈ memory then .ok (upToNul memory) else .error .readOutOfBounds

/-- `!strncmp(left, right, count)`. -/
def strncmpEq (left right : CString) (count : Nat) : Bool :=
  left.terminated.take count == right.terminated.take count

/-- `strrchr`, as an index: where a byte is for the last time. -/
def strrchr (string : CString) (char : UInt8) : Option Nat :=
  if char ∈ string.bytes then
    some (string.length - 1 - string.bytes.reverse.idxOf char)
  else none

theorem letter_visible : (97 : UInt8) ≠ 0 := by decide

theorem length_ofLetter (count : Nat) {letter : UInt8} (visible : letter ≠ 0) :
    (ofLetter count letter visible).length = count :=
  List.length_replicate

@[simp] theorem append_bytes (left right : CString) :
    (left ++ right).bytes = left.bytes ++ right.bytes := rfl

theorem length_append (left right : CString) :
    (left ++ right).length = left.length + right.length :=
  List.length_append

theorem upToNul_bytes_of_nulFree {memory : List UInt8} (nulFree : 0 ∉ memory) :
    (upToNul memory).bytes = memory := by
  apply List.takeWhile_eq_self_iff.mpr
  intro byte member
  simpa using fun zero : byte = 0 => nulFree (zero ▸ member)

theorem upToNul_bytes (string : CString) : upToNul string.bytes = string :=
  ext (upToNul_bytes_of_nulFree string.nulFree)

theorem upToNul_append {front : List UInt8} (nulFree : 0 ∉ front) (back : List UInt8) :
    (upToNul (front ++ 0 :: back)).bytes = front := by
  have skipped : ∀ byte ∈ front, (byte != 0) = true := by
    intro byte member
    simpa using fun zero : byte = 0 => nulFree (zero ▸ member)
  simp [upToNul, List.takeWhile_append_of_pos skipped]

/-- An object that holds a NUL is a string, its terminator and the bytes behind it. -/
theorem exists_eq_append_of_mem {memory : List UInt8} (terminated : 0 ∈ memory) :
    ∃ rest, memory = (upToNul memory).bytes ++ 0 :: rest := by
  obtain ⟨front, back, rfl, nulFree⟩ := List.eq_append_cons_of_mem terminated
  exact ⟨back, by rw [upToNul_append nulFree]⟩

theorem read_of_mem {memory : List UInt8} (terminated : 0 ∈ memory) :
    read memory = .ok (upToNul memory) := by
  simp [read, terminated]

theorem mem_of_read {memory : List UInt8} {text : CString} (found : read memory = .ok text) :
    0 ∈ memory ∧ text = upToNul memory := by
  unfold read at found
  split at found
  · rename_i terminated
    exact ⟨terminated, (Except.ok.inj found).symm⟩
  · cases found

theorem read_of_not_mem {memory : List UInt8} (unterminated : 0 ∉ memory) :
    read memory = .error .readOutOfBounds := by
  simp [read, unterminated]

theorem read_terminated (text : CString) (behind : List UInt8) :
    read (text.bytes ++ 0 :: behind) = .ok text := by
  rw [read_of_mem (List.mem_append_right _ List.mem_cons_self)]
  exact congrArg Except.ok (ext (upToNul_append text.nulFree behind))

/-- What lies behind the terminator does not matter. -/
theorem read_append {memory : List UInt8} {text : CString} (found : read memory = .ok text)
    (behind : List UInt8) : read (memory ++ behind) = .ok text := by
  obtain ⟨terminated, rfl⟩ := mem_of_read found
  obtain ⟨rest, split⟩ := exists_eq_append_of_mem terminated
  have whole := read_terminated (upToNul memory) (rest ++ behind)
  rwa [← List.cons_append, ← List.append_assoc, ← split] at whole

/-- A NUL ends the string, unless an earlier one has. -/
theorem read_append_nul (front behind : List UInt8) :
    read (front ++ 0 :: behind) = .ok (upToNul front) := by
  by_cases terminated : 0 ∈ front
  · exact read_append (read_of_mem terminated) _
  · have text := read_terminated (upToNul front) behind
    rwa [upToNul_bytes_of_nulFree terminated] at text

/-- The same for any front of the object that is long enough to hold the NUL. -/
theorem read_prefix {front text behind : List UInt8} (isPrefix : front <+: text ++ 0 :: behind)
    (wide : text.length < front.length) : read front = .ok (upToNul text) := by
  have terminated : text ++ [0] <+: front := by
    refine List.prefix_of_prefix_length_le ⟨behind, ?_⟩ isPrefix ?_
    · rw [List.append_assoc, List.singleton_append]
    · rwa [List.length_append, List.length_singleton]
  obtain ⟨rest, rfl⟩ := terminated
  rw [List.append_assoc]
  exact read_append_nul text rest

/-- A comparison bounded by the length of its left string succeeds on every prefix. -/
theorem strncmpEq_length_iff (left right : CString) :
    strncmpEq left right left.length = true ↔ left.bytes <+: right.bytes := by
  have whole : left.terminated.take left.length = left.bytes := by
    simp [terminated, length]
  rw [strncmpEq, whole, beq_iff_eq]
  unfold length terminated
  rw [← List.prefix_iff_eq_take, List.prefix_concat_iff]
  constructor
  · rintro (equal | isPrefix)
    · exact absurd (equal ▸ List.mem_append_right _ (List.mem_singleton.mpr rfl)) left.nulFree
    · exact isPrefix
  · exact .inr

theorem strrchr_of_split {string : CString} {front rest : List UInt8} {char : UInt8}
    (split : string.bytes = front ++ char :: rest) (last : char ∉ rest) :
    strrchr string char = some front.length := by
  have later : char ∉ rest.reverse := by simpa using last
  have member : char ∈ string.bytes := by simp [split]
  have length : string.length = front.length + rest.length + 1 := by
    rw [CString.length, split, List.length_append, List.length_cons, Nat.add_assoc]
  rw [strrchr, if_pos member, length, split, List.reverse_append, List.reverse_cons,
    List.append_assoc, List.idxOf_append_of_notMem later, List.singleton_append,
    List.idxOf_cons_self, List.length_reverse]
  congr 1
  omega

theorem strrchr_eq_some_iff {string : CString} {char : UInt8} {position : Nat} :
    strrchr string char = some position ↔ ∃ front rest,
      string.bytes = front ++ char :: rest ∧ char ∉ rest ∧ front.length = position := by
  constructor
  · intro found
    by_cases member : char ∈ string.bytes
    · obtain ⟨rest, front, split, last⟩ := List.eq_append_cons_of_mem (List.mem_reverse.mpr member)
      have whole : string.bytes = front.reverse ++ char :: rest.reverse := by
        rw [← List.reverse_reverse string.bytes, split]
        simp
      have free : char ∉ rest.reverse := by simpa using last
      have same := (strrchr_of_split whole free).symm.trans found
      exact ⟨_, _, whole, free, Option.some.inj same⟩
    · rw [strrchr, if_neg member] at found
      cases found
  · rintro ⟨front, rest, split, last, rfl⟩
    exact strrchr_of_split split last

theorem strncmpEq_comm (left right : CString) (count : Nat) :
    strncmpEq left right count = strncmpEq right left count :=
  Bool.beq_comm

end CString

end CLib
