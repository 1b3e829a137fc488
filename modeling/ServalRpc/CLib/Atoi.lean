import ServalRpc.CLib.CString

/-! # `atoi`

White space, a sign and decimal digits; the number ends at the first byte that is no digit.
Numbers are unbounded here, so this is the library function on texts whose value fits an `int`.
-/

namespace CLib

def isSpace (byte : UInt8) : Bool := byte == 32 || decide (9 ≤ byte ∧ byte ≤ 13)

def isDigit (byte : UInt8) : Bool := decide (48 ≤ byte ∧ byte ≤ 57)

/-- The value of a string of digits. -/
def digitsValue (digits : List UInt8) : Nat :=
  digits.foldl (fun value digit => 10 * value + (digit.toNat - 48)) 0

def atoi (text : CString) : Int :=
  match text.bytes.dropWhile isSpace with
  | 45 :: digits => -digitsValue (digits.takeWhile isDigit)
  | 43 :: digits => digitsValue (digits.takeWhile isDigit)
  | digits => digitsValue (digits.takeWhile isDigit)

theorem isDigit_iff (byte : UInt8) : isDigit byte = true ↔ 48 ≤ byte.toNat ∧ byte.toNat ≤ 57 := by
  rw [isDigit, decide_eq_true_iff, UInt8.le_iff_toNat_le, UInt8.le_iff_toNat_le]
  rfl

theorem digitsValue_singleton (digit : UInt8) : digitsValue [digit] = digit.toNat - 48 := by
  simp [digitsValue]

/-- Digits are neither white space nor signs. -/
theorem isSpace_of_isDigit {byte : UInt8} (digit : isDigit byte = true) :
    isSpace byte = false ∧ byte ≠ 45 ∧ byte ≠ 43 := by
  have bounds := (isDigit_iff byte).mp digit
  have differs : ∀ other : UInt8, other.toNat < 48 → byte ≠ other := by
    rintro other small rfl
    omega
  refine ⟨?_, differs 45 (by decide), differs 43 (by decide)⟩
  simp only [isSpace, Bool.or_eq_false_iff, beq_eq_false_iff_ne, decide_eq_false_iff_not]
  refine ⟨differs 32 (by decide), fun space => ?_⟩
  have := UInt8.le_iff_toNat_le.mp space.2
  simp at this
  omega

/-- On digits alone `atoi` is their value. -/
theorem atoi_of_digits {text : CString} (digits : ∀ byte ∈ text.bytes, isDigit byte = true) :
    atoi text = digitsValue text.bytes := by
  unfold atoi
  cases bytes : text.bytes with
  | nil => rfl
  | cons first rest =>
    rw [bytes] at digits
    obtain ⟨noSpace, noMinus, noPlus⟩ := isSpace_of_isDigit (digits first List.mem_cons_self)
    have all : (first :: rest).takeWhile isDigit = first :: rest :=
      List.takeWhile_eq_self_iff.mpr digits
    rw [List.dropWhile_cons_of_neg (by simp [noSpace])]
    split
    · rename_i equal
      exact absurd (List.cons.inj equal).1 noMinus
    · rename_i equal
      exact absurd (List.cons.inj equal).1 noPlus
    · rw [all]

end CLib
