import Mathlib.Algebra.Field.Rat
import Mathlib.Data.List.Basic

/-! # The JSON format

`Reads meaning before value after` says that the bytes `before` begin with the spelling of `value`
and go on with `after`.  It is JSON with what parsers of C strings let through: any byte up to the
blank separates, any byte may be escaped, numbers may lack digits, and the end of the text ends a
string.  A code point is spelled by four hexadecimal digits or by the two of a surrogate pair.
-/

namespace CLib.JsonFormat

abbrev quote : UInt8 := 34
abbrev plus : UInt8 := 43
abbrev comma : UInt8 := 44
abbrev minus : UInt8 := 45
abbrev point : UInt8 := 46
abbrev colon : UInt8 := 58
abbrev openBracket : UInt8 := 91
abbrev backslash : UInt8 := 92
abbrev closeBracket : UInt8 := 93
abbrev letterU : UInt8 := 117
abbrev openBrace : UInt8 := 123
abbrev closeBrace : UInt8 := 125

def wordNull : List UInt8 := [110, 117, 108, 108]
def wordFalse : List UInt8 := [102, 97, 108, 115, 101]
def wordTrue : List UInt8 := [116, 114, 117, 101]

/-! ## Values -/

/-- A value whose numbers and strings are those of `N` and `S`. -/
inductive JsonTree (N S : Type) where
  | null
  | bool (value : Bool)
  | number (value : N)
  | string (value : S)
  | array (items : List (JsonTree N S))
  | object (members : List (S × JsonTree N S))

/-! ## Blanks -/

def IsBlank (byte : UInt8) : Prop := byte ≠ 0 ∧ byte ≤ 32

instance (byte : UInt8) : Decidable (IsBlank byte) := inferInstanceAs (Decidable (_ ∧ _))

def Blank (bytes : List UInt8) : Prop := ∀ byte ∈ bytes, IsBlank byte

/-! ## Strings -/

def hexDigit (digit : UInt8) : Option Nat :=
  if 48 ≤ digit ∧ digit ≤ 57 then some (digit.toNat - 48)
  else if 65 ≤ digit ∧ digit ≤ 70 then some (10 + (digit.toNat - 65))
  else if 97 ≤ digit ∧ digit ≤ 102 then some (10 + (digit.toNat - 97))
  else none

/-- Four hexadecimal digits. -/
structure Hex4 where
  digits : List UInt8
  length_eq : digits.length = 4
  proper : ∀ digit ∈ digits, (hexDigit digit).isSome

def hexValue (value : Nat) (digits : List UInt8) : Nat :=
  digits.foldl (fun value digit => value * 16 + (hexDigit digit).getD 0) value

def Hex4.value (hex : Hex4) : Nat := hexValue 0 hex.digits

def IsHigh (code : Nat) : Prop := 0xD800 ≤ code ∧ code ≤ 0xDBFF

def IsLow (code : Nat) : Prop := 0xDC00 ≤ code ∧ code ≤ 0xDFFF

instance (code : Nat) : Decidable (IsHigh code) := inferInstanceAs (Decidable (_ ∧ _))

instance (code : Nat) : Decidable (IsLow code) := inferInstanceAs (Decidable (_ ∧ _))

/-- A byte that does not end a string, nor escapes the next one. -/
def IsPlain (byte : UInt8) : Prop := byte ≠ quote ∧ byte ≠ 0 ∧ byte ≠ backslash

instance (byte : UInt8) : Decidable (IsPlain byte) := inferInstanceAs (Decidable (_ ∧ _))

/-- What stands between the quotes, one by one. -/
inductive StringUnit where
  | plain (byte : UInt8) (proper : IsPlain byte)
  | escaped (byte : UInt8) (proper : byte ≠ letterU)
  | code (hex : Hex4) (proper : hex.value ≠ 0 ∧ ¬ IsHigh hex.value ∧ ¬ IsLow hex.value)
  | pair (high low : Hex4) (isHigh : IsHigh high.value) (isLow : IsLow low.value)

namespace StringUnit

def text : StringUnit → List UInt8
  | plain byte _ => [byte]
  | escaped byte _ => [backslash, byte]
  | code hex _ => backslash :: letterU :: hex.digits
  | pair high low _ _ =>
      backslash :: letterU :: (high.digits ++ backslash :: letterU :: low.digits)

def escapedByte (byte : UInt8) : UInt8 :=
  match byte with
  | 98 => 8
  | 102 => 12
  | 110 => 10
  | 114 => 13
  | 116 => 9
  | byte => byte

/-- The code point of a surrogate pair. -/
def pairCode (high low : Nat) : Nat :=
  0x10000 + (high - 0xD800) * 0x400 + (low - 0xDC00)

/-- What is spelled, with the code points in UTF-8. -/
def bytes : StringUnit → List UInt8
  | plain byte _ => [byte]
  | escaped byte _ => [escapedByte byte]
  | code hex _ => String.utf8EncodeChar (Char.ofNat hex.value)
  | pair high low _ _ => String.utf8EncodeChar (Char.ofNat (pairCode high.value low.value))

end StringUnit

/-- The text `before` begins with the string of these units, in quotes. -/
def ReadsString (before : List UInt8) (units : List StringUnit) (after : List UInt8) : Prop :=
  ∃ tail, before = quote :: (units.flatMap StringUnit.text ++ tail) ∧
    (tail = quote :: after ∨ tail = after ∧ after.head? = some 0)

theorem isPlain_of_hexDigit {digit : UInt8} (proper : (hexDigit digit).isSome) : IsPlain digit := by
  refine ⟨?_, ?_, ?_⟩ <;>
  · rintro rfl
    exact absurd proper (by decide)

theorem hexDigit_lt {digit : UInt8} {value : Nat} (isDigit : hexDigit digit = some value) :
    value < 16 := by
  unfold hexDigit at isDigit
  have cell := digit.toNat_lt
  simp only [UInt8.le_iff_toNat_le] at isDigit
  split at isDigit
  · rename_i inside
    cases isDigit
    simp at inside
    omega
  · split at isDigit
    · rename_i inside
      cases isDigit
      simp at inside
      omega
    · split at isDigit
      · rename_i inside
        cases isDigit
        simp at inside
        omega
      · cases isDigit

theorem hexValue_lt {value bound : Nat} (digits : List UInt8) (below : value < bound) :
    hexValue value digits < bound * 16 ^ digits.length := by
  induction digits generalizing value bound with
  | nil => simpa [hexValue] using below
  | cons digit digits inductionHypothesis =>
    have digitBelow : (hexDigit digit).getD 0 < 16 := by
      cases isDigit : hexDigit digit with
      | none => decide
      | some found => exact hexDigit_lt isDigit
    have next : value * 16 + (hexDigit digit).getD 0 < bound * 16 := by omega
    have step := inductionHypothesis next
    rw [List.length_cons, Nat.pow_succ', ← Nat.mul_assoc]
    exact step

theorem Hex4.value_lt (hex : Hex4) : hex.value < 0x10000 := by
  have below := @hexValue_lt 0 1 hex.digits Nat.one_pos
  rwa [hex.length_eq] at below

/-! ## Escaping characters -/

def hexChar (digit : Nat) : UInt8 :=
  UInt8.ofNat (if digit < 10 then 48 + digit else 87 + digit)

theorem hexDigit_hexChar : ∀ digit < 16, hexDigit (hexChar digit) = some digit := by decide

/-- The four digits of a number below `0x10000`. -/
def Hex4.ofNat (code : Nat) : Hex4 where
  digits := [code / 4096 % 16, code / 256 % 16, code / 16 % 16, code % 16].map hexChar
  length_eq := rfl
  proper := by
    intro digit member
    obtain ⟨value, isValue, rfl⟩ := List.mem_map.mp member
    have small : value < 16 := by
      simp only [List.mem_cons, List.not_mem_nil, or_false] at isValue
      omega
    exact Option.isSome_of_eq_some (hexDigit_hexChar value small)

theorem Hex4.value_ofNat {code : Nat} (small : code < 0x10000) : (Hex4.ofNat code).value = code := by
  have digit : ∀ number, hexDigit (hexChar (number % 16)) = some (number % 16) :=
    fun number => hexDigit_hexChar _ (Nat.mod_lt _ (by decide))
  simp only [value, hexValue, ofNat, List.map_cons, List.map_nil, List.foldl_cons, List.foldl_nil,
    digit, Option.getD_some]
  omega

theorem isHigh_half {code : Nat} (below : code < 0x110000) :
    IsHigh (0xD800 + (code - 0x10000) / 0x400) := by
  unfold IsHigh
  omega

theorem isLow_half (code : Nat) : IsLow (0xDC00 + (code - 0x10000) % 0x400) := by
  unfold IsLow
  omega

theorem toNat_cases (char : Char) :
    char.toNat < 0xD800 ∨ 0xDFFF < char.toNat ∧ char.toNat < 0x110000 :=
  char.valid

/-- A character, spelled by its code in hexadecimal digits. -/
def StringUnit.ofChar (char : Char) (visible : char.toNat ≠ 0) : StringUnit :=
  if wide : 0x10000 ≤ char.toNat then
    .pair (Hex4.ofNat (0xD800 + (char.toNat - 0x10000) / 0x400))
      (Hex4.ofNat (0xDC00 + (char.toNat - 0x10000) % 0x400))
      (by
        have below : char.toNat < 0x110000 := by
          have code := toNat_cases char
          omega
        have half := isHigh_half below
        rwa [Hex4.value_ofNat (Nat.lt_of_le_of_lt half.2 (by decide))])
      (by
        have half := isLow_half char.toNat
        rwa [Hex4.value_ofNat (Nat.lt_of_le_of_lt half.2 (by decide))])
  else
    .code (Hex4.ofNat char.toNat) (by
      rw [Hex4.value_ofNat (Nat.lt_of_not_le wide)]
      have code := toNat_cases char
      unfold IsHigh IsLow
      omega)

theorem StringUnit.bytes_ofChar (char : Char) (visible : char.toNat ≠ 0) :
    (ofChar char visible).bytes = String.utf8EncodeChar char := by
  unfold ofChar
  split
  · rename_i wide
    have below : char.toNat < 0x110000 := by
      have code := toNat_cases char
      omega
    have high := (isHigh_half below).2
    have low := (isLow_half char.toNat).2
    have code : pairCode (0xD800 + (char.toNat - 0x10000) / 0x400)
        (0xDC00 + (char.toNat - 0x10000) % 0x400) = char.toNat := by
      unfold pairCode
      omega
    rw [bytes, Hex4.value_ofNat (Nat.lt_of_le_of_lt high (by decide)),
      Hex4.value_ofNat (Nat.lt_of_le_of_lt low (by decide)), code, Char.ofNat_toNat]
  · rename_i narrow
    rw [bytes, Hex4.value_ofNat (Nat.lt_of_not_le narrow), Char.ofNat_toNat]

/-- No byte of a visible character is a NUL. -/
theorem zero_notMem_utf8 {char : Char} (visible : char.toNat ≠ 0) :
    0 ∉ String.utf8EncodeChar char := by
  have byte : ∀ number, 0 < number → number < 256 → UInt8.ofNat number ≠ 0 := by
    intro number positive small zero
    have cell := congrArg UInt8.toNat zero
    rw [UInt8.toNat_ofNat', Nat.mod_eq_of_lt small] at cell
    exact Nat.ne_of_gt positive cell
  have code : char.val.toNat ≠ 0 := visible
  unfold String.utf8EncodeChar
  intro member
  dsimp only at member
  split at member
  · exact byte _ (by omega) (by omega) (List.mem_singleton.mp member).symm
  · split at member
    · simp only [List.mem_cons, List.not_mem_nil, or_false] at member
      obtain zero | zero := member
      · exact byte _ (by omega) (by omega) zero.symm
      · exact byte _ (by omega) (by omega) zero.symm
    · split at member
      · simp only [List.mem_cons, List.not_mem_nil, or_false] at member
        obtain zero | zero | zero := member
        · exact byte _ (by omega) (by omega) zero.symm
        · exact byte _ (by omega) (by omega) zero.symm
        · exact byte _ (by omega) (by omega) zero.symm
      · simp only [List.mem_cons, List.not_mem_nil, or_false] at member
        obtain zero | zero | zero | zero := member
        · exact byte _ (by omega) (by omega) zero.symm
        · exact byte _ (by omega) (by omega) zero.symm
        · exact byte _ (by omega) (by omega) zero.symm
        · exact byte _ (by omega) (by omega) zero.symm

/-! ## Numbers -/

def IsDigit (byte : UInt8) : Prop := 48 ≤ byte ∧ byte ≤ 57

instance (byte : UInt8) : Decidable (IsDigit byte) := inferInstanceAs (Decidable (_ ∧ _))

def digitValue (digit : UInt8) : Int := digit.toNat - 48

structure Exponent where
  letter : UInt8
  sign : List UInt8
  digits : List UInt8
  isLetter : letter = 101 ∨ letter = 69
  isSign : sign = [] ∨ sign = [plus] ∨ sign = [minus]
  areDigits : ∀ digit ∈ digits, IsDigit digit

def Exponent.text (exponent : Exponent) : List UInt8 :=
  exponent.letter :: (exponent.sign ++ exponent.digits)

/-- A number.  A zero may stand before its other digits; either of them may be missing. -/
structure NumberLiteral where
  negative : Bool
  zero : Bool
  whole : List UInt8
  fraction : List UInt8
  exponent : Option Exponent
  wholeDigits : ∀ digit ∈ whole, IsDigit digit
  wholeHead : whole.head? ≠ some 48
  fractionDigits : ∀ digit ∈ fraction, IsDigit digit

namespace NumberLiteral

def fractionText (literal : NumberLiteral) : List UInt8 :=
  if literal.fraction = [] then [] else point :: literal.fraction

def exponentText (literal : NumberLiteral) : List UInt8 :=
  literal.exponent.elim [] Exponent.text

def text (literal : NumberLiteral) : List UInt8 :=
  (if literal.negative then [minus] else []) ++ (if literal.zero then [48] else []) ++
    literal.whole ++ literal.fractionText ++ literal.exponentText

/-- It has a first byte that no other value has. -/
def Begins (literal : NumberLiteral) : Prop :=
  literal.negative ∨ literal.zero ∨ literal.whole ≠ []

/-- What follows does not go on with the literal. -/
def Ends (literal : NumberLiteral) (after : List UInt8) : Prop :=
  match literal.exponent with
  | some exponent =>
      (∀ byte ∈ after.head?, ¬ IsDigit byte) ∧
      (exponent.sign = [] → exponent.digits = [] → ∀ byte ∈ after.head?, byte ≠ plus ∧ byte ≠ minus)
  | none =>
      (∀ byte ∈ after.head?, byte ≠ 101 ∧ byte ≠ 69) ∧
      if literal.fraction ≠ [] then ∀ byte ∈ after.head?, ¬ IsDigit byte
      else
        (∀ digit rest, after = point :: digit :: rest → ¬ IsDigit digit) ∧
        if literal.whole ≠ [] then ∀ byte ∈ after.head?, ¬ IsDigit byte
        else
          (∀ byte ∈ after.head?, IsDigit byte → byte = 48) ∧
          (literal.zero = false → ∀ byte ∈ after.head?, byte ≠ 48)

end NumberLiteral

/-- There is enough behind a number to tell that it has ended. -/
def Stops (after : List UInt8) : Prop := after ≠ [] ∧ after ≠ [point]

instance (after : List UInt8) : Decidable (Stops after) := inferInstanceAs (Decidable (_ ∧ _))

theorem stops_of_mem {after : List UInt8} {byte : UInt8} (member : byte ∈ after)
    (other : byte ≠ point) : Stops after := by
  refine ⟨List.ne_nil_of_mem member, ?_⟩
  rintro rfl
  exact other (List.mem_singleton.mp member)

theorem Stops.append {after : List UInt8} (stops : Stops after) (front : List UInt8) :
    Stops (front ++ after) := by
  refine ⟨List.append_ne_nil_of_right_ne_nil _ stops.1, ?_⟩
  intro isPoint
  obtain ⟨_, isPoint⟩ | ⟨_, empty⟩ := List.append_eq_singleton_iff.mp isPoint
  · exact stops.2 isPoint
  · exact stops.1 empty

/-- The number that goes on with these digits. -/
def decimalValue (number : Int) (digits : List UInt8) : Int :=
  digits.foldl (fun number digit => number * 10 + digitValue digit) number

def Exponent.value (exponent : Exponent) : Int :=
  decimalValue 0 exponent.digits * if exponent.sign = [minus] then -1 else 1

/-- The number that a literal denotes. -/
def NumberLiteral.value (literal : NumberLiteral) : ℚ :=
  (if literal.negative then -1 else 1) * decimalValue 0 (literal.whole ++ literal.fraction) *
    10 ^ (literal.exponent.elim 0 Exponent.value - literal.fraction.length)

/-! ## Texts -/

/-- What the numbers and the strings stand for. -/
structure Meaning (N S : Type) where
  number : NumberLiteral → N
  string : List StringUnit → S

/-- One or more items with their labels, with commas between them, up to and with `close`. -/
inductive ReadsList {α β γ : Type} (ReadsLabel : List UInt8 → β → List UInt8 → Prop)
    (ReadsOne : List UInt8 → α → List UInt8 → Prop) (item : β → α → γ) (close : UInt8) :
    List UInt8 → List γ → List UInt8 → Prop where
  | last {before middle blank after : List UInt8} {label : β} {value : α}
      (labelled : ReadsLabel before label middle)
      (one : ReadsOne middle value (blank ++ close :: after)) (isBlank : Blank blank) :
      ReadsList ReadsLabel ReadsOne item close before [item label value] after
  | more {before middle blank blank' next after : List UInt8} {label : β} {value : α}
      {items : List γ} (labelled : ReadsLabel before label middle)
      (one : ReadsOne middle value (blank ++ comma :: (blank' ++ next))) (isBlank : Blank blank)
      (isBlank' : Blank blank') (others : ReadsList ReadsLabel ReadsOne item close next items after) :
      ReadsList ReadsLabel ReadsOne item close before (item label value :: items) after

/-- The items of an array have none. -/
def ReadsNothing (before : List UInt8) (_ : Unit) (after : List UInt8) : Prop := before = after

/-- The name of a member, and the colon. -/
def ReadsName {N S : Type} (meaning : Meaning N S) (before : List UInt8) (name : S)
    (after : List UInt8) : Prop :=
  ∃ units blank blank', name = meaning.string units ∧ Blank blank ∧ Blank blank' ∧
    ReadsString before units (blank ++ colon :: (blank' ++ after))

inductive Reads {N S : Type} (meaning : Meaning N S) :
    List UInt8 → JsonTree N S → List UInt8 → Prop where
  | null {after : List UInt8} : Reads meaning (wordNull ++ after) .null after
  | false {after : List UInt8} : Reads meaning (wordFalse ++ after) (.bool false) after
  | true {after : List UInt8} : Reads meaning (wordTrue ++ after) (.bool true) after
  | string {before after : List UInt8} {units : List StringUnit}
      (string : ReadsString before units after) :
      Reads meaning before (.string (meaning.string units)) after
  | number {after : List UInt8} {literal : NumberLiteral} (begins : literal.Begins)
      (ends : literal.Ends after) :
      Reads meaning (literal.text ++ after) (.number (meaning.number literal)) after
  | emptyArray {blank after : List UInt8} (isBlank : Blank blank) :
      Reads meaning (openBracket :: (blank ++ closeBracket :: after)) (.array []) after
  | array {blank before after : List UInt8} {items : List (JsonTree N S)} (isBlank : Blank blank)
      (readsItems : ReadsList ReadsNothing (Reads meaning) (fun _ item => item) closeBracket before
        items after) :
      Reads meaning (openBracket :: (blank ++ before)) (.array items) after
  | emptyObject {blank after : List UInt8} (isBlank : Blank blank) :
      Reads meaning (openBrace :: (blank ++ closeBrace :: after)) (.object []) after
  | object {blank before after : List UInt8} {members : List (S × JsonTree N S)}
      (isBlank : Blank blank)
      (readsMembers : ReadsList (ReadsName meaning) (Reads meaning) Prod.mk closeBrace before
        members after) :
      Reads meaning (openBrace :: (blank ++ before)) (.object members) after

/-! ## Readings take text -/

/-- Some of the text has been taken. -/
def Takes (before after : List UInt8) : Prop := after <:+ before ∧ after.length < before.length

theorem Takes.of_append {front after : List UInt8} (some : front ≠ []) :
    Takes (front ++ after) after := by
  have positive := List.length_pos_iff.mpr some
  refine ⟨List.suffix_append _ _, ?_⟩
  rw [List.length_append]
  omega

theorem Takes.extend {before middle rest after : List UInt8} (taken : Takes middle rest)
    (front : middle <:+ before) (back : after <:+ rest) : Takes before after := by
  have outer := front.length_le
  have inner := back.length_le
  have between := taken.2
  exact ⟨back.trans (taken.1.trans front), by omega⟩

theorem ReadsString.takes {before after : List UInt8} {units : List StringUnit}
    (reads : ReadsString before units after) : Takes before after := by
  obtain ⟨tail, rfl, rfl | ⟨rfl, _⟩⟩ := reads
  · have front := @Takes.of_append (quote :: (units.flatMap StringUnit.text ++ [quote])) after
      (List.cons_ne_nil _ _)
    simpa using front
  · exact Takes.of_append (List.cons_ne_nil quote (units.flatMap StringUnit.text))

theorem ReadsNothing.suffix {before after : List UInt8} {label : Unit}
    (reads : ReadsNothing before label after) : after <:+ before := by
  have same : before = after := reads
  subst same
  exact List.suffix_refl before

theorem ReadsName.suffix {N S : Type} {meaning : Meaning N S} {before after : List UInt8} {name : S}
    (reads : ReadsName meaning before name after) : after <:+ before := by
  obtain ⟨units, blank, blank', _, _, _, reads⟩ := reads
  have behind : after <:+ blank ++ colon :: (blank' ++ after) :=
    ⟨blank ++ colon :: blank', by simp⟩
  exact behind.trans reads.takes.1

theorem NumberLiteral.text_head {literal : NumberLiteral} (begins : literal.Begins) :
    ∃ byte rest, literal.text = byte :: rest ∧ (byte = minus ∨ IsDigit byte) := by
  obtain ⟨negative, zero, whole, fraction, exponent, wholeDigits, _, _⟩ := literal
  cases negative with
  | true => exact ⟨minus, _, rfl, .inl rfl⟩
  | false =>
    cases zero with
    | true => exact ⟨48, _, rfl, .inr (by decide)⟩
    | false =>
      cases whole with
      | nil => simp [Begins] at begins
      | cons digit digits => exact ⟨digit, _, rfl, .inr (wholeDigits digit List.mem_cons_self)⟩

theorem not_isBlank_of_isDigit {byte : UInt8} (isDigit : IsDigit byte) : ¬ IsBlank byte := by
  intro isBlank
  exact absurd (UInt8.le_trans isDigit.1 isBlank.2) (by decide)

section Lists

variable {α β γ : Type} {ReadsLabel : List UInt8 → β → List UInt8 → Prop}
  {ReadsOne : List UInt8 → α → List UInt8 → Prop} {item : β → α → γ} {close : UInt8}

/-- Lists take text if their items do; only items in no more text than `size` matter. -/
theorem ReadsList.takes {size : Nat}
    (labels : ∀ before label after, ReadsLabel before label after → after <:+ before)
    (ones : ∀ before value after, before.length ≤ size → ReadsOne before value after →
      Takes before after)
    {before after : List UInt8} {items : List γ}
    (reads : ReadsList ReadsLabel ReadsOne item close before items after)
    (inside : before.length ≤ size) : Takes before after := by
  induction reads with
  | @last before middle blank after label value labelled one isBlank =>
    have front := labels _ _ _ labelled
    have taken := ones _ _ _ (Nat.le_trans front.length_le inside) one
    exact taken.extend front ⟨blank ++ [close], by simp⟩
  | @more before middle blank blank' next after label value items labelled one isBlank isBlank' others
      inductionHypothesis =>
    have front := labels _ _ _ labelled
    have taken := ones _ _ _ (Nat.le_trans front.length_le inside) one
    have before' : Takes before next := taken.extend front ⟨blank ++ comma :: blank', by simp⟩
    have rest := inductionHypothesis (Nat.le_trans (Nat.le_of_lt before'.2) inside)
    exact rest.extend before'.1 (List.suffix_refl _)

end Lists

/-- Brackets that are behind the blank of a list. -/
theorem Takes.cons {byte : UInt8} {blank before after : List UInt8} (taken : Takes before after) :
    Takes (byte :: (blank ++ before)) after :=
  taken.extend ⟨byte :: blank, rfl⟩ (List.suffix_refl _)

theorem Reads.takes {N S : Type} {meaning : Meaning N S} {before after : List UInt8}
    {value : JsonTree N S} (reads : Reads meaning before value after) : Takes before after := by
  induction length : before.length using Nat.strongRecOn generalizing before after value with
  | ind size inductionHypothesis =>
    have ones : ∀ {rest : List UInt8}, rest.length < size → ∀ before value after,
        before.length ≤ rest.length → Reads meaning before value after → Takes before after := by
      intro rest smaller before value after inside reads
      exact inductionHypothesis before.length (Nat.lt_of_le_of_lt inside smaller) reads rfl
    subst length
    cases reads with
    | null => exact Takes.of_append (List.cons_ne_nil _ _)
    | false => exact Takes.of_append (List.cons_ne_nil _ _)
    | true => exact Takes.of_append (List.cons_ne_nil _ _)
    | string string => exact string.takes
    | number begins ends =>
      obtain ⟨byte, rest, text, _⟩ := NumberLiteral.text_head begins
      exact Takes.of_append (text ▸ List.cons_ne_nil byte rest)
    | @emptyArray blank after isBlank =>
      have front := @Takes.of_append (openBracket :: (blank ++ [closeBracket])) after
        (List.cons_ne_nil _ _)
      simpa using front
    | @array blank before after items isBlank readsItems =>
      have smaller := @ones before (by simp only [List.length_append, List.length_cons]; omega)
      exact (readsItems.takes (fun _ _ _ same => same.suffix) smaller (Nat.le_refl _)).cons
    | @emptyObject blank after isBlank =>
      have front := @Takes.of_append (openBrace :: (blank ++ [closeBrace])) after
        (List.cons_ne_nil _ _)
      simpa using front
    | @object blank before after members isBlank readsMembers =>
      have smaller := @ones before (by simp only [List.length_append, List.length_cons]; omega)
      exact (readsMembers.takes (fun _ _ _ name => name.suffix) smaller (Nat.le_refl _)).cons

/-- A value begins with a byte that separates nothing. -/
theorem Reads.head {N S : Type} {meaning : Meaning N S} {before after : List UInt8}
    {value : JsonTree N S} (reads : Reads meaning before value after) :
    ∃ byte rest, before = byte :: rest ∧ ¬ IsBlank byte ∧ byte ≠ closeBracket := by
  cases reads with
  | null => exact ⟨_, _, rfl, by decide, by decide⟩
  | false => exact ⟨_, _, rfl, by decide, by decide⟩
  | true => exact ⟨_, _, rfl, by decide, by decide⟩
  | string string =>
    obtain ⟨tail, rfl, _⟩ := string
    exact ⟨_, _, rfl, by decide, by decide⟩
  | number begins ends =>
    obtain ⟨byte, rest, text, rfl | isDigit⟩ := NumberLiteral.text_head begins
    · exact ⟨minus, rest ++ after, by rw [text]; rfl, by decide, by decide⟩
    · refine ⟨byte, rest ++ after, by rw [text]; rfl, not_isBlank_of_isDigit isDigit, ?_⟩
      rintro rfl
      exact absurd isDigit (by decide)
  | emptyArray isBlank => exact ⟨_, _, rfl, by decide, by decide⟩
  | array isBlank readsItems => exact ⟨_, _, rfl, by decide, by decide⟩
  | emptyObject isBlank => exact ⟨_, _, rfl, by decide, by decide⟩
  | object isBlank readsMembers => exact ⟨_, _, rfl, by decide, by decide⟩

end CLib.JsonFormat
