import ServalRpc.Model.JsonParser

/-! # The strings of the parser

A string is parsed exactly when it is spelled in units, to what they stand for: the two loops of
`parse_string` go over the same text, so that the second one ends where the first one has, and
stores no more than the first one has counted.
-/

namespace ServalRpc.Verified.JsonStrings

open CLib JsonFormat

theorem byteAt_eq_ok_iff {memory : List UInt8} {index : Nat} {byte : UInt8} :
    byteAt memory index = .ok byte ↔ memory[index]? = some byte := by
  unfold byteAt load
  cases memory[index]? <;> simp [Except.mapError]

@[simp] theorem byteAt_zero (byte : UInt8) (rest : List UInt8) :
    byteAt (byte :: rest) 0 = .ok byte := rfl

@[simp] theorem byteAt_succ (byte : UInt8) (rest : List UInt8) (index : Nat) :
    byteAt (byte :: rest) (index + 1) = byteAt rest index := rfl

/-! ## UTF-8 -/

/-- The mask keeps the low six bits, and the high one that has been set. -/
theorem continuationByte_eq (uc : Nat) : continuationByte uc = UInt8.ofNat (uc % 64 + 128) := by
  have lowBits : uc &&& 0x3F = uc % 64 := Nat.and_two_pow_sub_one_eq_mod uc 6
  have highBit : (uc &&& 0x80) ||| 0x80 = 0x80 := by
    rw [Nat.or_comm]
    apply Nat.eq_of_testBit_eq
    intro bit
    simp only [Nat.testBit_or, Nat.testBit_and]
    cases (0x80 : Nat).testBit bit <;> simp
  have masked : (uc ||| 0x80) &&& 0xBF = uc % 64 + 128 := by
    calc (uc ||| 0x80) &&& 0xBF = (uc &&& (0x3F ||| 0x80)) ||| 0x80 :=
          Nat.and_or_distrib_right uc 0x80 0xBF
      _ = uc % 64 ||| 0x80 := by rw [Nat.and_or_distrib_left, Nat.or_assoc, highBit, lowBits]
      _ = 2 ^ 7 * 1 ||| uc % 64 := Nat.or_comm _ _
      _ = uc % 64 + 128 := by
        have small : uc % 64 < 2 ^ 7 := Nat.lt_trans (Nat.mod_lt uc (by decide)) (by decide)
        rw [← Nat.two_pow_add_eq_or_of_lt small 1]
        omega
  rw [continuationByte, masked]

theorem ofNat_val {uc : Nat} (valid : uc.isValidChar) : (Char.ofNat uc).val.toNat = uc := by
  rw [Char.ofNat, dif_pos valid]
  rfl

/-- A first byte whose mark does not meet the bits of the code. -/
theorem marked {high : Nat} (width count : Nat) (small : high < 2 ^ width) :
    high ||| 2 ^ width * count = high % 2 ^ width + 2 ^ width * count := by
  rw [Nat.or_comm, ← Nat.two_pow_add_eq_or_of_lt small, Nat.mod_eq_of_lt small, Nat.add_comm]

/-- The stores of a code point are its bytes in UTF-8. -/
theorem utf8_eq {uc : Nat} (valid : uc.isValidChar) :
    utf8 uc = String.utf8EncodeChar (Char.ofNat uc) := by
  have code := ofNat_val valid
  unfold utf8 String.utf8EncodeChar
  simp only [code, continuationByte_eq, Nat.shiftRight_eq_div_pow, Nat.or_zero]
  by_cases one : uc < 0x80
  · rw [if_pos one, if_pos (show uc ≤ 0x7f by omega)]
  · rw [if_neg one, if_neg (show ¬ uc ≤ 0x7f by omega)]
    by_cases two : uc < 0x800
    · rw [if_pos two, if_pos (show uc ≤ 0x7ff by omega)]
      rw [show (0xC0 : Nat) = 2 ^ 5 * 6 from rfl, marked 5 6 (by omega)]
      rfl
    · rw [if_neg two, if_neg (show ¬ uc ≤ 0x7ff by omega)]
      by_cases three : uc < 0x10000
      · rw [if_pos three, if_pos (show uc ≤ 0xffff by omega)]
        rw [show (0xE0 : Nat) = 2 ^ 4 * 14 from rfl, marked 4 14 (by omega)]
        rfl
      · rw [if_neg three, if_neg (show ¬ uc ≤ 0xffff by omega)]
        have small : uc / 2 ^ 18 < 2 ^ 3 := by
          obtain low | high := valid
          · omega
          · omega
        rw [show (0xF0 : Nat) = 2 ^ 3 * 30 from rfl, marked 3 30 small]
        rfl

/-! ## The first loop -/

theorem scanString_stop {byte : UInt8} (ends : byte = quote ∨ byte = 0) (rest : List UInt8) :
    scanString (byte :: rest) = .ok (0, 0) := by
  rw [scanString.eq_def]
  simp only [ends, if_true]

theorem scanString_plain {byte : UInt8} (proper : IsPlain byte) (rest : List UInt8) :
    scanString (byte :: rest) = (scanString rest).map fun found => (found.1 + 1, found.2 + 1) := by
  obtain ⟨notQuote, notNul, notBackslash⟩ := proper
  rw [scanString.eq_def]
  simp only [notQuote, notNul, notBackslash, or_self, if_false]
  cases scanString rest <;> rfl

theorem scanString_escaped (byte : UInt8) (rest : List UInt8) :
    scanString (backslash :: byte :: rest) =
      (scanString rest).map fun found => (found.1 + 2, found.2 + 1) := by
  rw [scanString]
  simp only [show ¬ (backslash = quote ∨ backslash = 0) by decide, if_false, if_true]
  cases scanString rest <;> rfl

theorem scanString_plains {bytes : List UInt8} (proper : ∀ byte ∈ bytes, IsPlain byte)
    (rest : List UInt8) :
    scanString (bytes ++ rest) = (scanString rest).map fun found =>
      (found.1 + bytes.length, found.2 + bytes.length) := by
  induction bytes with
  | nil =>
    rw [List.nil_append]
    cases scanString rest <;> rfl
  | cons byte bytes inductionHypothesis =>
    rw [List.forall_mem_cons] at proper
    rw [List.cons_append, scanString_plain proper.1, inductionHypothesis proper.2]
    cases scanString rest with
    | error stop => rfl
    | ok found => simp [Except.map, Nat.add_assoc]

theorem scanString_hex (hex : Hex4) (rest : List UInt8) :
    scanString (backslash :: letterU :: (hex.digits ++ rest)) =
      (scanString rest).map fun found => (found.1 + 6, found.2 + 5) := by
  have plain : ∀ digit ∈ hex.digits, IsPlain digit :=
    fun digit member => isPlain_of_hexDigit (hex.proper digit member)
  rw [scanString_escaped, scanString_plains plain, hex.length_eq]
  cases scanString rest with
  | error stop => rfl
  | ok found => rfl

theorem utf8Bytes_length (code : Char) : (String.utf8EncodeChar code).length ≤ 4 := by
  rw [String.length_utf8EncodeChar]
  exact Char.utf8Size_le_four code

/-- The loop goes over a unit, and counts at least the bytes that it stands for. -/
theorem scanString_unit (unit : StringUnit) : ∃ len, unit.bytes.length ≤ len ∧ ∀ rest,
    scanString (unit.text ++ rest) = (scanString rest).map fun found =>
      (found.1 + unit.text.length, found.2 + len) := by
  cases unit with
  | plain byte proper => exact ⟨1, Nat.le_refl 1, scanString_plain proper⟩
  | escaped byte proper => exact ⟨1, Nat.le_refl 1, scanString_escaped byte⟩
  | code hex proper =>
    refine ⟨5, ?_, ?_⟩
    · rw [StringUnit.bytes]
      exact Nat.le_trans (utf8Bytes_length _) (by decide)
    · intro rest
      simp only [StringUnit.text, List.cons_append, scanString_hex, List.length_cons,
        hex.length_eq]
  | pair high low isHigh isLow =>
    refine ⟨10, ?_, ?_⟩
    · rw [StringUnit.bytes]
      exact Nat.le_trans (utf8Bytes_length _) (by decide)
    · intro rest
      simp only [StringUnit.text, List.cons_append, List.append_assoc, scanString_hex,
        List.length_cons, List.length_append, high.length_eq, low.length_eq]
      cases scanString rest with
      | error stop => rfl
      | ok found => rfl

theorem scanString_units (units : List StringUnit) :
    ∃ len, (units.flatMap StringUnit.bytes).length ≤ len ∧ ∀ rest,
      scanString (units.flatMap StringUnit.text ++ rest) = (scanString rest).map fun found =>
        (found.1 + (units.flatMap StringUnit.text).length, found.2 + len) := by
  induction units with
  | nil =>
    refine ⟨0, Nat.le_refl 0, ?_⟩
    intro rest
    rw [List.flatMap_nil, List.nil_append]
    cases scanString rest <;> rfl
  | cons unit units inductionHypothesis =>
    obtain ⟨first, firstBytes, scanFirst⟩ := scanString_unit unit
    obtain ⟨others, otherBytes, scanOthers⟩ := inductionHypothesis
    refine ⟨others + first, ?_, ?_⟩
    · rw [List.flatMap_cons, List.length_append]
      omega
    · intro rest
      rw [List.flatMap_cons, List.append_assoc, scanFirst, scanOthers]
      cases scanString rest with
      | error stop => rfl
      | ok found =>
        simp only [Except.map, List.length_append, Except.ok.injEq, Prod.mk.injEq]
        omega

/-- How a scan that ends has gone on from a byte. -/
theorem scanString_cases {byte : UInt8} {rest : List UInt8} {found : Nat × Nat}
    (scanned : scanString (byte :: rest) = .ok found) :
    (byte = quote ∨ byte = 0) ∧ found = (0, 0) ∨
    (byte = backslash ∧ ∃ escape rest' found', rest = escape :: rest' ∧
      scanString rest' = .ok found' ∧ found = (found'.1 + 2, found'.2 + 1)) ∨
    (IsPlain byte ∧ ∃ found', scanString rest = .ok found' ∧
      found = (found'.1 + 1, found'.2 + 1)) := by
  by_cases ends : byte = quote ∨ byte = 0
  · left
    rw [scanString.eq_def] at scanned
    simp only [ends, if_true] at scanned
    exact ⟨ends, (Except.ok.inj scanned).symm⟩
  · right
    by_cases escapes : byte = backslash
    · left
      subst escapes
      cases rest with
      | nil =>
        rw [scanString.eq_def] at scanned
        cases scanned
      | cons escape rest' =>
        rw [scanString_escaped] at scanned
        obtain ⟨found', scanned, same⟩ := map_eq_ok_iff.mp scanned
        exact ⟨rfl, escape, rest', found', rfl, scanned, same.symm⟩
    · right
      have plain : IsPlain byte := ⟨fun same => ends (.inl same), fun same => ends (.inr same), escapes⟩
      rw [scanString_plain plain] at scanned
      obtain ⟨found', scanned, same⟩ := map_eq_ok_iff.mp scanned
      exact ⟨plain, found', scanned, same.symm⟩

/-- A scan that ends has met the byte that ends it. -/
theorem scanString_stops {memory : List UInt8} {found : Nat × Nat}
    (scanned : scanString memory = .ok found) : ∃ byte ∈ memory, hexDigit byte = none := by
  induction size : memory.length using Nat.strongRecOn generalizing memory found with
  | ind size inductionHypothesis =>
    subst size
    cases memory with
    | nil => cases scanned
    | cons byte rest =>
      obtain ⟨ends, _⟩ | ⟨_, escape, rest', found', rfl, scanned, _⟩ | ⟨_, found', scanned, _⟩ :=
        scanString_cases scanned
      · refine ⟨byte, List.mem_cons_self, ?_⟩
        obtain rfl | rfl := ends <;> decide
      · obtain ⟨stop, member, isStop⟩ :=
          inductionHypothesis rest'.length (by simp only [List.length_cons]; omega) scanned rfl
        exact ⟨stop, List.mem_cons_of_mem _ (List.mem_cons_of_mem _ member), isStop⟩
      · obtain ⟨stop, member, isStop⟩ :=
          inductionHypothesis rest.length (by simp) scanned rfl
        exact ⟨stop, List.mem_cons_of_mem _ member, isStop⟩

/-! ## The digits of a code -/

theorem hexDigits_append (digits rest : List UInt8) (h : Nat)
    (proper : ∀ digit ∈ digits, (hexDigit digit).isSome) :
    hexDigits digits.length h (digits ++ rest) = .ok (hexValue h digits) := by
  induction digits generalizing h with
  | nil => rfl
  | cons digit digits inductionHypothesis =>
    rw [List.forall_mem_cons] at proper
    obtain ⟨value, isDigit⟩ := Option.isSome_iff_exists.mp proper.1
    have others := inductionHypothesis (h * 16 + value) proper.2
    simp only [List.length_cons, hexDigits, List.cons_append, byteAt_zero, ok_bind, isDigit,
      List.drop_succ_cons, List.drop_zero, others, hexValue, List.foldl_cons, Option.getD_some]

/-- The digits end before the memory does, whether or not they are all there. -/
theorem hexDigits_cases (count h : Nat) {str : List UInt8}
    (stops : ∃ byte ∈ str, hexDigit byte = none) :
    hexDigits count h str = .ok 0 ∨ ∃ digits rest, digits.length = count ∧
      (∀ digit ∈ digits, (hexDigit digit).isSome) ∧ str = digits ++ rest := by
  induction count generalizing h str with
  | zero => exact .inr ⟨[], str, rfl, by simp, rfl⟩
  | succ count inductionHypothesis =>
    obtain ⟨stop, member, isStop⟩ := stops
    cases str with
    | nil => cases member
    | cons byte rest =>
      rw [hexDigits, byteAt_zero, ok_bind]
      cases isDigit : hexDigit byte with
      | none => exact .inl rfl
      | some value =>
        have member : stop ∈ rest := by
          obtain rfl | member := List.mem_cons.mp member
          · rw [isDigit] at isStop
            cases isStop
          · exact member
        obtain failed | ⟨digits, rest', length, proper, rfl⟩ :=
          inductionHypothesis (h * 16 + value) ⟨stop, member, isStop⟩
        · exact .inl failed
        · refine .inr ⟨byte :: digits, rest', congrArg (· + 1) length, ?_, rfl⟩
          rw [List.forall_mem_cons]
          exact ⟨Option.isSome_of_eq_some isDigit, proper⟩

theorem parseHex4_append (hex : Hex4) (rest : List UInt8) :
    parseHex4 (hex.digits ++ rest) = .ok hex.value := by
  have digits := hexDigits_append hex.digits rest 0 hex.proper
  rwa [hex.length_eq] at digits

theorem parseHex4_cases {str : List UInt8} (stops : ∃ byte ∈ str, hexDigit byte = none) :
    parseHex4 str = .ok 0 ∨ ∃ (hex : Hex4) (rest : List UInt8), str = hex.digits ++ rest := by
  obtain none | ⟨digits, rest, length, proper, same⟩ := hexDigits_cases 4 0 stops
  · exact .inl none
  · exact .inr ⟨⟨digits, length, proper⟩, rest, same⟩

/-- The two halves of a pair, as the parser joins them. -/
theorem pairCode_eq {high low : Nat} (isHigh : IsHigh high) (isLow : IsLow low) :
    0x10000 + (((high &&& 0x3FF) <<< 10) ||| (low &&& 0x3FF)) = StringUnit.pairCode high low := by
  obtain ⟨highLeast, highMost⟩ := isHigh
  obtain ⟨lowLeast, lowMost⟩ := isLow
  have mask : (0x3FF : Nat) = 2 ^ 10 - 1 := by simp
  have highBits : high &&& 0x3FF = high - 0xD800 := by
    rw [mask, Nat.and_two_pow_sub_one_eq_mod]
    omega
  have lowBits : low &&& 0x3FF = low - 0xDC00 := by
    rw [mask, Nat.and_two_pow_sub_one_eq_mod]
    omega
  have small : low - 0xDC00 < 2 ^ 10 := by omega
  have joined : ((high &&& 0x3FF) <<< 10) ||| (low &&& 0x3FF) =
      (high - 0xD800) * 2 ^ 10 + (low - 0xDC00) := by
    rw [highBits, lowBits, ← Nat.shiftLeft_add_eq_or_of_lt small, Nat.shiftLeft_eq]
  unfold StringUnit.pairCode
  omega

theorem pairCode_valid {high low : Nat} (isHigh : IsHigh high) (isLow : IsLow low) :
    (StringUnit.pairCode high low).isValidChar := by
  obtain ⟨highLeast, highMost⟩ := isHigh
  obtain ⟨lowLeast, lowMost⟩ := isLow
  right
  unfold StringUnit.pairCode
  omega

theorem code_valid {hex : Hex4} (notHigh : ¬ IsHigh hex.value) (notLow : ¬ IsLow hex.value) :
    hex.value.isValidChar := by
  have below := hex.value_lt
  simp only [IsHigh, IsLow, not_and_or, Nat.not_le] at notHigh notLow
  unfold Nat.isValidChar
  omega

/-! ## The second loop -/

theorem exists_digits (hex : Hex4) :
    ∃ first second third last, hex.digits = [first, second, third, last] := by
  obtain ⟨digits, length, proper⟩ := hex
  match digits, length with
  | [first, second, third, last], _ => exact ⟨first, second, third, last, rfl⟩

theorem parseLow_of_hex (str : List UInt8) (last : UInt8) {low : Hex4} (isLow : IsLow low.value)
    (rest : List UInt8) {left uc : Nat} (room : 6 ≤ left) (isHigh : IsHigh uc) :
    parseLow str (last :: backslash :: letterU :: (low.digits ++ rest)) left uc =
      .ok (StringUnit.pairCode uc low.value) := by
  obtain ⟨least, most⟩ := isLow
  have inside : ¬ (low.value < 0xDC00 ∨ 0xDFFF < low.value) := by omega
  simp only [parseLow, Nat.not_lt.mpr room, if_false, byteAt_succ, byteAt_zero, ok_bind,
    List.drop_succ_cons, List.drop_zero, parseHex4_append, inside, ne_eq, not_true_eq_false,
    pairCode_eq isHigh ⟨least, most⟩]
  rfl

/-- A round over a unit stores what it stands for. -/
theorem unescapeRound_unit (str : List UInt8) (unit : StringUnit) (rest : List UInt8) {left : Nat}
    (room : unit.text.length ≤ left) :
    unescapeRound str (unit.text ++ rest) left = .ok (unit.bytes, unit.text.length) := by
  cases unit with
  | plain byte proper =>
    simp only [StringUnit.text, List.cons_append, unescapeRound, byteAt_zero, ok_bind]
    rw [if_pos proper.2.2]
    rfl
  | escaped byte proper =>
    simp only [StringUnit.text, List.cons_append, unescapeRound, byteAt_zero, byteAt_succ, ok_bind,
      ne_eq, not_true_eq_false, if_false, StringUnit.bytes, StringUnit.escapedByte]
    split
    · rfl
    · rfl
    · rfl
    · rfl
    · rfl
    · exact absurd rfl proper
    · rename_i notB notF notN notR notT _
      split
      · exact (notB rfl).elim
      · exact (notF rfl).elim
      · exact (notN rfl).elim
      · exact (notR rfl).elim
      · exact (notT rfl).elim
      · rfl
  | code hex proper =>
    obtain ⟨nonzero, notHigh, notLow⟩ := proper
    have wide : ¬ left ≤ 5 := by
      rw [StringUnit.text, List.length_cons, List.length_cons, hex.length_eq] at room
      omega
    have notRefused : ¬ (0xDC00 ≤ hex.value ∧ hex.value ≤ 0xDFFF ∨ hex.value = 0) :=
      fun refused => refused.elim notLow nonzero
    simp only [StringUnit.text, List.cons_append, unescapeRound, byteAt_zero, byteAt_succ, ok_bind,
      ne_eq, not_true_eq_false, if_false, parseCode, List.drop_succ_cons, List.drop_zero,
      parseHex4_append, wide, notRefused]
    rw [if_neg (show ¬ (0xD800 ≤ hex.value ∧ hex.value ≤ 0xDBFF) from notHigh)]
    simp only [List.length_cons, hex.length_eq, StringUnit.bytes, utf8_eq (code_valid notHigh notLow)]
    rfl
  | pair high low isHigh isLow =>
    have wide : 12 ≤ left := by
      simp only [StringUnit.text, List.length_cons, List.length_append, high.length_eq,
        low.length_eq] at room
      exact room
    have notRefused : ¬ (0xDC00 ≤ high.value ∧ high.value ≤ 0xDFFF ∨ high.value = 0) := by
      obtain ⟨least, most⟩ := isHigh
      omega
    obtain ⟨first, second, third, last, digits⟩ := exists_digits high
    have at' : (high.digits ++ backslash :: letterU :: (low.digits ++ rest)).drop 3 =
        last :: backslash :: letterU :: (low.digits ++ rest) := by
      rw [digits]
      rfl
    simp only [StringUnit.text, List.cons_append, List.append_assoc, unescapeRound, byteAt_zero,
      byteAt_succ, ok_bind, ne_eq, not_true_eq_false, if_false, parseCode, List.drop_succ_cons,
      List.drop_zero, parseHex4_append, show ¬ left ≤ 5 by omega, notRefused, at',
      parseLow_of_hex str last isLow rest (show 6 ≤ left - 5 by omega) isHigh]
    rw [if_pos (show 0xD800 ≤ high.value ∧ high.value ≤ 0xDBFF from isHigh)]
    simp only [List.length_cons, List.length_append, high.length_eq, low.length_eq,
      StringUnit.bytes, utf8_eq (pairCode_valid isHigh isLow)]
    rfl

/-- A scan over a code, behind its digits. -/
theorem scan_behind_hex {hex : Hex4} {rest : List UInt8} {left len : Nat}
    (scanned : scanString (backslash :: letterU :: (hex.digits ++ rest)) = .ok (left, len)) :
    6 ≤ left ∧ ∃ found, scanString rest = .ok found := by
  rw [scanString_hex] at scanned
  obtain ⟨found, scanned, same⟩ := map_eq_ok_iff.mp scanned
  have distance := congrArg Prod.fst same
  exact ⟨by dsimp only at distance; omega, found, scanned⟩

/-- The second half of a pair is there, or the parser fails. -/
theorem parseLow_cases (str : List UInt8) (last : UInt8) {rest : List UInt8} {found : Nat × Nat}
    (scanned : scanString rest = .ok found) (left uc : Nat) :
    parseLow str (last :: rest) left uc = .error (.failed str) ∨
      ∃ (low : Hex4) (rest' : List UInt8), IsLow low.value ∧
        rest = backslash :: letterU :: (low.digits ++ rest') := by
  by_cases short : left < 6
  · left
    simp only [parseLow, short, if_true]
    rfl
  cases rest with
  | nil => cases scanned
  | cons first rest =>
    by_cases escapes : first = backslash
    · subst escapes
      obtain ⟨ends, _⟩ | ⟨_, escape, rest', found', rfl, scanned', _⟩ | ⟨plain, _⟩ :=
        scanString_cases scanned
      · exact absurd ends (by decide)
      · by_cases isCode : escape = letterU
        · subst isCode
          obtain none | ⟨low, rest, rfl⟩ := parseHex4_cases (scanString_stops scanned')
          · left
            simp only [parseLow, short, if_false, byteAt_succ, byteAt_zero, ok_bind,
              List.drop_succ_cons, List.drop_zero, none, ne_eq, not_true_eq_false]
            rfl
          · by_cases isLow : IsLow low.value
            · exact .inr ⟨low, rest, isLow, rfl⟩
            · left
              have outside : low.value < 0xDC00 ∨ 0xDFFF < low.value := by
                unfold IsLow at isLow
                omega
              simp only [parseLow, short, if_false, byteAt_succ, byteAt_zero, ok_bind,
                List.drop_succ_cons, List.drop_zero, parseHex4_append, ne_eq, not_true_eq_false,
                outside, if_true]
              rfl
        · left
          simp only [parseLow, short, if_false, byteAt_succ, byteAt_zero, ok_bind, ne_eq,
            not_true_eq_false, isCode, not_false_eq_true, if_true]
          rfl
      · exact absurd rfl plain.2.2
    · left
      simp only [parseLow, short, if_false, byteAt_succ, byteAt_zero, ok_bind, ne_eq, escapes,
        not_false_eq_true, if_true]
      rfl

/-- A round is at a unit, or the parser fails. -/
theorem unescapeRound_cases (str : List UInt8) {ptr : List UInt8} {left len : Nat}
    (scanned : scanString ptr = .ok (left, len)) (before : 0 < left) :
    (∃ unit rest, ptr = StringUnit.text unit ++ rest) ∨
      unescapeRound str ptr left = .error (.failed str) := by
  cases ptr with
  | nil => cases scanned
  | cons byte rest =>
    obtain ⟨_, none⟩ | ⟨rfl, escape, rest', found', rfl, scanned', _⟩ | ⟨plain, _⟩ :=
      scanString_cases scanned
    · cases none
      exact absurd before (Nat.lt_irrefl 0)
    · by_cases isCode : escape = letterU
      · subst isCode
        obtain none | ⟨hex, rest, rfl⟩ := parseHex4_cases (scanString_stops scanned')
        · right
          simp only [unescapeRound, byteAt_zero, byteAt_succ, ok_bind, ne_eq, not_true_eq_false,
            if_false, parseCode, List.drop_succ_cons, List.drop_zero, none]
          split <;> rfl
        · obtain ⟨wide, found, behind⟩ := scan_behind_hex scanned
          by_cases refused : IsLow hex.value ∨ hex.value = 0
          · right
            have check : 0xDC00 ≤ hex.value ∧ hex.value ≤ 0xDFFF ∨ hex.value = 0 := refused
            simp only [unescapeRound, byteAt_zero, byteAt_succ, ok_bind, ne_eq, not_true_eq_false,
              if_false, parseCode, List.drop_succ_cons, List.drop_zero, parseHex4_append,
              show ¬ left ≤ 5 by omega, check, if_true]
            rfl
          · by_cases isHigh : IsHigh hex.value
            · obtain ⟨first, second, third, last, digits⟩ := exists_digits hex
              have at' : (hex.digits ++ rest).drop 3 = last :: rest := by
                rw [digits]
                rfl
              obtain failed | ⟨low, rest, isLow, rfl⟩ :=
                parseLow_cases str last behind (left - 5) hex.value
              · right
                have check : ¬ (0xDC00 ≤ hex.value ∧ hex.value ≤ 0xDFFF ∨ hex.value = 0) := refused
                simp only [unescapeRound, byteAt_zero, byteAt_succ, ok_bind, ne_eq,
                  not_true_eq_false, if_false, parseCode, List.drop_succ_cons, List.drop_zero,
                  parseHex4_append, show ¬ left ≤ 5 by omega, check, at', failed]
                rw [if_pos (show 0xD800 ≤ hex.value ∧ hex.value ≤ 0xDBFF from isHigh)]
                rfl
              · left
                exact ⟨.pair hex low isHigh isLow, rest, by simp [StringUnit.text]⟩
            · left
              have proper : hex.value ≠ 0 ∧ ¬ IsHigh hex.value ∧ ¬ IsLow hex.value :=
                ⟨fun zero => refused (.inr zero), isHigh, fun isLow => refused (.inl isLow)⟩
              exact ⟨.code hex proper, rest, rfl⟩
      · exact .inl ⟨.escaped escape isCode, rest', rfl⟩
    · exact .inl ⟨.plain byte plain, rest, rfl⟩

/-! ## The loop over rounds -/

theorem unescape_zero (str : List UInt8) (size fuel : Nat) (ptr out : List UInt8) :
    unescape str size fuel ptr 0 out = .ok (out, ptr) := by
  cases fuel <;> rfl

theorem text_positive (unit : StringUnit) : 0 < unit.text.length := by
  cases unit <;> exact Nat.succ_pos _

/-- The loop over the text of some units stores what they stand for. -/
theorem unescape_units (str : List UInt8) (size : Nat) (units : List StringUnit) (rest : List UInt8)
    (out : List UInt8) {fuel : Nat} (rounds : units.length ≤ fuel)
    (room : out.length + (units.flatMap StringUnit.bytes).length ≤ size) :
    unescape str size fuel (units.flatMap StringUnit.text ++ rest)
      (units.flatMap StringUnit.text).length out =
        .ok (out ++ units.flatMap StringUnit.bytes, rest) := by
  induction units generalizing out fuel with
  | nil => simp [unescape_zero]
  | cons unit units inductionHypothesis =>
    cases fuel with
    | zero => cases rounds
    | succ fuel =>
      have positive := text_positive unit
      rw [List.flatMap_cons, List.length_append] at room
      obtain ⟨left, isLeft⟩ :
          ∃ left, ((unit :: units).flatMap StringUnit.text).length = left + 1 := by
        rw [List.flatMap_cons, List.length_append]
        exact ⟨unit.text.length + (units.flatMap StringUnit.text).length - 1, by omega⟩
      have total : unit.text.length + (units.flatMap StringUnit.text).length = left + 1 := by
        rwa [List.flatMap_cons, List.length_append] at isLeft
      have round := unescapeRound_unit str unit (units.flatMap StringUnit.text ++ rest)
        (show unit.text.length ≤ left + 1 by omega)
      have fits : out.length + unit.bytes.length ≤ size := by omega
      have next := inductionHypothesis (out ++ unit.bytes) (Nat.le_of_succ_le_succ rounds)
        (by rw [List.length_append]; omega)
      rw [isLeft, unescape, List.flatMap_cons, List.append_assoc, round, ok_bind]
      simp only [emit, fits, if_true, ok_bind, List.drop_left]
      rw [show left + 1 - unit.text.length = (units.flatMap StringUnit.text).length by omega, next,
        List.append_assoc, List.flatMap_cons]

/-- The loop goes over units up to `end_ptr`, or the parser fails. -/
theorem unescape_cases (str : List UInt8) (size : Nat) {ptr : List UInt8} {left len fuel : Nat}
    {out : List UInt8} (scanned : scanString ptr = .ok (left, len)) (rounds : left ≤ fuel)
    (room : out.length + len ≤ size) :
    (∃ (units : List StringUnit) (rest : List UInt8),
      ptr = units.flatMap StringUnit.text ++ rest ∧
      left = (units.flatMap StringUnit.text).length) ∨
    unescape str size fuel ptr left out = .error (.failed str) := by
  induction fuel generalizing ptr left len out with
  | zero =>
    obtain rfl := Nat.le_zero.mp rounds
    exact .inl ⟨[], ptr, rfl, rfl⟩
  | succ fuel inductionHypothesis =>
    cases left with
    | zero => exact .inl ⟨[], ptr, rfl, rfl⟩
    | succ left =>
      obtain ⟨unit, rest, rfl⟩ | failed := unescapeRound_cases str scanned (Nat.succ_pos left)
      · obtain ⟨counted, least, goesOver⟩ := scanString_unit unit
        rw [goesOver] at scanned
        obtain ⟨found, scannedRest, same⟩ := map_eq_ok_iff.mp scanned
        obtain ⟨distance, count⟩ := Prod.mk.inj same
        have positive := text_positive unit
        have round := unescapeRound_unit str unit rest
          (show unit.text.length ≤ left + 1 by omega)
        have fits : out.length + unit.bytes.length ≤ size := by omega
        obtain ⟨units, rest', rfl, isLeft⟩ | failed :=
          @inductionHypothesis rest found.1 found.2 (out ++ unit.bytes) scannedRest (by omega)
            (by rw [List.length_append]; omega)
        · left
          refine ⟨unit :: units, rest', ?_, ?_⟩
          · rw [List.flatMap_cons, List.append_assoc]
          · rw [List.flatMap_cons, List.length_append]
            omega
        · right
          rw [unescape, round, ok_bind]
          simp only [emit, fits, if_true, ok_bind, List.drop_left]
          rwa [show left + 1 - unit.text.length = found.1 by omega]
      · right
        rw [unescape, failed]
        rfl

/-! ## A whole string -/

/-- The `valuestring` of these units. -/
def stringOf (units : List StringUnit) : CString :=
  CString.upToNul (units.flatMap StringUnit.bytes)

theorem length_le_text (units : List StringUnit) :
    units.length ≤ (units.flatMap StringUnit.text).length := by
  induction units with
  | nil => exact Nat.le_refl 0
  | cons unit units inductionHypothesis =>
    have positive := text_positive unit
    rw [List.flatMap_cons, List.length_append, List.length_cons]
    omega

theorem upToNul_terminated (bytes : List UInt8) :
    CString.upToNul (bytes ++ [0]) = CString.upToNul bytes := by
  apply CString.ext
  show (bytes ++ [0]).takeWhile (· != 0) = bytes.takeWhile (· != 0)
  induction bytes with
  | nil => rfl
  | cons byte bytes inductionHypothesis =>
    simp only [List.cons_append, List.takeWhile_cons, inductionHypothesis]

/-- Where the text of a string ends, both loops do. -/
theorem ends_cons {tail after : List UInt8}
    (ends : tail = quote :: after ∨ tail = after ∧ after.head? = some 0) :
    ∃ byte rest, tail = byte :: rest ∧ (byte = quote ∨ byte = 0) ∧
      (if byte = quote then tail.drop 1 else tail) = after := by
  obtain rfl | ⟨rfl, isNul⟩ := ends
  · exact ⟨quote, after, rfl, .inl rfl, rfl⟩
  · cases tail with
    | nil => cases isNul
    | cons byte rest =>
      obtain rfl := Option.some.inj isNul
      exact ⟨0, rest, rfl, .inr rfl, rfl⟩

theorem parseString_of_reads {str after : List UInt8} {units : List StringUnit}
    (reads : ReadsString str units after) : parseString str = .ok (stringOf units, after) := by
  obtain ⟨tail, rfl, ends⟩ := reads
  obtain ⟨byte, rest, rfl, stops, behind⟩ := ends_cons ends
  obtain ⟨len, bytes, goesOver⟩ := scanString_units units
  have scanned := goesOver (byte :: rest)
  rw [scanString_stop stops] at scanned
  simp only [Except.map, Nat.zero_add] at scanned
  have stored := unescape_units (quote :: (units.flatMap StringUnit.text ++ byte :: rest)) (len + 1)
    units (byte :: rest) [] (length_le_text units) (by rw [List.length_nil]; omega)
  have fits : (units.flatMap StringUnit.bytes).length + [(0 : UInt8)].length ≤ len + 1 :=
    Nat.succ_le_succ bytes
  simp only [parseString, byteAt_zero, ok_bind, ne_eq, not_true_eq_false, if_false,
    List.drop_succ_cons, List.drop_zero, scanned, stored, List.nil_append, emit, fits, if_true,
    upToNul_terminated]
  rw [← behind]
  rfl

/-- A string whose end is found is spelled in units, or the parser fails at its first byte. -/
theorem parseString_cases {ptr : List UInt8} {found : Nat × Nat}
    (scanned : scanString ptr = .ok found) :
    (∃ units after, ReadsString (quote :: ptr) units after) ∨
      parseString (quote :: ptr) = .error (.failed (quote :: ptr)) := by
  obtain ⟨distance, len⟩ := found
  obtain ⟨units, rest, rfl, isDistance⟩ | failed :=
    @unescape_cases (quote :: ptr) (len + 1) ptr distance len distance [] scanned (Nat.le_refl _)
      (by rw [List.length_nil]; omega)
  · left
    obtain ⟨_, _, goesOver⟩ := scanString_units units
    rw [goesOver] at scanned
    obtain ⟨found, scannedRest, same⟩ := map_eq_ok_iff.mp scanned
    have none : found.1 = 0 := by
      have atEnd := congrArg Prod.fst same
      dsimp only at atEnd
      omega
    cases rest with
    | nil => cases scannedRest
    | cons byte rest =>
      obtain ⟨ends, _⟩ | ⟨_, _, _, _, _, _, rfl⟩ | ⟨_, _, _, rfl⟩ := scanString_cases scannedRest
      · obtain rfl | rfl := ends
        · exact ⟨units, rest, _, rfl, .inl rfl⟩
        · exact ⟨units, 0 :: rest, _, rfl, .inr ⟨rfl, rfl⟩⟩
      · cases none
      · cases none
  · right
    simp only [parseString, byteAt_zero, ok_bind, ne_eq, not_true_eq_false, if_false,
      List.drop_succ_cons, List.drop_zero, scanned, failed]
    rfl

theorem parseString_eq_ok_iff {str after : List UInt8} {string : CString} :
    parseString str = .ok (string, after) ↔
      ∃ units, ReadsString str units after ∧ string = stringOf units := by
  constructor
  · intro parsed
    cases str with
    | nil => cases parsed
    | cons byte ptr =>
      by_cases opens : byte = quote
      · subst opens
        cases scanned : scanString ptr with
        | error stop =>
          simp only [parseString, byteAt_zero, ok_bind, ne_eq, not_true_eq_false, if_false,
            List.drop_succ_cons, List.drop_zero, scanned] at parsed
          cases parsed
        | ok found =>
          obtain ⟨units, after', reads⟩ | failed := parseString_cases scanned
          · rw [parseString_of_reads reads] at parsed
            cases parsed
            exact ⟨units, reads, rfl⟩
          · rw [failed] at parsed
            cases parsed
      · simp only [parseString, byteAt_zero, ok_bind, ne_eq, opens, not_false_eq_true,
          if_true] at parsed
        cases parsed
  · rintro ⟨units, reads, rfl⟩
    exact parseString_of_reads reads

/-- The first loop stops for nothing but the end of the object. -/
theorem scanString_error {memory : List UInt8} {stop : ParseStop}
    (stopped : scanString memory = .error stop) : stop = .fault .readOutOfBounds := by
  induction length : memory.length using Nat.strongRecOn generalizing memory with
  | ind size inductionHypothesis =>
    subst length
    cases memory with
    | nil =>
      cases stopped
      rfl
    | cons byte rest =>
      by_cases ends : byte = quote ∨ byte = 0
      · rw [scanString_stop ends] at stopped
        cases stopped
      · by_cases escapes : byte = backslash
        · subst escapes
          cases rest with
          | nil =>
            rw [scanString.eq_def] at stopped
            cases stopped
            rfl
          | cons escape rest =>
            rw [scanString_escaped] at stopped
            cases scanned : scanString rest with
            | ok found =>
              rw [scanned] at stopped
              cases stopped
            | error stop' =>
              rw [scanned] at stopped
              cases stopped
              exact inductionHypothesis rest.length (by simp only [List.length_cons]; omega) scanned rfl
        · rw [scanString_plain ⟨fun same => ends (.inl same), fun same => ends (.inr same), escapes⟩]
            at stopped
          cases scanned : scanString rest with
          | ok found =>
            rw [scanned] at stopped
            cases stopped
          | error stop' =>
            rw [scanned] at stopped
            cases stopped
            exact inductionHypothesis rest.length (Nat.lt_succ_self _) scanned rfl

/-- All that `parse_string` can do, at any pointer: it returns what the units stand for when there is
a string, and else fails with the error pointer at its first byte, unless the object ends first.  No
store leaves the memory that the first loop has counted. -/
theorem string_outcome (str : List UInt8) :
    (∃ units after, ReadsString str units after ∧ parseString str = .ok (stringOf units, after)) ∨
      (∀ units after, ¬ ReadsString str units after) ∧
        (parseString str = .error (.failed str) ∨
          parseString str = .error (.fault .readOutOfBounds)) := by
  by_cases spelled : ∃ units after, ReadsString str units after
  · obtain ⟨units, after, reads⟩ := spelled
    exact .inl ⟨units, after, reads, parseString_of_reads reads⟩
  · right
    refine ⟨fun units after reads => spelled ⟨units, after, reads⟩, ?_⟩
    cases str with
    | nil => exact .inr rfl
    | cons byte ptr =>
      by_cases opens : byte = quote
      · subst opens
        cases scanned : scanString ptr with
        | ok found =>
          obtain reads | failed := parseString_cases scanned
          · exact absurd reads spelled
          · exact .inl failed
        | error stop =>
          right
          simp only [parseString, byteAt_zero, ok_bind, ne_eq, not_true_eq_false, if_false,
            List.drop_succ_cons, List.drop_zero, scanned, scanString_error scanned]
          rfl
      · left
        simp only [parseString, byteAt_zero, ok_bind, ne_eq, opens, not_false_eq_true, if_true]
        rfl

/-! ## Unicode -/

/-- A character without a NUL, spelled by its code. -/
abbrev Visible := { char : Char // char.toNat ≠ 0 }

def escaped (chars : List Visible) : List StringUnit :=
  chars.map fun char => .ofChar char.1 char.2

theorem escaped_bytes (chars : List Visible) :
    (escaped chars).flatMap StringUnit.bytes =
      chars.flatMap fun char => String.utf8EncodeChar char.1 := by
  induction chars with
  | nil => rfl
  | cons char chars inductionHypothesis =>
    rw [escaped, List.map_cons, List.flatMap_cons, StringUnit.bytes_ofChar, ← escaped,
      inductionHypothesis, List.flatMap_cons]

/-- Any text, spelled by the codes of its characters alone, is parsed to its bytes in UTF-8. -/
theorem unicode_round_trip (chars : List Visible) (after : List UInt8) :
    ∃ string, parseString (quote :: ((escaped chars).flatMap StringUnit.text ++ quote :: after)) =
        .ok (string, after) ∧
      string.bytes = chars.flatMap fun char => String.utf8EncodeChar char.1 := by
  have reads : ReadsString (quote :: ((escaped chars).flatMap StringUnit.text ++ quote :: after))
      (escaped chars) after := ⟨_, rfl, .inl rfl⟩
  refine ⟨stringOf (escaped chars), parseString_of_reads reads, ?_⟩
  rw [stringOf, escaped_bytes]
  apply CString.upToNul_bytes_of_nulFree
  intro zero
  obtain ⟨char, _, member⟩ := List.mem_flatMap.mp zero
  exact zero_notMem_utf8 char.2 member

end ServalRpc.Verified.JsonStrings
