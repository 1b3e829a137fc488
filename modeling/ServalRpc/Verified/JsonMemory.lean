import ServalRpc.Verified.JsonGrammar

/-! # The memory that the parser touches

A text that does not end in a backslash is parsed inside it: whatever lies behind its terminator,
the parser does the same, and its pointers stay in the text.  A string that ends in a backslash is
read past the terminator.
-/

namespace ServalRpc.Verified.JsonMemory

open CLib JsonFormat JsonStrings JsonNumbers JsonGrammar

/-- The bytes of a C string, the last of which escapes nothing. -/
structure SafeText (text : List UInt8) : Prop where
  nulFree : 0 ∉ text
  closed : text.getLast? ≠ some backslash

theorem SafeText.of_suffix {text rest : List UInt8} (safe : SafeText text) (within : rest <:+ text) :
    SafeText rest := by
  refine ⟨fun member => safe.nulFree (within.subset member), ?_⟩
  obtain ⟨front, rfl⟩ := within
  cases rest with
  | nil => simp
  | cons byte rest =>
    have closed := safe.closed
    rwa [List.getLast?_append_of_ne_nil _ (List.cons_ne_nil _ _)] at closed

/-- The parsers of a family at this text: they return or fail, inside the text and the same way
whichever of them it is and whatever lies behind the terminator. -/
inductive Confined {ι α : Type} (parser : ι → Parser α) (text : List UInt8) : Prop where
  | parsed (found : α) (rest : List UInt8) (within : rest <:+ text)
      (same : ∀ index behind, parser index (text ++ 0 :: behind) = .ok (found, rest ++ 0 :: behind))
  | failed (ep : List UInt8) (within : ep <:+ text)
      (same : ∀ index behind,
        parser index (text ++ 0 :: behind) = .error (.failed (ep ++ 0 :: behind)))

section Confined

variable {ι κ α β : Type}

/-- Parsers that go on as others do, further on in the text. -/
theorem Confined.of_rest {parser : ι → Parser α} {further : κ → Parser α} {text rest : List UInt8}
    (confined : Confined further rest) (within : rest <:+ text)
    (same : ∀ index behind, ∃ index',
      parser index (text ++ 0 :: behind) = further index' (rest ++ 0 :: behind)) :
    Confined parser text := by
  cases confined with
  | parsed found rest' within' same' =>
    refine .parsed found rest' (within'.trans within) ?_
    intro index behind
    obtain ⟨index', goesOn⟩ := same index behind
    exact goesOn.trans (same' index' behind)
  | failed ep within' same' =>
    refine .failed ep (within'.trans within) ?_
    intro index behind
    obtain ⟨index', goesOn⟩ := same index behind
    exact goesOn.trans (same' index' behind)

theorem Confined.map {parser : ι → Parser α} {text : List UInt8} (view : α → β)
    (confined : Confined parser text) :
    Confined (fun index memory => (parser index memory).map fun found => (view found.1, found.2))
      text := by
  cases confined with
  | parsed found rest within same =>
    refine .parsed (view found) rest within ?_
    intro index behind
    simp only [same, Except.map]
  | failed ep within same =>
    refine .failed ep within ?_
    intro index behind
    simp only [same, Except.map]

end Confined

/-! ## Blanks and words -/

theorem skip_text (text : List UInt8) : ∃ rest, rest <:+ text ∧
    ∀ behind, skip (text ++ 0 :: behind) = .ok (rest ++ 0 :: behind) := by
  induction text with
  | nil => exact ⟨[], List.suffix_refl _, fun behind => rfl⟩
  | cons byte text inductionHypothesis =>
    by_cases isBlank : IsBlank byte
    · obtain ⟨rest, within, same⟩ := inductionHypothesis
      refine ⟨rest, within.trans (List.suffix_cons _ _), ?_⟩
      intro behind
      rw [List.cons_append, skip, if_pos isBlank, same]
    · refine ⟨byte :: text, List.suffix_refl _, ?_⟩
      intro behind
      rw [List.cons_append, skip, if_neg isBlank]

theorem startsWith_text {word : List UInt8} (nulFree : 0 ∉ word) (text : List UInt8) :
    (∃ rest, text = word ++ rest) ∨
      ∀ behind, startsWith word (text ++ 0 :: behind) = .ok false := by
  induction word generalizing text with
  | nil => exact .inl ⟨text, rfl⟩
  | cons letter word inductionHypothesis =>
    rw [List.mem_cons, not_or] at nulFree
    cases text with
    | nil => exact .inr fun behind => startsWith_other word behind nulFree.1
    | cons byte text =>
      by_cases same : byte = letter
      · subst same
        obtain ⟨rest, rfl⟩ | other := inductionHypothesis nulFree.2 text
        · exact .inl ⟨rest, rfl⟩
        · right
          intro behind
          rw [List.cons_append, startsWith, if_pos rfl, other]
      · exact .inr fun behind => startsWith_other word _ same

/-! ## Numbers -/

theorem readDigits_text {σ : Type} (digit : σ → UInt8 → σ) (state : σ) (text : List UInt8) :
    ∃ state' rest, rest <:+ text ∧
      ∀ behind, readDigits digit state (text ++ 0 :: behind) = .ok (state', rest ++ 0 :: behind) := by
  induction text generalizing state with
  | nil => exact ⟨state, [], List.suffix_refl _, fun behind => rfl⟩
  | cons byte text inductionHypothesis =>
    by_cases isDigit : IsDigit byte
    · obtain ⟨state', rest, within, same⟩ := inductionHypothesis (digit state byte)
      refine ⟨state', rest, within.trans (List.suffix_cons _ _), ?_⟩
      intro behind
      rw [List.cons_append, readDigits, if_pos isDigit, same]
    · refine ⟨state, byte :: text, List.suffix_refl _, ?_⟩
      intro behind
      rw [List.cons_append, readDigits, if_neg isDigit]

theorem optionalByte_text {byte : UInt8} (visible : byte ≠ 0) (text : List UInt8) :
    ∃ present rest, rest <:+ text ∧
      ∀ behind, optionalByte byte (text ++ 0 :: behind) = .ok (present, rest ++ 0 :: behind) := by
  cases text with
  | nil =>
    refine ⟨false, [], List.suffix_refl _, ?_⟩
    intro behind
    apply optionalByte_absent (List.cons_ne_nil _ _)
    intro first isFirst
    exact fun same => visible ((Option.some.inj isFirst).trans same).symm
  | cons first text =>
    by_cases same : first = byte
    · subst same
      exact ⟨true, text, List.suffix_cons _ _, fun behind => optionalByte_present first _⟩
    · refine ⟨false, first :: text, List.suffix_refl _, ?_⟩
      intro behind
      apply optionalByte_absent (List.cons_ne_nil _ _)
      intro head isFirst
      exact fun isByte => same ((Option.some.inj isFirst).trans isByte)

section Doubles

variable {D : Type} (doubles : Doubles D)

theorem parseWhole_text (text : List UInt8) : ∃ n rest, rest <:+ text ∧
    ∀ behind, parseWhole doubles (text ++ 0 :: behind) = .ok (n, rest ++ 0 :: behind) := by
  cases text with
  | nil => exact ⟨doubles.ofInt 0, [], List.suffix_refl _, fun behind => rfl⟩
  | cons first text =>
    by_cases leads : 49 ≤ first ∧ first ≤ 57
    · obtain ⟨n, rest, within, same⟩ :=
        readDigits_text (wholeDigit doubles) (doubles.ofInt 0) (first :: text)
      refine ⟨n, rest, within, ?_⟩
      intro behind
      simp only [List.cons_append, parseWhole, byteAt_zero, ok_bind, leads, and_self, if_true]
      exact same behind
    · refine ⟨doubles.ofInt 0, first :: text, List.suffix_refl _, ?_⟩
      intro behind
      simp only [List.cons_append, parseWhole, byteAt_zero, ok_bind, leads, if_false]
      rfl

/-- Where a fraction is looked for, no more than the terminator is read. -/
theorem atFraction_text (text : List UInt8) :
    (∃ digits, text = point :: digits ∧ ∀ behind, atFraction (text ++ 0 :: behind) = .ok true) ∨
      ∀ behind, atFraction (text ++ 0 :: behind) = .ok false := by
  cases text with
  | nil => exact .inr fun behind => rfl
  | cons byte text =>
    by_cases isPoint : byte = point
    · subst isPoint
      cases text with
      | nil => exact .inr fun behind => rfl
      | cons digit text =>
        by_cases isDigit : IsDigit digit
        · left
          refine ⟨digit :: text, rfl, ?_⟩
          intro behind
          exact (atFraction_point digit _).trans (by rw [decide_eq_true isDigit])
        · right
          intro behind
          exact (atFraction_point digit _).trans (by rw [decide_eq_false isDigit])
    · exact .inr fun behind => atFraction_cons _ isPoint

theorem parseFraction_text (n : D) (text : List UInt8) : ∃ state rest, rest <:+ text ∧
    ∀ behind, parseFraction doubles n (text ++ 0 :: behind) = .ok (state, rest ++ 0 :: behind) := by
  obtain ⟨digits, rfl, present⟩ | absent := atFraction_text text
  · obtain ⟨state, rest, within, same⟩ :=
      readDigits_text (fractionDigit doubles) (n, doubles.ofInt 0) digits
    refine ⟨state, rest, within.trans (List.suffix_cons _ _), ?_⟩
    intro behind
    rw [parseFraction, present behind]
    exact same behind
  · refine ⟨(n, doubles.ofInt 0), text, List.suffix_refl _, ?_⟩
    intro behind
    rw [parseFraction, absent behind]
    rfl

theorem parseExponentSign_text (text : List UInt8) : ∃ sign rest, rest <:+ text ∧
    ∀ behind, parseExponentSign (text ++ 0 :: behind) = .ok (sign, rest ++ 0 :: behind) := by
  cases text with
  | nil => exact ⟨1, [], List.suffix_refl _, fun behind => rfl⟩
  | cons byte text =>
    by_cases isPlus : byte = plus
    · subst isPlus
      exact ⟨1, text, List.suffix_cons _ _, fun behind => rfl⟩
    · by_cases isMinus : byte = minus
      · subst isMinus
        exact ⟨-1, text, List.suffix_cons _ _, fun behind => rfl⟩
      · refine ⟨1, byte :: text, List.suffix_refl _, ?_⟩
        intro behind
        simp only [List.cons_append, parseExponentSign, byteAt_zero, ok_bind, isPlus, isMinus,
          if_false]
        rfl

theorem parseExponent_text (text : List UInt8) : ∃ exponent rest, rest <:+ text ∧
    ∀ behind, parseExponent (text ++ 0 :: behind) = .ok (exponent, rest ++ 0 :: behind) := by
  cases text with
  | nil => exact ⟨0, [], List.suffix_refl _, fun behind => rfl⟩
  | cons letter text =>
    by_cases isLetter : letter = 101 ∨ letter = 69
    · obtain ⟨sign, digits, within, signed⟩ := parseExponentSign_text text
      obtain ⟨subscale, rest, within', read⟩ := readDigits_text subscaleDigit 0 digits
      refine ⟨intOf (subscale * sign), rest, within'.trans (within.trans (List.suffix_cons _ _)), ?_⟩
      intro behind
      simp only [List.cons_append, parseExponent, byteAt_zero, ok_bind, isLetter, if_true,
        List.drop_succ_cons, List.drop_zero, signed, read]
      rfl
    · refine ⟨0, letter :: text, List.suffix_refl _, ?_⟩
      intro behind
      simp only [List.cons_append, parseExponent, byteAt_zero, ok_bind, isLetter, if_false]
      rfl

theorem number_confined {ι : Type} (text : List UInt8) :
    Confined (fun _ : ι => parseNumber doubles) text := by
  obtain ⟨negative, rest1, within1, minus⟩ := optionalByte_text (show minus ≠ 0 by decide) text
  obtain ⟨_, rest2, within2, zero⟩ := optionalByte_text (show (48 : UInt8) ≠ 0 by decide) rest1
  obtain ⟨n, rest3, within3, whole⟩ := parseWhole_text doubles rest2
  obtain ⟨state, rest4, within4, fraction⟩ := parseFraction_text doubles n rest3
  obtain ⟨exponent, rest5, within5, scale⟩ := parseExponent_text rest4
  refine .parsed (scaled doubles negative state.1 state.2 exponent) rest5
    (within5.trans (within4.trans (within3.trans (within2.trans within1)))) ?_
  intro index behind
  simp only [parseNumber, minus, ok_bind, zero, whole, fraction, scale]
  rfl

end Doubles

/-! ## Strings -/

/-- The end of a string is found in the text, or at its terminator. -/
theorem scan_text {text : List UInt8} (safe : SafeText text) : ∃ front tail len,
    text = front ++ tail ∧ (tail = [] ∨ ∃ after, tail = quote :: after) ∧
      ∀ behind, scanString (text ++ 0 :: behind) = .ok (front.length, len) := by
  induction length : text.length using Nat.strongRecOn generalizing text with
  | ind size inductionHypothesis =>
    subst length
    cases text with
    | nil => exact ⟨[], [], 0, rfl, .inl rfl, fun behind => scanString_stop (.inr rfl) behind⟩
    | cons byte rest =>
      by_cases isQuote : byte = quote
      · subst isQuote
        exact ⟨[], quote :: rest, 0, rfl, .inr ⟨rest, rfl⟩, fun behind => scanString_stop (.inl rfl) _⟩
      · by_cases escapes : byte = backslash
        · subst escapes
          cases rest with
          | nil => exact absurd rfl safe.closed
          | cons escape rest =>
            have further := @SafeText.of_suffix _ rest safe ⟨[backslash, escape], rfl⟩
            obtain ⟨front, tail, len, rfl, ends, scanned⟩ :=
              inductionHypothesis rest.length (by simp only [List.length_cons]; omega) further rfl
            refine ⟨backslash :: escape :: front, tail, len + 1, rfl, ends, ?_⟩
            intro behind
            have step := scanString_escaped escape (front ++ tail ++ 0 :: behind)
            rw [scanned] at step
            exact step
        · have visible : byte ≠ 0 := fun zero => safe.nulFree (zero ▸ List.mem_cons_self)
          have further := safe.of_suffix (List.suffix_cons byte rest)
          obtain ⟨front, tail, len, rfl, ends, scanned⟩ :=
            inductionHypothesis rest.length (Nat.lt_succ_self _) further rfl
          refine ⟨byte :: front, tail, len + 1, rfl, ends, ?_⟩
          intro behind
          have step := scanString_plain ⟨isQuote, visible, escapes⟩ (front ++ tail ++ 0 :: behind)
          rw [scanned] at step
          exact step

theorem string_confined {ι : Type} {text : List UInt8} (safe : SafeText text) :
    Confined (fun _ : ι => parseString) text := by
  cases text with
  | nil => exact .failed [] (List.suffix_refl _) fun index behind => rfl
  | cons byte ptr =>
    by_cases opens : byte = quote
    · subst opens
      obtain ⟨front, tail, len, rfl, ends, scanned⟩ :=
        scan_text (safe.of_suffix (List.suffix_cons quote ptr))
      by_cases spelled : ∃ units : List StringUnit, front = units.flatMap StringUnit.text
      · obtain ⟨units, rfl⟩ := spelled
        obtain rfl | ⟨after, rfl⟩ := ends
        · refine .parsed (stringOf units) [] ⟨_, List.append_nil _⟩ ?_
          intro index behind
          exact parseString_of_reads ⟨0 :: behind, by simp, .inr ⟨rfl, rfl⟩⟩
        · refine .parsed (stringOf units) after
            ⟨quote :: (units.flatMap StringUnit.text ++ [quote]), by simp⟩ ?_
          intro index behind
          exact parseString_of_reads ⟨quote :: (after ++ 0 :: behind), by simp, .inl rfl⟩
      · refine .failed (quote :: (front ++ tail)) (List.suffix_refl _) ?_
        intro index behind
        obtain ⟨units, after, tail', split, ends'⟩ | failed := parseString_cases (scanned behind)
        · -- Both loops go the same way, so that the units would spell what the first one has passed.
          exfalso
          apply spelled
          refine ⟨units, ?_⟩
          obtain ⟨stop, rest, rfl, stops, _⟩ := ends_cons ends'
          obtain ⟨_, _, goesOver⟩ := scanString_units units
          have distance := scanned behind
          rw [(List.cons.inj split).2, goesOver, scanString_stop stops] at distance
          have lengths := congrArg Prod.fst (Except.ok.inj distance)
          simp only [Nat.zero_add] at lengths
          have fronts := (List.cons.inj split).2
          rw [List.append_assoc] at fronts
          exact (List.append_inj fronts lengths.symm).1
        · exact failed
    · refine .failed (byte :: ptr) (List.suffix_refl _) ?_
      intro index behind
      simp only [List.cons_append, parseString, byteAt_zero, ok_bind, ne_eq, opens,
        not_false_eq_true, if_true]
      rfl

/-! ## Lists -/

section Lists

variable {ι α : Type} {parseItem : ι → Parser α} {size : Nat}

/-- The rounds that are provided for do not matter, as long as there are enough of them. -/
theorem items_confined
    (items : ∀ text, text.length ≤ size → SafeText text → Confined parseItem text)
    {text : List UInt8} (inside : text.length ≤ size) (safe : SafeText text) :
    (∃ found rest, rest <:+ text ∧ ∀ index behind fuel, text.length < fuel →
      parseItems (parseItem index) fuel (text ++ 0 :: behind) = .ok (found, rest ++ 0 :: behind)) ∨
    ∃ ep, ep <:+ text ∧ ∀ index behind fuel, text.length < fuel →
      parseItems (parseItem index) fuel (text ++ 0 :: behind) = .error (.failed (ep ++ 0 :: behind)) := by
  induction length : text.length using Nat.strongRecOn generalizing text with
  | ind count inductionHypothesis =>
    subst length
    cases items text inside safe with
    | failed ep within same =>
      right
      refine ⟨ep, within, ?_⟩
      intro index behind fuel rounds
      cases fuel with
      | zero => exact absurd rounds (Nat.not_lt_zero _)
      | succ fuel =>
        rw [parseItems, same]
        rfl
    | parsed item rest within same =>
      obtain ⟨next, within', skipped⟩ := skip_text rest
      have front := within'.trans within
      by_cases isComma : ∃ next', next = comma :: next'
      · obtain ⟨next, rfl⟩ := isComma
        have shorter := front.length_le
        rw [List.length_cons] at shorter
        have further := (List.suffix_cons comma next).trans front
        have step : ∀ index behind fuel, parseItems (parseItem index) (fuel + 1) (text ++ 0 :: behind) =
            (parseItems (parseItem index) fuel (next ++ 0 :: behind)).map fun found =>
              (item :: found.1, found.2) := by
          intro index behind fuel
          simp only [parseItems, same, ok_bind, skipped, List.cons_append, byteAt_zero, if_true,
            List.drop_succ_cons, List.drop_zero]
          cases parseItems (parseItem index) fuel (next ++ 0 :: behind) <;> rfl
        obtain ⟨others, rest', within'', parsed⟩ | ⟨ep, within'', failed⟩ :=
          inductionHypothesis next.length shorter (Nat.le_trans (Nat.le_of_lt shorter) inside)
            (safe.of_suffix further) rfl
        · left
          refine ⟨item :: others, rest', within''.trans further, ?_⟩
          intro index behind fuel rounds
          cases fuel with
          | zero => exact absurd rounds (Nat.not_lt_zero _)
          | succ fuel =>
            rw [step, parsed index behind fuel (by omega)]
            rfl
        · right
          refine ⟨ep, within''.trans further, ?_⟩
          intro index behind fuel rounds
          cases fuel with
          | zero => exact absurd rounds (Nat.not_lt_zero _)
          | succ fuel =>
            rw [step, failed index behind fuel (by omega)]
            rfl
      · left
        refine ⟨[item], next, front, ?_⟩
        intro index behind fuel rounds
        cases fuel with
        | zero => exact absurd rounds (Nat.not_lt_zero _)
        | succ fuel =>
          cases next with
          | nil =>
            simp only [parseItems, same, ok_bind, skipped]
            rfl
          | cons byte next =>
            have other : byte ≠ comma := fun same => isComma ⟨next, same ▸ rfl⟩
            simp only [parseItems, same, ok_bind, skipped, List.cons_append, byteAt_zero, other,
              if_false]
            rfl

theorem list_confined {opening closing : UInt8} (opens : opening ≠ 0) (closes : closing ≠ 0)
    (items : ∀ text, text.length < size → SafeText text → Confined parseItem text)
    {text : List UInt8} (inside : text.length ≤ size) (safe : SafeText text) :
    Confined (fun index => parseList (parseItem index) opening closing) text := by
  cases text with
  | nil =>
    refine .failed [] (List.suffix_refl _) ?_
    intro index behind
    simp only [List.nil_append, parseList, byteAt_zero, ok_bind, ne_eq, opens.symm,
      not_false_eq_true, if_true]
    rfl
  | cons first rest =>
    by_cases isOpening : first = opening
    · subst isOpening
      obtain ⟨start, within, skipped⟩ := skip_text rest
      have front := within.trans (List.suffix_cons first rest)
      have shorter : start.length < size :=
        Nat.lt_of_le_of_lt within.length_le (Nat.lt_of_succ_le inside)
      have entered : ∀ index behind,
          parseList (parseItem index) first closing (first :: rest ++ 0 :: behind) = (do
            if (← byteAt (start ++ 0 :: behind) 0) = closing then
              pure ([], (start ++ 0 :: behind).drop 1)
            else
              let found ← parseItems (parseItem index) (start ++ 0 :: behind).length
                (start ++ 0 :: behind)
              if (← byteAt found.2 0) = closing then pure (found.1, found.2.drop 1)
              else throw (.failed found.2)) := by
        intro index behind
        simp only [List.cons_append, parseList, byteAt_zero, ok_bind, ne_eq, not_true_eq_false,
          if_false, List.drop_succ_cons, List.drop_zero, skipped]
      by_cases empty : ∃ after, start = closing :: after
      · obtain ⟨after, rfl⟩ := empty
        refine .parsed [] after ((List.suffix_cons closing after).trans front) ?_
        intro index behind
        rw [entered]
        simp only [List.cons_append, byteAt_zero, ok_bind, if_true]
        rfl
      · have walked : ∀ index behind,
            parseList (parseItem index) first closing (first :: rest ++ 0 :: behind) = (do
              let found ← parseItems (parseItem index) (start ++ 0 :: behind).length
                (start ++ 0 :: behind)
              if (← byteAt found.2 0) = closing then pure (found.1, found.2.drop 1)
              else throw (.failed found.2)) := by
          intro index behind
          rw [entered]
          cases start with
          | nil =>
            simp only [List.nil_append, byteAt_zero, ok_bind, closes.symm, if_false]
          | cons byte start =>
            have other : byte ≠ closing := fun same => empty ⟨start, same ▸ rfl⟩
            simp only [List.cons_append, byteAt_zero, ok_bind, other, if_false]
        have rounds : ∀ behind, start.length < (start ++ 0 :: behind).length := by
          intro behind
          rw [List.length_append, List.length_cons]
          omega
        obtain ⟨found, rest', within', parsed⟩ | ⟨ep, within', failed⟩ :=
          items_confined (fun text inside' => items text (Nat.lt_of_le_of_lt inside' shorter))
            (Nat.le_refl start.length) (safe.of_suffix front)
        · cases rest' with
          | nil =>
            refine .failed [] (within'.trans front) ?_
            intro index behind
            rw [walked, parsed index behind _ (rounds behind)]
            simp only [ok_bind, List.nil_append, byteAt_zero, closes.symm, if_false]
            rfl
          | cons byte rest' =>
            by_cases isClosing : byte = closing
            · subst isClosing
              refine .parsed found rest' ((List.suffix_cons byte rest').trans (within'.trans front)) ?_
              intro index behind
              rw [walked, parsed index behind _ (rounds behind)]
              simp only [ok_bind, List.cons_append, byteAt_zero, if_true]
              rfl
            · refine .failed (byte :: rest') (within'.trans front) ?_
              intro index behind
              rw [walked, parsed index behind _ (rounds behind)]
              simp only [ok_bind, List.cons_append, byteAt_zero, isClosing, if_false]
              rfl
        · refine .failed ep (within'.trans front) ?_
          intro index behind
          rw [walked, failed index behind _ (rounds behind)]
          rfl
    · refine .failed (first :: rest) (List.suffix_refl _) ?_
      intro index behind
      simp only [List.cons_append, parseList, byteAt_zero, ok_bind, ne_eq, isOpening,
        not_false_eq_true, if_true]
      rfl

end Lists

/-! ## Values -/

section Values

variable {ι D : Type} {parse : ι → Parser (CJson D)} {size : Nat}

theorem element_confined
    (values : ∀ text, text.length < size → SafeText text → Confined parse text) (text : List UInt8)
    (inside : text.length < size) (safe : SafeText text) :
    Confined (fun index => parseElement (parse index)) text := by
  obtain ⟨rest, within, skipped⟩ := skip_text text
  have value := values rest (Nat.lt_of_le_of_lt within.length_le inside) (safe.of_suffix within)
  apply value.of_rest within
  intro index behind
  refine ⟨index, ?_⟩
  rw [parseElement, skipped]
  rfl

theorem member_confined
    (values : ∀ text, text.length < size → SafeText text → Confined parse text) (text : List UInt8)
    (inside : text.length < size) (safe : SafeText text) :
    Confined (fun index => parseMember (parse index)) text := by
  obtain ⟨start, within, skipped⟩ := skip_text text
  cases @string_confined ι _ (safe.of_suffix within) with
  | failed ep within' failed =>
    refine .failed ep (within'.trans within) ?_
    intro index behind
    rw [parseMember, skipped, ok_bind, failed index]
    rfl
  | parsed name rest within' parsed =>
    obtain ⟨next, within'', skipped'⟩ := skip_text rest
    have front := within''.trans (within'.trans within)
    by_cases isColon : ∃ next', next = colon :: next'
    · obtain ⟨next, rfl⟩ := isColon
      obtain ⟨atValue, behindColon, skipped''⟩ := skip_text next
      have further := behindColon.trans ((List.suffix_cons colon next).trans front)
      have value := values atValue (Nat.lt_of_le_of_lt further.length_le inside)
        (safe.of_suffix further)
      apply (value.map fun item => (name, item)).of_rest further
      intro index behind
      refine ⟨index, ?_⟩
      simp only [parseMember, skipped, ok_bind, parsed index, skipped', List.cons_append, byteAt_zero,
        ne_eq, not_true_eq_false, if_false, List.drop_succ_cons, List.drop_zero, skipped'']
      cases parse index (atValue ++ 0 :: behind) <;> rfl
    · refine .failed next front ?_
      intro index behind
      have stops : ∃ byte tail, next ++ 0 :: behind = byte :: tail ∧ byte ≠ colon := by
        cases next with
        | nil => exact ⟨0, behind, rfl, by decide⟩
        | cons byte next =>
          exact ⟨byte, next ++ 0 :: behind, rfl, fun same => isColon ⟨next, same ▸ rfl⟩⟩
      obtain ⟨byte, tail, split, other⟩ := stops
      simp only [parseMember, skipped, ok_bind, parsed index, skipped', split, byteAt_zero, ne_eq,
        other, not_false_eq_true, if_true]
      rfl

/-- How deep the calls may be nested does not matter, as long as that is deeper than `size`. -/
theorem value_confined (doubles : Doubles D) (size : Nat) (text : List UInt8)
    (inside : text.length < size) (safe : SafeText text) :
    Confined (fun extra => parseValue doubles (size + extra)) text := by
  induction size generalizing text with
  | zero => exact absurd inside (Nat.not_lt_zero _)
  | succ size inductionHypothesis =>
    have nested : ∀ extra, size + 1 + extra = size + extra + 1 := fun extra => by omega
    simp only [nested]
    obtain ⟨rest, rfl⟩ | notNull := startsWith_text (show 0 ∉ wordNull by decide) text
    · exact .parsed .null rest (List.suffix_append _ _) fun index behind => by rfl
    obtain ⟨rest, rfl⟩ | notFalse := startsWith_text (show 0 ∉ wordFalse by decide) text
    · exact .parsed (.bool false) rest (List.suffix_append _ _) fun index behind => by rfl
    obtain ⟨rest, rfl⟩ | notTrue := startsWith_text (show 0 ∉ wordTrue by decide) text
    · exact .parsed (.bool true) rest (List.suffix_append _ _) fun index behind => by rfl
    have byFirst : ∀ extra behind, parseValue doubles (size + extra + 1) (text ++ 0 :: behind) = (do
        let first ← byteAt (text ++ 0 :: behind) 0
        if first = quote then
          let found ← parseString (text ++ 0 :: behind)
          pure (.string found.1, found.2)
        else if first = minus ∨ IsDigit first then
          let found ← parseNumber doubles (text ++ 0 :: behind)
          pure (.number found.1, found.2)
        else if first = openBracket then
          parseArray (parseValue doubles (size + extra)) (text ++ 0 :: behind)
        else if first = openBrace then
          parseObject (parseValue doubles (size + extra)) (text ++ 0 :: behind)
        else throw (.failed (text ++ 0 :: behind))) := by
      intro extra behind
      rw [parseValue, notNull, ok_bind, if_neg Bool.false_ne_true, notFalse, ok_bind,
        if_neg Bool.false_ne_true, notTrue, ok_bind, if_neg Bool.false_ne_true]
    cases text with
    | nil =>
      refine .failed [] (List.suffix_refl _) ?_
      intro extra behind
      rw [byFirst]
      rfl
    | cons first rest =>
      by_cases isQuote : first = quote
      · apply ((string_confined safe).map JsonTree.string).of_rest (List.suffix_refl _)
        intro extra behind
        refine ⟨extra, ?_⟩
        rw [byFirst, List.cons_append, byteAt_zero, ok_bind, if_pos isQuote]
        cases parseString (first :: (rest ++ 0 :: behind)) <;> rfl
      · by_cases leads : first = minus ∨ IsDigit first
        · apply ((number_confined doubles (first :: rest)).map JsonTree.number).of_rest
            (List.suffix_refl _)
          intro extra behind
          refine ⟨extra, ?_⟩
          rw [byFirst, List.cons_append, byteAt_zero, ok_bind, if_neg isQuote, if_pos leads]
          cases parseNumber doubles (first :: (rest ++ 0 :: behind)) <;> rfl
        · by_cases isBracket : first = openBracket
          · have items := list_confined (show openBracket ≠ 0 by decide)
              (show closeBracket ≠ 0 by decide) (element_confined inductionHypothesis)
              (Nat.le_of_lt_succ inside) safe
            apply (items.map JsonTree.array).of_rest (List.suffix_refl _)
            intro extra behind
            refine ⟨extra, ?_⟩
            rw [byFirst, List.cons_append, byteAt_zero, ok_bind, if_neg isQuote, if_neg leads,
              if_pos isBracket, parseArray]
            cases parseList (parseElement (parseValue doubles (size + extra))) openBracket closeBracket
              (first :: (rest ++ 0 :: behind)) <;> rfl
          · by_cases isBrace : first = openBrace
            · have members := list_confined (show openBrace ≠ 0 by decide)
                (show closeBrace ≠ 0 by decide) (member_confined inductionHypothesis)
                (Nat.le_of_lt_succ inside) safe
              apply (members.map JsonTree.object).of_rest (List.suffix_refl _)
              intro extra behind
              refine ⟨extra, ?_⟩
              rw [byFirst, List.cons_append, byteAt_zero, ok_bind, if_neg isQuote, if_neg leads,
                if_neg isBracket, if_pos isBrace, parseObject]
              cases parseList (parseMember (parseValue doubles (size + extra))) openBrace closeBrace
                (first :: (rest ++ 0 :: behind)) <;> rfl
            · refine .failed (first :: rest) (List.suffix_refl _) ?_
              intro extra behind
              rw [byFirst, List.cons_append, byteAt_zero, ok_bind, if_neg isQuote, if_neg leads,
                if_neg isBracket, if_neg isBrace]
              rfl

/-- `cJSON_Parse` and its sibling never leave a text that does not end in a backslash: they return an
item or the error pointer, both inside the text, and neither depends on what lies behind the
terminator. -/
theorem parse_inside (doubles : Doubles D) (requireNullTerminated : Bool) {text : List UInt8}
    (safe : SafeText text) :
    Confined (fun _ : Unit => fun memory => cJSONParseWithOpts doubles memory requireNullTerminated)
      text := by
  obtain ⟨start, within, skipped⟩ := skip_text text
  have inside : start.length < text.length + 1 := Nat.lt_succ_of_le within.length_le
  have depth : ∀ behind : List UInt8,
      (text ++ 0 :: behind).length + 1 = text.length + 1 + (behind.length + 1) := by
    intro behind
    rw [List.length_append, List.length_cons]
    omega
  cases value_confined doubles (text.length + 1) start inside (safe.of_suffix within) with
  | failed ep within' failed =>
    refine .failed ep (within'.trans within) ?_
    intro _ behind
    rw [cJSONParseWithOpts, skipped, ok_bind, depth, failed]
    rfl
  | parsed c rest within' parsed =>
    have front := within'.trans within
    cases requireNullTerminated with
    | false =>
      refine .parsed c rest front ?_
      intro _ behind
      rw [cJSONParseWithOpts, skipped, ok_bind, depth, parsed]
      rfl
    | true =>
      obtain ⟨last, within'', skipped'⟩ := skip_text rest
      have further := within''.trans front
      cases last with
      | nil =>
        refine .parsed c [] further ?_
        intro _ behind
        rw [cJSONParseWithOpts, skipped, ok_bind, depth, parsed]
        simp only [ok_bind, if_true, skipped']
        rfl
      | cons byte last =>
        refine .failed (byte :: last) further ?_
        have visible : byte ≠ 0 :=
          fun zero => safe.nulFree (further.subset (zero ▸ List.mem_cons_self))
        intro _ behind
        rw [cJSONParseWithOpts, skipped, ok_bind, depth, parsed]
        simp only [ok_bind, if_true, skipped', List.cons_append, byteAt_zero, ne_eq, visible,
          not_false_eq_true]
        rfl

end Values

/-! ## Open strings -/

/-- What the first loop of `parse_string` goes over. -/
inductive Passed : List UInt8 → Prop where
  | nil : Passed []
  | plain {byte : UInt8} {rest : List UInt8} (proper : IsPlain byte) (others : Passed rest) :
      Passed (byte :: rest)
  | escaped (byte : UInt8) {rest : List UInt8} (others : Passed rest) :
      Passed (backslash :: byte :: rest)

theorem scanString_passed {front : List UInt8} (passed : Passed front) (rest : List UInt8) :
    ∃ len, scanString (front ++ rest) = (scanString rest).map fun found =>
      (found.1 + front.length, found.2 + len) := by
  induction passed with
  | nil =>
    refine ⟨0, ?_⟩
    rw [List.nil_append]
    cases scanString rest <;> rfl
  | plain proper others inductionHypothesis =>
    obtain ⟨len, goesOver⟩ := inductionHypothesis
    refine ⟨len + 1, ?_⟩
    rw [List.cons_append, scanString_plain proper, goesOver]
    cases scanString rest <;> rfl
  | escaped byte others inductionHypothesis =>
    obtain ⟨len, goesOver⟩ := inductionHypothesis
    refine ⟨len + 1, ?_⟩
    rw [List.cons_append, List.cons_append, scanString_escaped, goesOver]
    cases scanString rest <;> rfl

/-- A string whose text ends is open at a backslash, or its end is found at the terminator. -/
theorem scan_cases {ptr : List UInt8} (nulFree : 0 ∉ ptr) :
    (∃ front, Passed front ∧ ptr = front ++ [backslash]) ∨
      ∃ found, ∀ behind, scanString (ptr ++ 0 :: behind) = .ok found := by
  induction length : ptr.length using Nat.strongRecOn generalizing ptr with
  | ind size inductionHypothesis =>
    subst length
    cases ptr with
    | nil => exact .inr ⟨(0, 0), fun behind => scanString_stop (.inr rfl) behind⟩
    | cons byte rest =>
      rw [List.mem_cons, not_or] at nulFree
      by_cases isQuote : byte = quote
      · subst isQuote
        exact .inr ⟨(0, 0), fun behind => scanString_stop (.inl rfl) _⟩
      · by_cases escapes : byte = backslash
        · subst escapes
          cases rest with
          | nil => exact .inl ⟨[], .nil, rfl⟩
          | cons escape rest =>
            have visible : 0 ∉ rest := fun member => nulFree.2 (List.mem_cons_of_mem _ member)
            obtain ⟨front, passed, rfl⟩ | ⟨found, scanned⟩ :=
              inductionHypothesis rest.length (by simp only [List.length_cons]; omega) visible rfl
            · exact .inl ⟨backslash :: escape :: front, .escaped escape passed, rfl⟩
            · refine .inr ⟨(found.1 + 2, found.2 + 1), ?_⟩
              intro behind
              have step := scanString_escaped escape (rest ++ 0 :: behind)
              rw [scanned] at step
              exact step
        · have plain : IsPlain byte := ⟨isQuote, fun zero => nulFree.1 zero.symm, escapes⟩
          obtain ⟨front, passed, rfl⟩ | ⟨found, scanned⟩ :=
            inductionHypothesis rest.length (Nat.lt_succ_self _) nulFree.2 rfl
          · exact .inl ⟨byte :: front, .plain plain passed, rfl⟩
          · refine .inr ⟨(found.1 + 1, found.2 + 1), ?_⟩
            intro behind
            have step := scanString_plain plain (rest ++ 0 :: behind)
            rw [scanned] at step
            exact step

/-- The text of one string makes `cJSON_Parse` leave it exactly when it ends in a backslash that
nothing escapes before the string is closed: `end_ptr` goes past the terminator. -/
theorem string_leaves_iff {D : Type} (doubles : Doubles D) {blank ptr : List UInt8}
    (isBlank : Blank blank) (nulFree : 0 ∉ ptr) :
    cJSONParseWithOpts doubles (blank ++ quote :: (ptr ++ [0])) false =
        .error (.fault .readOutOfBounds) ↔
      ∃ front, Passed front ∧ ptr = front ++ [backslash] := by
  have parsed : cJSONParseWithOpts doubles (blank ++ quote :: (ptr ++ [0])) false =
      (parseString (quote :: (ptr ++ [0]))).map fun found => (.string found.1, found.2) := by
    rw [cJSONParseWithOpts, skip_append isBlank (by decide), ok_bind,
      parseValue_other _ _ _ (by decide) (by decide) (by decide), if_pos rfl]
    cases parseString (quote :: (ptr ++ [0])) <;> rfl
  rw [parsed]
  constructor
  · intro leaves
    obtain opened | ⟨found, scanned⟩ := scan_cases nulFree
    · exact opened
    · obtain ⟨units, after, reads⟩ | failed := parseString_cases (scanned [])
      · rw [parseString_of_reads reads] at leaves
        cases leaves
      · rw [failed] at leaves
        cases leaves
  · rintro ⟨front, passed, rfl⟩
    obtain ⟨len, goesOver⟩ := scanString_passed passed [backslash, 0]
    have leaves : scanString (front ++ [backslash, 0]) = .error (.fault .readOutOfBounds) := by
      rw [goesOver, scanString_escaped]
      rfl
    rw [List.append_assoc, List.singleton_append]
    simp only [parseString, byteAt_zero, ok_bind, ne_eq, not_true_eq_false, if_false,
      List.drop_succ_cons, List.drop_zero, leaves]
    rfl

theorem parse_inside_rows :
    Confined (fun _ : Unit => fun memory => cJSONParseWithOpts exactDoubles memory false) rowsText :=
  parse_inside exactDoubles false ⟨by decide, by decide⟩

/-- The text of a quote, a letter and a backslash is left. -/
theorem string_leaves_backslash :
    cJSONParseWithOpts exactDoubles [34, 97, 92, 0] false = .error (.fault .readOutOfBounds) :=
  (@string_leaves_iff ℚ exactDoubles [] [97, 92] (by simp [Blank]) (by decide)).mpr
    ⟨[97], .plain (by decide) .nil, rfl⟩

end ServalRpc.Verified.JsonMemory
