import Mathlib.Data.List.Induction
import Mathlib.Tactic.Ring
import ServalRpc.Verified.JsonStrings

/-! # The numbers of the parser

`parse_number` takes the literal that it is at, as far as it goes, and computes with `double`s what
the digits of the literal say.
-/

namespace ServalRpc.Verified.JsonNumbers

open CLib JsonFormat JsonStrings

/-! ## The parts of a number -/

/-- The digits are taken as far as they go. -/
theorem readDigits_append {σ : Type} (digit : σ → UInt8 → σ) (state : σ) {digits : List UInt8}
    (areDigits : ∀ byte ∈ digits, IsDigit byte) {rest : List UInt8} (goesOn : rest ≠ [])
    (ends : ∀ byte ∈ rest.head?, ¬ IsDigit byte) :
    readDigits digit state (digits ++ rest) = .ok (digits.foldl digit state, rest) := by
  induction digits generalizing state with
  | nil =>
    cases rest with
    | nil => exact absurd rfl goesOn
    | cons byte rest =>
      rw [List.nil_append, readDigits, if_neg (ends byte rfl)]
      rfl
  | cons byte digits inductionHypothesis =>
    rw [List.forall_mem_cons] at areDigits
    rw [List.cons_append, readDigits, if_pos areDigits.1, inductionHypothesis _ areDigits.2]
    rfl

theorem readDigits_ok {σ : Type} {digit : σ → UInt8 → σ} {state state' : σ} {num rest : List UInt8}
    (read : readDigits digit state num = .ok (state', rest)) :
    ∃ digits, (∀ byte ∈ digits, IsDigit byte) ∧ num = digits ++ rest ∧
      state' = digits.foldl digit state ∧ rest ≠ [] ∧ ∀ byte ∈ rest.head?, ¬ IsDigit byte := by
  induction num generalizing state with
  | nil => cases read
  | cons byte num inductionHypothesis =>
    by_cases isDigit : IsDigit byte
    · rw [readDigits, if_pos isDigit] at read
      obtain ⟨digits, areDigits, rfl, rfl, goesOn, ends⟩ := inductionHypothesis read
      refine ⟨byte :: digits, ?_, rfl, rfl, goesOn, ends⟩
      rw [List.forall_mem_cons]
      exact ⟨isDigit, areDigits⟩
    · rw [readDigits, if_neg isDigit] at read
      cases read
      refine ⟨[], by simp, rfl, rfl, List.cons_ne_nil _ _, ?_⟩
      intro first isFirst
      obtain rfl := Option.some.inj isFirst
      exact isDigit

theorem optionalByte_present (byte : UInt8) (rest : List UInt8) :
    optionalByte byte (byte :: rest) = .ok (true, rest) := by
  simp only [optionalByte, byteAt_zero, ok_bind, if_true]
  rfl

theorem optionalByte_absent {byte : UInt8} {rest : List UInt8} (goesOn : rest ≠ [])
    (other : ∀ first ∈ rest.head?, first ≠ byte) :
    optionalByte byte rest = .ok (false, rest) := by
  cases rest with
  | nil => exact absurd rfl goesOn
  | cons first rest =>
    simp only [optionalByte, byteAt_zero, ok_bind, other first rfl, if_false]
    rfl

theorem optionalByte_ok {byte : UInt8} {num rest : List UInt8} {present : Bool}
    (read : optionalByte byte num = .ok (present, rest)) :
    num = (if present then [byte] else []) ++ rest ∧
      (present = false → ∀ first ∈ rest.head?, first ≠ byte) := by
  cases num with
  | nil => cases read
  | cons first num =>
    by_cases same : first = byte
    · subst same
      rw [optionalByte_present] at read
      cases read
      exact ⟨rfl, fun absent => nomatch absent⟩
    · have other : ∀ head ∈ (first :: num).head?, head ≠ byte := by
        intro head isFirst
        obtain rfl := Option.some.inj isFirst
        exact same
      rw [optionalByte_absent (List.cons_ne_nil _ _) other] at read
      cases read
      exact ⟨rfl, fun _ => other⟩

/-- A digit that may stand first. -/
theorem isDigit_iff_leads {byte : UInt8} :
    IsDigit byte ∧ byte ≠ 48 ↔ 49 ≤ byte ∧ byte ≤ 57 := by
  unfold IsDigit
  constructor
  · rintro ⟨⟨least, most⟩, notZero⟩
    refine ⟨?_, most⟩
    grind
  · rintro ⟨least, most⟩
    refine ⟨⟨?_, most⟩, ?_⟩ <;> grind

section Doubles

variable {D : Type} (doubles : Doubles D)

/-- `n` behind the whole digits. -/
def wholeValue (digits : List UInt8) : D := digits.foldl (wholeDigit doubles) (doubles.ofInt 0)

theorem parseWhole_append {whole rest : List UInt8} (digits : ∀ byte ∈ whole, IsDigit byte)
    (head : whole.head? ≠ some 48) (goesOn : rest ≠ [])
    (ends : if whole ≠ [] then ∀ byte ∈ rest.head?, ¬ IsDigit byte
      else ∀ byte ∈ rest.head?, IsDigit byte → byte = 48) :
    parseWhole doubles (whole ++ rest) = .ok (wholeValue doubles whole, rest) := by
  cases whole with
  | nil =>
    cases rest with
    | nil => exact absurd rfl goesOn
    | cons byte rest =>
      have notLeading : ¬ (49 ≤ byte ∧ byte ≤ 57) := by
        intro leads
        obtain ⟨isDigit, notZero⟩ := isDigit_iff_leads.mpr leads
        exact notZero (ends byte rfl isDigit)
      simp only [List.nil_append, parseWhole, byteAt_zero, ok_bind, notLeading, if_false]
      rfl
  | cons first whole =>
    have leads : 49 ≤ first ∧ first ≤ 57 := by
      apply isDigit_iff_leads.mp
      exact ⟨digits first List.mem_cons_self, fun zero => head (congrArg some zero)⟩
    rw [if_pos (List.cons_ne_nil _ _)] at ends
    have read := readDigits_append (wholeDigit doubles) (doubles.ofInt 0) digits goesOn ends
    simp only [List.cons_append, parseWhole, byteAt_zero, ok_bind, leads, and_self, if_true]
    exact read

theorem parseWhole_ok {num rest : List UInt8} {n : D}
    (read : parseWhole doubles num = .ok (n, rest)) :
    ∃ whole, (∀ byte ∈ whole, IsDigit byte) ∧ whole.head? ≠ some 48 ∧ num = whole ++ rest ∧
      n = wholeValue doubles whole ∧ rest ≠ [] ∧
      if whole ≠ [] then ∀ byte ∈ rest.head?, ¬ IsDigit byte
      else ∀ byte ∈ rest.head?, IsDigit byte → byte = 48 := by
  cases num with
  | nil => cases read
  | cons first num =>
    by_cases leads : 49 ≤ first ∧ first ≤ 57
    · obtain ⟨isDigit, notZero⟩ := isDigit_iff_leads.mpr leads
      simp only [parseWhole, byteAt_zero, ok_bind, leads, and_self, if_true] at read
      obtain ⟨whole, digits, split, same, goesOn, ends⟩ := readDigits_ok read
      cases whole with
      | nil =>
        cases split
        exact absurd isDigit (ends first rfl)
      | cons byte whole =>
        obtain ⟨rfl, rfl⟩ := List.cons.inj split
        refine ⟨first :: whole, digits, ?_, rfl, same, goesOn, ?_⟩
        · exact fun zero => notZero (Option.some.inj zero)
        · rwa [if_pos (List.cons_ne_nil _ _)]
    · simp only [parseWhole, byteAt_zero, ok_bind, leads, if_false] at read
      cases read
      refine ⟨[], by simp, by simp, rfl, rfl, List.cons_ne_nil _ _, ?_⟩
      intro byte isFirst isDigit
      obtain rfl := Option.some.inj isFirst
      by_contra notZero
      exact leads (isDigit_iff_leads.mp ⟨isDigit, notZero⟩)

/-- `n` and `scale` behind the digits of the fraction. -/
def fractionValue (n : D) (digits : List UInt8) : D × D :=
  digits.foldl (fractionDigit doubles) (n, doubles.ofInt 0)

theorem atFraction_cons {byte : UInt8} (rest : List UInt8) (other : byte ≠ point) :
    atFraction (byte :: rest) = .ok false := by
  simp only [atFraction, byteAt_zero, ok_bind, other, if_false]
  rfl

theorem atFraction_point (digit : UInt8) (rest : List UInt8) :
    atFraction (point :: digit :: rest) = .ok (decide (IsDigit digit)) := by
  simp only [atFraction, byteAt_zero, byteAt_succ, ok_bind, if_true]
  rfl

/-- There is no fraction here. -/
theorem atFraction_absent {rest : List UInt8} (stops : Stops rest)
    (ends : ∀ digit rest', rest = point :: digit :: rest' → ¬ IsDigit digit) :
    atFraction rest = .ok false := by
  cases rest with
  | nil => exact absurd rfl stops.1
  | cons byte rest =>
    by_cases isPoint : byte = point
    · subst isPoint
      cases rest with
      | nil => exact absurd rfl stops.2
      | cons digit rest =>
        rw [atFraction_point, decide_eq_false (ends digit rest rfl)]
    · exact atFraction_cons rest isPoint

theorem atFraction_ok {num : List UInt8} {present : Bool} (looked : atFraction num = .ok present) :
    (present = true ∧ ∃ digit rest, num = point :: digit :: rest ∧ IsDigit digit) ∨
      present = false ∧ num ≠ [] ∧
        ∀ digit rest, num = point :: digit :: rest → ¬ IsDigit digit := by
  cases num with
  | nil => cases looked
  | cons byte rest =>
    by_cases isPoint : byte = point
    · subst isPoint
      cases rest with
      | nil => cases looked
      | cons digit rest =>
        rw [atFraction_point] at looked
        by_cases isDigit : IsDigit digit
        · rw [decide_eq_true isDigit] at looked
          cases looked
          exact .inl ⟨rfl, digit, rest, rfl, isDigit⟩
        · rw [decide_eq_false isDigit] at looked
          cases looked
          refine .inr ⟨rfl, List.cons_ne_nil _ _, ?_⟩
          rintro digit' rest' ⟨⟩
          exact isDigit
    · rw [atFraction_cons rest isPoint] at looked
      cases looked
      refine .inr ⟨rfl, List.cons_ne_nil _ _, ?_⟩
      rintro digit' rest' ⟨⟩
      exact absurd rfl isPoint

theorem parseFraction_append (n : D) {fraction rest : List UInt8}
    (digits : ∀ byte ∈ fraction, IsDigit byte) (stops : Stops rest)
    (ends : if fraction ≠ [] then ∀ byte ∈ rest.head?, ¬ IsDigit byte
      else ∀ digit rest', rest = point :: digit :: rest' → ¬ IsDigit digit) :
    parseFraction doubles n ((if fraction = [] then [] else point :: fraction) ++ rest) =
      .ok (fractionValue doubles n fraction, rest) := by
  cases fraction with
  | nil =>
    rw [if_pos rfl, List.nil_append, parseFraction, atFraction_absent stops ends]
    rfl
  | cons first fraction =>
    rw [if_pos (List.cons_ne_nil _ _)] at ends
    have read := readDigits_append (fractionDigit doubles) (n, doubles.ofInt 0) digits
      stops.1 ends
    rw [if_neg (List.cons_ne_nil _ _), List.cons_append, parseFraction]
    rw [List.cons_append, atFraction_point, decide_eq_true (digits first List.mem_cons_self)]
    exact read

theorem parseFraction_ok {n : D} {num rest : List UInt8} {state : D × D}
    (read : parseFraction doubles n num = .ok (state, rest)) :
    ∃ fraction, (∀ byte ∈ fraction, IsDigit byte) ∧
      num = (if fraction = [] then [] else point :: fraction) ++ rest ∧
      state = fractionValue doubles n fraction ∧ rest ≠ [] ∧
      if fraction ≠ [] then ∀ byte ∈ rest.head?, ¬ IsDigit byte
      else ∀ digit rest', rest = point :: digit :: rest' → ¬ IsDigit digit := by
  obtain ⟨present, looked, read⟩ := bind_eq_ok_iff.mp read
  obtain ⟨rfl, digit, rest', rfl, isDigit⟩ | ⟨rfl, goesOn, ends⟩ := atFraction_ok looked
  · obtain ⟨fraction, digits, split, same, goesOn, ends⟩ := readDigits_ok read
    cases fraction with
    | nil =>
      cases split
      exact absurd isDigit (ends digit rfl)
    | cons byte fraction =>
      refine ⟨byte :: fraction, digits, ?_, same, goesOn, ?_⟩
      · rw [if_neg (List.cons_ne_nil _ _), List.cons_append]
        exact congrArg (point :: ·) split
      · rwa [if_pos (List.cons_ne_nil _ _)]
  · cases read
    exact ⟨[], by simp, rfl, rfl, goesOn, ends⟩

end Doubles

/-! ## The exponent -/

/-- `subscale * signsubscale`. -/
def exponentValue (exponent : Exponent) : Int :=
  intOf (exponent.digits.foldl subscaleDigit 0 * if exponent.sign = [minus] then -1 else 1)

/-- What follows does not go on with the exponent. -/
def ExponentEnds (exponent : Exponent) (after : List UInt8) : Prop :=
  (∀ byte ∈ after.head?, ¬ IsDigit byte) ∧
  (exponent.sign = [] → exponent.digits = [] → ∀ byte ∈ after.head?, byte ≠ plus ∧ byte ≠ minus)

theorem parseExponentSign_ok {num rest : List UInt8} {signsubscale : Int}
    (read : parseExponentSign num = .ok (signsubscale, rest)) :
    ∃ sign, (sign = [] ∨ sign = [plus] ∨ sign = [minus]) ∧ num = sign ++ rest ∧
      signsubscale = (if sign = [minus] then -1 else 1) ∧
      (sign = [] → ∀ byte ∈ rest.head?, byte ≠ plus ∧ byte ≠ minus) := by
  cases num with
  | nil => cases read
  | cons byte num =>
    by_cases isPlus : byte = plus
    · subst isPlus
      cases read
      exact ⟨[plus], .inr (.inl rfl), rfl, rfl, fun none => nomatch none⟩
    · by_cases isMinus : byte = minus
      · subst isMinus
        cases read
        exact ⟨[minus], .inr (.inr rfl), rfl, rfl, fun none => nomatch none⟩
      · simp only [parseExponentSign, byteAt_zero, ok_bind, isPlus, isMinus, if_false] at read
        cases read
        refine ⟨[], .inl rfl, rfl, rfl, ?_⟩
        intro _ first isFirst
        obtain rfl := Option.some.inj isFirst
        exact ⟨isPlus, isMinus⟩

theorem parseExponentSign_append {sign rest : List UInt8}
    (isSign : sign = [] ∨ sign = [plus] ∨ sign = [minus]) (goesOn : rest ≠ [])
    (ends : sign = [] → ∀ byte ∈ rest.head?, byte ≠ plus ∧ byte ≠ minus) :
    parseExponentSign (sign ++ rest) = .ok (if sign = [minus] then -1 else 1, rest) := by
  obtain rfl | rfl | rfl := isSign
  · cases rest with
    | nil => exact absurd rfl goesOn
    | cons byte rest =>
      obtain ⟨isPlus, isMinus⟩ := ends rfl byte rfl
      simp only [List.nil_append, parseExponentSign, byteAt_zero, ok_bind, isPlus, isMinus,
        if_false]
      rfl
  · rfl
  · rfl

theorem parseExponent_append (exponent : Exponent) {rest : List UInt8} (goesOn : rest ≠ [])
    (ends : ExponentEnds exponent rest) :
    parseExponent (exponent.text ++ rest) = .ok (exponentValue exponent, rest) := by
  have letter : exponent.letter = 101 ∨ exponent.letter = 69 := exponent.isLetter
  have sign := @parseExponentSign_append exponent.sign (exponent.digits ++ rest) exponent.isSign
    (List.append_ne_nil_of_right_ne_nil _ goesOn) (by
      intro none byte isFirst
      cases digits : exponent.digits with
      | nil =>
        rw [digits] at isFirst
        exact ends.2 none digits byte isFirst
      | cons digit digits' =>
        rw [digits] at isFirst
        obtain rfl := Option.some.inj isFirst
        have isDigit := exponent.areDigits digit (digits ▸ List.mem_cons_self)
        constructor
        · rintro rfl
          exact absurd isDigit (by decide)
        · rintro rfl
          exact absurd isDigit (by decide))
  have digits := readDigits_append subscaleDigit 0 exponent.areDigits goesOn ends.1
  simp only [Exponent.text, List.cons_append, List.append_assoc, parseExponent, byteAt_zero,
    ok_bind, letter, if_true, List.drop_succ_cons, List.drop_zero, sign, digits]
  rfl

theorem parseExponent_absent {rest : List UInt8} (goesOn : rest ≠ [])
    (ends : ∀ byte ∈ rest.head?, byte ≠ 101 ∧ byte ≠ 69) :
    parseExponent rest = .ok (0, rest) := by
  cases rest with
  | nil => exact absurd rfl goesOn
  | cons byte rest =>
    obtain ⟨notLower, notUpper⟩ := ends byte rfl
    simp only [parseExponent, byteAt_zero, ok_bind, notLower, notUpper, or_self, if_false]
    rfl

theorem parseExponent_ok {num rest : List UInt8} {value : Int}
    (read : parseExponent num = .ok (value, rest)) : rest ≠ [] ∧
    ((∃ exponent : Exponent, num = exponent.text ++ rest ∧ value = exponentValue exponent ∧
        ExponentEnds exponent rest) ∨
      num = rest ∧ value = 0 ∧ ∀ byte ∈ rest.head?, byte ≠ 101 ∧ byte ≠ 69) := by
  cases num with
  | nil => cases read
  | cons letter num =>
    by_cases isLetter : letter = 101 ∨ letter = 69
    · simp only [parseExponent, byteAt_zero, ok_bind, isLetter, if_true, List.drop_succ_cons,
        List.drop_zero] at read
      obtain ⟨⟨signsubscale, num'⟩, signed, read⟩ := bind_eq_ok_iff.mp read
      obtain ⟨⟨subscale, num''⟩, digitsRead, read⟩ := bind_eq_ok_iff.mp read
      cases read
      obtain ⟨sign, isSign, rfl, rfl, notSign⟩ := parseExponentSign_ok signed
      obtain ⟨digits, areDigits, rfl, rfl, goesOn, ends⟩ := readDigits_ok digitsRead
      refine ⟨goesOn, .inl ⟨⟨letter, sign, digits, isLetter, isSign, areDigits⟩, ?_, rfl, ends, ?_⟩⟩
      · simp [Exponent.text]
      · intro none noDigits
        have atRest := notSign none
        rwa [show digits = [] from noDigits] at atRest
    · simp only [parseExponent, byteAt_zero, ok_bind, isLetter, if_false] at read
      cases read
      refine ⟨List.cons_ne_nil _ _, .inr ⟨rfl, rfl, ?_⟩⟩
      intro first isFirst
      obtain rfl := Option.some.inj isFirst
      exact not_or.mp isLetter

/-! ## A whole number -/

/-- Where a literal ends in front of its exponent, if it has one. -/
structure EndsWhole (literal : NumberLiteral) (rest : List UInt8) : Prop where
  fraction : literal.fraction ≠ [] → ∀ byte ∈ rest.head?, ¬ IsDigit byte
  noFraction : literal.fraction = [] → ∀ digit rest', rest = point :: digit :: rest' → ¬ IsDigit digit
  whole : literal.fraction = [] → literal.whole ≠ [] → ∀ byte ∈ rest.head?, ¬ IsDigit byte
  noWhole : literal.fraction = [] → literal.whole = [] →
    ∀ byte ∈ rest.head?, IsDigit byte → byte = 48
  noZero : literal.fraction = [] → literal.whole = [] → literal.zero = false →
    ∀ byte ∈ rest.head?, byte ≠ 48

theorem endsWhole_of_ends {literal : NumberLiteral} {after : List UInt8}
    (ends : literal.Ends after) : EndsWhole literal (literal.exponentText ++ after) := by
  cases hasExponent : literal.exponent with
  | some exponent =>
    have head : (literal.exponentText ++ after).head? = some exponent.letter := by
      rw [NumberLiteral.exponentText, hasExponent]
      rfl
    have notDigit : ∀ byte ∈ (literal.exponentText ++ after).head?, ¬ IsDigit byte := by
      intro byte isFirst
      rw [head] at isFirst
      obtain rfl := Option.some.inj isFirst
      obtain isLetter | isLetter := exponent.isLetter <;>
      · rw [isLetter]
        decide
    refine ⟨fun _ => notDigit, ?_, fun _ _ => notDigit, ?_, ?_⟩
    · intro _ digit rest' split
      rw [split] at head
      have isPoint : point = exponent.letter := Option.some.inj head
      obtain isLetter | isLetter := exponent.isLetter <;>
      · rw [isLetter] at isPoint
        exact absurd isPoint (by decide)
    · intro _ _ byte isFirst isDigit
      exact absurd isDigit (notDigit byte isFirst)
    · rintro _ _ _ byte isFirst rfl
      exact notDigit 48 isFirst (by decide)
  | none =>
    have same : literal.exponentText ++ after = after := by
      rw [NumberLiteral.exponentText, hasExponent]
      rfl
    rw [same]
    simp only [NumberLiteral.Ends, hasExponent] at ends
    obtain ⟨_, ends⟩ := ends
    refine ⟨?_, ?_, ?_, ?_, ?_⟩
    · intro has
      rwa [if_pos has] at ends
    · intro none
      rw [if_neg (not_not.mpr none)] at ends
      exact ends.1
    · intro none has
      rw [if_neg (not_not.mpr none), if_pos has] at ends
      exact ends.2
    · intro none noWhole
      rw [if_neg (not_not.mpr none), if_neg (not_not.mpr noWhole)] at ends
      exact ends.2.1
    · intro none noWhole
      rw [if_neg (not_not.mpr none), if_neg (not_not.mpr noWhole)] at ends
      exact ends.2.2

theorem ends_of_endsWhole {literal : NumberLiteral} {after : List UInt8}
    (noExponent : literal.exponent = none) (ends : EndsWhole literal after)
    (notLetter : ∀ byte ∈ after.head?, byte ≠ 101 ∧ byte ≠ 69) : literal.Ends after := by
  simp only [NumberLiteral.Ends, noExponent]
  refine ⟨notLetter, ?_⟩
  by_cases hasFraction : literal.fraction ≠ []
  · rw [if_pos hasFraction]
    exact ends.fraction hasFraction
  · have none := not_not.mp hasFraction
    rw [if_neg hasFraction]
    refine ⟨ends.noFraction none, ?_⟩
    by_cases hasWhole : literal.whole ≠ []
    · rw [if_pos hasWhole]
      exact ends.whole none hasWhole
    · rw [if_neg hasWhole]
      exact ⟨ends.noWhole none (not_not.mp hasWhole), ends.noZero none (not_not.mp hasWhole)⟩

section Doubles

variable {D : Type} (doubles : Doubles D)

/-- The fields of the item for a literal. -/
def literalValue (literal : NumberLiteral) : CJsonNumber D :=
  let state := fractionValue doubles (wholeValue doubles literal.whole) literal.fraction
  scaled doubles literal.negative state.1 state.2 (literal.exponent.elim 0 exponentValue)

/-- What stands behind the whole digits does not go on with them. -/
theorem head_of_fraction {literal : NumberLiteral} {rest : List UInt8}
    (ends : EndsWhole literal rest) :
    (if literal.whole ≠ [] then ∀ byte ∈ (literal.fractionText ++ rest).head?, ¬ IsDigit byte
      else ∀ byte ∈ (literal.fractionText ++ rest).head?, IsDigit byte → byte = 48) ∧
    (literal.whole = [] → literal.zero = false →
      ∀ byte ∈ (literal.fractionText ++ rest).head?, byte ≠ 48) := by
  by_cases none : literal.fraction = []
  · rw [NumberLiteral.fractionText, if_pos none, List.nil_append]
    refine ⟨?_, ends.noZero none⟩
    split
    · rename_i hasWhole
      exact ends.whole none hasWhole
    · rename_i noWhole
      exact ends.noWhole none (not_not.mp noWhole)
  · have atPoint : ∀ byte ∈ (literal.fractionText ++ rest).head?, byte = point := by
      intro byte isFirst
      rw [NumberLiteral.fractionText, if_neg none] at isFirst
      exact (Option.some.inj isFirst).symm
    refine ⟨?_, ?_⟩
    · split
      · intro byte isFirst
        rw [atPoint byte isFirst]
        decide
      · intro byte isFirst isDigit
        rw [atPoint byte isFirst] at isDigit
        exact absurd isDigit (by decide)
    · intro _ _ byte isFirst
      rw [atPoint byte isFirst]
      decide

theorem parseNumber_append {literal : NumberLiteral} {after : List UInt8}
    (begins : literal.Begins) (ends : literal.Ends after) (stops : Stops after) :
    parseNumber doubles (literal.text ++ after) = .ok (literalValue doubles literal, after) := by
  have endsWhole := endsWhole_of_ends ends
  have behind := stops.append literal.exponentText
  have behind' := behind.append literal.fractionText
  obtain ⟨headWhole, headZero⟩ := head_of_fraction endsWhole
  have whole := parseWhole_append doubles literal.wholeDigits literal.wholeHead
    behind'.1 headWhole
  have fraction := parseFraction_append doubles (wholeValue doubles literal.whole)
    literal.fractionDigits behind (by
      split
      · rename_i hasFraction
        exact endsWhole.fraction hasFraction
      · rename_i noFraction
        exact endsWhole.noFraction (not_not.mp noFraction))
  have exponent : parseExponent (literal.exponentText ++ after) =
      .ok (literal.exponent.elim 0 exponentValue, after) := by
    cases hasExponent : literal.exponent with
    | some exponent =>
      rw [NumberLiteral.exponentText, hasExponent]
      apply parseExponent_append exponent stops.1
      simp only [NumberLiteral.Ends, hasExponent] at ends
      exact ends
    | none =>
      rw [NumberLiteral.exponentText, hasExponent]
      apply parseExponent_absent stops.1
      simp only [NumberLiteral.Ends, hasExponent] at ends
      exact ends.1
  have zero : optionalByte 48 ((if literal.zero then [48] else []) ++
      (literal.whole ++ (literal.fractionText ++ (literal.exponentText ++ after)))) =
      .ok (literal.zero,
        literal.whole ++ (literal.fractionText ++ (literal.exponentText ++ after))) := by
    cases hasZero : literal.zero with
    | true => exact optionalByte_present 48 _
    | false =>
      apply optionalByte_absent (List.append_ne_nil_of_right_ne_nil _ behind'.1)
      intro byte isFirst
      cases hasWhole : literal.whole with
      | nil =>
        rw [hasWhole] at isFirst
        exact headZero hasWhole hasZero byte isFirst
      | cons digit whole =>
        rw [hasWhole] at isFirst
        obtain rfl := Option.some.inj isFirst
        have leads := literal.wholeHead
        rw [hasWhole] at leads
        exact fun zero => leads (congrArg some zero)
  have minus : optionalByte minus (literal.text ++ after) = .ok (literal.negative,
      (if literal.zero then [48] else []) ++
        (literal.whole ++ (literal.fractionText ++ (literal.exponentText ++ after)))) := by
    simp only [NumberLiteral.text, List.append_assoc]
    cases hasMinus : literal.negative with
    | true => exact optionalByte_present minus _
    | false =>
      have goesOn : literal.whole ++ (literal.fractionText ++ (literal.exponentText ++ after)) ≠ [] :=
        List.append_ne_nil_of_right_ne_nil _ behind'.1
      apply optionalByte_absent (List.append_ne_nil_of_right_ne_nil _ goesOn)
      intro byte isFirst
      cases hasZero : literal.zero with
      | true =>
        rw [hasZero] at isFirst
        obtain rfl := Option.some.inj isFirst
        decide
      | false =>
        cases hasWhole : literal.whole with
        | nil =>
          simp [NumberLiteral.Begins, hasMinus, hasZero, hasWhole] at begins
        | cons digit whole =>
          rw [hasZero, hasWhole] at isFirst
          obtain rfl := Option.some.inj isFirst
          rintro rfl
          have isDigit := literal.wholeDigits minus (hasWhole ▸ List.mem_cons_self)
          exact absurd isDigit (by decide)
  simp only [parseNumber, minus, ok_bind, zero, whole]
  rw [NumberLiteral.fractionText, fraction, ok_bind, exponent]
  rfl

theorem parseNumber_ok {num after : List UInt8} {number : CJsonNumber D}
    (read : parseNumber doubles num = .ok (number, after)) :
    ∃ literal : NumberLiteral, num = literal.text ++ after ∧ literal.Ends after ∧
      (literal.negative = false → ∀ byte ∈ num.head?, byte ≠ minus) ∧
      number = literalValue doubles literal := by
  obtain ⟨⟨negative, num1⟩, minusRead, read⟩ := bind_eq_ok_iff.mp read
  obtain ⟨⟨zero, num2⟩, zeroRead, read⟩ := bind_eq_ok_iff.mp read
  obtain ⟨⟨n, num3⟩, wholeRead, read⟩ := bind_eq_ok_iff.mp read
  obtain ⟨⟨state, num4⟩, fractionRead, read⟩ := bind_eq_ok_iff.mp read
  obtain ⟨⟨exponent, num5⟩, exponentRead, read⟩ := bind_eq_ok_iff.mp read
  cases read
  obtain ⟨whole, wholeDigits, wholeHead, rfl, rfl, _, headWhole⟩ := parseWhole_ok doubles wholeRead
  obtain ⟨fraction, fractionDigits, rfl, rfl, _, headFraction⟩ :=
    parseFraction_ok doubles fractionRead
  obtain ⟨rfl, notZero⟩ := optionalByte_ok zeroRead
  obtain ⟨rfl, notMinus⟩ := optionalByte_ok minusRead
  obtain ⟨_, ⟨exponent, rfl, rfl, ends⟩ | ⟨rfl, rfl, notLetter⟩⟩ := parseExponent_ok exponentRead
  · refine ⟨⟨negative, zero, whole, fraction, some exponent, wholeDigits, wholeHead,
      fractionDigits⟩, ?_, ends, ?_, rfl⟩
    · simp [NumberLiteral.text, NumberLiteral.fractionText, NumberLiteral.exponentText]
    · rintro rfl
      exact notMinus rfl
  · refine ⟨⟨negative, zero, whole, fraction, none, wholeDigits, wholeHead, fractionDigits⟩, ?_,
      ?_, ?_, rfl⟩
    · simp [NumberLiteral.text, NumberLiteral.fractionText, NumberLiteral.exponentText]
    · apply ends_of_endsWhole rfl _ notLetter
      refine ⟨?_, ?_, ?_, ?_, ?_⟩
      · intro hasFraction
        rwa [if_pos hasFraction] at headFraction
      · intro noFraction
        rwa [if_neg (not_not.mpr noFraction)] at headFraction
      · rintro rfl hasWhole
        rwa [if_pos hasWhole] at headWhole
      · rintro rfl rfl
        rwa [if_neg (not_not.mpr rfl)] at headWhole
      · rintro rfl rfl
        exact notZero
    · rintro rfl
      exact notMinus rfl

end Doubles

/-- A number is parsed where its first byte says that there is one. -/
theorem begins_of_head {literal : NumberLiteral} {after : List UInt8} {first : UInt8}
    (ends : literal.Ends after) (isFirst : (literal.text ++ after).head? = some first)
    (leads : first = minus ∨ IsDigit first) (notMinus : literal.negative = false → first ≠ minus) :
    literal.Begins := by
  by_contra none
  simp only [NumberLiteral.Begins, not_or, Bool.not_eq_true, not_not] at none
  obtain ⟨positive, noZero, noWhole⟩ := none
  obtain ⟨headWhole, headZero⟩ := head_of_fraction (endsWhole_of_ends ends)
  rw [if_neg (not_not.mpr noWhole)] at headWhole
  simp only [NumberLiteral.text, positive, noZero, noWhole, Bool.false_eq_true, if_false,
    List.nil_append, List.append_assoc] at isFirst
  obtain isMinus | isDigit := leads
  · exact notMinus positive isMinus
  · exact headZero noWhole noZero first isFirst (headWhole first isFirst isDigit)

/-! ## Exact arithmetic -/

/-- Doubles that do not round. -/
def exactDoubles : Doubles ℚ where
  ofInt number := number
  add left right := left + right
  sub left right := left - right
  mul left right := left * right
  pow base exponent := base ^ exponent.num
  toInt number := castInt (number.num.tdiv number.den)

theorem wholeValue_exact (digits : List UInt8) :
    wholeValue exactDoubles digits = (decimalValue 0 digits : ℚ) := by
  have step : ∀ (number : Int), digits.foldl (wholeDigit exactDoubles) (number : ℚ) =
      ((decimalValue number digits : Int) : ℚ) := by
    induction digits with
    | nil => exact fun number => rfl
    | cons digit digits inductionHypothesis =>
      intro number
      have next := inductionHypothesis (number * 10 + digitValue digit)
      rw [List.foldl_cons, decimalValue, List.foldl_cons, ← decimalValue, ← next]
      congr 1
      simp [wholeDigit, exactDoubles]
  exact step 0

theorem fractionValue_exact (number : Int) (digits : List UInt8) :
    fractionValue exactDoubles (number : ℚ) digits =
      ((decimalValue number digits : ℚ), -(digits.length : ℚ)) := by
  have step : ∀ (number scale : Int),
      digits.foldl (fractionDigit exactDoubles) ((number : ℚ), (scale : ℚ)) =
        ((decimalValue number digits : ℚ), (scale : ℚ) - digits.length) := by
    induction digits with
    | nil =>
      intro number scale
      simp [decimalValue]
    | cons digit digits inductionHypothesis =>
      intro number scale
      have next := inductionHypothesis (number * 10 + digitValue digit) (scale - 1)
      have cell : fractionDigit exactDoubles ((number : ℚ), (scale : ℚ)) digit =
          (((number * 10 + digitValue digit : Int) : ℚ), ((scale - 1 : Int) : ℚ)) := by
        simp [fractionDigit, wholeDigit, exactDoubles]
      rw [List.foldl_cons, cell, next, decimalValue, decimalValue, List.foldl_cons]
      congr 1
      push_cast
      simp only [List.length_cons, Nat.cast_add, Nat.cast_one]
      ring
  have read := step number 0
  simp only [Int.cast_zero, zero_sub] at read
  exact read

theorem decimalValue_append (number : Int) (digits others : List UInt8) :
    decimalValue number (digits ++ others) = decimalValue (decimalValue number digits) others :=
  List.foldl_append

theorem digitValue_nonneg {digit : UInt8} (isDigit : IsDigit digit) : 0 ≤ digitValue digit := by
  have least := UInt8.le_iff_toNat_le.mp isDigit.1
  simp only [UInt8.reduceToNat] at least
  unfold digitValue
  omega

theorem intOf_eq {number : Int} (least : -2 ^ 31 ≤ number) (below : number < 2 ^ 31) :
    intOf number = number := by
  unfold intOf
  rw [Int.bmod_eq_of_le] <;> omega

/-- The digits of an exponent are counted without wrapping while they stay inside `int`. -/
theorem subscale_exact {digits : List UInt8} (areDigits : ∀ digit ∈ digits, IsDigit digit)
    (inside : decimalValue 0 digits < 2 ^ 31) :
    digits.foldl subscaleDigit 0 = decimalValue 0 digits ∧ 0 ≤ decimalValue 0 digits := by
  induction digits using List.reverseRecOn with
  | nil => exact ⟨rfl, Int.le_refl 0⟩
  | append_singleton digits digit inductionHypothesis =>
    rw [List.forall_mem_append, List.forall_mem_singleton] at areDigits
    have nonneg := digitValue_nonneg areDigits.2
    rw [decimalValue_append] at inside ⊢
    have last : decimalValue (decimalValue 0 digits) [digit] =
        decimalValue 0 digits * 10 + digitValue digit := rfl
    rw [last] at inside ⊢
    have front : decimalValue 0 digits < 2 ^ 31 := by
      by_contra outside
      omega
    obtain ⟨counted, positive⟩ := inductionHypothesis areDigits.1 front
    rw [List.foldl_append, counted]
    refine ⟨?_, by omega⟩
    exact intOf_eq (by omega) inside

theorem exponentValue_exact {exponent : Exponent}
    (inside : decimalValue 0 exponent.digits < 2 ^ 31) :
    exponentValue exponent = exponent.value := by
  obtain ⟨counted, nonneg⟩ := subscale_exact exponent.areDigits inside
  rw [exponentValue, Exponent.value, counted]
  split
  · exact intOf_eq (by omega) (by omega)
  · exact intOf_eq (by omega) (by omega)

/-- Over exact arithmetic a number is parsed to what it denotes, as long as the digits of its
exponent stay inside `int`; its `valueint` is the whole part, where that fits. -/
theorem number_denoted {literal : NumberLiteral} {after : List UInt8} (begins : literal.Begins)
    (ends : literal.Ends after) (stops : Stops after)
    (inside : ∀ exponent ∈ literal.exponent, decimalValue 0 exponent.digits < 2 ^ 31) :
    parseNumber exactDoubles (literal.text ++ after) =
      .ok (⟨literal.value, castInt (literal.value.num.tdiv literal.value.den)⟩, after) := by
  rw [parseNumber_append exactDoubles begins ends stops]
  have exponent : literal.exponent.elim 0 exponentValue = literal.exponent.elim 0 Exponent.value := by
    cases hasExponent : literal.exponent with
    | none => rfl
    | some exponent => exact exponentValue_exact (inside exponent hasExponent)
  have scale : ∀ (length : Nat) (power : Int), (-(length : ℚ) + (power : ℚ)).num = power - length := by
    intro length power
    have whole : -(length : ℚ) + (power : ℚ) = ((power - length : Int) : ℚ) := by
      push_cast
      ring
    rw [whole, Rat.num_intCast]
  have value : (literalValue exactDoubles literal).valuedouble = literal.value := by
    simp only [literalValue, wholeValue_exact, fractionValue_exact, exponent, scaled]
    rw [NumberLiteral.value, decimalValue_append, ← scale]
    simp only [exactDoubles]
    push_cast
    rfl
  have cast : (literalValue exactDoubles literal).valueint =
      castInt ((literalValue exactDoubles literal).valuedouble.num.tdiv
        (literalValue exactDoubles literal).valuedouble.den) := rfl
  rw [← value, ← cast]

/-- `-2.5e1`. -/
def minusTwentyFive : NumberLiteral where
  negative := true
  zero := false
  whole := [50]
  fraction := [53]
  exponent := some ⟨101, [], [49], .inl rfl, .inl rfl, by simp [IsDigit]⟩
  wholeDigits := by simp [IsDigit]
  wholeHead := by simp
  fractionDigits := by simp [IsDigit]

/-- `3e9`, which does not fit an `int`. -/
def threeBillions : NumberLiteral where
  negative := false
  zero := false
  whole := [51]
  fraction := []
  exponent := some ⟨101, [], [57], .inl rfl, .inl rfl, by simp [IsDigit]⟩
  wholeDigits := by simp [IsDigit]
  wholeHead := by simp
  fractionDigits := by simp

theorem minusTwentyFive_value : minusTwentyFive.value = -25 := by
  simp [NumberLiteral.value, minusTwentyFive, Exponent.value, decimalValue, digitValue]

theorem threeBillions_value : threeBillions.value = 3000000000 := by
  simp [NumberLiteral.value, threeBillions, Exponent.value, decimalValue, digitValue]
  norm_num

/-- A number inside `int` and one outside. -/
theorem number_denoted_inside_outside :
    parseNumber exactDoubles [45, 50, 46, 53, 101, 49, 0] = .ok (⟨-25, -25⟩, [0]) ∧
    parseNumber exactDoubles [51, 101, 57, 0] = .ok (⟨3000000000, -2 ^ 31⟩, [0]) := by
  constructor
  · have ends : minusTwentyFive.Ends [0] := by simp [NumberLiteral.Ends, minusTwentyFive, IsDigit]
    have inside : ∀ exponent ∈ minusTwentyFive.exponent,
        decimalValue 0 exponent.digits < 2 ^ 31 := by
      intro exponent isExponent
      obtain rfl := Option.some.inj isExponent
      decide
    have denoted := number_denoted (.inl rfl) ends (by decide) inside
    rw [minusTwentyFive_value, castInt_of_inside (by decide)] at denoted
    exact denoted
  · have ends : threeBillions.Ends [0] := by simp [NumberLiteral.Ends, threeBillions, IsDigit]
    have inside : ∀ exponent ∈ threeBillions.exponent, decimalValue 0 exponent.digits < 2 ^ 31 := by
      intro exponent isExponent
      obtain rfl := Option.some.inj isExponent
      decide
    have begins : threeBillions.Begins := .inr (.inr (List.cons_ne_nil _ _))
    have denoted := number_denoted begins ends (by decide) inside
    rw [threeBillions_value, castInt_of_outside (by decide)] at denoted
    exact denoted

end ServalRpc.Verified.JsonNumbers
