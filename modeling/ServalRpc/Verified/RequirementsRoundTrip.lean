import Mathlib.Algebra.BigOperators.Fin
import Mathlib.Data.Fin.Rev
import Mathlib.Data.Fin.VecNotation
import Mathlib.Data.Nat.Digits.Lemmas
import Mathlib.Tactic.Ring
import ServalRpc.Model.Requirements

/-! # Packing and parsing requirements

Packing puts the first value into the most significant nibble, which makes it a bijection from
the valid vectors to the words; every other vector packs to 0.  Parsing puts the least
significant nibble first.  Parsing what was packed therefore mirrors the vector, and the two
functions undo each other on exactly the vectors that are their own mirror image.
-/

namespace ServalRpc.Verified.Requirements

/-- The values that fit four bits. -/
def InRange (values : Fin 8 → Int) : Prop :=
  ∀ i, 0 ≤ values i ∧ values i ≤ 15

def Palindromic (values : Fin 8 → Int) : Prop :=
  ∀ i, values i = values i.rev

instance (values : Fin 8 → Int) : Decidable (InRange values) :=
  inferInstanceAs (Decidable (∀ i, 0 ≤ values i ∧ values i ≤ 15))

instance (values : Fin 8 → Int) : Decidable (Palindromic values) :=
  inferInstanceAs (Decidable (∀ i, values i = values i.rev))

/-- The nibble of a packed vector with weight `16 ^ k`. -/
def nibble (raw : UInt32) (k : Fin 8) : Int :=
  ((raw.toNat / 16 ^ k.val % 16 : Nat) : Int)

/-! ## Packing -/

theorem or_nibble {raw : UInt32} (value : Int) (clear : raw.toNat % 16 = 0)
    (nonnegative : 0 ≤ value) (bounded : value ≤ 15) :
    (raw ||| UInt32.ofNat value.toNat).toNat = raw.toNat + value.toNat := by
  have small : value.toNat < 2 ^ 4 := by omega
  have high : raw.toNat = 2 ^ 4 * (raw.toNat / 16) := by omega
  rw [UInt32.toNat_or, UInt32.toNat_ofNat_of_lt' (by simp [UInt32.size]; omega), high]
  exact (Nat.two_pow_add_eq_or_of_lt small _).symm

theorem shiftLeft_nibble (raw : UInt32) (room : raw.toNat < 2 ^ 28) :
    (raw <<< 4).toNat = 16 * raw.toNat := by
  rw [UInt32.toNat_shiftLeft]
  simp [Nat.shiftLeft_eq]
  omega

/-- Two nibbles appended to a word whose last nibble is still clear. -/
theorem append_nibbles {raw : UInt32} {first second : Int} (clear : raw.toNat % 16 = 0)
    (room : raw.toNat < 2 ^ 28) (firstRange : 0 ≤ first ∧ first ≤ 15)
    (secondRange : 0 ≤ second ∧ second ≤ 15) :
    (((raw ||| UInt32.ofNat first.toNat) <<< 4) ||| UInt32.ofNat second.toNat).toNat =
      16 * (raw.toNat + first.toNat) + second.toNat := by
  have one := or_nibble first clear firstRange.1 firstRange.2
  have shifted := shiftLeft_nibble (raw ||| UInt32.ofNat first.toNat) (by omega)
  have two := or_nibble second (by rw [shifted]; omega) secondRange.1 secondRange.2
  rw [two, shifted, one]

/-- A round before the last one also makes room for the next nibble. -/
theorem prepare_round {values : Fin 8 → Int} (inRange : InRange values) (i : Nat) (inside : i < 6)
    (requirements : UInt32) (clear : requirements.toNat % 16 = 0)
    (room : requirements.toNat < 2 ^ 24) :
    ∃ next, rpcClientPrepareRequirementsFrom values i requirements =
        rpcClientPrepareRequirementsFrom values (i + 2) next ∧
      next.toNat = 16 * (16 * (requirements.toNat + (values ⟨i, by omega⟩).toNat) +
        (values ⟨i + 1, by omega⟩).toNat) := by
  have first := inRange ⟨i, by omega⟩
  have second := inRange ⟨i + 1, by omega⟩
  have appended := append_nibbles clear (by omega) first second
  have shifted := shiftLeft_nibble (((requirements |||
    UInt32.ofNat (values ⟨i, by omega⟩).toNat) <<< 4) |||
    UInt32.ofNat (values ⟨i + 1, by omega⟩).toNat) (by omega)
  refine ⟨_, ?_, shifted.trans (by rw [appended])⟩
  rw [rpcClientPrepareRequirementsFrom, dif_pos (by omega)]
  dsimp only
  rw [if_neg (by omega), if_neg (by omega)]

theorem prepare_last {values : Fin 8 → Int} (inRange : InRange values) {requirements : UInt32}
    (clear : requirements.toNat % 16 = 0) (room : requirements.toNat < 2 ^ 28) :
    (rpcClientPrepareRequirementsFrom values 6 requirements).toNat =
      16 * (requirements.toNat + (values 6).toNat) + (values 7).toNat := by
  have first := inRange 6
  have second := inRange 7
  rw [rpcClientPrepareRequirementsFrom, dif_pos (by omega)]
  simp only [Fin.reduceFinMk, Nat.reduceAdd, if_true]
  rw [if_neg (by omega), rpcClientPrepareRequirementsFrom, dif_neg (by omega)]
  exact append_nibbles clear room first second

/-- The first value gets the weight `16 ^ 7`, the last one the weight 1. -/
theorem prepare_toNat {values : Fin 8 → Int} (inRange : InRange values) :
    (rpcClientPrepareRequirements values).toNat =
      ∑ i : Fin 8, (values i).toNat * 16 ^ (7 - i.val) := by
  have bounds : ∀ i, (values i).toNat < 16 := fun i => by have := inRange i; omega
  have bound0 := bounds 0
  have bound1 := bounds 1
  have bound2 := bounds 2
  have bound3 := bounds 3
  have bound4 := bounds 4
  have bound5 := bounds 5
  obtain ⟨pair0, round0, value0⟩ := prepare_round inRange 0 (by decide) 0
    (by decide) (by decide)
  simp only [UInt32.toNat_zero, Fin.reduceFinMk, Nat.reduceAdd] at round0 value0
  obtain ⟨pair1, round1, value1⟩ := prepare_round inRange 2 (by decide) pair0
    (by omega) (by omega)
  simp only [Fin.reduceFinMk, Nat.reduceAdd] at round1 value1
  obtain ⟨pair2, round2, value2⟩ := prepare_round inRange 4 (by decide) pair1
    (by omega) (by omega)
  simp only [Fin.reduceFinMk, Nat.reduceAdd] at round2 value2
  rw [rpcClientPrepareRequirements, round0, round1, round2,
    prepare_last inRange (by omega) (by omega), value2, value1, value0]
  simp only [Fin.sum_univ_eight]
  simp
  ring

/-- The round that meets a value out of range returns 0. -/
theorem prepareFrom_of_outOfRange (values : Fin 8 → Int) (i : Nat) (requirements : UInt32)
    (even : i % 2 = 0) (bad : ∃ k : Fin 8, i ≤ k.val ∧ ¬ (0 ≤ values k ∧ values k ≤ 15)) :
    rpcClientPrepareRequirementsFrom values i requirements = 0 := by
  fun_induction rpcClientPrepareRequirementsFrom values i requirements with
  | case1 => rfl
  | case2 i requirements inside first second fits _ _ _ _ inductionHypothesis =>
    apply inductionHypothesis (by omega)
    obtain ⟨k, behind, outside⟩ := bad
    refine ⟨k, ?_, outside⟩
    have notFirst : k.val ≠ i := by
      intro equal
      have same : k = ⟨i, by omega⟩ := Fin.ext equal
      rw [same] at outside
      omega
    have notSecond : k.val ≠ i + 1 := by
      intro equal
      have same : k = ⟨i + 1, by omega⟩ := Fin.ext equal
      rw [same] at outside
      omega
    omega
  | case3 i requirements outside =>
    obtain ⟨k, behind, -⟩ := bad
    omega

theorem prepare_of_outOfRange {values : Fin 8 → Int} (outside : ¬ InRange values) :
    rpcClientPrepareRequirements values = 0 := by
  obtain ⟨k, bad⟩ := not_forall.mp outside
  exact prepareFrom_of_outOfRange values 0 0 rfl ⟨k, Nat.zero_le _, bad⟩

/-! ## Parsing -/

theorem extract_apply (i : Nat) (raw : UInt32) (result : Fin 8 → Int) (k : Fin 8) :
    extractRequirementsFrom i raw result k =
      if i ≤ k.val then ((raw.toNat / 16 ^ (k.val - i) % 16 : Nat) : Int) else result k := by
  induction remaining : 8 - i generalizing i raw result with
  | zero =>
    rw [extractRequirementsFrom, dif_neg (by omega), if_neg (by omega)]
  | succ remaining inductionHypothesis =>
    rw [extractRequirementsFrom, dif_pos (by omega), inductionHypothesis _ _ _ (by omega)]
    have low : (raw &&& 15).toNat = raw.toNat % 16 := by
      rw [UInt32.toNat_and]
      exact Nat.and_two_pow_sub_one_eq_mod _ 4
    have high : (raw >>> 4).toNat = raw.toNat / 16 := by
      rw [UInt32.toNat_shiftRight]
      exact Nat.shiftRight_eq_div_pow _ _
    -- Rounds before `k` only shift, round `k` writes the value, later rounds leave it alone.
    obtain before | here | after := Nat.lt_trichotomy i k.val
    · have weight : k.val - i = k.val - (i + 1) + 1 := by omega
      rw [if_pos (by omega), if_pos (by omega), high, weight, Nat.pow_succ', Nat.div_div_eq_div_mul]
    · subst here
      simp [low]
    · rw [if_neg (by omega), if_neg (by omega), Function.update_of_ne
        (fun equal => absurd (congrArg Fin.val equal) (Nat.ne_of_lt after))]

theorem parse_apply (result : Fin 8 → Int) (raw : UInt32) (k : Fin 8) :
    rpcServerParseRequirements result raw k = nibble raw k := by
  rw [rpcServerParseRequirements, swapRequirementsFrom, dif_neg (by decide), extract_apply]
  simp [nibble]

theorem parse_inRange (result : Fin 8 → Int) (raw : UInt32) :
    InRange (rpcServerParseRequirements result raw) := by
  intro k
  rw [parse_apply, nibble]
  omega

/-- A number is determined by its digits. -/
theorem eq_of_digits {base count left right : Nat} (leftBound : left < base ^ count)
    (rightBound : right < base ^ count)
    (same : ∀ k < count, left / base ^ k % base = right / base ^ k % base) : left = right := by
  induction count generalizing left right with
  | zero =>
    rw [pow_zero] at leftBound rightBound
    omega
  | succ count inductionHypothesis =>
    rw [pow_succ'] at leftBound rightBound
    have low : left % base = right % base := by simpa using same 0 (Nat.succ_pos count)
    have high : left / base = right / base := by
      apply inductionHypothesis (Nat.div_lt_of_lt_mul leftBound) (Nat.div_lt_of_lt_mul rightBound)
      intro k inside
      have digit := same (k + 1) (Nat.succ_lt_succ inside)
      rwa [pow_succ', ← Nat.div_div_eq_div_mul, ← Nat.div_div_eq_div_mul] at digit
    rw [← Nat.div_add_mod left base, high, low, Nat.div_add_mod]

/-- A word is determined by its nibbles. -/
theorem nibble_injective {left right : UInt32} (same : ∀ k, nibble left k = nibble right k) :
    left = right := by
  apply UInt32.toNat.inj
  apply @eq_of_digits 16 8 _ _ left.toNat_lt right.toNat_lt
  intro k inside
  exact Int.ofNat_inj.mp (same ⟨k, inside⟩)

/-! ## Round trips -/

/-- The digits of a packed vector in base 16, least significant one first. -/
def packedDigits (values : Fin 8 → Int) : List Nat :=
  List.ofFn fun i => (values i.rev).toNat

theorem prepare_toNat_ofDigits {values : Fin 8 → Int} (inRange : InRange values) :
    (rpcClientPrepareRequirements values).toNat = Nat.ofDigits 16 (packedDigits values) := by
  rw [prepare_toNat inRange, Fin.sum_univ_eight]
  simp [packedDigits, List.ofFn_succ, Nat.ofDigits_cons, Fin.rev]
  ring

/-- Parsing a packed vector mirrors it. -/
theorem parse_prepare {values : Fin 8 → Int} (inRange : InRange values) (result : Fin 8 → Int) :
    rpcServerParseRequirements result (rpcClientPrepareRequirements values) =
      fun k => values k.rev := by
  funext k
  have digitBound : ∀ digit ∈ packedDigits values, digit < 16 := by
    intro digit member
    obtain ⟨i, rfl⟩ := List.mem_ofFn.mp member
    have range := inRange i.rev
    change (values i.rev).toNat < 16
    omega
  have bound : k.val < (packedDigits values).length := by simp [packedDigits]
  have range := inRange k.rev
  rw [parse_apply, nibble, prepare_toNat_ofDigits inRange,
    Nat.ofDigits_div_pow_eq_ofDigits_drop _ (by decide) _ digitBound,
    List.drop_eq_getElem_cons bound, Nat.ofDigits_mod_eq_head!]
  simp only [List.head!_cons, packedDigits, List.getElem_ofFn, Fin.eta]
  omega

/-- Packing a parsed word mirrors its nibbles. -/
theorem nibble_prepare_parse (result : Fin 8 → Int) (raw : UInt32) (k : Fin 8) :
    nibble (rpcClientPrepareRequirements (rpcServerParseRequirements result raw)) k =
      nibble raw k.rev := by
  rw [← parse_apply result, parse_prepare (parse_inRange result raw)]
  exact parse_apply result raw k.rev

/-! ## Positions -/

/-- In range the numbers of the sum are the integers of the array themselves. -/
theorem prepare_toInt {values : Fin 8 → Int} (inRange : InRange values) :
    ((rpcClientPrepareRequirements values).toNat : Int) =
      ∑ i : Fin 8, values i * 16 ^ (7 - i.val) := by
  rw [prepare_toNat inRange, Nat.cast_sum]
  apply Finset.sum_congr rfl
  intro i _
  have natural : ((values i).toNat : Int) = values i := Int.toNat_of_nonneg (inRange i).1
  simp [natural]

/-- The array that packs to `raw` has its most significant nibble in front. -/
def unpacked (raw : UInt32) : Fin 8 → Int :=
  fun k => nibble raw k.rev

theorem unpacked_inRange (raw : UInt32) : InRange (unpacked raw) := by
  intro k
  rw [unpacked, nibble]
  omega

theorem prepare_unpacked (raw : UInt32) : rpcClientPrepareRequirements (unpacked raw) = raw := by
  apply nibble_injective
  intro k
  have parsed := congrFun (parse_prepare (unpacked_inRange raw) fun _ => 0) k
  rwa [parse_apply, unpacked, Fin.rev_rev] at parsed

theorem unpacked_prepare {values : Fin 8 → Int} (inRange : InRange values) :
    unpacked (rpcClientPrepareRequirements values) = values := by
  funext k
  have parsed := congrFun (parse_prepare inRange fun _ => 0) k.rev
  rwa [parse_apply, Fin.rev_rev] at parsed

/-- The packing is positional, signals the other arrays by 0, and no word is left out or packed
from two valid arrays. -/
theorem packing_positional :
    (∀ values, InRange values →
      ((rpcClientPrepareRequirements values).toNat : Int) =
        ∑ i : Fin 8, values i * 16 ^ (7 - i.val)) ∧
    (∀ values, (∃ i, values i < 0 ∨ 15 < values i) → rpcClientPrepareRequirements values = 0) ∧
    ∀ raw, ∃! values, InRange values ∧ rpcClientPrepareRequirements values = raw := by
  refine ⟨fun values => prepare_toInt, ?_, ?_⟩
  · rintro values ⟨i, outside⟩
    apply prepare_of_outOfRange
    intro inRange
    have range := inRange i
    omega
  · intro raw
    refine ⟨unpacked raw, ⟨unpacked_inRange raw, prepare_unpacked raw⟩, ?_⟩
    rintro values ⟨inRange, rfl⟩
    exact (unpacked_prepare inRange).symm

/-- The priorities 1 to 8 are the digits of the word, and a bad sixth entry makes it 0. -/
theorem packing_positional_digits :
    ((rpcClientPrepareRequirements ![1, 2, 3, 4, 5, 6, 7, 8]).toNat : Int) =
      ∑ i : Fin 8, ![1, 2, 3, 4, 5, 6, 7, 8] i * 16 ^ (7 - i.val) ∧
    rpcClientPrepareRequirements ![1, 2, 3, 4, 5, 16, 7, 8] = 0 :=
  ⟨packing_positional.1 ![1, 2, 3, 4, 5, 6, 7, 8] (by decide),
    packing_positional.2.1 ![1, 2, 3, 4, 5, 16, 7, 8] ⟨5, by decide⟩⟩

/-! ## Mirror images -/

/-- The two functions undo each other on exactly the vectors, and exactly the words, that are
their own mirror image. -/
theorem requirements_round_trip (result : Fin 8 → Int) :
    (∀ values, InRange values →
      (rpcServerParseRequirements result (rpcClientPrepareRequirements values) = values ↔
        Palindromic values)) ∧
    ∀ raw, rpcClientPrepareRequirements (rpcServerParseRequirements result raw) = raw ↔
      ∀ k, nibble raw k = nibble raw k.rev := by
  constructor
  · intro values inRange
    rw [parse_prepare inRange, funext_iff]
    exact forall_congr' fun k => eq_comm
  · intro raw
    constructor
    · intro same k
      rw [← nibble_prepare_parse result, same]
    · intro mirrored
      apply nibble_injective
      intro k
      rw [nibble_prepare_parse, ← mirrored]

theorem requirements_round_trip_palindrome :
    rpcServerParseRequirements (fun _ => 0) (rpcClientPrepareRequirements ![1, 2, 3, 4, 4, 3, 2, 1]) =
      ![1, 2, 3, 4, 4, 3, 2, 1] :=
  ((requirements_round_trip fun _ => 0).1 ![1, 2, 3, 4, 4, 3, 2, 1] (by decide)).mpr (by decide)

/-- A priority in the first place comes back in the last one, and the word 1 comes back as
`0x10000000`. -/
theorem requirements_mirrored :
    InRange ![1, 0, 0, 0, 0, 0, 0, 0] ∧
    rpcServerParseRequirements (fun _ => 0) (rpcClientPrepareRequirements ![1, 0, 0, 0, 0, 0, 0, 0]) =
      ![0, 0, 0, 0, 0, 0, 0, 1] ∧
    rpcServerParseRequirements (fun _ => 0) (rpcClientPrepareRequirements ![1, 0, 0, 0, 0, 0, 0, 0]) ≠
      ![1, 0, 0, 0, 0, 0, 0, 0] ∧
    rpcClientPrepareRequirements (rpcServerParseRequirements (fun _ => 0) 1) ≠ 1 := by
  have inRange : InRange ![1, 0, 0, 0, 0, 0, 0, 0] := by decide
  refine ⟨inRange, ?_, ?_, ?_⟩
  · rw [parse_prepare inRange]
    decide
  · rw [parse_prepare inRange]
    decide
  · intro same
    have mirrored := nibble_prepare_parse (fun _ => 0) 1 0
    rw [same] at mirrored
    exact absurd mirrored (by decide)

end ServalRpc.Verified.Requirements
