import Mathlib.Algebra.BigOperators.Group.List.Basic
import ServalRpc.Model.Main

/-! # Requirements on the command line

`main` takes its last argument for a requirements list when it has seven commas and fifteen
bytes.  The lists of eight values that this recognises are those whose values are single digits,
and it also takes texts that are no list at all, which may leave entries of `values` as they
were.
-/

namespace ServalRpc.Verified.RequirementLists

open CLib

/-! ## Lists of numbers -/

/-- What a text writes between its commas. -/
def fields (text : CString) : List (List UInt8) := text.bytes.splitOn 44

def IsNumeral (field : List UInt8) : Prop :=
  field ≠ [] ∧ ∀ byte ∈ field, isDigit byte = true

/-- Eight decimal integers from 0 to 15, separated by commas. -/
def IsRequirementList (text : CString) : Prop :=
  (fields text).length = 8 ∧ ∀ field ∈ fields text, IsNumeral field ∧ digitsValue field ≤ 15

/-- Eight digits, separated by commas. -/
def EightDigits (text : CString) : Prop :=
  (fields text).length = 8 ∧ ∀ field ∈ fields text, IsNumeral field ∧ field.length = 1

instance (field : List UInt8) : Decidable (IsNumeral field) :=
  inferInstanceAs (Decidable (_ ∧ _))

instance (text : CString) : Decidable (IsRequirementList text) :=
  inferInstanceAs (Decidable (_ ∧ _))

instance (text : CString) : Decidable (EightDigits text) :=
  inferInstanceAs (Decidable (_ ∧ _))

section Fields

variable {delimiter : UInt8}

theorem splitOn_length (text : List UInt8) :
    (text.splitOn delimiter).length = text.count delimiter + 1 := by
  induction text with
  | nil => simp [List.splitOn_nil]
  | cons byte text inductionHypothesis =>
    rw [List.splitOn_cons_eq_if_modifyHead, List.count_cons]
    split
    · rw [List.length_cons, inductionHypothesis]
    · rw [List.length_modifyHead, inductionHypothesis]

/-- Each byte of a text is a delimiter or belongs to one field. -/
theorem splitOn_sum (text : List UInt8) :
    ((text.splitOn delimiter).map List.length).sum + text.count delimiter = text.length := by
  induction text with
  | nil => simp [List.splitOn_nil]
  | cons byte text inductionHypothesis =>
    rw [List.splitOn_cons_eq_if_modifyHead, List.count_cons, List.length_cons]
    split
    · rw [List.map_cons, List.sum_cons, List.length_nil]
      omega
    · obtain ⟨first, rest, split⟩ :=
        List.exists_cons_of_ne_nil (List.splitOn_ne_nil delimiter text)
      rw [split] at inductionHypothesis ⊢
      simp only [List.map_cons, List.sum_cons, List.modifyHead_cons, List.length_cons] at *
      omega

end Fields

/-- Positive numbers sum up to their count only if each of them is 1. -/
theorem sum_eq_length_iff {numbers : List Nat} (positive : ∀ number ∈ numbers, 1 ≤ number) :
    numbers.sum = numbers.length ↔ ∀ number ∈ numbers, number = 1 := by
  induction numbers with
  | nil => simp
  | cons first rest inductionHypothesis =>
    simp only [List.mem_cons, forall_eq_or_imp] at positive ⊢
    have atLeast := List.length_le_sum_of_one_le rest positive.2
    rw [← inductionHypothesis positive.2, List.sum_cons, List.length_cons]
    omega

theorem isRequirementList_of_eightDigits {text : CString} (digits : EightDigits text) :
    IsRequirementList text := by
  refine ⟨digits.1, fun field member => ?_⟩
  obtain ⟨numeral, single⟩ := digits.2 field member
  obtain ⟨digit, rfl⟩ := List.length_eq_one_iff.mp single
  have bounds := (isDigit_iff digit).mp (numeral.2 digit (List.mem_singleton_self digit))
  rw [digitsValue_singleton]
  exact ⟨numeral, by omega⟩

/-! ## Recognition -/

/-- The loop counts the commas, although it moves the pointer that it counts from. -/
theorem countCommas_eq (numCommas : Nat) (lastArg : List UInt8) :
    countCommas numCommas lastArg = numCommas + (lastArg.drop numCommas).count 44 := by
  fun_induction countCommas numCommas lastArg with
  | case1 numCommas lastArg inside comma inductionHypothesis =>
    rw [inductionHypothesis, List.drop_eq_getElem_cons inside, comma, List.count_cons_self]
    omega
  | case2 numCommas lastArg inside noComma inductionHypothesis =>
    rw [inductionHypothesis, List.drop_eq_getElem_cons inside, List.count_cons_of_ne noComma,
      List.drop_tail]
  | case3 numCommas lastArg outside =>
    rw [List.drop_eq_nil_of_le (by omega)]
    rfl

theorem takesAsRequirements_iff (lastArg : CString) :
    takesAsRequirements lastArg = true ↔ lastArg.bytes.count 44 = 7 ∧ lastArg.length = 15 := by
  simp [takesAsRequirements, countCommas_eq]

/-- Of the requirement lists the fixed length admits those with single digits. -/
theorem takes_list_iff {lastArg : CString} (list : IsRequirementList lastArg) :
    takesAsRequirements lastArg = true ↔ EightDigits lastArg := by
  have commas : lastArg.bytes.count 44 = 7 := by
    have count := @splitOn_length 44 lastArg.bytes
    have eight := list.1
    unfold fields at eight
    omega
  have sum := @splitOn_sum 44 lastArg.bytes
  have positive : ∀ number ∈ (fields lastArg).map List.length, 1 ≤ number := by
    intro number member
    obtain ⟨field, inside, rfl⟩ := List.mem_map.mp member
    exact List.length_pos_iff.mpr (list.2 field inside).1.1
  have single := sum_eq_length_iff positive
  rw [List.length_map, list.1] at single
  rw [takesAsRequirements_iff]
  constructor
  · rintro ⟨-, length⟩
    refine ⟨list.1, fun field member => ⟨(list.2 field member).1, ?_⟩⟩
    refine single.mp ?_ _ (List.mem_map_of_mem member)
    change ((lastArg.bytes.splitOn 44).map List.length).sum = 8
    unfold CString.length at length
    omega
  · intro digits
    refine ⟨commas, ?_⟩
    have eight := single.mpr (by
      intro number member
      obtain ⟨field, inside, rfl⟩ := List.mem_map.mp member
      exact (digits.2 field inside).2)
    change ((lastArg.bytes.splitOn 44).map List.length).sum = 8 at eight
    unfold CString.length
    omega

/-! ## The array of values -/

/-- The rounds from index `k` on store the numbers of the tokens in order. -/
theorem foldl_storeValue (tokens : List CString) (values : Fin 8 → Option Int) (k : Nat)
    (i : Fin 8) :
    (tokens.foldl storeValue (values, k)).1 i =
      if k ≤ i.val then (tokens[i.val - k]?.map atoi).or (values i) else values i := by
  induction tokens generalizing values k with
  | nil => simp
  | cons token tokens inductionHypothesis =>
    rw [List.foldl_cons, storeValue]
    split
    · rename_i inside
      rw [inductionHypothesis]
      obtain before | here | after := Nat.lt_trichotomy i.val k
      · rw [if_neg (by omega), if_neg (by omega), Function.update_of_ne]
        exact fun equal => absurd (congrArg Fin.val equal) (Nat.ne_of_lt before)
      · subst here
        rw [if_neg (by omega), if_pos (Nat.le_refl _), Nat.sub_self]
        simp
      · have next : i.val - k = i.val - (k + 1) + 1 := by omega
        rw [if_pos (by omega), if_pos (by omega), next, List.getElem?_cons_succ,
          Function.update_of_ne]
        exact fun equal => absurd (congrArg Fin.val equal) (Nat.ne_of_gt after)
    · rename_i outside
      have bound := i.isLt
      rw [inductionHypothesis, if_neg (by omega), if_neg (by omega)]

/-- The array after the call: an entry without a token is left alone. -/
theorem strToIntArr_eq (values : Fin 8 → Option Int) (inputString : CString) :
    strToIntArr values inputString =
      .ok fun i => ((tokens 44 inputString.bytes)[i.val]?.map atoi).or (values i) := by
  have comma : (44 : UInt8) ≠ 0 := by decide
  rw [strToIntArr, CString.terminated, strtokFold_terminated comma inputString.nulFree]
  refine congrArg Except.ok (funext fun i => ?_)
  rw [foldl_storeValue, if_pos (Nat.zero_le _), Nat.sub_zero]

theorem nulFree_of_isNumeral {field : List UInt8} (numeral : IsNumeral field) : 0 ∉ field :=
  fun zero => absurd (numeral.2 0 zero) (by decide)

/-- Fields that are numerals are the tokens. -/
theorem tokens_of_numerals {text : CString} (numerals : ∀ field ∈ fields text, IsNumeral field) :
    tokens 44 text.bytes = (fields text).map CString.upToNul := by
  have kept : (fields text).filter (· ≠ []) = fields text := by
    apply List.filter_eq_self.mpr
    intro field member
    simpa using (numerals field member).1
  rw [tokens]
  exact congrArg (List.map CString.upToNul) kept

/-- Of a list of numerals the array gets the values, in order. -/
theorem strToIntArr_of_numerals {text : CString}
    (numerals : ∀ field ∈ fields text, IsNumeral field) (values : Fin 8 → Option Int) :
    strToIntArr values text =
      .ok fun i => ((fields text)[i.val]?.map fun field => (digitsValue field : Int)).or
        (values i) := by
  rw [strToIntArr_eq, tokens_of_numerals numerals]
  refine congrArg Except.ok (funext fun i => congrArg (Option.or · (values i)) ?_)
  rw [List.getElem?_map, Option.map_map]
  cases found : (fields text)[i.val]? with
  | none => rfl
  | some field =>
    have numeral := numerals field (List.mem_of_getElem? found)
    have bytes := CString.upToNul_bytes_of_nulFree (nulFree_of_isNumeral numeral)
    have digits : ∀ byte ∈ (CString.upToNul field).bytes, isDigit byte = true := by
      rw [bytes]
      exact numeral.2
    exact congrArg some ((atoi_of_digits digits).trans (by rw [bytes]))

theorem defaultRequirements_eightDigits : EightDigits defaultRequirements := by
  decide +kernel

/-- A full list of numerals, whichever it is, initialises every entry. -/
theorem strToIntArr_of_list {text : CString} (list : IsRequirementList text) :
    ∃ values, strToIntArr (fun _ => none) text = .ok values ∧
      ∀ i : Fin 8, ∃ field, (fields text)[i.val]? = some field ∧
        values i = some (digitsValue field : Int) := by
  refine ⟨_, strToIntArr_of_numerals (fun field member => (list.2 field member).1) _, fun i => ?_⟩
  have inside : i.val < (fields text).length := by
    rw [list.1]
    exact i.isLt
  exact ⟨_, List.getElem?_eq_getElem inside, by simp [inside]⟩

/-! ## The command line and the requirement lists -/

/-- `main` takes exactly the requirement lists, gets the numbers of such a list in order, and
initialises `values` in any case. -/
structure RecognisesExactly (lastArg : CString) : Prop where
  recognition : takesAsRequirements lastArg = true ↔ IsRequirementList lastArg
  numbers : IsRequirementList lastArg → ∃ values, requirementValues lastArg = .ok values ∧
    ∀ i : Fin 8, ∃ field, (fields lastArg)[i.val]? = some field ∧
      values i = some (digitsValue field : Int)
  initialised : ∃ values, requirementValues lastArg = .ok values ∧ ∀ i, (values i).isSome = true

theorem requirementValues_of_digits {lastArg : CString} (digits : EightDigits lastArg) :
    ∃ values, requirementValues lastArg = .ok values ∧
      ∀ i : Fin 8, ∃ field, (fields lastArg)[i.val]? = some field ∧
        values i = some (digitsValue field : Int) := by
  have list := isRequirementList_of_eightDigits digits
  rw [requirementValues, if_pos ((takes_list_iff list).mpr digits)]
  exact strToIntArr_of_list list

theorem requirementValues_of_other {lastArg : CString}
    (other : takesAsRequirements lastArg = false) :
    ∃ values, requirementValues lastArg = .ok values ∧ ∀ i, (values i).isSome = true := by
  have defaults := isRequirementList_of_eightDigits defaultRequirements_eightDigits
  obtain ⟨values, stored, entries⟩ := strToIntArr_of_list defaults
  rw [requirementValues, other]
  refine ⟨values, stored, fun i => ?_⟩
  obtain ⟨field, -, value⟩ := entries i
  rw [value]
  rfl

/-- The command line is right about the lists of single digits, and about the other texts that
are neither a requirement list nor fifteen bytes with seven commas. -/
theorem recognises_exactly_iff (lastArg : CString) :
    RecognisesExactly lastArg ↔
      EightDigits lastArg ∨
        ¬ IsRequirementList lastArg ∧
          ¬ (lastArg.bytes.count 44 = 7 ∧ lastArg.length = 15) := by
  rw [← takesAsRequirements_iff]
  constructor
  · intro exact
    by_cases list : IsRequirementList lastArg
    · exact .inl ((takes_list_iff list).mp (exact.recognition.mpr list))
    · exact .inr ⟨list, fun takes => list (exact.recognition.mp takes)⟩
  · rintro (digits | ⟨noList, notTaken⟩)
    · have list := isRequirementList_of_eightDigits digits
      have numbers := requirementValues_of_digits digits
      refine ⟨iff_of_true ((takes_list_iff list).mpr digits) list, fun _ => numbers, ?_⟩
      obtain ⟨values, stored, entries⟩ := numbers
      refine ⟨values, stored, fun i => ?_⟩
      obtain ⟨field, -, value⟩ := entries i
      rw [value]
      rfl
    · exact ⟨iff_of_false notTaken noList, fun list => absurd list noList,
        requirementValues_of_other (Bool.eq_false_iff.mpr notTaken)⟩

/-- `10,0,0,0,0,0,0,0` -/
def twoDigitList : CString :=
  .ofChars ['1', '0', ',', '0', ',', '0', ',', '0', ',', '0', ',', '0', ',', '0', ',', '0']

/-- `16,1,1,1,1,1,1,` -/
def sevenNumbers : CString :=
  .ofChars ['1', '6', ',', '1', ',', '1', ',', '1', ',', '1', ',', '1', ',', '1', ',']

/-- A list with a two-digit value is not taken.  Seven numbers with a comma behind each are, and
leave the last entry uninitialised. -/
theorem two_digits_not_recognised :
    IsRequirementList twoDigitList ∧ ¬ RecognisesExactly twoDigitList ∧
      ¬ IsRequirementList sevenNumbers ∧ takesAsRequirements sevenNumbers = true ∧
      ∃ values, requirementValues sevenNumbers = .ok values ∧ values 7 = none := by
  have takes : takesAsRequirements sevenNumbers = true := by
    rw [takesAsRequirements_iff]
    decide
  have list : IsRequirementList twoDigitList := by decide +kernel
  refine ⟨list, fun exact => ?_, by decide +kernel, takes, ?_⟩
  · have taken := exact.recognition.mpr list
    rw [takesAsRequirements_iff] at taken
    exact absurd taken (by decide)
  · rw [requirementValues, if_pos takes, strToIntArr_eq]
    exact ⟨_, rfl, by decide +kernel⟩

end ServalRpc.Verified.RequirementLists
