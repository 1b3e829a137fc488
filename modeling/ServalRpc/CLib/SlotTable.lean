import Mathlib.Data.List.Basic
import Mathlib.Data.List.Nodup
import Mathlib.Data.List.Forall2

/-! # Tables of slots

A table is a list of cells, each with a key; a cell whose key is `blank` is free.  A key claims
the first free cell, and an answer goes to the first cell of its key.  A ledger says what such a
table is for: the keys in the order of their claims, each with its latest answer.
-/

namespace CLib

/-! ## Ledgers -/

abbrev Ledger (κ ν : Type) := List (κ × Option ν)

namespace Ledger

variable {κ ν : Type}

def keys (ledger : Ledger κ ν) : List κ := ledger.map Prod.fst

def claim (ledger : Ledger κ ν) (key : κ) : Ledger κ ν := ledger ++ [(key, none)]

def answer [DecidableEq κ] (ledger : Ledger κ ν) (key : κ) (value : ν) : Ledger κ ν :=
  ledger.map fun entry => if entry.1 = key then (key, some value) else entry

/-- Every key has an answer. -/
def Complete (ledger : Ledger κ ν) : Prop := ∀ entry ∈ ledger, entry.2.isSome

@[simp] theorem keys_claim (ledger : Ledger κ ν) (key : κ) :
    (ledger.claim key).keys = ledger.keys ++ [key] := by
  simp [claim, keys]

@[simp] theorem keys_answer [DecidableEq κ] (ledger : Ledger κ ν) (key : κ) (value : ν) :
    (ledger.answer key value).keys = ledger.keys := by
  simp only [keys, answer, List.map_map]
  apply List.map_congr_left
  intro entry _
  by_cases same : entry.1 = key <;> simp [same]

theorem answer_cons [DecidableEq κ] (entry : κ × Option ν) (ledger : Ledger κ ν) (key : κ)
    (value : ν) : answer (entry :: ledger) key value =
      (if entry.1 = key then (key, some value) else entry) :: ledger.answer key value := rfl

theorem answer_of_not_mem [DecidableEq κ] {ledger : Ledger κ ν} {key : κ}
    (absent : key ∉ ledger.keys) (value : ν) : ledger.answer key value = ledger := by
  induction ledger with
  | nil => rfl
  | cons entry ledger inductionHypothesis =>
    simp only [keys, List.map_cons, List.mem_cons, not_or] at absent
    rw [answer_cons, if_neg (Ne.symm absent.1), inductionHypothesis absent.2]

theorem mem_answer [DecidableEq κ] {ledger : Ledger κ ν} {key : κ} {value : ν}
    {entry : κ × Option ν} (member : entry ∈ ledger.answer key value) :
    entry = (key, some value) ∨ entry ∈ ledger := by
  obtain ⟨old, inside, rfl⟩ := List.mem_map.mp member
  by_cases same : old.1 = key
  · exact .inl (if_pos same)
  · exact .inr (by rwa [if_neg same])

theorem mem_answer_of_none [DecidableEq κ] {ledger : Ledger κ ν} {key : κ} {value : ν}
    {entry : κ × Option ν} (member : entry ∈ ledger.answer key value)
    (unanswered : entry.2 = none) : entry ∈ ledger ∧ entry.1 ≠ key := by
  obtain ⟨old, inside, rfl⟩ := List.mem_map.mp member
  by_cases same : old.1 = key
  · rw [if_pos same] at unanswered
    cases unanswered
  · rw [if_neg same]
    exact ⟨inside, same⟩

end Ledger

/-! ## Cells -/

section Cells

variable {κ ν γ : Type} [DecidableEq κ] (key : γ → κ) (blank : κ)

/-- The index of the first free cell, or the number of cells. -/
def freeIdx (cells : List γ) : Nat := cells.findIdx fun cell => decide (key cell = blank)

def keyIdx? (cells : List γ) (wanted : κ) : Option Nat :=
  cells.findIdx? fun cell => decide (wanted = key cell)

/-- The keys of the cells that are not free. -/
def occupied (cells : List γ) : List κ := (cells.map key).filter (· ≠ blank)

variable {key blank}

theorem freeIdx_cons_blank {cell : γ} (free : key cell = blank) (cells : List γ) :
    freeIdx key blank (cell :: cells) = 0 := by
  simp [freeIdx, List.findIdx_cons, free]

theorem freeIdx_cons_key {cell : γ} (used : key cell ≠ blank) (cells : List γ) :
    freeIdx key blank (cell :: cells) = freeIdx key blank cells + 1 := by
  simp [freeIdx, List.findIdx_cons, used]

variable (key blank) in
theorem freeIdx_lt_iff (cells : List γ) :
    freeIdx key blank cells < cells.length ↔ blank ∈ cells.map key := by
  simp [freeIdx, List.findIdx_lt_length]

variable (key) in
theorem keyIdx?_eq_none_iff (cells : List γ) (wanted : κ) :
    keyIdx? key cells wanted = none ↔ wanted ∉ cells.map key := by
  simp only [keyIdx?, List.findIdx?_eq_none_iff, decide_eq_false_iff_not, List.mem_map, not_exists,
    not_and]
  exact ⟨fun differs cell member same => differs cell member same.symm,
    fun differs cell member same => differs cell member same.symm⟩

theorem keyIdx?_cons_same {cell : γ} {wanted : κ} (same : wanted = key cell) (cells : List γ) :
    keyIdx? key (cell :: cells) wanted = some 0 := by
  simp [keyIdx?, List.findIdx?_cons, same]

theorem keyIdx?_cons_other {cell : γ} {wanted : κ} (other : wanted ≠ key cell) (cells : List γ) :
    keyIdx? key (cell :: cells) wanted = (keyIdx? key cells wanted).map (· + 1) := by
  simp [keyIdx?, List.findIdx?_cons, other]

variable (key) in
/-- A key in the first free cell joins the occupied ones. -/
theorem occupied_claim {claimed : κ} {part : γ → γ} (sets : ∀ cell, key (part cell) = claimed)
    (proper : claimed ≠ blank) {cells : List γ} (free : blank ∈ cells.map key) :
    (occupied key blank (cells.modify (freeIdx key blank cells) part)).Perm
      (claimed :: occupied key blank cells) := by
  induction cells with
  | nil => simp at free
  | cons cell cells inductionHypothesis =>
    by_cases isBlank : key cell = blank
    · rw [freeIdx_cons_blank isBlank]
      simp [occupied, sets, proper, isBlank]
    · have later : blank ∈ cells.map key := by
        simpa [Ne.symm isBlank, eq_comm] using free
      rw [freeIdx_cons_key isBlank, List.modify_succ_cons]
      have tail := inductionHypothesis later
      simp only [occupied, List.map_cons, List.filter_cons, isBlank, ne_eq, not_false_eq_true,
        decide_true, if_true] at tail ⊢
      exact (tail.cons (key cell)).trans (List.Perm.swap _ _ _)

variable (key) in
/-- A blank key in the first free cell changes no key. -/
theorem map_key_claim_blank {part : γ → γ} (sets : ∀ cell, key (part cell) = blank)
    (cells : List γ) :
    (cells.modify (freeIdx key blank cells) part).map key = cells.map key := by
  induction cells with
  | nil => rfl
  | cons cell cells inductionHypothesis =>
    by_cases isBlank : key cell = blank
    · rw [freeIdx_cons_blank isBlank]
      simp [sets, isBlank]
    · rw [freeIdx_cons_key isBlank, List.modify_succ_cons, List.map_cons, List.map_cons,
        inductionHypothesis]

variable (key) in
omit [DecidableEq κ] in
theorem map_key_set {cells : List γ} {index : Nat} {old new : γ} (at' : cells[index]? = some old)
    (same : key new = key old) : (cells.set index new).map key = cells.map key := by
  have keyAt : (cells.map key)[index]? = some (key new) := by
    rw [List.getElem?_map, at', same]
    rfl
  obtain ⟨inside, isKey⟩ := List.getElem?_eq_some_iff.mp keyAt
  rw [List.map_set, ← isKey, List.set_getElem_self]

theorem keyIdx?_eq_some {cells : List γ} {wanted : κ} {index : Nat}
    (found : keyIdx? key cells wanted = some index) :
    ∃ cell, cells[index]? = some cell ∧ key cell = wanted := by
  obtain ⟨inside, same, _⟩ := List.findIdx?_eq_some_iff_getElem.mp found
  exact ⟨cells[index], List.getElem?_eq_getElem inside, (of_decide_eq_true same).symm⟩

/-! ## Representing a ledger -/

variable (key blank) (holds : ν → γ → Prop)

def Slot (entry : κ × Option ν) (cell : γ) : Prop :=
  key cell = entry.1 ∧ ∀ value ∈ entry.2, holds value cell

/-- The first cells are the slots of the ledger, and the other ones are free. -/
def Represents (ledger : Ledger κ ν) (cells : List γ) : Prop :=
  ∃ claimed free, cells = claimed ++ free ∧ List.Forall₂ (Slot key holds) ledger claimed ∧
    ∀ cell ∈ free, key cell = blank

variable {key blank holds}

omit [DecidableEq κ] in
theorem represents_nil {cells : List γ} (free : ∀ cell ∈ cells, key cell = blank) :
    Represents key blank holds ([] : Ledger κ ν) cells :=
  ⟨[], cells, rfl, .nil, free⟩

omit [DecidableEq κ] in
theorem Represents.map_key {ledger : Ledger κ ν} {cells : List γ}
    (represents : Represents key blank holds ledger cells) :
    ∃ free, cells.map key = ledger.keys ++ free ∧ ∀ other ∈ free, other = blank := by
  obtain ⟨claimed, free, rfl, slots, blanks⟩ := represents
  refine ⟨free.map key, ?_, by simpa using blanks⟩
  rw [List.map_append, List.append_left_inj]
  induction slots with
  | nil => rfl
  | cons slot _ inductionHypothesis =>
    rw [List.map_cons, inductionHypothesis, slot.1]
    rfl

theorem Represents.freeIdx_eq {ledger : Ledger κ ν} {cells : List γ} (proper : blank ∉ ledger.keys)
    (represents : Represents key blank holds ledger cells) :
    freeIdx key blank cells = ledger.length := by
  obtain ⟨claimed, free, rfl, slots, blanks⟩ := represents
  induction slots with
  | nil =>
    cases free with
    | nil => rfl
    | cons cell free => exact freeIdx_cons_blank (blanks cell List.mem_cons_self) free
  | cons slot _ inductionHypothesis =>
    simp only [Ledger.keys, List.map_cons, List.mem_cons, not_or] at proper
    rw [List.cons_append, freeIdx_cons_key (by rw [slot.1]; exact Ne.symm proper.1),
      inductionHypothesis proper.2, List.length_cons]

theorem Represents.claim {ledger : Ledger κ ν} {cells : List γ} {claimed : κ}
    (represents : Represents key blank holds ledger cells) (proper : blank ∉ ledger.keys)
    (room : ledger.length < cells.length) (part : γ → γ) (sets : ∀ cell, key (part cell) = claimed) :
    Represents key blank holds (ledger.claim claimed)
      (cells.modify (freeIdx key blank cells) part) := by
  rw [represents.freeIdx_eq proper]
  obtain ⟨slots, free, rfl, represented, blanks⟩ := represents
  have length := represented.length_eq
  rw [List.length_append] at room
  cases free with
  | nil => simp [length] at room
  | cons cell free =>
    refine ⟨slots ++ [part cell], free, ?_, ?_, fun other member => blanks other (.tail _ member)⟩
    · rw [length, List.modify_eq_take_cons_drop (by simp)]
      simp
    · refine List.rel_append represented (.cons ⟨sets cell, ?_⟩ .nil)
      simp

/-- A key is found in its slot, or in the first free cell. -/
theorem Represents.keyIdx?_le {ledger : Ledger κ ν} {cells : List γ} {wanted : κ} {index : Nat}
    (represents : Represents key blank holds ledger cells)
    (found : keyIdx? key cells wanted = some index) : index ≤ ledger.length := by
  obtain ⟨slots, free, rfl, represented, blanks⟩ := represents
  induction represented generalizing index with
  | nil =>
    obtain ⟨cell, at', isWanted⟩ := keyIdx?_eq_some found
    have isBlank := blanks cell (List.mem_of_getElem? at')
    cases free with
    | nil => cases found
    | cons first free =>
      have same : wanted = key first :=
        isWanted.symm.trans (isBlank.trans (blanks first List.mem_cons_self).symm)
      rw [List.nil_append, keyIdx?_cons_same same] at found
      cases found
      exact Nat.le_refl 0
  | @cons entry cell rest cells slot represented inductionHypothesis =>
    by_cases here : wanted = key cell
    · rw [List.cons_append, keyIdx?_cons_same here] at found
      cases found
      exact Nat.zero_le _
    · rw [List.cons_append, keyIdx?_cons_other here, Option.map_eq_some_iff] at found
      obtain ⟨later, found, rfl⟩ := found
      exact Nat.succ_le_succ (inductionHypothesis found)

omit [DecidableEq κ] in
theorem Represents.exists_entry {ledger : Ledger κ ν} {cells : List γ} {cell : γ}
    (represents : Represents key blank holds ledger cells)
    (member : cell ∈ cells.take ledger.length) : ∃ entry ∈ ledger, Slot key holds entry cell := by
  obtain ⟨slots, free, rfl, represented, -⟩ := represents
  rw [represented.length_eq, List.take_left] at member
  induction represented with
  | nil => cases member
  | cons slot _ inductionHypothesis =>
    obtain rfl | member := List.mem_cons.mp member
    · exact ⟨_, List.mem_cons_self, slot⟩
    · obtain ⟨entry, inside, slot⟩ := inductionHypothesis member
      exact ⟨entry, List.mem_cons_of_mem _ inside, slot⟩

omit [DecidableEq κ] in
theorem Represents.exists_cell {ledger : Ledger κ ν} {cells : List γ} {entry : κ × Option ν}
    (represents : Represents key blank holds ledger cells) (member : entry ∈ ledger) :
    ∃ cell ∈ cells.take ledger.length, Slot key holds entry cell := by
  obtain ⟨slots, free, rfl, represented, -⟩ := represents
  rw [represented.length_eq, List.take_left]
  induction represented with
  | nil => cases member
  | cons slot _ inductionHypothesis =>
    obtain rfl | member := List.mem_cons.mp member
    · exact ⟨_, List.mem_cons_self, slot⟩
    · obtain ⟨cell, inside, slot⟩ := inductionHypothesis member
      exact ⟨cell, List.mem_cons_of_mem _ inside, slot⟩

/-- With distinct keys, an answer in the first cell of its key is an answer in the ledger. -/
theorem Represents.answer {ledger : Ledger κ ν} {cells : List γ} {wanted : κ} {value : ν}
    {index : Nat} {new : γ} (represents : Represents key blank holds ledger cells)
    (distinct : ledger.keys.Nodup) (found : keyIdx? key cells wanted = some index)
    (same : key new = wanted) (answered : holds value new) :
    Represents key blank holds (ledger.answer wanted value) (cells.set index new) := by
  obtain ⟨slots, free, rfl, represented, blanks⟩ := represents
  induction represented generalizing index with
  | nil =>
    -- No cell is claimed, so the wanted key is blank and the answer goes to a free cell.
    obtain ⟨cell, at', isWanted⟩ := keyIdx?_eq_some found
    refine represents_nil fun other member => ?_
    obtain member | rfl := List.mem_or_eq_of_mem_set member
    · exact blanks other member
    · rw [same, ← isWanted]
      exact blanks cell (List.mem_of_getElem? at')
  | @cons entry cell rest cells slot represented inductionHypothesis =>
    simp only [Ledger.keys, List.map_cons, List.nodup_cons] at distinct
    by_cases here : wanted = key cell
    · rw [List.cons_append, keyIdx?_cons_same here] at found
      cases found
      have isEntry : entry.1 = wanted := slot.1.symm.trans here.symm
      have absent : wanted ∉ Ledger.keys rest := isEntry ▸ distinct.1
      rw [Ledger.answer_cons, if_pos isEntry, Ledger.answer_of_not_mem absent]
      refine ⟨new :: cells, free, rfl, .cons ⟨same, ?_⟩ represented, blanks⟩
      intro other isValue
      cases isValue
      exact answered
    · rw [List.cons_append, keyIdx?_cons_other here, Option.map_eq_some_iff] at found
      obtain ⟨later, found, rfl⟩ := found
      obtain ⟨slots', free', split, represented', blanks'⟩ :=
        inductionHypothesis distinct.2 found
      have differs : entry.1 ≠ wanted := fun equal => here (equal.symm.trans slot.1.symm)
      rw [Ledger.answer_cons, if_neg differs]
      exact ⟨cell :: slots', free', by simpa using split, .cons slot represented', blanks'⟩

end Cells

/-! ## Cells in use -/

section Packed

variable {κ γ : Type} [DecidableEq κ] {key : γ → κ} {blank : κ}

omit [DecidableEq κ] in
theorem map_key_modify {claimed : κ} {part : γ → γ} (sets : ∀ cell, key (part cell) = claimed)
    (cells : List γ) (index : Nat) :
    (cells.modify index part).map key = (cells.map key).set index claimed := by
  induction cells generalizing index with
  | nil => simp
  | cons cell cells inductionHypothesis =>
    cases index with
    | zero => simp [sets]
    | succ index => simp [inductionHypothesis]

variable (key blank) in
/-- The cells in use come before the free ones. -/
def Packed (cells : List γ) : Prop :=
  ∃ used count, cells.map key = used ++ List.replicate count blank ∧ blank ∉ used

theorem freeIdx_of_keys {cells : List γ} {used : List κ} {count : Nat}
    (keys : cells.map key = used ++ List.replicate count blank) (proper : blank ∉ used) :
    freeIdx key blank cells = used.length := by
  induction used generalizing cells with
  | nil =>
    cases cells with
    | nil => rfl
    | cons cell cells =>
      cases count with
      | zero => cases keys
      | succ count => exact freeIdx_cons_blank (List.cons.inj keys).1 cells
  | cons first used inductionHypothesis =>
    cases cells with
    | nil => cases keys
    | cons cell cells =>
      obtain ⟨isFirst, rest⟩ := List.cons.inj keys
      rw [List.mem_cons, not_or] at proper
      rw [freeIdx_cons_key (isFirst ▸ Ne.symm proper.1), inductionHypothesis rest proper.2,
        List.length_cons]

omit [DecidableEq κ] in
theorem packed_congr {before after : List γ} (same : after.map key = before.map key) :
    Packed key blank after ↔ Packed key blank before := by
  rw [Packed, Packed, same]

omit [DecidableEq κ] in
theorem packed_replicate {cell : γ} (free : key cell = blank) (count : Nat) :
    Packed key blank (List.replicate count cell) :=
  ⟨[], count, by simp [free], List.not_mem_nil⟩

/-- A claim takes the cell behind those in use, or leaves it free. -/
theorem Packed.claim {cells : List γ} (packed : Packed key blank cells) {claimed : κ}
    {part : γ → γ} (sets : ∀ cell, key (part cell) = claimed) :
    Packed key blank (cells.modify (freeIdx key blank cells) part) := by
  obtain ⟨used, count, keys, proper⟩ := packed
  have claims := map_key_modify sets cells (freeIdx key blank cells)
  rw [freeIdx_of_keys keys proper, keys, List.set_append_right _ _ (Nat.le_refl _),
    Nat.sub_self] at claims
  rw [Packed, freeIdx_of_keys keys proper, claims]
  cases count with
  | zero => exact ⟨used, 0, rfl, proper⟩
  | succ count =>
    by_cases isBlank : claimed = blank
    · exact ⟨used, count + 1, by simp [List.replicate_succ, isBlank], proper⟩
    · exact ⟨used ++ [claimed], count, by simp [List.replicate_succ], by
        simpa [proper] using Ne.symm isBlank⟩

/-- In a packed table the index of the first free cell tells the cells in use. -/
theorem Packed.used_iff {cells : List γ} (packed : Packed key blank cells) {index : Nat} {cell : γ}
    (at' : cells[index]? = some cell) :
    key cell ≠ blank ↔ index < freeIdx key blank cells := by
  obtain ⟨used, count, keys, proper⟩ := packed
  have keyAt : (used ++ List.replicate count blank)[index]? = some (key cell) := by
    rw [← keys, List.getElem?_map, at']
    rfl
  rw [freeIdx_of_keys keys proper]
  by_cases inUse : index < used.length
  · rw [List.getElem?_append_left inUse] at keyAt
    have member := List.mem_of_getElem? keyAt
    exact iff_of_true (fun same => proper (same ▸ member)) inUse
  · rw [List.getElem?_append_right (Nat.le_of_not_lt inUse)] at keyAt
    have free := List.eq_of_mem_replicate (List.mem_of_getElem? keyAt)
    exact iff_of_false (fun differs => differs free) inUse

end Packed

/-! ## Keys over time -/

section FirstAt

variable {κ γ : Type} {key : γ → κ} {blank : κ}

/-- The first cell of a key. -/
def FirstAt (keys : List κ) (wanted : κ) (index : Nat) : Prop :=
  keys[index]? = some wanted ∧ ∀ earlier < index, keys[earlier]? ≠ some wanted

theorem FirstAt.unique {keys : List κ} {wanted : κ} {left right : Nat}
    (first : FirstAt keys wanted left) (second : FirstAt keys wanted right) : left = right := by
  obtain less | same | more := Nat.lt_trichotomy left right
  · exact absurd first.1 (second.2 left less)
  · exact same
  · exact absurd second.1 (first.2 right more)

theorem keyIdx?_eq_some_iff [DecidableEq κ] {cells : List γ} {wanted : κ} {index : Nat} :
    keyIdx? key cells wanted = some index ↔ FirstAt (cells.map key) wanted index := by
  rw [keyIdx?, List.findIdx?_eq_some_iff_getElem]
  constructor
  · rintro ⟨inside, same, earlier⟩
    refine ⟨?_, fun other less at' => ?_⟩
    · rw [List.getElem?_map, List.getElem?_eq_getElem inside, of_decide_eq_true same]
      rfl
    · rw [List.getElem?_map, List.getElem?_eq_getElem (Nat.lt_trans less inside),
        Option.map_some, Option.some_inj] at at'
      exact earlier other less (decide_eq_true at'.symm)
  · rintro ⟨at', earlier⟩
    obtain ⟨inside, same⟩ := List.getElem?_eq_some_iff.mp at'
    rw [List.length_map] at inside
    rw [List.getElem_map] at same
    refine ⟨inside, decide_eq_true same.symm, fun other less found => earlier other less ?_⟩
    rw [List.getElem?_map, List.getElem?_eq_getElem (Nat.lt_trans less inside),
      of_decide_eq_true found]
    rfl

/-- The keys in use stay in their cells. -/
def Keeps (blank : κ) (before after : List κ) : Prop :=
  ∀ (index : Nat) (used : κ), before[index]? = some used → used ≠ blank → after[index]? = some used

theorem keeps_refl (keys : List κ) : Keeps blank keys keys := fun _ _ at' _ => at'

theorem Keeps.trans {first second third : List κ} (left : Keeps blank first second)
    (right : Keeps blank second third) : Keeps blank first third :=
  fun index key at' proper => right index key (left index key at' proper) proper

theorem keeps_set {keys : List κ} {index : Nat} (free : keys[index]? = some blank) (claimed : κ) :
    Keeps blank keys (keys.set index claimed) := by
  intro other key at' proper
  have differs : index ≠ other := by
    rintro rfl
    exact proper (Option.some.inj (at'.symm.trans free))
  rw [List.getElem?_set_ne differs, at']

/-- The first cell of a key stays the first as long as there are no free cells before it. -/
theorem FirstAt.keeps {before after : List κ} {wanted : κ} {index : Nat}
    (first : FirstAt before wanted index) (proper : wanted ≠ blank)
    (used : ∀ earlier < index, before[earlier]? ≠ some blank) (keeps : Keeps blank before after) :
    FirstAt after wanted index := by
  obtain ⟨at', earlier⟩ := first
  refine ⟨keeps index wanted at' proper, fun other less found => ?_⟩
  obtain ⟨inside, _⟩ := List.getElem?_eq_some_iff.mp at'
  have here := List.getElem?_eq_getElem (Nat.lt_trans less inside)
  have kept := keeps other _ here fun isBlank => used other less (isBlank ▸ here)
  exact earlier other less (here.trans (kept.symm.trans found))

variable [DecidableEq κ]

theorem freeIdx_at {cells : List γ} (free : blank ∈ cells.map key) :
    (cells.map key)[freeIdx key blank cells]? = some blank := by
  have inside := (freeIdx_lt_iff key blank cells).mpr free
  have isFree : decide (key cells[freeIdx key blank cells] = blank) = true :=
    @List.findIdx_getElem _ (fun cell => decide (key cell = blank)) cells inside
  rw [List.getElem?_map, List.getElem?_eq_getElem inside, Option.map_some,
    of_decide_eq_true isFree]

omit [DecidableEq κ] in
/-- Before a cell in use there is no free one. -/
theorem Packed.used_before {cells : List γ} (packed : Packed key blank cells) {index : Nat}
    {wanted : κ} (at' : (cells.map key)[index]? = some wanted) (proper : wanted ≠ blank) :
    ∀ earlier < index, (cells.map key)[earlier]? ≠ some blank := by
  obtain ⟨used, count, keys, notBlank⟩ := packed
  rw [keys] at at' ⊢
  intro earlier less found
  by_cases inUse : index < used.length
  · rw [List.getElem?_append_left (Nat.lt_trans less inUse)] at found
    exact notBlank (List.mem_of_getElem? found)
  · rw [List.getElem?_append_right (Nat.le_of_not_lt inUse)] at at'
    exact proper (List.eq_of_mem_replicate (List.mem_of_getElem? at'))

end FirstAt

end CLib
