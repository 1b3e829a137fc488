import Mathlib.Data.List.Nodup

/-! # Journals

A list that grows at its end, and whose entries are told apart by their keys.  A reader that has read
it up to some entry asks for the entries behind the key of this entry.
-/

namespace CLib

variable {α κ : Type} {key : α → κ}

/-- The entries behind the first one with this key. -/
def entriesSince [DecidableEq κ] (key : α → κ) (last : κ) (journal : List α) : List α :=
  (journal.dropWhile fun entry => key entry ≠ last).drop 1

theorem entriesSince_split [DecidableEq κ] {before after : List α} {entry : α}
    (fresh : ∀ other ∈ before, key other ≠ key entry) :
    entriesSince key (key entry) (before ++ entry :: after) = after := by
  have passed : ∀ other ∈ before, decide (key other ≠ key entry) = true := by
    intro other member
    exact decide_eq_true (fresh other member)
  rw [entriesSince, List.dropWhile_append_of_pos passed, List.dropWhile_cons_of_neg (by simp)]
  rfl

/-- A journal in which every key occurs once. -/
def Keyed (key : α → κ) (journal : List α) : Prop := (journal.map key).Nodup

instance [DecidableEq κ] (journal : List α) : Decidable (Keyed key journal) :=
  inferInstanceAs (Decidable (List.Nodup _))

theorem Keyed.snoc {journal : List α} {entry : α} (keyed : Keyed key journal)
    (fresh : ∀ other ∈ journal, key other ≠ key entry) : Keyed key (journal ++ [entry]) := by
  rw [Keyed, List.map_append, List.map_singleton, List.nodup_append]
  refine ⟨keyed, List.nodup_singleton _, ?_⟩
  intro old member new isNew same
  obtain ⟨other, inJournal, rfl⟩ := List.mem_map.mp member
  obtain rfl := List.mem_singleton.mp isNew
  exact fresh other inJournal same

theorem Keyed.fresh {before after : List α} {entry : α}
    (keyed : Keyed key (before ++ entry :: after)) : ∀ other ∈ before, key other ≠ key entry := by
  intro other member same
  rw [Keyed, List.map_append, List.map_cons, List.nodup_append] at keyed
  exact keyed.2.2 _ (List.mem_map_of_mem member) _ List.mem_cons_self same

end CLib
