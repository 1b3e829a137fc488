import Mathlib.Data.List.Induction
import Mathlib.Data.List.Nodup

/-! # Logs of attempts

A worker that attempts a task until an attempt has succeeded, and remembers the keys of the tasks
that are settled.  Its log has the attempts in their order.
-/

namespace CLib

variable {α κ : Type} {key : α → κ} {succeeded : α → Bool}

/-- The keys of the successful attempts. -/
def settled (key : α → κ) (succeeded : α → Bool) (log : List α) : List κ :=
  (log.filter succeeded).map key

@[simp] theorem settled_nil : settled key succeeded [] = [] := rfl

@[simp] theorem settled_append (left right : List α) :
    settled key succeeded (left ++ right) =
      settled key succeeded left ++ settled key succeeded right := by
  simp [settled]

theorem settled_singleton (entry : α) :
    settled key succeeded [entry] = if succeeded entry then [key entry] else [] := by
  cases success : succeeded entry with
  | false => simp [settled, success]
  | true => simp [settled, success]

theorem mem_settled_iff {log : List α} {settledKey : κ} :
    settledKey ∈ settled key succeeded log ↔
      ∃ entry ∈ log, succeeded entry = true ∧ key entry = settledKey := by
  simp [settled, and_assoc]

/-- No attempt is at a task that is settled. -/
def Diligent (key : α → κ) (succeeded : α → Bool) (log : List α) : Prop :=
  ∀ before entry after, log = before ++ entry :: after → key entry ∉ settled key succeeded before

theorem diligent_nil : Diligent key succeeded [] := by
  intro before entry after split
  exact absurd split.symm (List.append_ne_nil_of_right_ne_nil _ (List.cons_ne_nil _ _))

theorem Diligent.of_append {left right : List α}
    (diligent : Diligent key succeeded (left ++ right)) : Diligent key succeeded left := by
  intro before entry after split
  refine diligent before entry (after ++ right) ?_
  rw [split, List.append_assoc, List.cons_append]

theorem diligent_snoc_iff {log : List α} {entry : α} :
    Diligent key succeeded (log ++ [entry]) ↔
      Diligent key succeeded log ∧ key entry ∉ settled key succeeded log := by
  constructor
  · intro diligent
    exact ⟨diligent.of_append, diligent log entry [] rfl⟩
  · rintro ⟨diligent, unsettled⟩ before other after split
    obtain rfl | ⟨after, last, rfl⟩ := after.eq_nil_or_concat
    · obtain ⟨rfl, same⟩ := List.append_inj' split rfl
      obtain rfl := List.singleton_inj.mp same
      exact unsettled
    · rw [List.concat_eq_append, ← List.cons_append, ← List.append_assoc] at split
      obtain ⟨same, _⟩ := List.append_inj' split rfl
      exact diligent before other after same

/-- A diligent worker settles every task once. -/
theorem Diligent.nodup_settled {log : List α} (diligent : Diligent key succeeded log) :
    (settled key succeeded log).Nodup := by
  induction log using List.reverseRecOn with
  | nil => exact List.nodup_nil
  | append_singleton log entry inductionHypothesis =>
    obtain ⟨earlier, unsettled⟩ := diligent_snoc_iff.mp diligent
    rw [settled_append, settled_singleton]
    split
    · rw [List.nodup_append]
      refine ⟨inductionHypothesis earlier, List.nodup_singleton _, ?_⟩
      intro old member new same equal
      obtain rfl := List.mem_singleton.mp same
      exact unsettled (equal ▸ member)
    · rw [List.append_nil]
      exact inductionHypothesis earlier

/-- No task is attempted again after a failure, as far as the attempts count. -/
def FailsOnce (key : α → κ) (succeeded counts : α → Bool) (past : List α) (entry : α) : Prop :=
  counts entry = true → ∀ earlier ∈ past, counts earlier = true → key earlier = key entry →
    succeeded earlier = true

/-- A diligent worker counts a task twice exactly when it comes back to it after a failure. -/
theorem Diligent.nodup_counted_snoc_iff {counts : α → Bool} {log : List α} {entry : α}
    (diligent : Diligent key succeeded (log ++ [entry])) :
    (settled key counts (log ++ [entry])).Nodup ↔
      (settled key counts log).Nodup ∧ FailsOnce key succeeded counts log entry := by
  obtain ⟨_, unsettled⟩ := diligent_snoc_iff.mp diligent
  have repeated : key entry ∉ settled key counts log ↔
      ∀ earlier ∈ log, counts earlier = true → key earlier = key entry → succeeded earlier = true := by
    constructor
    · intro fresh earlier member counted same
      exact absurd (mem_settled_iff.mpr ⟨earlier, member, counted, same⟩) fresh
    · -- A counted attempt that has succeeded settles the task, so there is no other one.
      intro succeeds again
      obtain ⟨earlier, member, counted, same⟩ := mem_settled_iff.mp again
      exact unsettled (mem_settled_iff.mpr
        ⟨earlier, member, succeeds earlier member counted same, same⟩)
  rw [settled_append, settled_singleton, FailsOnce, ← repeated]
  split
  · rename_i counted
    rw [List.nodup_append_comm, List.singleton_append, List.nodup_cons]
    simp [counted, and_comm]
  · rename_i uncounted
    simp [uncounted]

end CLib
