import ServalRpc.CLib.Memory

/-! # Walks over the items of a list

A loop visits the items of a list in order, each in a world of its own, and a visit may end it.  The
walk succeeds in all worlds exactly when the visits do, once every visit has a world in which the loop
goes on.
-/

namespace CLib

variable {ω σ ι ε : Type}

/-- The loop from an item on; the flag of a visit tells whether the loop goes on. -/
def walk (visit : ω → σ → ι → Except ε (σ × Bool)) : List ι → (Nat → ω) → σ → Except ε σ
  | [], _, state => .ok state
  | item :: items, worlds, state => do
    let (state, goesOn) ← visit (worlds 0) state item
    if goesOn then walk visit items (fun index => worlds (index + 1)) state else pure state

/-- `world` for the first item and `worlds` for the others. -/
def consWorld (world : ω) (worlds : Nat → ω) : Nat → ω
  | 0 => world
  | index + 1 => worlds index

section Walk

variable {visit : ω → σ → ι → Except ε (σ × Bool)}

/-- The visit of an item succeeds in every world. -/
def VisitSafe (visit : ω → σ → ι → Except ε (σ × Bool)) (state : σ) (item : ι) : Prop :=
  ∀ world, ∃ result, visit world state item = .ok result

/-- The walk succeeds in all worlds. -/
def WalkSafe (visit : ω → σ → ι → Except ε (σ × Bool)) (items : List ι) (state : σ) : Prop :=
  ∀ worlds, ∃ final, walk visit items worlds state = .ok final

theorem walkSafe_nil (state : σ) : WalkSafe visit [] state :=
  fun _ => ⟨state, rfl⟩

/-- A walk is safe when its first visit is, and the rest is wherever that visit may leave it. -/
theorem walkSafe_cons_iff (item : ι) (items : List ι) (state : σ) :
    WalkSafe visit (item :: items) state ↔
      VisitSafe visit state item ∧
        ∀ world next, visit world state item = .ok (next, true) → WalkSafe visit items next := by
  constructor
  · intro safe
    refine ⟨fun world => ?_, fun world next visited worlds => ?_⟩
    · obtain ⟨final, walked⟩ := safe fun _ => world
      obtain ⟨result, visited, _⟩ := bind_eq_ok_iff.mp walked
      exact ⟨result, visited⟩
    · obtain ⟨final, walked⟩ := safe (consWorld world worlds)
      obtain ⟨result, visited', walked⟩ := bind_eq_ok_iff.mp walked
      cases visited.symm.trans visited'
      exact ⟨final, walked⟩
  · rintro ⟨first, rest⟩ worlds
    obtain ⟨⟨next, goesOn⟩, visited⟩ := first (worlds 0)
    rw [walk, visited, ok_bind]
    cases goesOn with
    | true => exact rest (worlds 0) next visited _
    | false => exact ⟨next, rfl⟩

/-- Where every visit may change nothing, the walk comes to each item in each state. -/
theorem forall_walkSafe_iff
    (quiet : ∀ state item, VisitSafe visit state item →
      ∃ world, visit world state item = .ok (state, true)) (items : List ι) :
    (∀ state, WalkSafe visit items state) ↔ ∀ item ∈ items, ∀ state, VisitSafe visit state item := by
  induction items with
  | nil => simp [walkSafe_nil]
  | cons item items inductionHypothesis =>
    rw [List.forall_mem_cons, ← inductionHypothesis]
    constructor
    · intro safe
      have first state := ((walkSafe_cons_iff item items state).mp (safe state)).1
      refine ⟨first, fun state => ?_⟩
      obtain ⟨world, visited⟩ := quiet state item (first state)
      exact ((walkSafe_cons_iff item items state).mp (safe state)).2 world state visited
    · rintro ⟨first, rest⟩ state
      exact (walkSafe_cons_iff item items state).mpr ⟨first state, fun _ next _ => rest next⟩

/-- The same from one state, where the state does not decide whether a visit succeeds. -/
theorem walkSafe_iff_of_independent
    (independent : ∀ state state' item, VisitSafe visit state item → VisitSafe visit state' item)
    (goesOn : ∀ state item, VisitSafe visit state item →
      ∃ world next, visit world state item = .ok (next, true)) (items : List ι) (state : σ) :
    WalkSafe visit items state ↔ ∀ item ∈ items, VisitSafe visit state item := by
  induction items generalizing state with
  | nil => simp [walkSafe_nil]
  | cons item items inductionHypothesis =>
    rw [List.forall_mem_cons, walkSafe_cons_iff]
    refine and_congr_right fun first => ?_
    constructor
    · intro rest
      obtain ⟨world, next, visited⟩ := goesOn state item first
      have safe := (inductionHypothesis next).mp (rest world next visited)
      exact fun item member => independent next state item (safe item member)
    · intro safe world next _
      apply (inductionHypothesis next).mpr
      exact fun item member => independent state next item (safe item member)

end Walk

end CLib
