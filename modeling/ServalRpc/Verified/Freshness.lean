import Mathlib.Order.Lattice
import Mathlib.Order.Defs.LinearOrder
import ServalRpc.Verified.Addressee
import ServalRpc.Verified.ResultManifest

/-! # How old a bundle may be

The listener subtracts milliseconds from seconds, so what it compares with its limit is not an age.
The two agree outside the interval between `now` and `1000 * now`, less the limit.  Inside lie
all bundles since January 1970 that are older than ten minutes.
-/

namespace ServalRpc.Verified.Freshness

open CLib Addressee Polling ResultManifest

variable {call : ClientCall}

/-! ## The age of a bundle -/

/-- Inserted less than 600000 ms before `now`, which is in seconds. -/
def Fresh (now inserttime : Int) : Prop :=
  1000 * now - inserttime < 600000

/-- The bundle is at most as young as both limits, or younger than both. -/
def OutsideLimits (now inserttime : Int) : Prop :=
  inserttime ≤ min now (1000 * now) - 600000 ∨ max now (1000 * now) - 600000 < inserttime

instance (now inserttime : Int) : Decidable (Fresh now inserttime) :=
  inferInstanceAs (Decidable (_ < _))

instance (now inserttime : Int) : Decidable (OutsideLimits now inserttime) :=
  inferInstanceAs (Decidable (_ ∨ _))

theorem limit_agrees_iff (now inserttime : Int) :
    (now - inserttime < 600000 ↔ Fresh now inserttime) ↔ OutsideLimits now inserttime := by
  unfold Fresh OutsideLimits
  omega

/-- What else the filter looks at. -/
def PassesOthers (call : ClientCall) (row : Row) : Prop :=
  ∃ service name, row.service = some service ∧ row.name = some name ∧
    serviceIsRpc service = true ∧ row.recipient = some (tohexSidT call.serval.mySid) ∧
    call.rpcName.bytes <+: name.bytes

/-- Of a row that passes otherwise the filter takes the difference of the two numbers. -/
theorem interestingRow_iff_limit {row : Row} (passes : PassesOthers call row) (now : Int) :
    interestingRow call now row = .ok true ↔ now - row.inserttime < 600000 := by
  obtain ⟨service, name, isService, isName, serviceIsRpc, notMyFile, nameIsRpc⟩ := passes
  rw [interestingRow_iff]
  constructor
  · rintro ⟨_, _, interesting⟩
    exact interesting.notToOld
  · intro notToOld
    exact ⟨service, name, isService, isName, serviceIsRpc, notMyFile, nameIsRpc, notToOld⟩

/-! ## The listener -/

/-- A visited row lies outside the limits. -/
def VisitsOutside (_ : ListenState) : ListenEvent → Prop
  | .visit row input => OutsideLimits input.now row.inserttime
  | _ => True

theorem fresh_of_interesting {row : Row} {now : Int} (outside : OutsideLimits now row.inserttime)
    (interesting : interestingRow call now row = .ok true) : Fresh now row.inserttime := by
  obtain ⟨service, name, checks⟩ := (interestingRow_iff call now row).mp interesting
  exact ((limit_agrees_iff now row.inserttime).mpr outside).mp checks.notToOld

/-- A row that is not taken leaves what the call has got as it is. -/
theorem visit_not_taken {state next : ListenState} {row : Row} {input : RowInput}
    (step : ListenStep call state (.visit row input) next)
    (notTaken : interestingRow call input.now row ≠ .ok true) :
    next.listener.rpcResult = state.listener.rpcResult ∧
      next.listener.received = state.listener.received ∧
      next.listener.returned = state.listener.returned := by
  cases step with
  | visit input goesOn pending isEvent round =>
    obtain ⟨-, rfl⟩ | ⟨taken, -⟩ := visit_event pending isEvent
    · cases round
      simp [RhizomeState.advance, pending]
    · exact absurd taken notTaken

/-- A bundle that is too old is no answer: no visit of it takes a RESPONSE, and the next one would
not either. -/
structure StaleIgnored (call : ClientCall) (events : List ListenEvent) (state : ListenState) :
    Prop where
  past : ∀ row input, .visit row input ∈ events → ¬ Fresh input.now row.inserttime →
    ¬ TakesResponse call (.visit row input)
  next : ∀ row input next, ListenStep call state (.visit row input) next →
    OutsideLimits input.now row.inserttime → ¬ Fresh input.now row.inserttime →
    next.listener.rpcResult = state.listener.rpcResult ∧
      next.listener.received = state.listener.received ∧
      next.listener.returned = state.listener.returned

theorem not_takesResponse_of_stale {row : Row} {input : RowInput}
    (outside : OutsideLimits input.now row.inserttime)
    (stale : ¬ Fresh input.now row.inserttime) : ¬ TakesResponse call (.visit row input) := by
  intro takes
  cases takes with
  | visit interesting _ _ _ => exact stale (fresh_of_interesting outside interesting)

theorem staleIgnored_of_run {store : List Row} {events : List ListenEvent} {state : ListenState}
    (run : GuardedRun (ListenStep call) VisitsOutside (.start store) events state) :
    StaleIgnored call events state := by
  refine ⟨?_, ?_⟩
  · refine @GuardedRun.invariant _ _ _ _ _ (fun events _ => ∀ row input,
      .visit row input ∈ events → ¬ Fresh input.now row.inserttime →
        ¬ TakesResponse call (.visit row input)) ?_ ?_ _ _ run
    · simp
    · intro past before event after ignored outside _ row input member stale
      obtain old | new := List.mem_append.mp member
      · exact ignored row input old stale
      · obtain rfl := List.mem_singleton.mp new
        exact not_takesResponse_of_stale outside stale
  · intro row input next step outside stale
    apply visit_not_taken step
    intro interesting
    exact stale (fresh_of_interesting outside interesting)

/-- The listener tests the age exactly outside the limits, and in a run whose rows lie there no
bundle that is too old becomes a result. -/
theorem stale_rejected_iff (call : ClientCall) :
    (∀ now row, PassesOthers call row →
      ((interestingRow call now row = .ok true ↔ Fresh now row.inserttime) ↔
        OutsideLimits now row.inserttime)) ∧
    ∀ store events state,
      GuardedRun (ListenStep call) VisitsOutside (.start store) events state →
        StaleIgnored call events state := by
  constructor
  · intro now row passes
    rw [interestingRow_iff_limit passes]
    exact limit_agrees_iff now row.inserttime
  · intro store events state run
    exact staleIgnored_of_run run

/-- A RESPONSE of the first days of 1970, met eleven days later. -/
def oldRow : Row := ReturnCodes.answerRow ReturnCodes.responseBody

def oldInput : RowInput := { ReturnCodes.answerInput ReturnCodes.responseBody with now := 1000000 }

theorem oldRow_passes : PassesOthers (ReturnCodes.callTo sidAny) oldRow :=
  ⟨serviceRpc, CString.ofChars ['a', 'd', 'd'], rfl, rfl, by decide, rfl, List.prefix_refl _⟩

theorem stale_rejected_old : ∃ events state,
    GuardedRun (ListenStep (ReturnCodes.callTo sidAny)) VisitsOutside (.start [oldRow]) events
      state ∧
    .visit oldRow oldInput ∈ events ∧ StaleIgnored (ReturnCodes.callTo sidAny) events state ∧
    (interestingRow (ReturnCodes.callTo sidAny) oldInput.now oldRow = .ok true ↔
      Fresh oldInput.now oldRow.inserttime) := by
  have start : GuardedRun (ListenStep (ReturnCodes.callTo sidAny)) VisitsOutside
      (.start [oldRow]) [] _ := .refl
  have poll : ListenStep (ReturnCodes.callTo sidAny) (.start [oldRow])
      (.poll 0 (some [oldRow])) _ := .poll 0 (some [oldRow]) rfl rfl rfl rfl rfl
  have polled := start.tail (show VisitsOutside _ (.poll 0 (some [oldRow])) from trivial) poll
  have outside : VisitsOutside ⟨[oldRow], { RhizomeState.entry with pending := [oldRow] },
      some [oldRow], [oldRow]⟩ (.visit oldRow oldInput) :=
    show OutsideLimits oldInput.now oldRow.inserttime by decide
  have visited := polled.tail outside (.visit oldInput rfl rfl rfl rfl)
  obtain ⟨tests, runs⟩ := stale_rejected_iff (ReturnCodes.callTo sidAny)
  exact ⟨_, _, visited, by simp, runs _ _ _ visited,
    (tests oldInput.now oldRow oldRow_passes).mpr outside⟩

/-- A RESPONSE of September 2020, met in November 2023. -/
def staleRow : Row := { oldRow with inserttime := 1600000000000 }

/-- It passes for a fresh one. -/
theorem stale_taken :
    ¬ Fresh 1700000000 staleRow.inserttime ∧
      interestingRow (ReturnCodes.callTo sidAny) 1700000000 staleRow = .ok true ∧
      TakesResponse (ReturnCodes.callTo sidAny)
        (.visit staleRow { oldInput with now := 1700000000 }) := by
  have taken : interestingRow (ReturnCodes.callTo sidAny) 1700000000 staleRow = .ok true :=
    (interestingRow_iff_limit (show PassesOthers _ staleRow from oldRow_passes) 1700000000).mpr
      (by decide)
  exact ⟨by decide, taken, .visit taken rfl rfl rfl⟩

end ServalRpc.Verified.Freshness
