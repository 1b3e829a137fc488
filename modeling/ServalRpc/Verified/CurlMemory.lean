import ServalRpc.CLib.Run
import ServalRpc.Model.CurlMemory

/-! # What cURL memory holds

After every sequence of calls that starts with an initialisation the memory is the body so far
and one NUL.  The next call finds the record in no other state, so its copy stays inside the
block, and the size of the block and the recorded one never drift apart.
-/

namespace ServalRpc.Verified.CurlMemory

open CLib

/-! ## The invariant -/

/-- The record as its readers use it: `size` bytes of the body, a NUL behind them and no more. -/
structure HoldsBody (body : List UInt8) (mem : CurlResultMemory) : Prop where
  block : ∃ memory, mem.memory = some memory ∧ memory.length = mem.size + 1 ∧
    memory.take mem.size = body ∧ memory[mem.size]? = some 0
  small : mem.size < ptrdiffMax

theorem holdsBody_iff {body : List UInt8} {mem : CurlResultMemory} :
    HoldsBody body mem ↔
      mem = ⟨some (body ++ [0]), body.length⟩ ∧ body.length < ptrdiffMax := by
  constructor
  · rintro ⟨⟨memory, allocated, length, front, terminator⟩, small⟩
    have size : body.length = mem.size := by
      rw [← front, List.length_take, length]
      omega
    obtain ⟨inside, last⟩ := List.getElem?_eq_some_iff.mp terminator
    have whole : memory = body ++ [0] := by
      rw [← front, ← last, List.take_append_getElem inside]
      exact (List.take_of_length_le (Nat.le_of_eq length)).symm
    cases mem
    simp_all
  · rintro ⟨rfl, small⟩
    exact ⟨⟨_, rfl, by simp, by simp, by simp⟩, small⟩

/-- The body that a reader of the record expects behind a call. -/
def extendBody (body : List UInt8) (call : CurlCall) : List UInt8 :=
  match call with
  | .init _ => []
  | .reinit _ => []
  | .write .. => body ++ call.chunk

/-- The chunks of a sequence of calls since its last initialisation. -/
def bodyOf (calls : List CurlCall) : List UInt8 :=
  calls.foldl extendBody []

theorem bodyOf_append (past : List CurlCall) (call : CurlCall) :
    bodyOf (past ++ [call]) = extendBody (bodyOf past) call := by
  rw [bodyOf, List.foldl_append]
  rfl

/-! ## Single calls -/

/-- The allocation is granted and the chunk is what cURL promises. -/
def Permitted (mem : CurlResultMemory) (call : CurlCall) : Prop :=
  call.Allocates mem ∧ call.HandsOver

theorem holdsBody_init : HoldsBody [] (rpcCurlInitMemory true) :=
  holdsBody_iff.mpr ⟨rfl, by decide⟩

theorem holdsBody_reinit (mem : CurlResultMemory) : HoldsBody [] (rpcCurlReinitMemory true mem) :=
  holdsBody_iff.mpr ⟨rfl, by decide⟩

/-- A write extends the body by its chunk. -/
theorem write_spec {body contents : List UInt8} {mem : CurlResultMemory}
    {heap : Option (Nat → UInt8)} {size nmemb : Nat} (holds : HoldsBody body mem)
    (permitted : Permitted mem (.write heap contents size nmemb)) :
    ∃ next, rpcCurlWriteResponse heap contents size nmemb mem = .ok (size * nmemb, next) ∧
      HoldsBody (body ++ contents.take (size * nmemb)) next := by
  obtain ⟨rfl, small⟩ := holdsBody_iff.mp holds
  obtain ⟨granted, enough, object⟩ := permitted
  obtain ⟨block, granted⟩ := Option.isSome_iff_exists.mp granted
  have bound : ptrdiffMax = 2 ^ 63 - 1 := rfl
  have length : (contents.take (size * nmemb)).length = size * nmemb := by
    rw [List.length_take]
    omega
  -- Two objects and a terminator are smaller than what a `size_t` counts, so nothing wraps.
  have realsize : size * nmemb % 2 ^ 64 = size * nmemb := Nat.mod_eq_of_lt (by omega)
  have total : (body.length + size * nmemb + 1) % 2 ^ 64 = body.length + size * nmemb + 1 :=
    Nat.mod_eq_of_lt (by omega)
  have sum : (body.length + size * nmemb) % 2 ^ 64 = body.length + size * nmemb :=
    Nat.mod_eq_of_lt (by omega)
  simp only [realsize, total] at granted
  have read := loadRange_of_le (show 0 + size * nmemb ≤ contents.length by omega)
  rw [List.drop_zero] at read
  rw [← length] at granted
  obtain ⟨copied, copy, ended⟩ := append_terminated _ granted
  obtain ⟨fits, -⟩ := realloc_grows (by simp) granted
  rw [length] at granted ended fits
  refine ⟨⟨some (body ++ contents.take (size * nmemb) ++ [0]), body.length + size * nmemb⟩, ?_, ?_⟩
  · simp only [rpcCurlWriteResponse, realsize, total, granted, read, ok_bind, copy, sum, ended]
  · apply holdsBody_iff.mpr
    rw [List.length_append, length]
    exact ⟨rfl, fits⟩

theorem perform_spec {body : List UInt8} {mem : CurlResultMemory} {call : CurlCall}
    (holds : HoldsBody body mem) (permitted : Permitted mem call) :
    ∃ next, call.perform mem = .ok (call.chunk.length, next) ∧
      HoldsBody (extendBody body call) next := by
  cases call with
  | init granted =>
    obtain rfl : granted = true := permitted.1
    exact ⟨_, rfl, holdsBody_init⟩
  | reinit granted =>
    obtain rfl : granted = true := permitted.1
    exact ⟨_, rfl, holdsBody_reinit mem⟩
  | write heap contents size nmemb =>
    have length : (contents.take (size * nmemb)).length = size * nmemb := by
      rw [List.length_take]
      exact Nat.min_eq_left permitted.2.1
    rw [CurlCall.chunk, length]
    exact write_spec holds permitted

/-! ## Sequences of calls -/

/-- A call that returns. -/
def Performs (mem : CurlResultMemory) (call : CurlCall) (next : CurlResultMemory) : Prop :=
  ∃ written, call.perform mem = .ok (written, next)

/-- Sequences of permitted calls on a record, the first of which initialises it. -/
structure CurlRun (unused : CurlResultMemory) (calls : List CurlCall) (mem : CurlResultMemory) :
    Prop where
  first : ∃ granted rest, calls = .init granted :: rest
  run : GuardedRun Performs Permitted unused calls mem

/-- The invariant of all runs: those that have not begun with `init` are not spoken of. -/
def HoldsOnceInitialised (calls : List CurlCall) (mem : CurlResultMemory) : Prop :=
  (∃ granted rest, calls = .init granted :: rest) → HoldsBody (bodyOf calls) mem

theorem holdsOnceInitialised_step {past : List CurlCall} {mem next : CurlResultMemory}
    {call : CurlCall} (holds : HoldsOnceInitialised past mem) (permitted : Permitted mem call)
    (performed : Performs mem call next) : HoldsOnceInitialised (past ++ [call]) next := by
  rintro ⟨granted, rest, first⟩
  obtain ⟨written, performed⟩ := performed
  rw [bodyOf_append]
  cases past with
  | nil =>
    obtain ⟨rfl, -⟩ := List.cons.inj first
    cases performed
    obtain rfl : granted = true := permitted.1
    exact holdsBody_init
  | cons earlier past =>
    obtain ⟨rfl, -⟩ := List.cons.inj first
    obtain ⟨after, same, holdsAfter⟩ := perform_spec (holds ⟨granted, past, rfl⟩) permitted
    cases performed.symm.trans same
    exact holdsAfter

theorem holdsBody_of_run {unused mem : CurlResultMemory} {calls : List CurlCall}
    (run : CurlRun unused calls mem) : HoldsBody (bodyOf calls) mem := by
  have initially : HoldsOnceInitialised [] unused := by
    rintro ⟨granted, rest, empty⟩
    cases empty
  have holds : HoldsOnceInitialised calls mem :=
    GuardedRun.invariant initially (fun _ _ _ _ => holdsOnceInitialised_step) run.run
  exact holds run.first

/-- In every such sequence the record holds the body, and the next call returns as many bytes as
it was handed, without leaving a block. -/
theorem curl_memory_holds_body {unused mem : CurlResultMemory} {calls : List CurlCall}
    (run : CurlRun unused calls mem) :
    HoldsBody (bodyOf calls) mem ∧
      ∀ call, Permitted mem call →
        ∃ next, call.perform mem = .ok (call.chunk.length, next) ∧
          CurlRun unused (calls ++ [call]) next ∧ HoldsBody (bodyOf (calls ++ [call])) next := by
  have holds := holdsBody_of_run run
  refine ⟨holds, ?_⟩
  intro call permitted
  obtain ⟨next, performed, holdsNext⟩ := perform_spec holds permitted
  obtain ⟨granted, rest, rfl⟩ := run.first
  refine ⟨next, performed, ?_, ?_⟩
  · exact ⟨⟨granted, rest ++ [call], rfl⟩, .tail run.run permitted ⟨_, performed⟩⟩
  · rw [bodyOf_append]
    exact holdsNext

/-- `{` and then an empty chunk, on a heap whose cells hold 255. -/
theorem curl_memory_holds_body_chunks :
    HoldsBody [123] ⟨some [123, 0], 1⟩ := by
  have initialised : GuardedRun Performs Permitted ⟨none, 7⟩ [.init true] ⟨some [0], 0⟩ :=
    .tail .refl ⟨rfl, trivial⟩ ⟨0, rfl⟩
  have first : GuardedRun Performs Permitted ⟨none, 7⟩
      ([.init true] ++ [.write (some fun _ => 255) [123] 1 1]) ⟨some [123, 0], 1⟩ :=
    .tail initialised ⟨rfl, by decide, by decide⟩ ⟨1, rfl⟩
  have second : GuardedRun Performs Permitted ⟨none, 7⟩
      ([.init true] ++ [.write (some fun _ => 255) [123] 1 1] ++
        [.write (some fun _ => 255) [] 1 0]) ⟨some [123, 0], 1⟩ :=
    .tail first ⟨rfl, by decide, by decide⟩ ⟨0, rfl⟩
  exact (curl_memory_holds_body ⟨⟨true, _, rfl⟩, second⟩).1

end ServalRpc.Verified.CurlMemory
