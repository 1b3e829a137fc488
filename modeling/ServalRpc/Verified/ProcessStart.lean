import ServalRpc.Model.FileStore

/-! # What an execution starts

Before its output is read, a procedure is refused, waits for a file, or runs as a process, and of the
procedure only the first parameter can have changed.
-/

namespace ServalRpc.Verified.ProcessStart

open CLib FileStore

variable {serval : Serval} {world : ExecuteWorld} {rp next : RPCProcedure}

/-- The path of a downloaded file may take the place of the first parameter. -/
theorem fetched_cases (fetch : fetchFirstParam serval world rp = .ok (some next)) :
    next = rp ∨ ∃ fpath, next = { rp with params := rp.params.store 0 (some fpath) } := by
  obtain ⟨first, _, fetch⟩ := bind_eq_ok_iff.mp fetch
  split at fetch
  · obtain ⟨caller, _, fetch⟩ := bind_eq_ok_iff.mp fetch
    obtain ⟨path, _, fetch⟩ := bind_eq_ok_iff.mp fetch
    cases path with
    | none => cases fetch
    | some fpath =>
      cases fetch
      exact .inr ⟨fpath, rfl⟩
  · cases fetch
    exact .inl rfl

/-- What is left of an execution once its start is known. -/
def afterStart (world : ExecuteWorld) (resultPayload : Block UInt8) :
    Started → Except Fault (Option ExecuteResult)
  | .refused rp => .ok (some ⟨0, resultPayload, rp⟩)
  | .downloading => .ok none
  | .running rp run => do
    let resultPayload ← ServalRpc.collectResult world run.output resultPayload
    pure (some ⟨if run.exitStatus ≠ 0 then 0 else 1, resultPayload, rp⟩)

theorem excecute_split (serval : Serval) (world : ExecuteWorld) (resultPayload : Block UInt8)
    (rp : RPCProcedure) :
    ServalRpc.rpcServerExcecute serval world resultPayload rp =
      startProcess serval world rp >>= afterStart world resultPayload := by
  unfold ServalRpc.rpcServerExcecute startProcess
  dsimp only
  split
  · rfl
  · cases fetchFirstParam serval world rp with
    | error fault => rfl
    | ok fetched =>
      cases fetched with
      | none => rfl
      | some next =>
        simp only [ok_bind]
        cases rpcFlattenParams next.paramc.paramcN.toNat next.params.cells (CString.ofChars [' ']) with
        | error fault => rfl
        | ok flat =>
          simp only [ok_bind]
          cases world.popen (world.sysconfdir ++ binFolder ++ rp.name ++ flat) <;> rfl

/-- The starts of an execution: it is refused at once, waits, or goes on with the fetched procedure. -/
theorem started_cases {started : Started} (start : startProcess serval world rp = .ok started) :
    started = .refused rp ∨ started = .downloading ∨
      ∃ next, fetchFirstParam serval world rp = .ok (some next) ∧
        (started = .refused next ∨
          ∃ line run, world.popen line = some run ∧ started = .running next run) := by
  unfold startProcess at start
  dsimp only at start
  split at start
  · cases start
    exact .inl rfl
  · obtain ⟨fetched, fetch, start⟩ := bind_eq_ok_iff.mp start
    cases fetched with
    | none =>
      cases start
      exact .inr (.inl rfl)
    | some next =>
      refine .inr (.inr ⟨next, fetch, ?_⟩)
      obtain ⟨flat, _, start⟩ := bind_eq_ok_iff.mp start
      split at start
      · cases start
        exact .inl rfl
      · rename_i run opened
        cases start
        exact .inr ⟨_, run, opened, rfl⟩

/-- An execution that returns has been refused, or its process has printed the packet. -/
theorem executed_cases {resultPayload : Block UInt8} {result : ExecuteResult}
    (executed : ServalRpc.rpcServerExcecute serval world resultPayload rp = .ok (some result)) :
    (result.rp = rp ∨ fetchFirstParam serval world rp = .ok (some result.rp)) ∧
      (result.returnCode = 0 ∨ ∃ line run, world.popen line = some run ∧
        ServalRpc.collectResult world run.output resultPayload = .ok result.resultPayload) := by
  rw [excecute_split] at executed
  obtain ⟨started, start, executed⟩ := bind_eq_ok_iff.mp executed
  obtain rfl | rfl | ⟨next, fetch, rfl | ⟨line, run, opened, rfl⟩⟩ := started_cases start
  · cases executed
    exact ⟨.inl rfl, .inl rfl⟩
  · cases executed
  · cases executed
    exact ⟨.inr fetch, .inl rfl⟩
  · obtain ⟨collectedPayload, collected, executed⟩ := bind_eq_ok_iff.mp executed
    cases executed
    exact ⟨.inr fetch, .inr ⟨line, run, opened, collected⟩⟩

end ServalRpc.Verified.ProcessStart
