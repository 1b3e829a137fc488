import ServalRpc.CLib.AttemptLog
import ServalRpc.Verified.Delivery

/-! # The calls that are done

A poll attempts the eligible rows of its listing: it acknowledges the call, executes it, and
records the id of the row when the execution has succeeded.  So the list of done calls settles every
id once, and the acknowledgements are repeated as long as the execution fails.
-/

namespace ServalRpc.Verified.DoneCalls

open CLib HandlerSteps

/-! ## Attempts -/

structure Attempt where
  visit : Visit
  rp : RPCProcedure
  caller : Sid
  result : ExecuteResult

def Attempt.id (attempt : Attempt) : CString := attempt.visit.row.id

/-- `_rpc_server_excecute` has returned non-zero. -/
def Attempt.succeeded (attempt : Attempt) : Bool := attempt.result.returnCode != 0

def Attempt.ack (serval : Serval) (attempt : Attempt) : Publication :=
  rowAck serval attempt.visit attempt.caller attempt.rp.name

/-- The store has taken the bundle of the ACK. -/
def Attempt.acked (attempt : Attempt) : Bool := attempt.visit.world.ackInsertion.accepted

def Attempt.actions (serval : Serval) (attempt : Attempt) : List ServerAction :=
  .publish (attempt.ack serval) :: .excecute attempt.rp ::
    if attempt.result.returnCode = 0 then []
    else [.publish (rowAnswer serval attempt.visit attempt.caller attempt.rp.name attempt.result)]

/-- One round of the loop over the rows, and the attempt in it if there is one. -/
def RowLog (serval : Serval) (state : ProcessState) (visit : Visit) (log : List Attempt)
    (next : ProcessState) (goesOn : Bool) : Prop :=
  rhizomeRound serval state visit = .ok (next, goesOn) ∧
    ((∃ attempt, log = [attempt] ∧ attempt.visit = visit ∧
        Eligible serval state.doneCalls visit attempt.rp ∧
        Attempted serval visit attempt.rp attempt.caller attempt.result state next ∧
        goesOn = true) ∨
      (log = [] ∧ (¬ ∃ rp, Eligible serval state.doneCalls visit rp) ∧
        next.doneCalls = state.doneCalls ∧ next.actions = state.actions))

/-- The loop over the rows, with its attempts and whether it runs to its end. -/
inductive LoopLog (serval : Serval) :
    ProcessState → List Visit → List Attempt → ProcessState → Bool → Prop where
  | done {state : ProcessState} : LoopLog serval state [] [] state true
  | next {state next final : ProcessState} {visit : Visit} {visits : List Visit}
      {log rest : List Attempt} {completed : Bool} :
      RowLog serval state visit log next true → LoopLog serval next visits rest final completed →
      LoopLog serval state (visit :: visits) (log ++ rest) final completed
  | stopped {state next : ProcessState} {visit : Visit} {visits : List Visit}
      {log : List Attempt} :
      RowLog serval state visit log next false →
      LoopLog serval state (visit :: visits) log next false

section Rows

variable {serval : Serval}

theorem rowLog_total {state next : ProcessState} {visit : Visit} {goesOn : Bool}
    (round : rhizomeRound serval state visit = .ok (next, goesOn)) :
    ∃ log, RowLog serval state visit log next goesOn := by
  obtain ⟨rp, caller, result, eligible, attempted, on⟩ | ⟨ineligible, same⟩ := round_attempts round
  · exact ⟨[⟨visit, rp, caller, result⟩], round, .inl ⟨_, rfl, rfl, eligible, attempted, on⟩⟩
  · exact ⟨[], round, .inr ⟨rfl, ineligible, same⟩⟩

theorem loopLog_total {state final : ProcessState} {visits : List Visit}
    (looped : rhizomeLoop serval state visits = .ok final) :
    ∃ log completed, LoopLog serval state visits log final completed := by
  induction visits generalizing state with
  | nil =>
    cases looped
    exact ⟨[], true, .done⟩
  | cons visit visits inductionHypothesis =>
    obtain ⟨⟨next, goesOn⟩, round, looped⟩ := bind_eq_ok_iff.mp looped
    obtain ⟨log, row⟩ := rowLog_total round
    cases goesOn with
    | false =>
      cases looped
      exact ⟨log, false, .stopped row⟩
    | true =>
      obtain ⟨rest, completed, later⟩ := inductionHypothesis looped
      exact ⟨log ++ rest, completed, .next row later⟩

theorem rowLog_of_attempted {state next : ProcessState} {visit : Visit} {rp : RPCProcedure}
    {caller : Sid} {result : ExecuteResult} (eligible : Eligible serval state.doneCalls visit rp)
    (round : rhizomeRound serval state visit = .ok (next, true))
    (attempted : Attempted serval visit rp caller result state next) :
    RowLog serval state visit [⟨visit, rp, caller, result⟩] next true :=
  ⟨round, .inl ⟨_, rfl, rfl, eligible, attempted, rfl⟩⟩

/-- The loop passes over the row of a call that is done. -/
theorem rowLog_of_done {state : ProcessState} {visit : Visit} {service : CString}
    (isService : visit.row.service = some service) (done : visit.row.id ∈ state.doneCalls) :
    RowLog serval state visit [] state true := by
  have notWanted : wantedRow serval state.doneCalls visit.row ≠ .ok true := by
    intro wanted
    obtain ⟨_, _, _, _, notDone, _⟩ := wantedRow_iff.mp wanted
    exact notDone done
  refine ⟨?_, .inr ⟨rfl, ?_, rfl, rfl⟩⟩
  · obtain ⟨wanted, filtered⟩ : ∃ wanted, wantedRow serval state.doneCalls visit.row = .ok wanted := by
      rw [wantedRow, isService]
      exact ⟨_, rfl⟩
    cases wanted with
    | true => exact absurd filtered notWanted
    | false =>
      rw [rhizomeRound, filtered]
      rfl
  · rintro ⟨rp, payload, call, _⟩
    exact notWanted call.wanted

theorem LoopLog.looped {state final : ProcessState} {visits : List Visit} {log : List Attempt}
    {completed : Bool} (loop : LoopLog serval state visits log final completed) :
    rhizomeLoop serval state visits = .ok final := by
  induction loop with
  | done => rfl
  | next row _ inductionHypothesis =>
    rw [rhizomeLoop, row.1]
    exact inductionHypothesis
  | stopped row =>
    rw [rhizomeLoop, row.1]
    rfl

/-- A round has one log. -/
theorem RowLog.unique {state next next' : ProcessState} {visit : Visit} {log log' : List Attempt}
    {goesOn goesOn' : Bool} (left : RowLog serval state visit log next goesOn)
    (right : RowLog serval state visit log' next' goesOn') :
    log = log' ∧ next = next' ∧ goesOn = goesOn' := by
  obtain ⟨round, outcome⟩ := left
  obtain ⟨round', outcome'⟩ := right
  cases round.symm.trans round'
  refine ⟨?_, rfl, rfl⟩
  obtain ⟨attempt, rfl, isVisit, eligible, attempted, _⟩ | ⟨rfl, ineligible, _⟩ := outcome
  · obtain ⟨attempt', rfl, isVisit', eligible', attempted', _⟩ | ⟨_, ineligible', _⟩ := outcome'
    · obtain ⟨visit', rp, caller, result⟩ := attempt
      obtain ⟨visit'', rp', caller', result'⟩ := attempt'
      cases isVisit
      cases isVisit'
      cases eligible.unique eligible'
      cases attempted.isCaller.symm.trans attempted'.isCaller
      cases attempted.executed.symm.trans attempted'.executed
      rfl
    · exact absurd ⟨_, eligible⟩ ineligible'
  · obtain ⟨attempt', _, _, eligible', _⟩ | ⟨rfl, _⟩ := outcome'
    · exact absurd ⟨_, eligible'⟩ ineligible
    · rfl

/-- What a round adds to the list and to the actions is that of its attempt. -/
theorem RowLog.effect {state next : ProcessState} {visit : Visit} {log : List Attempt}
    {goesOn : Bool} (row : RowLog serval state visit log next goesOn) :
    next.doneCalls = state.doneCalls ++ settled Attempt.id Attempt.succeeded log ∧
      next.actions = state.actions ++ log.flatMap (Attempt.actions serval) := by
  obtain ⟨_, ⟨attempt, rfl, rfl, _, attempted, _⟩ | ⟨rfl, _, doneCalls, actions⟩⟩ := row
  · constructor
    · rw [attempted.doneCalls, settled_singleton, Attempt.succeeded]
      by_cases failed : attempt.result.returnCode = 0
      · simp [failed]
      · simp [failed, Attempt.id]
    · rw [attempted.actions, List.flatMap_singleton]
      rfl
  · simp [doneCalls, actions]

theorem LoopLog.effect {state final : ProcessState} {visits : List Visit} {log : List Attempt}
    {completed : Bool} (loop : LoopLog serval state visits log final completed) :
    final.doneCalls = state.doneCalls ++ settled Attempt.id Attempt.succeeded log ∧
      final.actions = state.actions ++ log.flatMap (Attempt.actions serval) := by
  induction loop with
  | done => simp
  | next row _ inductionHypothesis =>
    obtain ⟨doneCalls, actions⟩ := row.effect
    obtain ⟨doneCalls', actions'⟩ := inductionHypothesis
    rw [doneCalls', actions', doneCalls, actions, settled_append, List.flatMap_append,
      List.append_assoc, List.append_assoc]
    exact ⟨rfl, rfl⟩
  | stopped row => exact row.effect

/-- A row that is done is not attempted. -/
theorem RowLog.diligent {state next : ProcessState} {visit : Visit} {past log : List Attempt}
    {goesOn : Bool} (row : RowLog serval state visit log next goesOn)
    (diligent : Diligent Attempt.id Attempt.succeeded past)
    (recorded : state.doneCalls = settled Attempt.id Attempt.succeeded past) :
    Diligent Attempt.id Attempt.succeeded (past ++ log) := by
  obtain ⟨_, ⟨attempt, rfl, rfl, ⟨payload, call, _⟩, _⟩ | ⟨rfl, _⟩⟩ := row
  · obtain ⟨_, _, _, _, notDone, _⟩ := wantedRow_iff.mp call.wanted
    rw [recorded] at notDone
    exact diligent_snoc_iff.mpr ⟨diligent, notDone⟩
  · rwa [List.append_nil]

theorem LoopLog.diligent {state final : ProcessState} {visits : List Visit}
    {past log : List Attempt} {completed : Bool}
    (loop : LoopLog serval state visits log final completed)
    (diligent : Diligent Attempt.id Attempt.succeeded past)
    (recorded : state.doneCalls = settled Attempt.id Attempt.succeeded past) :
    Diligent Attempt.id Attempt.succeeded (past ++ log) := by
  induction loop generalizing past with
  | done => rwa [List.append_nil]
  | next row _ inductionHypothesis =>
    rw [← List.append_assoc]
    refine inductionHypothesis (row.diligent diligent recorded) ?_
    rw [row.effect.1, recorded, settled_append]
  | stopped row => exact row.diligent diligent recorded

/-- Of the calls that are done, only the one in the row itself matters. -/
theorem eligible_of_not_done {doneCalls doneCalls' : List CString} {visit : Visit}
    {rp : RPCProcedure} (eligible : Eligible serval doneCalls visit rp)
    (notDone : visit.row.id ∉ doneCalls') : Eligible serval doneCalls' visit rp := by
  obtain ⟨payload, ⟨wanted, copied, type⟩, accepted⟩ := eligible
  obtain ⟨service, isService, isRpc, forUs, _, size⟩ := wantedRow_iff.mp wanted
  exact ⟨payload, ⟨wantedRow_iff.mpr ⟨service, isService, isRpc, forUs, notDone, size⟩, copied, type⟩,
    accepted⟩

/-- A row that is eligible when the loop starts is attempted, unless its call is done on the way. -/
theorem LoopLog.attempts {state final : ProcessState} {visits : List Visit} {log : List Attempt}
    {completed : Bool} (loop : LoopLog serval state visits log final completed)
    (toTheEnd : completed = true) {visit : Visit} (member : visit ∈ visits) {rp : RPCProcedure}
    (eligible : Eligible serval state.doneCalls visit rp) :
    (∃ attempt ∈ log, attempt.visit = visit) ∨
      visit.row.id ∈ settled Attempt.id Attempt.succeeded log := by
  induction loop with
  | done => cases member
  | stopped => cases toTheEnd
  | @next state next final first visits log rest completed row _ inductionHypothesis =>
    obtain rfl | later := List.mem_cons.mp member
    · obtain ⟨_, ⟨attempt, rfl, isVisit, _⟩ | ⟨_, ineligible, _⟩⟩ := row
      · exact .inl ⟨attempt, by simp, isVisit⟩
      · exact absurd ⟨rp, eligible⟩ ineligible
    · rw [settled_append, List.mem_append]
      -- Another row with the same id may have been executed in front of it.
      by_cases doneNow : visit.row.id ∈ settled Attempt.id Attempt.succeeded log
      · exact .inr (.inl doneNow)
      · have notDone : visit.row.id ∉ next.doneCalls := by
          obtain ⟨payload, call, _⟩ := eligible
          obtain ⟨_, _, _, _, notBefore, _⟩ := wantedRow_iff.mp call.wanted
          rw [row.effect.1, List.mem_append, not_or]
          exact ⟨notBefore, doneNow⟩
        have stillEligible := eligible_of_not_done eligible notDone
        obtain ⟨attempt, logged, isVisit⟩ | doneLater :=
          inductionHypothesis toTheEnd later stillEligible
        · exact .inl ⟨attempt, List.mem_append_right _ logged, isVisit⟩
        · exact .inr (.inr doneLater)

end Rows

/-! ## Polls -/

/-- The server between two polls, with the attempts so far. -/
structure PollState where
  doneCalls : List CString
  actions : List ServerAction
  log : List Attempt

def PollState.initial : PollState := ⟨[], [], []⟩

/-- A poll: the listing it gets, its attempts, and whether its loop over the rows runs to the end. -/
structure Poll where
  listing : Option (List Visit)
  log : List Attempt
  completed : Bool

/-- One call of `_rpc_server_rhizome_process` that returns. -/
structure PollStep (serval : Serval) (state : PollState) (poll : Poll) (next : PollState) :
    Prop where
  loop : ∃ final, LoopLog serval ⟨0, state.doneCalls, []⟩ (poll.listing.getD []) poll.log final
      poll.completed ∧
    next.doneCalls = final.doneCalls ∧ next.actions = state.actions ++ final.actions
  process : ∃ result, rpcServerRhizomeProcess serval state.doneCalls poll.listing = .ok result ∧
    next.doneCalls = result.doneCalls ∧ next.actions = state.actions ++ result.actions
  log : next.log = state.log ++ poll.log

/-- A run of polls, none of which is restricted. -/
abbrev PollRun (serval : Serval) : List Poll → PollState → Prop :=
  GuardedRun (PollStep serval) (fun _ _ => True) .initial

section Polls

variable {serval : Serval}

/-- Every poll that returns is a step. -/
theorem pollStep_of_process {state : PollState} {listing : Option (List Visit)}
    {result : ProcessState}
    (processed : rpcServerRhizomeProcess serval state.doneCalls listing = .ok result) :
    ∃ log completed, PollStep serval state ⟨listing, log, completed⟩
      ⟨result.doneCalls, state.actions ++ result.actions, state.log ++ log⟩ := by
  have looped : ∃ final log completed,
      LoopLog serval ⟨0, state.doneCalls, []⟩ (listing.getD []) log final completed ∧
        result.doneCalls = final.doneCalls ∧ result.actions = final.actions := by
    cases listing with
    | none =>
      cases processed
      exact ⟨_, [], true, .done, rfl, rfl⟩
    | some visits =>
      cases visits with
      | nil =>
        cases processed
        exact ⟨_, [], true, .done, rfl, rfl⟩
      | cons visit visits =>
        obtain ⟨log, completed, loop⟩ := loopLog_total processed
        exact ⟨result, log, completed, loop, rfl, rfl⟩
  obtain ⟨final, log, completed, loop, doneCalls, actions⟩ := looped
  refine ⟨log, completed, ⟨final, loop, doneCalls, ?_⟩, ⟨result, processed, rfl, rfl⟩, rfl⟩
  rw [actions]

theorem pollStep_of_loop {state : PollState} {visit : Visit} {visits : List Visit}
    {log : List Attempt} {final : ProcessState} {completed : Bool}
    (loop : LoopLog serval ⟨0, state.doneCalls, []⟩ (visit :: visits) log final completed) :
    PollStep serval state ⟨some (visit :: visits), log, completed⟩
      ⟨final.doneCalls, state.actions ++ final.actions, state.log ++ log⟩ := by
  have processed : rpcServerRhizomeProcess serval state.doneCalls (some (visit :: visits)) =
      .ok final := loop.looped
  exact ⟨⟨final, loop, rfl, rfl⟩, ⟨final, processed, rfl, rfl⟩, rfl⟩

/-- What the log says about the state between two polls. -/
structure Recorded (serval : Serval) (state : PollState) : Prop where
  diligent : Diligent Attempt.id Attempt.succeeded state.log
  doneCalls : state.doneCalls = settled Attempt.id Attempt.succeeded state.log
  actions : state.actions = state.log.flatMap (Attempt.actions serval)

theorem Recorded.step {state next : PollState} {poll : Poll} (recorded : Recorded serval state)
    (step : PollStep serval state poll next) : Recorded serval next := by
  obtain ⟨⟨final, loop, doneCalls, actions⟩, _, log⟩ := step
  obtain ⟨doneCalls', actions'⟩ := loop.effect
  constructor
  · rw [log]
    exact loop.diligent recorded.diligent recorded.doneCalls
  · rw [doneCalls, doneCalls', log, settled_append, ← recorded.doneCalls]
  · rw [actions, actions', log, List.flatMap_append, ← recorded.actions, List.nil_append]

theorem recorded_of_run {polls : List Poll} {state : PollState} (run : PollRun serval polls state) :
    Recorded serval state := by
  refine @GuardedRun.invariant _ _ _ _ _ (fun _ state => Recorded serval state) ?_ ?_ _ _ run
  · exact ⟨diligent_nil, rfl, rfl⟩
  · intro _ _ _ _ recorded _ step
    exact recorded.step step

end Polls

/-- Over every run of polls, the ids that are done are pairwise distinct and are those of the
successful executions in their order; a call that is done is neither acknowledged nor executed
again; and a poll that runs to its end attempts every row that was eligible. -/
theorem done_calls_exact (serval : Serval) {polls : List Poll} {state : PollState}
    (run : PollRun serval polls state) :
    state.doneCalls.Nodup ∧
      state.doneCalls = settled Attempt.id Attempt.succeeded state.log ∧
      Diligent Attempt.id Attempt.succeeded state.log ∧
      state.actions = state.log.flatMap (Attempt.actions serval) ∧
      ∀ poll next, PollStep serval state poll next → poll.completed = true →
        ∀ visit ∈ poll.listing.getD [], ∀ rp, Eligible serval state.doneCalls visit rp →
          (∃ attempt ∈ poll.log, attempt.visit = visit) ∨
            visit.row.id ∈ settled Attempt.id Attempt.succeeded poll.log := by
  have recorded := recorded_of_run run
  refine ⟨?_, recorded.doneCalls, recorded.diligent, recorded.actions, ?_⟩
  · rw [recorded.doneCalls]
    exact recorded.diligent.nodup_settled
  · intro poll next step completed visit member rp eligible
    obtain ⟨final, loop, _⟩ := step.loop
    exact loop.attempts completed member eligible

/-- The call `add|1|2` again, in a bundle of its own. -/
def laterVisit : Visit where
  row := { (Delivery.addVisit true).row with id := CString.ofChars ['C'] }
  body := some Delivery.addPayload
  world := (Delivery.addVisit true).world

/-- The attempt at `add|1|2` with this result. -/
def addAttempt (result : ExecuteResult) (visit : Visit) : Attempt :=
  ⟨visit, Delivery.addCalled, Download.caller, result⟩

/-- The first poll finds one call, the second one finds it again and another one behind it. -/
def addPolls (result : ExecuteResult) : List Poll :=
  [⟨some [Delivery.addVisit true], [addAttempt result (Delivery.addVisit true)], true⟩,
    ⟨some [Delivery.addVisit true, laterVisit], [addAttempt result laterVisit], true⟩]

theorem laterVisit_eligible :
    Eligible (Serval.executable sidAny) [(Delivery.addVisit true).row.id] laterVisit
      Delivery.addCalled := by
  have eligible : Eligible (Serval.executable sidAny) [] laterVisit Delivery.addCalled :=
    ⟨Delivery.addPayload, ⟨rfl, ⟨Delivery.addPayload, rfl, rfl⟩, rfl⟩, Delivery.add_admitted⟩
  exact eligible_of_not_done eligible (by decide)

/-- The second poll passes over the row that the first one has settled. -/
theorem addVisit_passed {doneCalls : List CString}
    (done : doneCalls = [(Delivery.addVisit true).row.id]) :
    RowLog (Serval.executable sidAny) ⟨0, doneCalls, []⟩ (Delivery.addVisit true) []
      ⟨0, doneCalls, []⟩ true :=
  rowLog_of_done rfl (by simp [done])

/-- The steps of the two polls. -/
theorem addPolls_step : ∃ result between final,
    result.returnCode ≠ 0 ∧
    PollStep (Serval.executable sidAny) .initial
      ⟨some [Delivery.addVisit true], [addAttempt result (Delivery.addVisit true)], true⟩ between ∧
    between.doneCalls = [(Delivery.addVisit true).row.id] ∧
    between.log = [addAttempt result (Delivery.addVisit true)] ∧
    PollStep (Serval.executable sidAny) between
      ⟨some [Delivery.addVisit true, laterVisit], [addAttempt result laterVisit], true⟩ final := by
  obtain ⟨result, executed, succeeded, same⟩ := Delivery.add_executed
  have freed : rpcFreeRp result.rp = .ok () := by rw [same, Delivery.addCalled_freed]
  obtain ⟨first, round, attempted⟩ := Delivery.addVisit_round true executed freed
  have row := rowLog_of_attempted (Delivery.addVisit_eligible true) round attempted
  have doneCalls : first.doneCalls = [(Delivery.addVisit true).row.id] := by
    rw [attempted.doneCalls, if_neg succeeded]
    rfl
  have eligible := laterVisit_eligible
  rw [← doneCalls] at eligible
  obtain ⟨second, later, attempted'⟩ :=
    @round_of_eligible _ ⟨0, first.doneCalls, []⟩ _ _ Download.caller _ eligible rfl executed freed
  have row' : RowLog (Serval.executable sidAny) ⟨0, first.doneCalls, []⟩ laterVisit
      [addAttempt result laterVisit] second true :=
    rowLog_of_attempted eligible later attempted'
  exact ⟨result, _, _, succeeded, @pollStep_of_loop _ .initial _ _ _ _ _ (.next row .done),
    doneCalls, rfl, pollStep_of_loop (.next (addVisit_passed doneCalls) (.next row' .done))⟩

/-- The call that the first poll has executed is not attempted by the second one, which executes the
new call behind it. -/
theorem done_calls_exact_add : ∃ result state,
    PollRun (Serval.executable sidAny) (addPolls result) state ∧
      state.log.map Attempt.visit = [Delivery.addVisit true, laterVisit] ∧
      state.doneCalls = [(Delivery.addVisit true).row.id, laterVisit.row.id] ∧
      state.doneCalls.Nodup ∧
      Diligent Attempt.id Attempt.succeeded state.log ∧
      state.actions = state.log.flatMap (Attempt.actions (Serval.executable sidAny)) := by
  obtain ⟨result, between, state, succeeded, first, _, log, second⟩ := addPolls_step
  have run : PollRun (Serval.executable sidAny) (addPolls result) state :=
    .tail (.tail .refl trivial first) trivial second
  obtain ⟨nodup, settledCalls, diligent, actions, _⟩ :=
    done_calls_exact (Serval.executable sidAny) run
  have logged : state.log =
      [addAttempt result (Delivery.addVisit true), addAttempt result laterVisit] := by
    rw [second.log, log]
    rfl
  refine ⟨result, state, run, ?_, ?_, nodup, diligent, actions⟩
  · rw [logged]
    rfl
  · have executed : ∀ attempt ∈ state.log, attempt.succeeded = true := by
      simp [logged, addAttempt, Attempt.succeeded, succeeded]
    rw [settledCalls, settled, List.filter_eq_self.mpr executed, logged]
    rfl

/-! ## Repeated acknowledgements -/

/-- No row is acknowledged by the loop whose call was acknowledged before, by an attempt that has
failed. -/
def NoComeback (serval : Serval) (past : List Attempt) (state : ProcessState) : List Visit → Prop
  | [] => True
  | visit :: visits =>
    ((∃ rp, Eligible serval state.doneCalls visit rp) →
      visit.world.ackInsertion.accepted = true → ∀ earlier ∈ past, earlier.acked = true →
        earlier.id = visit.row.id → earlier.succeeded = true) ∧
    ∀ log next, RowLog serval state visit log next true → NoComeback serval (past ++ log) next visits

section Acks

variable {serval : Serval}

theorem RowLog.nodup_acked_iff {state next : ProcessState} {visit : Visit}
    {past log : List Attempt} {goesOn : Bool} (row : RowLog serval state visit log next goesOn)
    (diligent : Diligent Attempt.id Attempt.succeeded past)
    (recorded : state.doneCalls = settled Attempt.id Attempt.succeeded past) :
    (settled Attempt.id Attempt.acked (past ++ log)).Nodup ↔
      (settled Attempt.id Attempt.acked past).Nodup ∧
        ((∃ rp, Eligible serval state.doneCalls visit rp) →
          visit.world.ackInsertion.accepted = true → ∀ earlier ∈ past, earlier.acked = true →
            earlier.id = visit.row.id → earlier.succeeded = true) := by
  have diligent' := row.diligent diligent recorded
  obtain ⟨_, ⟨attempt, rfl, rfl, eligible, _⟩ | ⟨rfl, ineligible, _⟩⟩ := row
  · rw [diligent'.nodup_counted_snoc_iff]
    refine and_congr_right fun _ => ?_
    constructor
    · intro failsOnce _
      exact failsOnce
    · intro noComeback
      exact noComeback ⟨attempt.rp, eligible⟩
  · rw [List.append_nil]
    exact (and_iff_left fun eligible => absurd eligible ineligible).symm

theorem LoopLog.nodup_acked_iff {state final : ProcessState} {visits : List Visit}
    {past log : List Attempt} {completed : Bool}
    (loop : LoopLog serval state visits log final completed)
    (diligent : Diligent Attempt.id Attempt.succeeded past)
    (recorded : state.doneCalls = settled Attempt.id Attempt.succeeded past) :
    (settled Attempt.id Attempt.acked (past ++ log)).Nodup ↔
      (settled Attempt.id Attempt.acked past).Nodup ∧ NoComeback serval past state visits := by
  induction loop generalizing past with
  | done => simp [NoComeback]
  | @next state next final visit visits log rest completed row _ inductionHypothesis =>
    have recorded' : next.doneCalls = settled Attempt.id Attempt.succeeded (past ++ log) := by
      rw [row.effect.1, recorded, settled_append]
    have later := inductionHypothesis (row.diligent diligent recorded) recorded'
    have first := row.nodup_acked_iff diligent recorded
    rw [← List.append_assoc, later, first, NoComeback, and_assoc]
    refine and_congr_right fun _ => and_congr_right fun _ => ?_
    constructor
    · intro noComeback log' next' row'
      obtain ⟨rfl, rfl, _⟩ := row.unique row'
      exact noComeback
    · intro noComeback
      exact noComeback log next row
  | @stopped state next visit visits log row =>
    rw [row.nodup_acked_iff diligent recorded, NoComeback]
    refine and_congr_right fun _ => (and_iff_left ?_).symm
    intro log' next' row'
    obtain ⟨_, _, goesOn⟩ := row.unique row'
    cases goesOn

theorem PollStep.nodup_acked_iff {state next : PollState} {poll : Poll}
    (recorded : Recorded serval state) (step : PollStep serval state poll next) :
    (settled Attempt.id Attempt.acked next.log).Nodup ↔
      (settled Attempt.id Attempt.acked state.log).Nodup ∧
        NoComeback serval state.log ⟨0, state.doneCalls, []⟩ (poll.listing.getD []) := by
  obtain ⟨final, loop, _⟩ := step.loop
  rw [step.log]
  exact loop.nodup_acked_iff recorded.diligent recorded.doneCalls

/-- The polls in which no failed call that the node has acknowledged comes back. -/
abbrev ForgivingRun (serval : Serval) : List Poll → PollState → Prop :=
  GuardedRun (PollStep serval)
    (fun state poll => NoComeback serval state.log ⟨0, state.doneCalls, []⟩ (poll.listing.getD []))
    .initial

theorem nodup_acked_of_forgiving {polls : List Poll} {state : PollState}
    (run : ForgivingRun serval polls state) :
    Recorded serval state ∧ (settled Attempt.id Attempt.acked state.log).Nodup := by
  refine @GuardedRun.invariant _ _ _ _ _ (fun _ state =>
    Recorded serval state ∧ (settled Attempt.id Attempt.acked state.log).Nodup) ?_ ?_ _ _ run
  · exact ⟨⟨diligent_nil, rfl, rfl⟩, List.nodup_nil⟩
  · intro _ _ _ _ holds noComeback step
    obtain ⟨recorded, nodup⟩ := holds
    exact ⟨recorded.step step, (step.nodup_acked_iff recorded).mpr ⟨nodup, noComeback⟩⟩

theorem forgiving_of_nodup_acked {polls : List Poll} {state : PollState}
    (run : PollRun serval polls state)
    (nodup : (settled Attempt.id Attempt.acked state.log).Nodup) :
    ForgivingRun serval polls state := by
  induction run with
  | refl => exact .refl
  | tail run _ step inductionHypothesis =>
    obtain ⟨before, noComeback⟩ := (step.nodup_acked_iff (recorded_of_run run)).mp nodup
    exact .tail (inductionHypothesis before) noComeback step

end Acks

/-- Over every run of polls, no bundle has two ACKs in the store exactly when no call that has been
acknowledged and whose execution has failed comes back. -/
theorem acks_once_iff (serval : Serval) {polls : List Poll} {state : PollState}
    (run : PollRun serval polls state) :
    state.actions = state.log.flatMap (Attempt.actions serval) ∧
      ((∀ id, (settled Attempt.id Attempt.acked state.log).count id ≤ 1) ↔
        ForgivingRun serval polls state) := by
  refine ⟨(recorded_of_run run).actions, ?_⟩
  rw [← List.nodup_iff_count_le_one]
  constructor
  · exact forgiving_of_nodup_acked run
  · intro forgiving
    exact (nodup_acked_of_forgiving forgiving).2

/-- The call that the first poll has executed comes back in the second one, and is not acknowledged
again. -/
theorem acks_once_add : ∃ result state,
    PollRun (Serval.executable sidAny) (addPolls result) state ∧
      (settled Attempt.id Attempt.acked state.log).length = 2 ∧
      ∀ id, (settled Attempt.id Attempt.acked state.log).count id ≤ 1 := by
  obtain ⟨result, between, state, succeeded, first, doneCalls, log, second⟩ := addPolls_step
  have run : PollRun (Serval.executable sidAny) (addPolls result) state :=
    .tail (.tail .refl trivial first) trivial second
  have executed : ∀ earlier ∈ between.log, earlier.succeeded = true := by
    simp [log, addAttempt, Attempt.succeeded, succeeded]
  have noComeback : NoComeback (Serval.executable sidAny) between.log ⟨0, between.doneCalls, []⟩
      [Delivery.addVisit true, laterVisit] := by
    refine ⟨fun _ _ earlier member _ _ => executed earlier member, fun log' next row => ?_⟩
    obtain ⟨rfl, -, -⟩ := row.unique (addVisit_passed doneCalls)
    rw [List.append_nil]
    exact ⟨fun _ _ earlier member _ _ => executed earlier member, fun _ _ _ => trivial⟩
  have forgiving : ForgivingRun (Serval.executable sidAny) (addPolls result) state :=
    .tail (.tail .refl (by simp [NoComeback, PollState.initial]) first) noComeback second
  refine ⟨result, state, run, ?_, (acks_once_iff (Serval.executable sidAny) run).2.mpr forgiving⟩
  rw [second.log, log]
  rfl

/-- The accepted call `add|1|2`, in a world in which its binary does not start. -/
def failingVisit : Visit where
  row := (Delivery.addVisit true).row
  body := some Delivery.addPayload
  world := { (Delivery.addVisit true).world with execute := CommandLine.addWorld }

theorem failing_executed : ∃ result,
    excecuteCall (Serval.executable sidAny) failingVisit.world.execute Delivery.addCalled =
        .ok result ∧ result.returnCode = 0 ∧ result.rp = Delivery.addCalled := by
  refine ⟨⟨0, Block.calloc rpcPktSize 0, Delivery.addCalled⟩, ?_, rfl, rfl⟩
  have fetched : fetchFirstParam (Serval.executable sidAny) failingVisit.world.execute
      Delivery.addCalled = .ok (some Delivery.addCalled) :=
    CommandLine.fetchFirstParam_of_noFilehash rfl (by decide)
  rw [excecuteCall_ok_iff, CommandLine.excecute_of_params rfl fetched
    (CommandLine.addProcedure_params ['1'] ['2'])]
  rfl

/-- A call whose binary does not start is acknowledged by every poll. -/
theorem acks_of_failing_call : ∃ polls state, PollRun (Serval.executable sidAny) polls state ∧
    (settled Attempt.id Attempt.acked state.log).count failingVisit.row.id = 2 := by
  obtain ⟨result, executed, failed, same⟩ := failing_executed
  have freed : rpcFreeRp result.rp = .ok () := by rw [same, Delivery.addCalled_freed]
  have eligible : Eligible (Serval.executable sidAny) [] failingVisit Delivery.addCalled :=
    ⟨Delivery.addPayload, ⟨rfl, ⟨Delivery.addPayload, rfl, rfl⟩, rfl⟩, Delivery.add_admitted⟩
  obtain ⟨next, round, attempted⟩ :=
    @round_of_eligible _ ⟨0, [], []⟩ _ _ Download.caller _ eligible rfl executed freed
  have notDone : next.doneCalls = [] := by rw [attempted.doneCalls, if_pos failed]
  have row := rowLog_of_attempted eligible round attempted
  have poll (actions : List ServerAction) (log : List Attempt) :=
    @pollStep_of_loop _ ⟨[], actions, log⟩ _ _ _ _ _ (.next row .done)
  rw [notDone] at poll
  exact ⟨_, _, .tail (.tail .refl trivial (poll [] [])) trivial (poll _ _), rfl⟩

end ServalRpc.Verified.DoneCalls
