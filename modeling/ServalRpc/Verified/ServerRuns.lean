import ServalRpc.Model.Listen
import ServalRpc.Verified.ParseCall

/-! # What stops the server

One variable of `_rpc_server_rhizome_process` reports transport failures and rejected calls
alike, and both listening loops take it for a failure.  A poll that transfers everything it
requests returns -1 exactly when it takes up a call whose sender does not parse or whose
procedure is not offered.
-/

namespace ServalRpc.Verified.ServerRuns

open CLib

variable (serval : Serval)

/-! ## Calls in a listing -/

/-- The poll takes up the row, and the bytes that it copies from the payload are a call. -/
structure CallAt (doneCalls : List CString) (visit : Visit) (payload : List UInt8) : Prop where
  wanted : wantedRow serval doneCalls visit.row = .ok true
  copied : ∃ body, visit.body = some body ∧
    loadRange body 0 (sizeOfInt visit.row.filesize) = .ok payload
  type : load payload 0 = .ok rpcPktCall

/-- The sender parses as a subscriber id, and the procedure of the call is offered. -/
def Admitted (conf : Option (List UInt8)) (sender : Option CString) (payload : List UInt8) : Prop :=
  ∃ text callerSid rp ret, sender = some text ∧ serval.strToSidT text = some callerSid ∧
    rpcServerParseCall payload payload.length = .ok rp ∧
    rpcServerOffering conf { rp with callerSid := some callerSid } = .ok ret ∧ ret ≠ 0

def RowServiceable (doneCalls : List CString) (visit : Visit) : Prop :=
  ∀ payload, CallAt serval doneCalls visit payload →
    Admitted serval visit.world.conf visit.row.sender payload

/-- Every row is serviceable with the calls that are done when the loop reaches it. -/
def Serviceable (state : ProcessState) : List Visit → Prop
  | [] => True
  | visit :: visits => RowServiceable serval state.doneCalls visit ∧
    ∀ next, rhizomeRound serval state visit = .ok (next, true) → Serviceable next visits

/-- A poll may request the payload of the row. -/
def Requested (visit : Visit) : Prop :=
  ∃ doneCalls, wantedRow serval doneCalls visit.row = .ok true

/-! ## One row -/

section Round

variable {serval}

theorem admitCall_accepted_iff {conf : Option (List UInt8)} {payload : List UInt8}
    {sender : Option CString} {admission : Admission}
    (admitted : admitCall serval conf payload sender = .ok admission) :
    (∃ rp, admission = .accepted rp) ↔ Admitted serval conf sender payload := by
  unfold admitCall at admitted
  obtain ⟨rp, parsed, sending⟩ := bind_eq_ok_iff.mp admitted
  obtain ⟨text, sent, checking⟩ := bind_eq_ok_iff.mp sending
  rw [mapError_eq_ok_iff] at parsed sent
  obtain rfl := (deref_eq_ok_iff sender text).mp sent
  cases caller : serval.strToSidT text with
  | none =>
    rw [caller] at checking
    cases checking
    simp [Admitted, caller]
  | some callerSid =>
    rw [caller] at checking
    obtain ⟨ret, offered, accepting⟩ := bind_eq_ok_iff.mp checking
    rw [mapError_eq_ok_iff] at offered
    have offers : Admitted serval conf (some text) payload ↔ ret ≠ 0 := by
      simp [Admitted, caller, parsed, offered]
    rw [offers]
    split at accepting
    · rename_i zero
      cases accepting
      simp [zero]
    · rename_i nonzero
      obtain ⟨requirements, _, accepted⟩ := bind_eq_ok_iff.mp accepting
      cases accepted
      simp [nonzero]

/-- The bundle has one payload. -/
theorem CallAt.unique {doneCalls : List CString} {visit : Visit} {left right : List UInt8}
    (first : CallAt serval doneCalls visit left) (second : CallAt serval doneCalls visit right) :
    left = right := by
  obtain ⟨_, ⟨body, fetched, copied⟩, _⟩ := first
  obtain ⟨_, ⟨body', fetched', copied'⟩, _⟩ := second
  cases fetched.symm.trans fetched'
  exact Except.ok.inj (copied.symm.trans copied')

/-- A round of the loop over the rows, with what has let it end this way. -/
inductive RowOutcome (serval : Serval) (state : ProcessState) (visit : Visit) :
    ProcessState → Bool → Prop
  /-- The filter leaves the row out, or its payload is no call. -/
  | skipped (noCall : ∀ payload, ¬ CallAt serval state.doneCalls visit payload) :
      RowOutcome serval state visit state true
  | unfetched (requested : wantedRow serval state.doneCalls visit.row = .ok true)
      (missing : visit.body = none) :
      RowOutcome serval state visit { state with returnCode := -1 } false
  /-- The sender does not parse, which ends the loop, or the procedure is not offered. -/
  | refused {payload : List UInt8} {admission : Admission} (goesOn : Bool)
      (call : CallAt serval state.doneCalls visit payload)
      (admitted : admitCall serval visit.world.conf payload visit.row.sender = .ok admission)
      (refused : ∀ rp, admission ≠ .accepted rp) :
      RowOutcome serval state visit { state with returnCode := -1 } goesOn
  | failed {payload : List UInt8} {rp : RPCProcedure} {caller : Sid} {result : ExecuteResult}
      (call : CallAt serval state.doneCalls visit payload)
      (admitted : admitCall serval visit.world.conf payload visit.row.sender = .ok (.accepted rp))
      (isCaller : rp.callerSid = some caller)
      (executed : excecuteCall serval visit.world.execute rp = .ok result)
      (failed : result.returnCode = 0) :
      RowOutcome serval state visit
        { state with
          actions := state.actions ++
            [.publish (rpcServerRhizomeSendResult serval visit.world.ackInsertion caller rp.name
              [rpcPktCallAck]).2, .excecute rp] } true
  | succeeded {payload : List UInt8} {rp : RPCProcedure} {caller : Sid} {result : ExecuteResult}
      (call : CallAt serval state.doneCalls visit payload)
      (admitted : admitCall serval visit.world.conf payload visit.row.sender = .ok (.accepted rp))
      (isCaller : rp.callerSid = some caller)
      (executed : excecuteCall serval visit.world.execute rp = .ok result)
      (succeeded : result.returnCode ≠ 0) :
      RowOutcome serval state visit
        { state with
          doneCalls := rpcServerRhizomeFinished state.doneCalls visit.row.id
          actions := state.actions ++
            [.publish (rpcServerRhizomeSendResult serval visit.world.ackInsertion caller rp.name
              [rpcPktCallAck]).2, .excecute rp] ++
            [.publish (rpcServerRhizomeSendResult serval visit.world.resultInsertion caller rp.name
              result.resultPayload.cells).2] } true

theorem rowOutcome_of_round {state next : ProcessState} {visit : Visit} {goesOn : Bool}
    (round : rhizomeRound serval state visit = .ok (next, goesOn)) :
    RowOutcome serval state visit next goesOn := by
  unfold rhizomeRound at round
  obtain ⟨wanted, filter, round⟩ := bind_eq_ok_iff.mp round
  rw [mapError_eq_ok_iff] at filter
  cases wanted with
  | false =>
    cases round
    refine .skipped fun payload call => ?_
    cases call.wanted.symm.trans filter
  | true =>
    cases fetched : visit.body with
    | none =>
      simp only [fetched] at round
      cases round
      exact .unfetched filter fetched
    | some body =>
      simp only [fetched, Bool.not_true, Bool.false_eq_true, if_false] at round
      obtain ⟨payload, copied, round⟩ := bind_eq_ok_iff.mp round
      obtain ⟨type, first, round⟩ := bind_eq_ok_iff.mp round
      rw [mapError_eq_ok_iff] at copied first
      split at round
      · rename_i otherType
        cases round
        refine .skipped fun other call => ?_
        obtain ⟨_, ⟨_, fetched', copied'⟩, isCall⟩ := call
        cases fetched.symm.trans fetched'
        cases copied.symm.trans copied'
        exact otherType (Except.ok.inj (first.symm.trans isCall))
      · rename_i isCall
        obtain rfl := not_not.mp isCall
        have call : CallAt serval state.doneCalls visit payload :=
          ⟨filter, ⟨body, fetched, copied⟩, first⟩
        obtain ⟨admission, admitted, round⟩ := bind_eq_ok_iff.mp round
        cases admission with
        | unparsableSender =>
          cases round
          exact .refused false call admitted fun rp same => by cases same
        | rejected rp =>
          obtain ⟨_, _, round⟩ := bind_eq_ok_iff.mp round
          cases round
          exact .refused true call admitted fun rp same => by cases same
        | accepted rp =>
          obtain ⟨caller, isCaller, round⟩ := bind_eq_ok_iff.mp round
          obtain ⟨result, executed, round⟩ := bind_eq_ok_iff.mp round
          obtain ⟨_, _, round⟩ := bind_eq_ok_iff.mp round
          rw [mapError_eq_ok_iff, deref_eq_ok_iff] at isCaller
          split at round
          · rename_i failed
            cases round
            exact .failed call admitted isCaller executed failed
          · rename_i succeeded
            cases round
            exact .succeeded call admitted isCaller executed succeeded

/-- What one round of the loop over the rows can do. -/
theorem round_cases {state next : ProcessState} {visit : Visit} {goesOn : Bool}
    (round : rhizomeRound serval state visit = .ok (next, goesOn)) :
    (RowServiceable serval state.doneCalls visit ∧ next.returnCode = state.returnCode ∧
        goesOn = true) ∨
      (Requested serval visit ∧ visit.body = none ∧ next.returnCode = -1) ∨
      (¬ RowServiceable serval state.doneCalls visit ∧ next.returnCode = -1) := by
  have serviceable {payload : List UInt8} {rp : RPCProcedure}
      (call : CallAt serval state.doneCalls visit payload)
      (admitted : admitCall serval visit.world.conf payload visit.row.sender = .ok (.accepted rp)) :
      RowServiceable serval state.doneCalls visit := by
    intro other otherCall
    obtain rfl := otherCall.unique call
    exact (admitCall_accepted_iff admitted).mp ⟨rp, rfl⟩
  cases rowOutcome_of_round round with
  | skipped noCall => exact .inl ⟨fun payload call => absurd call (noCall payload), rfl, rfl⟩
  | unfetched requested missing => exact .inr (.inl ⟨⟨_, requested⟩, missing, rfl⟩)
  | refused goesOn call admitted refused =>
    refine .inr (.inr ⟨fun serviceable => ?_, rfl⟩)
    obtain ⟨rp, accepted⟩ := (admitCall_accepted_iff admitted).mpr (serviceable _ call)
    exact refused rp accepted
  | failed call admitted => exact .inl ⟨serviceable call admitted, rfl, rfl⟩
  | succeeded call admitted => exact .inl ⟨serviceable call admitted, rfl, rfl⟩

end Round

/-! ## One poll -/

variable {serval}

theorem loop_returnCode_iff {visits : List Visit} {state result : ProcessState}
    (transferred : ∀ visit ∈ visits, Requested serval visit → visit.body ≠ none)
    (returned : rhizomeLoop serval state visits = .ok result) :
    result.returnCode ≠ -1 ↔ state.returnCode ≠ -1 ∧ Serviceable serval state visits := by
  induction visits generalizing state with
  | nil =>
    cases returned
    simp [Serviceable]
  | cons visit visits inductionHypothesis =>
    obtain ⟨here, later⟩ := List.forall_mem_cons.mp transferred
    rw [rhizomeLoop] at returned
    obtain ⟨⟨next, goesOn⟩, round, returned⟩ := bind_eq_ok_iff.mp returned
    rw [Serviceable]
    obtain ⟨serviceable, code, rfl⟩ | ⟨requested, failed, _⟩ | ⟨refused, code⟩ :=
      round_cases round
    · rw [inductionHypothesis later returned, code, round]
      simp [serviceable]
    · exact absurd failed (here requested)
    · -- Once the code is -1 no later round changes it.
      have final : result.returnCode = -1 := by
        cases goesOn with
        | false =>
          cases returned
          exact code
        | true =>
          have sticky := inductionHypothesis later returned
          simpa [code] using sticky
      simp [final, refused]

theorem process_returnCode_iff {doneCalls : List CString} {visits : List Visit}
    {result : ProcessState}
    (transferred : ∀ visit ∈ visits, Requested serval visit → visit.body ≠ none)
    (returned : rpcServerRhizomeProcess serval doneCalls (some visits) = .ok result) :
    result.returnCode ≠ -1 ↔ Serviceable serval ⟨0, doneCalls, []⟩ visits := by
  unfold rpcServerRhizomeProcess at returned
  cases visits with
  | nil =>
    cases returned
    simp [Serviceable]
  | cons visit visits =>
    have looped := loop_returnCode_iff transferred returned
    rw [looped]
    simp

/-! ## Runs -/

variable (serval)

/-- The listing, or a payload that is requested, is not transferred. -/
def ListingFails (listing : Option (List Visit)) : Prop :=
  ∀ visits, listing = some visits → ∃ visit ∈ visits, Requested serval visit ∧ visit.body = none

def TransportFails : ServerEvent → Prop
  | .signal => False
  | .listenRound input => ListingFails serval input.listing
  | .listenRhizomeRound listing => ListingFails serval listing

/-- A poll that starts with the calls done so far takes up serviceable rows only. -/
def PollServiceable (doneCalls : List CString) (listing : Option (List Visit)) : Prop :=
  ∀ visits, listing = some visits → Serviceable serval ⟨0, doneCalls, []⟩ visits

def EventServiceable (state : ServerState) : ServerEvent → Prop
  | .signal => True
  | .listenRound input => PollServiceable serval state.doneCalls input.listing
  | .listenRhizomeRound listing => PollServiceable serval state.doneCalls listing

variable {serval}

theorem rhizomeRound_serverRunning (state : ServerState) {next : ServerState}
    {listing : Option (List Visit)}
    (serviceable : PollServiceable serval state.doneCalls listing)
    (transferred : ¬ ListingFails serval listing)
    (returned : rpcServerListenRhizomeRound serval state listing = .ok next) :
    next.serverRunning = state.serverRunning := by
  simp only [ListingFails, not_forall] at transferred
  obtain ⟨visits, rfl, transferred⟩ := transferred
  obtain ⟨processed, poll, returned⟩ := bind_eq_ok_iff.mp returned
  cases returned
  have code := (process_returnCode_iff
    (fun visit member requested failed => transferred ⟨visit, member, requested, failed⟩) poll).mpr
    (serviceable visits rfl)
  exact if_neg code

/-- A step that neither is a signal nor meets a transport failure leaves `server_running` alone. -/
theorem step_serverRunning {state next : ServerState} {event : ServerEvent}
    (serviceable : EventServiceable serval state event) (step : ServerStep serval state event next)
    (noSignal : event ≠ .signal) (transferred : ¬ TransportFails serval event) :
    next.serverRunning = state.serverRunning := by
  cases step with
  | signal => exact absurd rfl noSignal
  | listen _ _ returned =>
    obtain ⟨mspActions, _, returned⟩ := bind_eq_ok_iff.mp returned
    obtain ⟨mdpActions, _, returned⟩ := bind_eq_ok_iff.mp returned
    exact rhizomeRound_serverRunning
      { state with actions := state.actions ++ mspActions ++ mdpActions } serviceable transferred
      returned
  | listenRhizome _ returned =>
    exact rhizomeRound_serverRunning state serviceable transferred returned

/-- A poll that transfers what it requests returns something other than -1 exactly when it takes
up serviceable rows only; and in every run whose polls take up serviceable rows only, a server
that has stopped has met a signal or a transport failure. -/
theorem server_stopped_iff (serval : Serval) :
    (∀ doneCalls visits result,
      (∀ visit ∈ visits, Requested serval visit → visit.body ≠ none) →
      rpcServerRhizomeProcess serval doneCalls (some visits) = .ok result →
        (result.returnCode ≠ -1 ↔ Serviceable serval ⟨0, doneCalls, []⟩ visits)) ∧
    ∀ events state,
      GuardedRun (ServerStep serval) (EventServiceable serval) .initial events state →
        state.serverRunning = 1 →
          .signal ∈ events ∨ ∃ event ∈ events, TransportFails serval event := by
  refine ⟨fun _ _ _ transferred returned => process_returnCode_iff transferred returned,
    fun events state run => ?_⟩
  refine @GuardedRun.invariant _ _ _ _ _ (fun events state => state.serverRunning = 1 →
    .signal ∈ events ∨ ∃ event ∈ events, TransportFails serval event) ?_ ?_ _ _ run
  · intro stopped
    cases stopped
  · intro past state event next holds serviceable step stopped
    by_cases signal : event = .signal
    · subst signal
      simp
    by_cases fails : TransportFails serval event
    · exact .inr ⟨event, by simp, fails⟩
    rw [step_serverRunning serviceable step signal fails] at stopped
    obtain signalled | ⟨other, member, failed⟩ := holds stopped
    · exact .inl (by simp [signalled])
    · exact .inr ⟨other, by simp [member], failed⟩

/-! ## Stopping a server from outside -/

/-- The call `add` without parameters. -/
def addCall : List UInt8 :=
  [0, 0, 0, 0, 0, 0] ++ (CString.ofChars ['a', 'd', 'd']).bytes ++ [0]

def callRow (sender : CString) : Row where
  token := none
  service := some serviceRpc
  id := CString.ofChars ['A']
  version := 1
  inserttime := 1
  filesize := 10
  filehash := CString.ofChars ['B']
  sender := some sender
  recipient := none
  name := some (CString.ofChars ['a', 'd', 'd'])

/-- A node that declares no procedure. -/
def undeclaredWorld : RhizomeWorld where
  conf := none
  execute :=
    { sysconfdir := CString.ofChars []
      binExists := fun _ => false
      downloads := []
      popen := fun _ => none
      resultExists := fun _ => false
      filehash := List.replicate rpcPktSize 0 }
  ackInsertion := ⟨true, fun _ => 0⟩
  resultInsertion := ⟨true, fun _ => 0⟩

def foreignVisit (sender : CString) : Visit := ⟨callRow sender, some addCall, undeclaredWorld⟩

theorem addCall_parsed : rpcServerParseCall addCall addCall.length =
    .ok (ParseCall.parsedProcedure 0 (CString.ofChars ['a', 'd', 'd']) []) :=
  ParseCall.parse_named (by decide) (by decide)

theorem foreign_round (serval : Serval) (sender : CString) :
    rhizomeRound serval ⟨0, [], []⟩ (foreignVisit sender) =
      .ok (⟨-1, [], []⟩, (serval.strToSidT sender).isSome) := by
  have wanted : wantedRow serval [] (callRow sender) = .ok true := rfl
  have copied : loadRange addCall 0 (sizeOfInt 10) = .ok addCall := rfl
  have type : load addCall 0 = .ok rpcPktCall := rfl
  unfold rhizomeRound foreignVisit
  simp only [undeclaredWorld, wanted, Except.mapError, ok_bind,
    show (callRow sender).filesize = 10 from rfl, copied, type,
    show (callRow sender).sender = some sender from rfl, admitCall, addCall_parsed, deref_some, ne_eq,
    not_true_eq_false, if_false, Bool.not_true, Bool.false_eq_true]
  cases serval.strToSidT sender <;> rfl

theorem foreign_process (sender : CString) :
    rpcServerRhizomeProcess (Serval.executable sidAny) [] (some [foreignVisit sender]) =
      .ok ⟨-1, [], []⟩ := by
  rw [rpcServerRhizomeProcess, List.length_singleton, if_neg Nat.one_ne_zero, rhizomeLoop,
    foreign_round]
  cases (Serval.executable sidAny).strToSidT sender <;> rfl

/-- A bundle whose sender is no subscriber id, and the bundle of a call that nobody offers, end the
server although everything is transferred. -/
theorem server_stopped_by_bundle :
    (∃ result, rpcServerRhizomeProcess (Serval.executable sidAny) []
      (some [foreignVisit (CString.ofChars ['x'])]) = .ok result ∧ result.returnCode = -1) ∧
    (∃ result, rpcServerRhizomeProcess (Serval.executable sidAny) []
      (some [foreignVisit (tohexSidT sidBroadcast)]) = .ok result ∧ result.returnCode = -1) ∧
    ∃ state, ServerStep (Serval.executable sidAny) .initial
      (.listenRhizomeRound (some [foreignVisit (tohexSidT sidBroadcast)])) state ∧
        state.serverRunning = 1 := by
  refine ⟨⟨_, foreign_process _, rfl⟩, ⟨_, foreign_process _, rfl⟩, ⟨1, [], []⟩, ?_, rfl⟩
  apply ServerStep.listenRhizome (by decide)
  rw [rpcServerListenRhizomeRound, show ServerState.initial.doneCalls = [] from rfl,
    foreign_process]
  rfl

/-- A poll that takes up the bundle, and a run whose only poll gets no listing. -/
theorem server_stopped_iff_bundle :
    ¬ Serviceable (Serval.executable sidAny) ⟨0, [], []⟩ [foreignVisit (CString.ofChars ['x'])] ∧
    (.signal ∈ [ServerEvent.listenRhizomeRound none] ∨
      ∃ event ∈ [ServerEvent.listenRhizomeRound none],
        TransportFails (Serval.executable sidAny) event) := by
  obtain ⟨poll, runs⟩ := server_stopped_iff (Serval.executable sidAny)
  constructor
  · intro serviceable
    have transferred : ∀ visit ∈ [foreignVisit (CString.ofChars ['x'])],
        Requested (Serval.executable sidAny) visit → visit.body ≠ none := by
      intro visit member _
      obtain rfl := List.mem_singleton.mp member
      exact Option.some_ne_none addCall
    exact (poll [] _ _ transferred (foreign_process _)).mpr serviceable rfl
  · have step : ServerStep (Serval.executable sidAny) .initial (.listenRhizomeRound none)
        ⟨1, [], []⟩ := .listenRhizome (by decide) rfl
    refine runs _ ⟨1, [], []⟩ (.tail .refl ?_ step) rfl
    intro visits listed
    cases listed

end ServalRpc.Verified.ServerRuns
