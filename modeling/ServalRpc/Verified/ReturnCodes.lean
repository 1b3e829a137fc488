import ServalRpc.Verified.ListenerRounds

/-! # Return codes of a call

A call to all servers tells the truth when every server that acknowledged it has answered, and a
call to one server over Rhizome when an ACK does not stay without a RESPONSE: there the timeout
forgets the ACK.
-/

namespace ServalRpc.Verified.ReturnCodes

open CLib ListenerSteps ClientTable ResultSlots AnswerLedger ListenerRounds

/-! ## Runs -/

def mdpPackets (events : List MdpEvent) : List Packet := events.filterMap MdpEvent.packet?

def rhizomePackets (events : List RhizomeEvent) : List Packet :=
  events.filterMap RhizomeEvent.packet?

theorem mdpPackets_snoc (events : List MdpEvent) (event : MdpEvent) :
    mdpPackets (events ++ [event]) = mdpPackets events ++ (MdpEvent.packet? event).toList := by
  cases event <;> simp [mdpPackets, MdpEvent.packet?]

theorem rhizomePackets_snoc (events : List RhizomeEvent) (event : RhizomeEvent) :
    rhizomePackets (events ++ [event]) =
      rhizomePackets events ++ (RhizomeEvent.packet? event).toList := by
  cases event <;> simp [rhizomePackets, RhizomeEvent.packet?]

/-- No call packet fails to be sent. -/
def Sent (_ : MdpState) (event : MdpEvent) : Prop := event ≠ .sendFailed

/-- No transfer fails. -/
def Transferred (_ : RhizomeState) (event : RhizomeEvent) : Prop := event ≠ .transferFailed

section Runs

variable {call : ClientCall}

theorem mdpCounted_of_run (all : call.sid = sidBroadcast) {events : List MdpEvent}
    {state : MdpState} (run : GuardedRun (MdpStep call) Sent (.entry 0) events state)
    (orderly : Orderly (mdpPackets events)) : MdpCounted call (mdpPackets events) state := by
  revert orderly
  refine @GuardedRun.invariant _ _ _ _ _ (fun events state => Orderly (mdpPackets events) →
    MdpCounted call (mdpPackets events) state) ?_ ?_ _ _ run
  · intro _
    exact ⟨⟨mirrors_empty, fun _ isCode => nomatch isCode⟩, fun _ => rfl⟩
  · intro past before event after earlier sent step orderly
    rw [mdpPackets_snoc] at orderly ⊢
    exact (earlier orderly.of_event).step all sent orderly step

theorem counted_of_rhizomeRun (all : call.sid = sidBroadcast) {events : List RhizomeEvent}
    {state : RhizomeState} (run : GuardedRun (RhizomeStep call) Transferred .entry events state)
    (orderly : Orderly (rhizomePackets events)) :
    Counted call (-1) (rhizomePackets events) state.rpcResult state.returned := by
  revert orderly
  refine @GuardedRun.invariant _ _ _ _ _ (fun events state => Orderly (rhizomePackets events) →
    Counted call (-1) (rhizomePackets events) state.rpcResult state.returned) ?_ ?_ _ _ run
  · intro _
    exact ⟨mirrors_empty, fun _ isCode => nomatch isCode⟩
  · intro past before event after earlier transferred step orderly
    rw [rhizomePackets_snoc] at orderly ⊢
    exact (earlier orderly.of_event).rhizomeStep all transferred orderly step

theorem direct_of_run (direct : call.sid ≠ sidBroadcast) {events : List RhizomeEvent}
    {state : RhizomeState} (run : GuardedRun (RhizomeStep call) Transferred .entry events state) :
    Direct call (rhizomePackets events) state.rpcResult state.returned := by
  refine @GuardedRun.invariant _ _ _ _ _ (fun events state =>
    Direct call (rhizomePackets events) state.rpcResult state.returned) ?_ ?_ _ _ run
  · exact .silent (fun ⟨_, member, _⟩ => nomatch member) (.inl rfl)
  · intro past before event after earlier _ step
    rw [rhizomePackets_snoc]
    exact earlier.step direct step

end Runs

/-- Without transport errors, a call to all servers that at most five servers acknowledge, once
each, tells the truth when each of them has answered after its ACK, and only when each of them has
answered at all.  A call to one server over Rhizome tells the truth exactly when an ACK does not
stay without a RESPONSE. -/
theorem return_codes_truthful (call : ClientCall) :
    (call.sid = sidBroadcast → ∀ events state code,
      GuardedRun (MdpStep call) Sent (.entry 0) events state → state.returned = some code →
        Orderly (mdpPackets events) →
          (Answered call (mdpPackets events) →
            Truthful call (mdpPackets events) state.rpcResult code) ∧
          (Truthful call (mdpPackets events) state.rpcResult code →
            Responded (mdpPackets events))) ∧
    (call.sid = sidBroadcast → ∀ events state code,
      GuardedRun (RhizomeStep call) Transferred .entry events state → state.returned = some code →
        Orderly (rhizomePackets events) →
          (Answered call (rhizomePackets events) →
            Truthful call (rhizomePackets events) state.rpcResult code) ∧
          (Truthful call (rhizomePackets events) state.rpcResult code →
            Responded (rhizomePackets events))) ∧
    (call.sid ≠ sidBroadcast → ∀ events state code,
      GuardedRun (RhizomeStep call) Transferred .entry events state → state.returned = some code →
        (Truthful call (rhizomePackets events) state.rpcResult code ↔
          ((∃ packet ∈ rhizomePackets events, IsAck packet) →
            ∃ packet ∈ rhizomePackets events, IsResponse packet))) := by
  refine ⟨?_, ?_, ?_⟩
  · intro all events state code run returned orderly
    obtain ⟨⟨mirrors, code_eq⟩, _⟩ := mdpCounted_of_run all run orderly
    have isCode := code_eq code returned
    refine ⟨fun answered => ?_, responded_of_truthful orderly mirrors isCode⟩
    exact truthful_of_complete orderly mirrors answered.complete (by decide) (by decide) isCode
  · intro all events state code run returned orderly
    obtain ⟨mirrors, code_eq⟩ := counted_of_rhizomeRun all run orderly
    have isCode := code_eq code returned
    refine ⟨fun answered => ?_, responded_of_truthful orderly mirrors isCode⟩
    exact truthful_of_complete orderly mirrors answered.complete (by decide) (by decide) isCode
  · intro direct events state code run returned
    have ended := direct_of_run direct run
    rw [returned] at ended
    exact ended.truthful_iff

/-! ## Runs with one row a poll -/

def callTo (sid : Sid) : ClientCall :=
  ⟨Serval.executable sidAny, sid, CString.ofChars ['a', 'd', 'd']⟩

/-- A row from `server 1` for the client. -/
def answerRow (body : List UInt8) : Row where
  token := some (CString.ofChars ['t'])
  service := some serviceRpc
  id := CString.ofChars ['b']
  version := 1
  inserttime := 0
  filesize := body.length
  filehash := CString.ofChars ['h']
  sender := some (tohexSidT (server 1))
  recipient := some (tohexSidT sidAny)
  name := some (CString.ofChars ['a', 'd', 'd'])

def answerPacket (body : List UInt8) : Packet := ⟨server 1, body, body.length, [], fun _ => 0⟩

def ackBody : List UInt8 := [rpcPktCallAck]

def responseBody : List UInt8 := [rpcPktCallResponse, 51, 0]

def answerInput (body : List UInt8) : RowInput := ⟨0, sidAny, some body, fun _ => 0, [], fun _ => 0⟩

theorem rowPacket_answerRow (sid : Sid) {body : List UInt8} (bound : body.length < 2 ^ 64) :
    rowPacket (callTo sid) (answerRow body) (answerInput body) (tohexSidT (server 1)) body =
      answerPacket body := by
  have sender : (callTo sid).serval.strToSidT (tohexSidT (server 1)) = some (server 1) :=
    (callTo sid).serval.strToSidT_tohexSidT _
  have size : sizeOfInt (answerRow body).filesize = body.length := sizeOfInt_natCast bound
  rw [rowPacket, sender, size, overread_self]
  rfl

theorem answerRow_event (sid : Sid) (state : RhizomeState) {body : List UInt8}
    (bound : body.length < 2 ^ 64) :
    rhizomeEvent (callTo sid) { state with pending := [answerRow body] }
      (.visit (answerInput body)) = .ok (.received (answerPacket body)) := by
  rw [← rowPacket_answerRow sid bound]
  rfl

/-- A state in which the outer loop polls for rows. -/
structure Polling (state : RhizomeState) : Prop where
  running : state.returned = none
  noRows : state.pending = []
  notReceived : state.received = 0
  waiting : 0 ≤ state.waitTime

/-- A poll for one row and the visit of the row. -/
theorem row_run {sid : Sid} {events : List RhizomeEvent} {state next : RhizomeState}
    (run : GuardedRun (RhizomeStep (callTo sid)) Transferred .entry events state)
    (polling : Polling state) {body : List UInt8} (bound : body.length < 2 ^ 64)
    (round : rpcClientRhizomeListenRound (callTo sid) { state with pending := [answerRow body] }
      (.received (answerPacket body)) = .ok next) :
    GuardedRun (RhizomeStep (callTo sid)) Transferred .entry
      (events ++ [.polled [answerRow body]] ++ [.received (answerPacket body)]) next := by
  obtain ⟨running, noRows, notReceived, waiting⟩ := polling
  have polled : rhizomeEvent (callTo sid) state (.poll 0 (some [answerRow body])) =
      .ok (.polled [answerRow body]) := by
    have early : ¬ (0 : Int) > state.waitTime := by omega
    simp [rhizomeEvent, early]
  have listed : rowsToVisit state.token [answerRow body] = .ok [answerRow body] := by
    cases state.token <;> rfl
  have pollRound : rpcClientRhizomeListenRound (callTo sid) state (.polled [answerRow body]) =
      .ok { state with pending := [answerRow body] } := by
    rw [rpcClientRhizomeListenRound, listed]
    rfl
  have afterPoll := run.tail (by intro same; cases same)
    (.poll 0 (some [answerRow body]) running noRows notReceived polled pollRound)
  refine afterPoll.tail (by intro same; cases same) ?_
  exact .visit (answerInput body) running (by simp) (answerRow_event sid state bound) round

/-- The state after a row with an ACK. -/
def ackedState (sid : Sid) : RhizomeState where
  returnCode := 1
  received := 0
  waitTime := 120
  token := some (CString.ofChars ['t'])
  pending := []
  rpcResult := reactToAck (callTo sid) (answerPacket ackBody) .empty
  returned := none

theorem acked_run (sid : Sid) :
    GuardedRun (RhizomeStep (callTo sid)) Transferred .entry
      [.polled [answerRow ackBody], .received (answerPacket ackBody)] (ackedState sid) :=
  row_run .refl ⟨rfl, rfl, rfl, by decide⟩ (by decide) rfl

theorem timeout_step {call : ClientCall} {state : RhizomeState} (polling : Polling state)
    {next : RhizomeState} (round : rpcClientRhizomeListenRound call state .timeout = .ok next) :
    RhizomeStep call state .timeout next := by
  obtain ⟨running, noRows, notReceived, _⟩ := polling
  have late : rhizomeEvent call state (.poll (state.waitTime + 1) none) = .ok .timeout := by
    have passed : state.waitTime + 1 > state.waitTime := Int.lt_succ _
    simp only [rhizomeEvent, passed, if_true]
  exact .poll _ none running noRows notReceived late round

theorem answerBytes_responseBody (sid : Sid) :
    answerBytes (callTo sid) (answerPacket responseBody) = .ok [51, 0] := by
  rfl

theorem responsePacket_isResponse : IsResponse (answerPacket responseBody) := by decide

theorem direct_response_round :
    ∃ next, rpcClientRhizomeListenRound (callTo sidAny)
      { ackedState sidAny with pending := [answerRow responseBody] }
        (.received (answerPacket responseBody)) = .ok next ∧ next.returned = some 2 := by
  have empty : (ackedState sidAny).rpcResult = .empty := rfl
  obtain ⟨rpcResult, reacted⟩ := @direct_answered (callTo sidAny) (answerPacket responseBody)
    (by decide) [51] [] rfl (by decide) (by decide) rfl (by decide)
  rw [rpcClientRhizomeListenRound, empty, reacted]
  exact ⟨_, rfl, rfl⟩

theorem all_response_round :
    ∃ next, rpcClientRhizomeListenRound (callTo sidBroadcast)
      { ackedState sidBroadcast with pending := [answerRow responseBody] }
        (.received (answerPacket responseBody)) = .ok next ∧ Polling next := by
  have inside : 0 < (ackedState sidBroadcast).rpcResult.cells.length := by decide
  have fits : [51, (0 : UInt8)].length ≤ rpcPktSize := by decide
  have all : isSidTBroadcast (callTo sidBroadcast).sid = true := by decide
  have found : rpcClientResultGetSidIndex (ackedState sidBroadcast).rpcResult
      (answerPacket responseBody).sender = some 0 := by decide
  obtain ⟨table, stored⟩ := storeAnswer_of_fits inside fits
  have reacted : reactToResponse (callTo sidBroadcast) (answerPacket responseBody)
      (ackedState sidBroadcast).rpcResult = .ok (.answered table false) := by
    rw [reactToResponse, if_pos all, found]
    simp only [answerBytes_responseBody, ok_bind, stored]
    rfl
  rw [rpcClientRhizomeListenRound, reactToPacket_of_isResponse responsePacket_isResponse, reacted]
  exact ⟨_, rfl, rfl, rfl, rfl, show (0 : Int) ≤ 120 by decide⟩

theorem timeout_run {call : ClientCall} {events : List RhizomeEvent} {state : RhizomeState}
    (run : GuardedRun (RhizomeStep call) Transferred .entry events state)
    (polling : Polling state) :
    ∃ next : RhizomeState, GuardedRun (RhizomeStep call) Transferred .entry (events ++ [.timeout]) next ∧
      next.returned = some (timeoutCode call state.rpcResult (-1)) := by
  have total : ∃ next, rpcClientRhizomeListenRound call state .timeout = .ok next := by
    unfold rpcClientRhizomeListenRound
    simp only
    split
    · exact ⟨_, rfl⟩
    · exact ⟨_, rfl⟩
  obtain ⟨next, round⟩ := total
  refine ⟨next, run.tail (by intro same; cases same) (timeout_step polling round), ?_⟩
  exact (listenRound_outcome polling.running round).2

/-- The packets of an ACK and the RESPONSE after it. -/
def answeredPackets : List Packet := [answerPacket ackBody, answerPacket responseBody]

theorem answeredPackets_orderly : Orderly answeredPackets := by
  have senders : ackSenders answeredPackets = [server 1] := by decide
  refine ⟨?_, ?_, ?_⟩ <;> rw [senders] <;> decide

theorem answeredPackets_answered (sid : Sid) : Answered (callTo sid) answeredPackets := by
  intro before ack after split isAck
  cases before with
  | nil =>
    cases split
    exact ⟨_, List.mem_singleton.mpr rfl, responsePacket_isResponse, rfl, _,
      answerBytes_responseBody sid⟩
  | cons first before =>
    cases before with
    | nil =>
      cases split
      exact absurd responsePacket_isResponse (not_isResponse_of_isAck isAck)
    | cons second before => simp [answeredPackets] at split

/-- Calls to all servers and to one server that return 2 with an answer, and a call over MDP that
nobody acknowledges. -/
theorem return_codes_truthful_answered :
    Truthful (callTo sidBroadcast) [] .empty 0 ∧
    (∃ state : RhizomeState, state.returned = some 2 ∧
      Truthful (callTo sidBroadcast) answeredPackets state.rpcResult 2) ∧
    ∃ state : RhizomeState, state.returned = some 2 ∧
      Truthful (callTo sidAny) answeredPackets state.rpcResult 2 := by
  obtain ⟨mdp, rhizome, -⟩ := return_codes_truthful (callTo sidBroadcast)
  obtain ⟨-, -, direct⟩ := return_codes_truthful (callTo sidAny)
  refine ⟨?_, ?_, ?_⟩
  · have step : MdpStep (callTo sidBroadcast) (.entry 0) .timeout
        { MdpState.entry 0 with returned := some 0 } :=
      .round ⟨11, true, none⟩ rfl (.inl rfl) rfl
    have orderly : Orderly [] := ⟨.nil, by decide, fun _ member => nomatch member⟩
    have run : GuardedRun (MdpStep (callTo sidBroadcast)) Sent (.entry 0) [.timeout] _ :=
      .tail .refl (by intro same; cases same) step
    refine (mdp rfl [.timeout] _ 0 run rfl orderly).1 ?_
    intro before ack after split
    cases before <;> cases split
  · obtain ⟨answered, round, polling⟩ := all_response_round
    have run := row_run (acked_run sidBroadcast) ⟨rfl, rfl, rfl, by decide⟩ (by decide) round
    obtain ⟨state, ended, returned⟩ := timeout_run run polling
    have isCode := (counted_of_rhizomeRun rfl ended answeredPackets_orderly).code _ returned
    rw [isCode] at returned
    have truthful := rhizome rfl _ state 2 ended returned answeredPackets_orderly
    exact ⟨state, returned, truthful.1 (answeredPackets_answered sidBroadcast)⟩
  · obtain ⟨state, round, returned⟩ := direct_response_round
    have run := row_run (acked_run sidAny) ⟨rfl, rfl, rfl, by decide⟩ (by decide) round
    refine ⟨state, returned, (direct (by decide) _ state 2 run returned).mpr fun _ => ?_⟩
    exact ⟨answerPacket responseBody, by simp [rhizomePackets, RhizomeEvent.packet?],
      responsePacket_isResponse⟩

/-- A server that only acknowledges: the call to all servers over MDP returns 2, and the call to
one server over Rhizome does not return 1. -/
theorem codes_without_response :
    (∃ events state, GuardedRun (MdpStep allCall) Sent (.entry 0) events state ∧
      state.returned = some 2 ∧ ¬ Truthful allCall (mdpPackets events) state.rpcResult 2) ∧
    ∃ events state, GuardedRun (RhizomeStep (callTo sidAny)) Transferred .entry events state ∧
      state.returned = some (-1) ∧
        ¬ Truthful (callTo sidAny) (rhizomePackets events) state.rpcResult (-1) := by
  constructor
  · have run := @ack_run Sent (fun _ _ same => nomatch same) allCall [server 1]
    have step : MdpStep allCall (ackState allCall [server 1]) .timeout
        { ackState allCall [server 1] with returned := some 2 } :=
      .round ⟨31, true, none⟩ rfl (.inr rfl) rfl
    refine ⟨_, _, run.tail (by intro same; cases same) step, rfl, fun truthful => ?_⟩
    obtain ⟨packet, member, _, _, response, _⟩ := truthful.stored rfl
    obtain rfl := List.mem_singleton.mp member
    exact not_isResponse_of_isAck (ackDatagram_isAck (server 1)) response
  · obtain ⟨state, ended, returned⟩ := timeout_run (acked_run sidAny) ⟨rfl, rfl, rfl, by decide⟩
    refine ⟨_, state, ended, returned, fun truthful => ?_⟩
    have ack : IsAck (answerPacket ackBody) := by decide
    refine absurd (truthful.acknowledged.mpr ⟨⟨_, List.mem_singleton.mpr rfl, ack⟩, ?_⟩) (by decide)
    rintro ⟨packet, member, response⟩
    obtain rfl := List.mem_singleton.mp member
    exact not_isResponse_of_isAck ack response

end ServalRpc.Verified.ReturnCodes
