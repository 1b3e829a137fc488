import ServalRpc.Model.ClientCalls
import ServalRpc.Verified.LateAnswers

/-! # Who answers a call to one server

A call to one server is over with the first RESPONSE that it takes, and neither listener compares the
sender with the server that the call is addressed to.
-/

namespace ServalRpc.Verified.Addressee

open CLib ListenerSteps ListenerRounds Polling

/-- The first slot holds the answer of this server. -/
def AnsweredBy (call : ClientCall) (sid : Sid) (packets : List Packet) (rpcResult : ResultTable) :
    Prop :=
  ∃ result, rpcResult.cells.head? = some result ∧ result.serverSid = sid ∧
    ∃ packet ∈ packets, packet.sender = sid ∧ AnswerOf call packet result

theorem not_answeredBy_empty {call : ClientCall} {sid : Sid} (notAny : sid ≠ sidAny)
    (packets : List Packet) : ¬ AnsweredBy call sid packets .empty := by
  rintro ⟨result, first, isServer, _⟩
  cases first
  exact notAny isServer.symm

/-! ## MDP -/

def receivedPackets (inputs : List MdpInput) : List Packet :=
  inputs.filterMap fun input => input.datagram.map Datagram.packet

def firstResponse (packets : List Packet) : Option Packet :=
  packets.find? fun packet => decide (IsResponse packet)

theorem firstResponse_mem {packets : List Packet} {packet : Packet}
    (first : firstResponse packets = some packet) : packet ∈ packets ∧ IsResponse packet := by
  unfold firstResponse at first
  exact ⟨List.mem_of_find?_eq_some first, by simpa using List.find?_some first⟩

section Mdp

variable {call : ClientCall}

theorem mdpEvent_quiet {state : MdpState} {input : MdpInput} (quiet : mdpEvent state input = .quiet) :
    input.datagram = none := by
  unfold mdpEvent at quiet
  split_ifs at quiet
  cases datagram : input.datagram with
  | none => rfl
  | some datagram =>
    rw [datagram] at quiet
    cases quiet

theorem mdpEvent_received {state : MdpState} {input : MdpInput} {packet : Packet}
    (received : mdpEvent state input = .received packet) :
    input.datagram.map Datagram.packet = some packet := by
  unfold mdpEvent at received
  split_ifs at received
  cases datagram : input.datagram with
  | none =>
    rw [datagram] at received
    cases received
  | some datagram =>
    rw [datagram] at received
    cases received
    rfl

theorem mdp_running_iff {state : MdpState} :
    state.code = none ↔ state.returned = none ∧ (state.received = 0 ∨ state.received = 1) := by
  unfold MdpState.code
  cases returned : state.returned with
  | none => simp [or_iff_not_imp_left]
  | some code => simp

theorem receivedAfter_waiting {reaction : Reaction} (goesOn : completes reaction = false)
    {received : Int} (waiting : received = 0 ∨ received = 1) :
    receivedAfter received reaction = 0 ∨ receivedAfter received reaction = 1 := by
  cases reaction with
  | ignored => exact waiting
  | acknowledged rpcResult => exact .inr rfl
  | answered rpcResult complete =>
    obtain rfl : complete = false := goesOn
    exact waiting

theorem mdpLoop_ended {state final : MdpState} {code : Int} (ended : state.code = some code)
    {inputs : List MdpInput} (looped : mdpLoop call state inputs = .ok final) : final = state := by
  cases inputs with
  | nil => exact (Except.ok.inj looped).symm
  | cons input inputs =>
    rw [mdpLoop, ended, Option.isSome_some, if_pos rfl] at looped
    exact (Except.ok.inj looped).symm

/-- A round of a loop that comes to return 2 returns it, or goes on. -/
theorem mdpLoop_round {state final : MdpState} {input : MdpInput} {inputs : List MdpInput}
    (running : state.code = none) (looped : mdpLoop call state (input :: inputs) = .ok final)
    (two : final.code = some 2) :
    ∃ next, rpcClientCallMdpRound call state (mdpEvent state input) = .ok next ∧
      MdpOutcome call state next (mdpEvent state input) ∧
      (∀ code, next.returned = some code → code = 2 ∧ final = next) ∧
      (next.returned = none → next.code = none ∧ mdpLoop call next inputs = .ok final) := by
  rw [mdpLoop, running, Option.isSome_none, if_neg Bool.false_ne_true] at looped
  obtain ⟨next, round, looped⟩ := bind_eq_ok_iff.mp looped
  obtain ⟨notReturned, waiting⟩ := mdp_running_iff.mp running
  obtain ⟨_, outcome⟩ := mdp_outcome (.round input notReturned waiting round)
  refine ⟨next, round, outcome, fun code returned => ?_, fun returned => ⟨?_, looped⟩⟩
  · have ended : next.code = some code := by rw [MdpState.code, returned]
    obtain rfl := mdpLoop_ended ended looped
    exact ⟨Option.some.inj (ended.symm.trans two), rfl⟩
  · refine mdp_running_iff.mpr ⟨returned, ?_⟩
    cases event : mdpEvent state input with
    | timeout =>
      rw [event] at outcome
      cases outcome.2.symm.trans returned
    | sendFailed =>
      rw [event] at outcome
      cases outcome.2.symm.trans returned
    | quiet =>
      rw [event] at outcome
      rwa [outcome.2.1]
    | received packet =>
      rw [event] at outcome
      obtain ⟨reaction, _, _, received, isReturned⟩ := outcome
      rw [received]
      cases complete : completes reaction with
      | false => exact receivedAfter_waiting complete waiting
      | true =>
        rw [complete] at isReturned
        cases isReturned.symm.trans returned

theorem receivedPackets_quiet {state : MdpState} {input : MdpInput}
    (quiet : mdpEvent state input = .quiet) (inputs : List MdpInput) :
    receivedPackets (input :: inputs) = receivedPackets inputs := by
  simp [receivedPackets, mdpEvent_quiet quiet]

theorem receivedPackets_received {state : MdpState} {input : MdpInput} {packet : Packet}
    (received : mdpEvent state input = .received packet) (inputs : List MdpInput) :
    receivedPackets (input :: inputs) = packet :: receivedPackets inputs := by
  simp [receivedPackets, mdpEvent_received received]

/-- The loop returns 2 with the first RESPONSE that arrives. -/
theorem mdpLoop_answered (direct : call.sid ≠ sidBroadcast) {state final : MdpState}
    {inputs : List MdpInput} (running : state.code = none) (empty : state.rpcResult = .empty)
    (looped : mdpLoop call state inputs = .ok final) (two : final.code = some 2) :
    ∃ packet result, firstResponse (receivedPackets inputs) = some packet ∧
      AnswerOf call packet result ∧ final.rpcResult = answeredTable result := by
  induction inputs generalizing state with
  | nil =>
    cases looped
    cases running.symm.trans two
  | cons input inputs inductionHypothesis =>
    obtain ⟨_, waiting⟩ := mdp_running_iff.mp running
    obtain ⟨next, _, outcome, returns, goesOn⟩ := mdpLoop_round running looped two
    cases event : mdpEvent state input with
    | timeout =>
      rw [event] at outcome
      -- Only a call to all servers counts slots, and `received` is not 2 while the loop runs.
      obtain ⟨isTwo, _⟩ := returns _ outcome.2
      rw [timeoutCode, if_neg fun counted => direct counted.1] at isTwo
      omega
    | sendFailed =>
      rw [event] at outcome
      exact absurd (returns _ outcome.2).1 (by decide)
    | quiet =>
      rw [event] at outcome
      obtain ⟨same, _, returned⟩ := outcome
      obtain ⟨stillRunning, looped⟩ := goesOn returned
      rw [receivedPackets_quiet event]
      exact inductionHypothesis stillRunning (same.trans empty) looped
    | received packet =>
      rw [event] at outcome
      obtain ⟨reaction, reacted, table, _, returned⟩ := outcome
      rw [receivedPackets_received event, firstResponse, List.find?_cons]
      rw [empty] at reacted table
      obtain ⟨notResponse, same, incomplete⟩ | ⟨result, answer, rfl⟩ :=
        react_direct_cases direct reacted
      · rw [decide_eq_false notResponse]
        rw [incomplete] at returned
        obtain ⟨stillRunning, looped⟩ := goesOn returned
        exact inductionHypothesis stillRunning (table.trans same) looped
      · rw [decide_eq_true answer.1]
        obtain ⟨_, rfl⟩ := returns 2 returned
        exact ⟨packet, result, rfl, answer, table⟩

theorem callMdp_of_loop {world : MdpCallWorld} {memory : ClientMemory} {state : MdpState}
    (passes : mdpRefuses call world.reachable = false) (socket : world.socket = true)
    (bound : world.bound = true)
    (looped : mdpLoop call (.entry memory.received) world.inputs = .ok state) :
    rpcClientCallMdp call world memory =
      .ok ⟨state.code, ⟨state.received, state.rpcResult⟩⟩ := by
  unfold rpcClientCallMdp
  simp only [passes, socket, bound, looped, Bool.not_true, Bool.false_eq_true, if_false, ok_bind]
  rfl

/-- How `rpc_client_call_mdp` comes to return 2 for a call to one server: at once, when `received` is
still 2, or with the first RESPONSE. -/
theorem callMdp_answered (direct : call.sid ≠ sidBroadcast)
    {world : MdpCallWorld} {memory after : ClientMemory}
    (called : rpcClientCallMdp call world memory = .ok ⟨some 2, after⟩) :
    (memory.received = 2 ∧ after.rpcResult = .empty) ∨
      memory.received ≠ 2 ∧ ∃ packet result,
        firstResponse (receivedPackets world.inputs) = some packet ∧
          AnswerOf call packet result ∧ after.rpcResult = answeredTable result := by
  unfold rpcClientCallMdp at called
  split at called
  · cases called
  split at called
  · cases called
  split at called
  · cases called
  obtain ⟨state, looped, called⟩ := bind_eq_ok_iff.mp called
  obtain ⟨two, rfl⟩ := CallOutcome.mk.inj (Except.ok.inj called)
  by_cases waiting : memory.received = 0 ∨ memory.received = 1
  · have running : (MdpState.entry memory.received).code = none := mdp_running_iff.mpr ⟨rfl, waiting⟩
    exact .inr ⟨by omega, mdpLoop_answered direct running rfl looped two⟩
  · have ended : (MdpState.entry memory.received).code = some memory.received := if_neg waiting
    obtain rfl := mdpLoop_ended ended looped
    exact .inl ⟨Option.some.inj (ended.symm.trans two), rfl⟩

end Mdp

/-! ## Rhizome -/

/-- The visit of a row takes a RESPONSE. -/
inductive TakesResponse (call : ClientCall) : ListenEvent → Prop where
  | visit {row : Row} {input : RowInput} {sender : CString} {body : List UInt8} :
      interestingRow call input.now row = .ok true → row.sender = some sender →
      input.body = some body → IsResponse (rowPacket call row input sender body) →
      TakesResponse call (.visit row input)

/-- A call to one server has met no RESPONSE, or the only one ended it. -/
inductive DirectRows (call : ClientCall) (events : List ListenEvent) :
    ResultTable → Option Int → Prop where
  | silent {returned : Option Int} : (∀ event ∈ events, ¬ TakesResponse call event) →
      returned = none ∨ returned = some (-1) → DirectRows call events .empty returned
  | answered {row : Row} {input : RowInput} {sender : CString} {body : List UInt8}
      {result : RPCResult} : .visit row input ∈ events →
      (∀ event ∈ events, TakesResponse call event → event = .visit row input) →
      interestingRow call input.now row = .ok true → row.sender = some sender →
      input.body = some body → AnswerOf call (rowPacket call row input sender body) result →
      DirectRows call events (answeredTable result) (some 2)

section Rhizome

variable {call : ClientCall} {events : List ListenEvent}

theorem DirectRows.waiting {rpcResult : ResultTable} (before : DirectRows call events rpcResult none) :
    rpcResult = .empty ∧ ∀ event ∈ events, ¬ TakesResponse call event := by
  cases before with
  | silent noResponse _ => exact ⟨rfl, noResponse⟩

theorem no_response_snoc (noResponse : ∀ event ∈ events, ¬ TakesResponse call event)
    {event : ListenEvent} (quiet : ¬ TakesResponse call event) :
    ∀ other ∈ events ++ [event], ¬ TakesResponse call other := by
  intro other member
  obtain old | new := List.mem_append.mp member
  · exact noResponse other old
  · rwa [List.mem_singleton.mp new]

theorem DirectRows.insert {rpcResult : ResultTable} {returned : Option Int}
    (before : DirectRows call events rpcResult returned) (row : Row) :
    DirectRows call (events ++ [.insert row]) rpcResult returned := by
  cases before with
  | silent noResponse goesOn =>
    exact .silent (no_response_snoc noResponse (fun takes => nomatch takes)) goesOn
  | answered member only interesting isSender isBody answer =>
    refine .answered (List.mem_append_left _ member) ?_ interesting isSender isBody answer
    intro event inEvents takes
    obtain old | new := List.mem_append.mp inEvents
    · exact only event old takes
    · rw [List.mem_singleton.mp new] at takes
      cases takes

theorem DirectRows.step (direct : call.sid ≠ sidBroadcast) {state next : ListenState}
    {event : ListenEvent}
    (before : DirectRows call events state.listener.rpcResult state.listener.returned)
    (step : ListenStep call state event next) :
    DirectRows call (events ++ [event]) next.listener.rpcResult next.listener.returned := by
  cases step with
  | insert row => exact before.insert row
  | @poll listener round elapsed listing running noRows notReceived isEvent rounded =>
    rw [running] at before
    obtain ⟨empty, noResponse⟩ := before.waiting
    have outcome := listenRound_outcome running rounded
    have quiet : ¬ TakesResponse call (.poll elapsed listing) := fun takes => nomatch takes
    have same : listener.rpcResult = state.listener.rpcResult ∧
        (listener.returned = none ∨ listener.returned = some (-1)) := by
      obtain rfl | rfl | ⟨rows, _, rfl⟩ := poll_event isEvent
      · rw [RhizomeOutcome, timeoutCode, if_neg fun counted => direct counted.1] at outcome
        exact ⟨outcome.1, .inr outcome.2⟩
      · exact ⟨outcome.1, .inr outcome.2⟩
      · exact ⟨outcome.1, .inl outcome.2⟩
    rw [same.1, empty]
    exact .silent (no_response_snoc noResponse quiet) same.2
  | @visit listener round row rows input running pending isEvent rounded =>
    rw [running] at before
    obtain ⟨empty, noResponse⟩ := before.waiting
    have outcome := listenRound_outcome running rounded
    obtain ⟨boring, rfl⟩ | ⟨interesting, sender, isSender, arrived⟩ := visit_event pending isEvent
    · have quiet : ¬ TakesResponse call (.visit row input) := by
        rintro ⟨interesting, _⟩
        cases boring.symm.trans interesting
      rw [outcome.1, empty]
      exact .silent (no_response_snoc noResponse quiet) (.inl outcome.2)
    · obtain ⟨noBody, rfl⟩ | ⟨body, isBody, rfl⟩ := arrived
      · have quiet : ¬ TakesResponse call (.visit row input) := by
          rintro ⟨_, _, isBody, _⟩
          cases noBody.symm.trans isBody
        rw [outcome.1, empty]
        exact .silent (no_response_snoc noResponse quiet) (.inr outcome.2)
      · obtain ⟨reaction, reacted, table, returned⟩ := outcome
        rw [empty] at reacted table
        rw [table, returned]
        obtain ⟨notResponse, same, goesOn⟩ | ⟨result, answer, rfl⟩ :=
          react_direct_cases direct reacted
        · have quiet : ¬ TakesResponse call (.visit row input) := by
            rintro ⟨_, isSender', isBody', response⟩
            cases isSender.symm.trans isSender'
            cases isBody.symm.trans isBody'
            exact notResponse response
          rw [same, goesOn]
          exact .silent (no_response_snoc noResponse quiet) (.inl rfl)
        · refine .answered (List.mem_append_right _ (List.mem_singleton.mpr rfl)) ?_ interesting
            isSender isBody answer
          intro other member takes
          obtain old | new := List.mem_append.mp member
          · exact absurd takes (noResponse other old)
          · exact List.mem_singleton.mp new

theorem directRows_of_run (direct : call.sid ≠ sidBroadcast)
    {guard : ListenState → ListenEvent → Prop} {store : List Row} {state : ListenState}
    (run : GuardedRun (ListenStep call) guard (.start store) events state) :
    DirectRows call events state.listener.rpcResult state.listener.returned := by
  refine @GuardedRun.invariant _ _ _ _ _ (fun events state =>
    DirectRows call events state.listener.rpcResult state.listener.returned) ?_ ?_ _ _ run
  · exact .silent (fun _ member => nomatch member) (.inl rfl)
  · intro past before event after holds _ step
    exact holds.step direct step

end Rhizome

/-- The row names this server as its sender. -/
def SentBy (call : ClientCall) (sid : Sid) (row : Row) : Prop :=
  ∃ sender, row.sender = some sender ∧ call.serval.strToSidT sender = some sid

/-- The first slot holds the answer in a bundle of this server. -/
def RowAnsweredBy (call : ClientCall) (sid : Sid) (events : List ListenEvent)
    (rpcResult : ResultTable) : Prop :=
  ∃ result, rpcResult.cells.head? = some result ∧ result.serverSid = sid ∧
    ∃ row input sender body, .visit row input ∈ events ∧ SentBy call sid row ∧
      interestingRow call input.now row = .ok true ∧ row.sender = some sender ∧
      input.body = some body ∧ AnswerOf call (rowPacket call row input sender body) result

/-- A call to one server that returns 2 has an answer of this server exactly when no answer is left
over from an earlier call and the first RESPONSE comes from this server. -/
theorem addressee_answers_iff (call : ClientCall) (named : call.sid ≠ sidAny)
    (direct : call.sid ≠ sidBroadcast) :
    (∀ world memory after, rpcClientCallMdp call world memory = .ok ⟨some 2, after⟩ →
      (AnsweredBy call call.sid (receivedPackets world.inputs) after.rpcResult ↔
        memory.received ≠ 2 ∧ (firstResponse (receivedPackets world.inputs)).map Packet.sender =
          some call.sid)) ∧
    ∀ guard store events state,
      GuardedRun (ListenStep call) guard (.start store) events state →
      state.listener.returned = some 2 →
        (RowAnsweredBy call call.sid events state.listener.rpcResult ↔
          ∀ row input, .visit row input ∈ events → TakesResponse call (.visit row input) →
            SentBy call call.sid row) := by
  constructor
  · intro world memory after called
    obtain ⟨stale, empty⟩ | ⟨fresh, packet, result, first, answer, table⟩ :=
      callMdp_answered direct called
    · -- A stale answer leaves an empty table.
      rw [empty]
      exact iff_of_false (not_answeredBy_empty named _) fun condition => condition.1 stale
    · rw [table, first, Option.map_some, Option.some_inj]
      constructor
      · rintro ⟨other, isFirst, isServer, _⟩
        cases isFirst
        exact ⟨fresh, answer.2.1.trans isServer⟩
      · rintro ⟨_, sender⟩
        exact ⟨result, rfl, answer.2.1.symm.trans sender, packet, (firstResponse_mem first).1, sender,
          answer⟩
  · intro guard store events state run returned
    have ended := directRows_of_run direct run
    rw [returned] at ended
    generalize state.listener.rpcResult = table at ended ⊢
    cases ended with
    | silent _ goesOn => simp at goesOn
    | @answered row input sender body result member only interesting isSender isBody answer =>
      constructor
      · rintro ⟨_, _, _, row', input', sender', body', member', sentBy, interesting', isSender',
          isBody', answer'⟩ other input'' inEvents takes
        have first := only _ member' (.visit interesting' isSender' isBody' answer'.1)
        cases first
        cases only _ inEvents takes
        exact sentBy
      · intro sentBy
        obtain ⟨text, isText, parsed⟩ :=
          sentBy row input member (.visit interesting isSender isBody answer.1)
        cases isSender.symm.trans isText
        have isServer : (rowPacket call row input sender body).sender = call.sid := by
          rw [rowPacket, parsed]
          rfl
        exact ⟨result, rfl, answer.2.1.symm.trans isServer, row, input, sender, body, member,
          ⟨sender, isSender, parsed⟩, interesting, isSender, isBody, answer⟩

/-! ## An answer from another server -/

/-- A RESPONSE as a server sends it, of the whole size. -/
def responseBytes : List UInt8 := rpcPktCallResponse :: ([51] ++ 0 :: List.replicate 957 0)

theorem responseBytes_length : responseBytes.length = rpcPktSize := by
  rw [responseBytes, List.length_cons, List.length_append, List.length_cons, List.length_cons,
    List.length_nil, List.length_replicate]
  rfl

def responseDatagram (sender : Sid) : Datagram where
  sender := sender
  bytes := responseBytes
  size := Nat.le_of_eq responseBytes_length
  behind _ := 0
  downloads := []
  pathRest _ := 0

theorem responseDatagram_payload (sender : Sid) :
    (responseDatagram sender).packet.recvPayload = responseBytes := by
  simp only [Datagram.packet, responseDatagram, ← responseBytes_length, overread_self]

theorem responseDatagram_isResponse (sender : Sid) :
    IsResponse (responseDatagram sender).packet := by
  rw [IsResponse, responseDatagram_payload]
  rfl

/-- A call to one server, and the RESPONSE of some server. -/
def responseWorld (sender : Sid) : MdpCallWorld where
  reachable := 1
  socket := true
  bound := true
  inputs := [⟨0, true, some (responseDatagram sender)⟩]

theorem firstResponse_responseWorld (sender : Sid) :
    firstResponse (receivedPackets (responseWorld sender).inputs) =
      some (responseDatagram sender).packet := by
  rw [firstResponse, show receivedPackets (responseWorld sender).inputs =
    [(responseDatagram sender).packet] from rfl, List.find?_cons,
    decide_eq_true (responseDatagram_isResponse sender)]

theorem responseWorld_called {call : ClientCall} (direct : call.sid ≠ sidBroadcast) (sender : Sid) :
    ∃ rpcResult, rpcClientCallMdp call (responseWorld sender) .initial =
      .ok ⟨some 2, 2, rpcResult⟩ := by
  have size : (responseDatagram sender).packet.len = rpcPktSize := responseBytes_length
  obtain ⟨rpcResult, reacted⟩ := direct_answered direct (responseDatagram_payload sender) (by decide)
    (by decide) (by rw [size, responseDatagram_payload, responseBytes_length]) (Nat.le_of_eq size)
  have passes : mdpRefuses call (responseWorld sender).reachable = false := Bool.and_false _
  have round : rpcClientCallMdpRound call (.entry 0) (.received (responseDatagram sender).packet) =
      .ok ⟨2, 10, 1, rpcResult, some 2⟩ := by
    rw [rpcClientCallMdpRound, show (MdpState.entry 0).rpcResult = .empty from rfl, reacted]
    rfl
  have event : mdpEvent (.entry 0) ⟨0, true, some (responseDatagram sender)⟩ =
      .received (responseDatagram sender).packet := rfl
  have looped : mdpLoop call (.entry 0) (responseWorld sender).inputs =
      .ok ⟨2, 10, 1, rpcResult, some 2⟩ := by
    rw [responseWorld, mdpLoop, event, round]
    rfl
  exact ⟨rpcResult, @callMdp_of_loop call (responseWorld sender) .initial _ passes rfl rfl looped⟩

/-- The servers of the calls below. -/
def callServer (digit : UInt8) : ClientCall :=
  LateAnswers.nodeCall (ResultSlots.server digit) ['a', 'd', 'd']

theorem callServer_run (digit : UInt8) (direct : ResultSlots.server digit ≠ sidBroadcast) :
    ∃ events state result,
      GuardedRun (ListenStep (callServer digit)) DaemonLists (.start [otherRow 'a', otherRow 'b']) events
        state ∧
      state.listener.returned = some 2 ∧
      state.listener.rpcResult = answeredTable result ∧ result.serverSid = ResultSlots.server 1 ∧
      ∀ row input, .visit row input ∈ events → row = otherRow 'b' ∨ row = LateAnswers.lateRow := by
  have quiet : interestingRow (callServer digit) 0 (otherRow 'b') = .ok false := rfl
  obtain ⟨past, run, visited⟩ := LateAnswers.late_run quiet
  obtain ⟨next, result, step, returned, table, isServer⟩ := LateAnswers.late_visit direct
  refine ⟨_, next, result, run.tail (by trivial) step, returned, table, isServer, ?_⟩
  intro row input member
  obtain old | new := List.mem_append.mp member
  · exact .inl (visited row input old)
  · cases List.mem_singleton.mp new
    exact .inr rfl

/-- Calls to the server that answers. -/
theorem addressee_answers :
    (∃ after, rpcClientCallMdp (callServer 1) (responseWorld (ResultSlots.server 1)) .initial =
        .ok ⟨some 2, after⟩ ∧
      AnsweredBy (callServer 1) (ResultSlots.server 1)
        (receivedPackets (responseWorld (ResultSlots.server 1)).inputs) after.rpcResult) ∧
    ∃ events state,
      GuardedRun (ListenStep (callServer 1)) DaemonLists (.start [otherRow 'a', otherRow 'b']) events
        state ∧
      state.listener.returned = some 2 ∧
      RowAnsweredBy (callServer 1) (ResultSlots.server 1) events state.listener.rpcResult := by
  have direct : (callServer 1).sid ≠ sidBroadcast := by decide
  obtain ⟨mdp, rhizome⟩ := addressee_answers_iff (callServer 1) (by decide) direct
  constructor
  · obtain ⟨rpcResult, called⟩ := responseWorld_called direct (ResultSlots.server 1)
    refine ⟨⟨2, rpcResult⟩, called, (mdp _ _ _ called).mpr ⟨by decide, ?_⟩⟩
    rw [firstResponse_responseWorld]
    rfl
  · obtain ⟨events, state, _, run, returned, _, _, visited⟩ := callServer_run 1 direct
    refine ⟨events, state, run, returned, (rhizome _ _ _ _ run returned).mpr ?_⟩
    intro row input member takes
    obtain rfl | rfl := visited row input member
    · cases takes with
      | visit interesting =>
        cases interesting
    · exact ⟨_, LateAnswers.lateRow_sender, (callServer 1).serval.strToSidT_tohexSidT _⟩

/-- Calls to one server that another one answers. -/
theorem stranger_answers :
    (∃ after, rpcClientCallMdp (callServer 2) (responseWorld (ResultSlots.server 1)) .initial =
        .ok ⟨some 2, after⟩ ∧
      ¬ AnsweredBy (callServer 2) (ResultSlots.server 2)
        (receivedPackets (responseWorld (ResultSlots.server 1)).inputs) after.rpcResult) ∧
    ∃ events state,
      GuardedRun (ListenStep (callServer 2)) DaemonLists (.start [otherRow 'a', otherRow 'b']) events
        state ∧
      state.listener.returned = some 2 ∧
      ¬ RowAnsweredBy (callServer 2) (ResultSlots.server 2) events state.listener.rpcResult := by
  have direct : (callServer 2).sid ≠ sidBroadcast := by decide
  have others : ResultSlots.server 1 ≠ ResultSlots.server 2 := by decide
  constructor
  · obtain ⟨rpcResult, called⟩ := responseWorld_called direct (ResultSlots.server 1)
    refine ⟨⟨2, rpcResult⟩, called, ?_⟩
    rintro ⟨_, _, _, packet, member, sender, _⟩
    obtain rfl := List.mem_singleton.mp member
    exact others sender
  · obtain ⟨events, state, result, run, returned, table, isServer, _⟩ := callServer_run 2 direct
    refine ⟨events, state, run, returned, ?_⟩
    rw [table]
    rintro ⟨_, first, isServer', _⟩
    cases first
    exact others (isServer.symm.trans isServer')

end ServalRpc.Verified.Addressee
