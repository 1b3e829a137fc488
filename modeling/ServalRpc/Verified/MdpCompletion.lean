import ServalRpc.Verified.MdpProvenance
import ServalRpc.Verified.PlainStrings

/-! # Whether an MDP call can still complete

The ACK ends the repetition of the call.  If the result is lost after it, nobody sends anything any
more; without the ACK the client still makes up for every loss.
-/

namespace ServalRpc.Verified.MdpCompletion

open CLib HandlerSteps ListenerSteps ListenerRounds Delivery MdpProvenance PlainAnswers

variable {system : MdpSystem}

/-- The outside leaves the client's socket alone. -/
def LeftAlone (system : MdpSystem) (_ : Network MdpParties MdpMessage) :
    NetworkEvent MdpMessage → Prop
  | .injected message => message.destination ≠ system.address
  | _ => True

/-- No copy of the call and no answer is on its way, and no server is at work on the call. -/
structure Silent (system : MdpSystem) (network : Network MdpParties MdpMessage) : Prop where
  calls : ∀ message ∈ network.inFlight, message.source ≠ system.address
  answers : ∀ message ∈ network.inFlight, message.destination = system.address →
    message.payload = [rpcPktCallAck]
  executing : ∀ sid attempt, network.parties.phase sid = .executing attempt →
    attempt.message.source ≠ system.address

theorem silent_start (system : MdpSystem) : Silent system system.start := by
  refine ⟨fun _ inFlight => ?_, fun _ inFlight => ?_, fun _ _ executing => ?_⟩
  · cases inFlight
  · cases inFlight
  · cases executing

/-! ## After the ACK -/

/-- A round without an answer does not complete a call to one server. -/
theorem round_of_acknowledged {call : ClientCall} {state next : MdpState} {event : MdpEvent}
    (direct : call.sid ≠ sidBroadcast) (round : rpcClientCallMdpRound call state event = .ok next)
    (running : state.returned = none) (acknowledged : state.received = 1)
    (noAnswer : ∀ packet, event = .received packet → ¬ IsResponse packet) :
    next.received = 1 ∧ next.returned ≠ some 2 := by
  have goesOn : state.returned ≠ some 2 := by
    rw [running]
    exact nofun
  unfold rpcClientCallMdpRound at round
  cases event with
  | timeout =>
    rw [isSidTBroadcast_of_direct direct] at round
    cases round
    refine ⟨acknowledged, ?_⟩
    simp [acknowledged]
  | sendFailed =>
    cases round
    refine ⟨acknowledged, ?_⟩
    simp
  | quiet =>
    cases round
    exact ⟨acknowledged, goesOn⟩
  | received packet =>
    obtain ⟨reaction, reacted, round⟩ := bind_eq_ok_iff.mp round
    obtain ⟨_, rfl⟩ | ⟨response, _⟩ | ⟨_, _, rfl⟩ := react_cases reacted
    · cases round
      exact ⟨rfl, goesOn⟩
    · exact absurd response (noAnswer packet rfl)
    · cases round
      exact ⟨acknowledged, goesOn⟩

/-- The client has its ACK, and nothing will come of it. -/
structure Forgotten (system : MdpSystem) (network : Network MdpParties MdpMessage) : Prop where
  silent : Silent system network
  acknowledged : network.parties.client.received = 1
  unanswered : network.parties.client.returned ≠ some 2

theorem sent_elsewhere {server : MdpServer} {message : MdpMessage} {actions : List ServerAction}
    (wellFormed : WellFormed system) (addressed : message.destination = server.address)
    (other : message.source ≠ system.address)
    (back : ∀ remote payload, .mdpSend remote payload true ∈ actions →
      remote = message.source.sid) :
    ∀ reply ∈ server.replies message actions,
      reply.source ≠ system.address ∧ reply.destination ≠ system.address := by
  intro reply member
  obtain ⟨remote, payload, sent, rfl⟩ := mem_replies_iff.mp member
  obtain rfl := back remote payload sent
  have port : message.destination.port = mdpPortRpc := by rw [addressed]; rfl
  refine ⟨fun fromClient => ?_, other⟩
  exact wellFormed.ephemeral ((congrArg MdpSockaddr.port fromClient).symm.trans port)

/-- Messages that neither come from the client nor go to it do not end the silence. -/
theorem Silent.add {parties : MdpParties} {rest sent : Multiset MdpMessage}
    (silent : Silent system ⟨parties, rest⟩)
    (elsewhere : ∀ message ∈ sent,
      message.source ≠ system.address ∧ message.destination ≠ system.address) :
    Silent system ⟨parties, rest + sent⟩ := by
  refine ⟨fun message member => ?_, fun message member => ?_, silent.executing⟩
  · obtain member | member := Multiset.mem_add.mp member
    · exact silent.calls message member
    · exact (elsewhere message member).1
  · obtain member | member := Multiset.mem_add.mp member
    · exact silent.answers message member
    · exact fun toClient => absurd toClient (elsewhere message member).2

theorem Silent.of_subset {parties : MdpParties} {inFlight rest : Multiset MdpMessage}
    (silent : Silent system ⟨parties, inFlight⟩) (fewer : rest ⊆ inFlight) :
    Silent system ⟨parties, rest⟩ :=
  ⟨fun message member => silent.calls message (fewer member),
    fun message member => silent.answers message (fewer member), silent.executing⟩

/-- A server that leaves its phase for one without the call does not end the silence. -/
theorem Silent.enter {parties : MdpParties} {inFlight : Multiset MdpMessage}
    (silent : Silent system ⟨parties, inFlight⟩) {sid : Sid} {phase : MdpServerPhase}
    (other : ∀ attempt, phase = .executing attempt → attempt.message.source ≠ system.address) :
    Silent system ⟨parties.enter sid phase, inFlight⟩ := by
  refine ⟨silent.calls, silent.answers, fun _ attempt executing => ?_⟩
  obtain entered | before := enter_executing executing
  · exact other attempt entered
  · exact silent.executing _ attempt before

theorem phaseAfter_ne_executing {α : Type} (outcome : Except ServerStop α) (attempt : MdpAttempt) :
    phaseAfter outcome ≠ .executing attempt := by
  unfold phaseAfter
  split
  · exact nofun
  · exact nofun

/-- An arrival that is not an answer is not treated as one. -/
theorem not_isResponse_of_arrival {arrived : Multiset MdpMessage} {input : MdpInput}
    {state : MdpState} (arrives : Arrives system.address arrived input.datagram)
    (acks : ∀ message ∈ arrived, message.destination = system.address →
      message.payload = [rpcPktCallAck]) :
    ∀ packet, mdpEvent state input = .received packet → ¬ IsResponse packet := by
  intro packet isEvent response
  obtain ⟨datagram, isDatagram, isPacket⟩ | noPacket := event_cases state input
  · cases isEvent.symm.trans isPacket
    rw [isDatagram] at arrives
    cases arrives with
    | message message _ toClient _ bytes =>
      have ack : IsAck datagram.packet :=
        load_packet (by rw [bytes, acks message (Multiset.mem_singleton_self _) toClient]; rfl)
      exact not_isResponse_of_isAck ack response
  · rw [isEvent] at noPacket
    cases noPacket

theorem forgotten_of_turn {parties next : MdpParties} {received : Multiset MdpMessage}
    {rest sent : Multiset MdpMessage} (wellFormed : WellFormed system)
    (direct : system.call.sid ≠ sidBroadcast)
    (turn : MdpTurn system parties received sent next) (sound : Sound system parties)
    (forgotten : Forgotten system ⟨parties, received + rest⟩) :
    Forgotten system ⟨next, rest + sent⟩ := by
  have silent : Silent system ⟨parties, rest⟩ :=
    forgotten.silent.of_subset (Multiset.subset_of_le (Multiset.le_add_left _ _))
  have acknowledged : parties.client.received = 1 := forgotten.acknowledged
  have acks : ∀ message ∈ received, message ∈ received + rest :=
    fun message isReceived => Multiset.mem_add.mpr (.inl isReceived)
  cases turn with
  | client input _ running waiting arrives =>
    have nothing : sendsCall parties.client input = false := by simp [sendsCall, acknowledged]
    rw [nothing, if_neg Bool.false_ne_true]
    have noAnswer := @not_isResponse_of_arrival system received input parties.client arrives
      fun message isReceived => forgotten.silent.answers message (acks message isReceived)
    rw [Multiset.add_zero]
    have unanswered : (parties.clientRound system.call input).client.received = 1 ∧
        (parties.clientRound system.call input).client.returned ≠ some 2 := by
      obtain ⟨client, round, same, _⟩ | ⟨same, _⟩ := clientRound_cases parties system.call input
      · rw [same]
        exact round_of_acknowledged direct round running acknowledged noAnswer
      · rw [same]
        exact ⟨acknowledged, forgotten.unanswered⟩
    exact ⟨⟨silent.calls, silent.answers, silent.executing⟩, unanswered.1, unanswered.2⟩
  | refuse world message _ _ _ _ =>
    rw [Multiset.add_zero]
    exact ⟨silent.enter fun attempt same => absurd same (phaseAfter_ne_executing _ attempt),
      acknowledged, forgotten.unanswered⟩
  | @accept server world message rp _ _ addressed _ =>
    have other := forgotten.silent.calls message (acks message (Multiset.mem_singleton_self _))
    have entered : Silent system
        ⟨parties.enter server.sid (.executing ⟨server, message, rp, world⟩), rest⟩ := by
      apply silent.enter
      intro attempt same
      cases same
      exact other
    have elsewhere := @sent_elsewhere system server message
      [.mdpSend message.source.sid [rpcPktCallAck] world.ackSent] wellFormed addressed other
      (fun remote payload sent => by simp_all)
    have added := entered.add elsewhere
    exact ⟨⟨added.calls, added.answers, added.executing⟩, acknowledged, forgotten.unanswered⟩
  | finish attempt executing handled =>
    have admitted := sound.books.admitted attempt (sound.phases _ _ executing)
    have other := forgotten.silent.executing _ attempt executing
    have entered : Silent system ⟨parties.enter attempt.server.sid .listening, rest⟩ :=
      silent.enter fun _ same => by cases same
    have added := entered.add (sent_elsewhere wellFormed admitted.addressed other
      fun _ _ sent => (result_of_finish admitted.accepts handled sent).1)
    exact ⟨⟨added.calls, added.answers, added.executing⟩, acknowledged, forgotten.unanswered⟩
  | fail attempt _ _ =>
    rw [Multiset.add_zero]
    have entered : Silent system ⟨parties.enter attempt.server.sid .halted, rest⟩ :=
      silent.enter fun _ same => by cases same
    exact ⟨entered, acknowledged, forgotten.unanswered⟩

theorem forgotten_of_run (wellFormed : WellFormed system) (direct : system.call.sid ≠ sidBroadcast)
    {network final : Network MdpParties MdpMessage} {later : List (NetworkEvent MdpMessage)}
    (holds : (provenance wellFormed).Holds network) (forgotten : Forgotten system network)
    (run : system.Run (LeftAlone system) network later final) : Forgotten system final := by
  suffices both : (provenance wellFormed).Holds final ∧ Forgotten system final from both.2
  refine @GuardedRun.invariant _ _ _ _ _
    (fun _ final => (provenance wellFormed).Holds final ∧ Forgotten system final)
    ⟨holds, forgotten⟩ ?_ _ _ run
  intro _ state event next both leftAlone step
  obtain ⟨holds, forgotten⟩ := both
  refine ⟨(provenance wellFormed).of_step holds step, ?_⟩
  have silent := forgotten.silent
  cases step with
  | turn turn => exact forgotten_of_turn wellFormed direct turn holds.1 forgotten
  | lose message =>
    exact ⟨silent.of_subset (Multiset.subset_cons _ message), forgotten.acknowledged,
      forgotten.unanswered⟩
  | duplicate message =>
    exact ⟨silent.of_subset (by simp), forgotten.acknowledged, forgotten.unanswered⟩
  | @inject _ rest message foreign =>
    refine ⟨⟨fun other member => ?_, fun other member => ?_, silent.executing⟩,
      forgotten.acknowledged, forgotten.unanswered⟩
    · obtain rfl | member := Multiset.mem_cons.mp member
      · exact foreign.1
      · exact silent.calls other member
    · obtain rfl | member := Multiset.mem_cons.mp member
      · exact fun toClient => absurd toClient leftAlone
      · exact silent.answers other member

/-! ## Before the ACK -/

theorem leftAlone_turn {network before after : Network MdpParties MdpMessage}
    {past : List (NetworkEvent MdpMessage)} {received sent : Multiset MdpMessage}
    (run : system.Run (LeftAlone system) network past before)
    (step : NetworkStep (MdpTurn system) system.Foreign before (.turn received sent) after) :
    system.Run (LeftAlone system) network (past ++ [.turn received sent]) after :=
  .tail run trivial step

/-- The message that the server gets when the client sends. -/
def callMessage (system : MdpSystem) (server : MdpServer) : MdpMessage :=
  ⟨system.address, server.address, system.payload⟩

/-- The server is there for the call, and its execution prints a string that is no filehash. -/
structure Available (system : MdpSystem) (server : MdpServer) (world : MdpWorld)
    (result : ExecuteResult) (text : CString) : Prop where
  isServer : server ∈ system.servers
  addressed : system.call.sid = sidAny ∨ system.call.sid = server.sid
  accepts : ∃ rp, server.Accepts world (callMessage system server) rp ∧
    excecuteCall server.serval world.execute rp = .ok result
  succeeded : result.returnCode ≠ 0
  freed : rpcFreeRp result.rp = .ok ()
  reachable : world.reachable ≠ 0
  sent : world.resultSent = true
  plain : PlainAnswer result.resultPayload.cells text

section Complete

variable {server : MdpServer} {world : MdpWorld} {result : ExecuteResult} {text : CString}

theorem callMessage_mem_copies (available : Available system server world result text) :
    callMessage system server ∈ system.copies := by
  rw [MdpSystem.copies, Multiset.mem_coe, List.mem_map]
  refine ⟨server, List.mem_filter.mpr ⟨available.isServer, ?_⟩, rfl⟩
  obtain any | same := available.addressed
  · simp [any]
  · simp [same]

/-- The handler of an available server acknowledges the call and sends the result. -/
theorem handle_of_available (available : Available system server world result text) :
    ∃ rp, server.Accepts world (callMessage system server) rp ∧
      server.handle world (callMessage system server) =
        .ok (0, [.mdpSend system.address.sid [rpcPktCallAck] world.ackSent, .excecute rp,
          .mdpSend system.address.sid result.resultPayload.cells true]) := by
  obtain ⟨rp, accepts, executed⟩ := available.accepts
  refine ⟨rp, accepts, ?_⟩
  rw [MdpServer.handle, mdpHandle_of_accepted accepts.1 accepts.2 executed available.freed,
    mdpAnswer, if_neg available.succeeded, if_pos available.reachable, available.sent]
  rfl

/-- The first step on the way to an answer: the client sends its call. -/
theorem call_is_sent {parties : MdpParties} (running : parties.stopped = none)
    (waiting : parties.client.returned = none) (unacknowledged : parties.client.received = 0) :
    ∃ next, MdpTurn system parties 0 system.copies next ∧ next.stopped = none ∧
      next.client.returned = none ∧ next.client.received = 0 ∧ next.phase = parties.phase ∧
      next.client.rpcResult = parties.client.rpcResult := by
  let input : MdpInput := ⟨parties.client.waitTime, true, none⟩
  have sends : sendsCall parties.client input = true := by simp [sendsCall, input, unacknowledged]
  have quiet : mdpEvent parties.client input = .quiet := by
    simp [mdpEvent, input, unacknowledged]
  have turn := @MdpTurn.client system parties 0 input running waiting (.inl unacknowledged)
    .nothing
  rw [sends, if_pos rfl] at turn
  refine ⟨_, turn, ?_⟩
  simp only [MdpParties.clientRound, quiet, rpcClientCallMdpRound]
  exact ⟨running, waiting, unacknowledged, trivial, rfl⟩

/-- The message with the result of the execution. -/
def answerMessage (system : MdpSystem) (server : MdpServer) (result : ExecuteResult) : MdpMessage :=
  ⟨server.address, system.address, result.resultPayload.cells⟩

/-- The last step: the answer ends the call. -/
theorem answer_completes (direct : system.call.sid ≠ sidBroadcast)
    (answer : PlainAnswer result.resultPayload.cells text) {parties : MdpParties}
    (running : parties.stopped = none) (waiting : parties.client.returned = none)
    (unacknowledged : parties.client.received = 0)
    (size : parties.client.rpcResult.cells.length = 5) :
    ∃ sent next, MdpTurn system parties {answerMessage system server result} sent next ∧
      next.client.returned = some 2 ∧
      ∃ slot, next.client.rpcResult.cells[0]? = some slot ∧ slot.serverSid = server.sid ∧
        CString.read slot.content = .ok text := by
  let datagram : Datagram :=
    ⟨server.sid, result.resultPayload.cells, answer.fits, fun _ => 0, [], fun _ => 0⟩
  let input : MdpInput := ⟨parties.client.waitTime, true, some datagram⟩
  have arrives : Arrives system.address {answerMessage system server result}
      input.datagram := .message _ datagram rfl rfl rfl
  have event : mdpEvent parties.client input = .received datagram.packet := by
    simp [mdpEvent, input]
  have inside : 0 < parties.client.rpcResult.cells.length := by omega
  obtain ⟨new, overwritten, reacted⟩ := react_selected answer (receives_datagram datagram)
    (selectedSlot_direct direct _ parties.client.rpcResult) (List.getElem?_eq_getElem inside)
  rw [isSidTBroadcast_of_direct direct, Bool.not_false, Bool.true_or] at reacted
  refine ⟨_, _, @MdpTurn.client system parties _ input running waiting (.inl unacknowledged) arrives,
    ?_⟩
  simp only [MdpParties.clientRound, event, rpcClientCallMdpRound, reacted, ok_bind]
  refine ⟨rfl, new, List.getElem?_set_self inside, overwritten.serverSid, ?_⟩
  rw [overwritten.content]
  exact CString.read_append answer.body _

/-- An available server brings a call that has no ACK to its end, whatever was lost before. -/
theorem completes_of_unacknowledged (direct : system.call.sid ≠ sidBroadcast)
    (available : Available system server world result text)
    {network : Network MdpParties MdpMessage} (running : network.parties.stopped = none)
    (waiting : network.parties.client.returned = none)
    (unacknowledged : network.parties.client.received = 0)
    (size : network.parties.client.rpcResult.cells.length = 5)
    (listening : network.parties.phase server.sid = .listening) :
    ∃ later final, system.Run (LeftAlone system) network later final ∧
      final.parties.client.returned = some 2 ∧
      ∃ slot, final.parties.client.rpcResult.cells[0]? = some slot ∧
        slot.serverSid = server.sid ∧ CString.read slot.content = .ok text := by
  obtain ⟨parties, inFlight⟩ := network
  obtain ⟨called, calling, running, waiting, unacknowledged, phase, table⟩ :=
    @call_is_sent system parties running waiting unacknowledged
  obtain ⟨rp, accepts, handled⟩ := handle_of_available available
  -- The server takes a copy of the call.
  have listening : called.phase server.sid = .listening := by rw [phase]; exact listening
  have size : called.client.rpcResult.cells.length = 5 := by rw [table]; exact size
  have inNetwork : callMessage system server ∈ inFlight + system.copies :=
    Multiset.mem_add.mpr (.inr (callMessage_mem_copies available))
  obtain ⟨rest, accepting⟩ := @NetworkStep.of_mem _ _ _ system.Foreign _ _ _ _ _
    (MdpTurn.accept world (callMessage system server) rp available.isServer listening rfl accepts)
    inNetwork
  -- It executes the call and answers.
  let attempt : MdpAttempt := ⟨server, callMessage system server, rp, world⟩
  let atWork : MdpParties := { called.enter server.sid (.executing attempt) with
    accepted := called.accepted ++ [attempt] }
  have executing : atWork.phase server.sid = .executing attempt := Function.update_self _ _ _
  have finishing := @NetworkStep.of_turn _ _ _ system.Foreign _ _
    (rest + server.ack world (callMessage system server)) _
    (@MdpTurn.finish system atWork attempt 0 _ executing handled)
  -- The client takes the answer.
  have answered : answerMessage system server result ∈ rest + server.ack world
      (callMessage system server) + server.replies (callMessage system server)
        [.excecute rp, .mdpSend system.address.sid result.resultPayload.cells true] :=
    Multiset.mem_add.mpr (.inr (mem_replies_iff.mpr
      ⟨_, _, List.mem_cons_of_mem _ (List.mem_singleton_self _), rfl⟩))
  obtain ⟨sent, next, turn, returned, slot, at', isServer, holds⟩ :=
    @answer_completes system server result text direct available.plain
      { atWork.enter server.sid .listening with executed := atWork.executed ++ [attempt] } running
      waiting unacknowledged size
  obtain ⟨_, taking⟩ := @NetworkStep.of_mem _ _ _ system.Foreign _ _ _ _ _ turn answered
  have accepted := leftAlone_turn (leftAlone_turn .refl (.of_turn calling)) accepting
  exact ⟨_, _, leftAlone_turn (leftAlone_turn accepted finishing) taking, returned, slot, at',
    isServer, holds⟩

end Complete

def addServer : MdpServer :=
  ⟨Serval.executable ⟨List.replicate 32 34, List.length_replicate⟩, .mdp⟩

/-- The call of `add` to this server. -/
def addSystem : MdpSystem where
  call := ⟨Serval.executable Download.caller, addServer.sid, CommandLine.addName⟩
  port := 4242
  payload := addPayload
  received := 0
  servers := [addServer]

theorem addSystem_wellFormed : WellFormed addSystem := by
  refine ⟨by decide, fun server member => ?_⟩
  obtain rfl := List.mem_singleton.mp member
  decide

theorem add_available : ∃ result,
    Available addSystem addServer (mdpWorldOf true) result (PlainStrings.outputLine [51, 10]) := by
  have complete : Representation.Complete runWorld :=
    ⟨by simp [runWorld, CommandLine.addWorld], List.length_replicate⟩
  obtain ⟨resultPayload, collected⟩ := Representation.collectResult_ok complete [51, 10]
  have cells := PlainStrings.collected_cells collected rfl
  have fetched : fetchFirstParam addServer.serval runWorld addCalled = .ok (some addCalled) :=
    CommandLine.fetchFirstParam_of_noFilehash rfl (by decide)
  refine ⟨⟨1, resultPayload, addCalled⟩, List.mem_singleton_self _, .inr rfl,
    ⟨addCalled, ⟨rfl, ?_⟩, ?_⟩, Int.one_ne_zero, rfl, Int.one_ne_zero, rfl, ?_⟩
  · exact admitCall_of_offered (by decide) (by decide) Download.caller
      (Offering.add_offered rfl rfl) (show (2 : Int) ≠ 0 by decide)
  · rw [excecuteCall_ok_iff, mdpWorldOf, CommandLine.excecute_of_params rfl fetched
      (CommandLine.addProcedure_params ['1'] ['2'])]
    simp only [CommandLine.afterPopen, runWorld] at collected ⊢
    rw [collected]
    rfl
  · rw [cells]
    exact ⟨rfl, PlainStrings.printedPacket_read _, by decide,
      Nat.le_of_eq (PlainStrings.printedPacket_length _)⟩

end ServalRpc.Verified.MdpCompletion
