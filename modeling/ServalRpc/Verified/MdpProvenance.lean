import ServalRpc.Model.MdpSystem
import ServalRpc.Verified.CallBooks

/-! # Where the messages of an MDP call come from

Messages over MDP are lost, reordered and duplicated, and other nodes send what they like.  As long
as nobody sends under the sid of a server of the network, every message under its sid is one that
the server has sent, and the client's table holds nothing else.
-/

namespace ServalRpc.Verified.MdpProvenance

open CLib HandlerSteps ListenerSteps ClientTable Delivery SlotOrigins CallBooks

variable {system : MdpSystem}

/-! ## Turns -/

/-- The client makes a step of its loop, or it is stuck and keeps what it has. -/
theorem clientRound_cases (parties : MdpParties) (call : ClientCall) (input : MdpInput) :
    (∃ client, rpcClientCallMdpRound call parties.client (mdpEvent parties.client input) =
        .ok client ∧ (parties.clientRound call input).client = client ∧
        (parties.clientRound call input).stopped = parties.stopped) ∨
      ((parties.clientRound call input).client = parties.client ∧
        (parties.clientRound call input).stopped ≠ none) := by
  unfold MdpParties.clientRound
  cases round : rpcClientCallMdpRound call parties.client (mdpEvent parties.client input) with
  | ok client => exact .inl ⟨client, rfl, rfl, rfl⟩
  | error stop => exact .inr ⟨rfl, by simp⟩

theorem mem_replies_iff {server : MdpServer} {message reply : MdpMessage}
    {actions : List ServerAction} :
    reply ∈ server.replies message actions ↔ ∃ remote payload,
      .mdpSend remote payload true ∈ actions ∧
        reply = ⟨⟨server.sid, message.destination.port⟩, ⟨remote, message.source.port⟩, payload⟩ := by
  rw [MdpServer.replies, Multiset.mem_coe, List.mem_filterMap]
  constructor
  · rintro ⟨action, member, isReply⟩
    unfold MdpServer.reply? at isReply
    split at isReply
    · cases isReply
      exact ⟨_, _, member, rfl⟩
    · cases isReply
  · rintro ⟨remote, payload, member, rfl⟩
    exact ⟨_, member, rfl⟩

theorem mem_copies {message : MdpMessage} (member : message ∈ system.copies) :
    message.source = system.address ∧ message.payload = system.payload ∧
      ∃ server ∈ system.servers, message.destination = server.address := by
  rw [MdpSystem.copies, Multiset.mem_coe, List.mem_map] at member
  obtain ⟨server, addressed, rfl⟩ := member
  exact ⟨rfl, rfl, server, List.mem_of_mem_filter addressed, rfl⟩

/-! ## What a server has done -/

/-- The client has a socket of its own, and no server has the sid that marks a free slot. -/
structure WellFormed (system : MdpSystem) : Prop where
  ephemeral : system.port ≠ mdpPortRpc
  named : ∀ server ∈ system.servers, server.sid ≠ sidAny

/-- The call of this system, accepted by the server of this sid. -/
def IsOurs (system : MdpSystem) (sid : Sid) (attempt : MdpAttempt) : Prop :=
  attempt.server.sid = sid ∧ attempt.message.source = system.address

structure Admitted (system : MdpSystem) (attempt : MdpAttempt) : Prop where
  isServer : attempt.server ∈ system.servers
  accepts : attempt.server.Accepts attempt.world attempt.message attempt.rp
  addressed : attempt.message.destination = attempt.server.address
  payload : attempt.message.source = system.address → attempt.message.payload = system.payload

/-- An ACK is one byte, and a result is the packet of its execution. -/
def carrier (system : MdpSystem) : Carrier MdpAttempt where
  isServer sid := ∃ server ∈ system.servers, server.sid = sid
  admitted := Admitted system
  isOurs := IsOurs system
  isAck payload := payload = [rpcPktCallAck]
  isResult attempt payload := Returned attempt.served payload
  answers attempt bytes := ∃ datagram : Datagram, Returned attempt.served datagram.bytes ∧
    answerBytes system.call datagram.packet = .ok bytes

def booksOf (parties : MdpParties) : Books MdpAttempt := ⟨parties.accepted, parties.executed⟩

/-- A message from the client's socket is its call, and what a server has sent to it is a reply. -/
structure Authentic (system : MdpSystem) (parties : MdpParties) (message : MdpMessage) : Prop where
  call : message.source = system.address →
    message.payload = system.payload ∧ message.destination.port = mdpPortRpc
  sender : message.destination = system.address → message.source.sid ≠ sidAny
  reply : message.destination = system.address → ∀ server ∈ system.servers,
    message.source.sid = server.sid →
      Reply (carrier system) (booksOf parties) server.sid message.payload

/-- A server at work has accepted the call, the table has five slots, and the books are sound. -/
structure Sound (system : MdpSystem) (parties : MdpParties) : Prop where
  phases : ∀ sid attempt, parties.phase sid = .executing attempt → attempt ∈ parties.accepted
  size : parties.client.rpcResult.cells.length = 5
  books : CallBooks.Sound (carrier system) (booksOf parties) parties.client.rpcResult

/-! ## Nothing is taken back -/

theorem grows_of_turn {parties next : MdpParties} {received sent : Multiset MdpMessage}
    (turn : MdpTurn system parties received sent next) : (booksOf parties).Grows (booksOf next) := by
  cases turn with
  | client input _ _ _ _ => exact Books.grows_refl _
  | refuse world message _ _ _ _ => exact Books.grows_refl _
  | accept world message rp _ _ _ _ => exact Books.grows_accept _ _
  | finish attempt _ _ => exact Books.grows_execute _ _
  | fail attempt _ _ => exact Books.grows_refl _

theorem Authentic.mono {parties next : MdpParties} (grows : (booksOf parties).Grows (booksOf next))
    {message : MdpMessage} (authentic : Authentic system parties message) :
    Authentic system next message :=
  ⟨authentic.call, authentic.sender,
    fun toClient server isServer same => (authentic.reply toClient server isServer same).mono grows⟩

/-! ## What a turn sends -/

/-- What the handler sends after the ACK is the packet of an execution that has succeeded. -/
theorem result_of_finish {attempt : MdpAttempt} {ret : Int} {actions : List ServerAction}
    (accepts : attempt.server.Accepts attempt.world attempt.message attempt.rp)
    (handled : attempt.server.handle attempt.world attempt.message = .ok (ret, actions))
    {remote : Sid} {payload : List UInt8} (sent : .mdpSend remote payload true ∈ actions.drop 1) :
    remote = attempt.message.source.sid ∧ Returned attempt.served payload := by
  obtain ⟨result, executed, rfl⟩ := mdp_accepted handled accepts.1 accepts.2
  simp only [List.drop_succ_cons, List.drop_zero, List.mem_cons, reduceCtorEq, false_or, mdpAnswer]
    at sent
  split at sent
  · cases sent
  · rename_i succeeded
    split at sent
    · simp only [List.mem_singleton, ServerAction.mdpSend.injEq] at sent
      obtain ⟨rfl, rfl, _⟩ := sent
      exact ⟨rfl, result, executed, succeeded, rfl⟩
    · split at sent
      · simp at sent
      · cases sent

/-- A reply to another client is none of our business, one to ours answers our call. -/
theorem authentic_of_reply {parties : MdpParties} (wellFormed : WellFormed system)
    {server : MdpServer} (isServer : server ∈ system.servers) {message : MdpMessage}
    (addressed : message.destination = server.address) {remote : Sid}
    (back : remote = message.source.sid) {payload : List UInt8}
    (reply : message.source = system.address →
      Reply (carrier system) (booksOf parties) server.sid payload) :
    Authentic system parties
      ⟨⟨server.sid, message.destination.port⟩, ⟨remote, message.source.port⟩, payload⟩ := by
  subst back
  have port : message.destination.port = mdpPortRpc := by rw [addressed]; rfl
  refine ⟨fun fromClient => ?_, fun _ => wellFormed.named server isServer, ?_⟩
  · exact absurd (congrArg MdpSockaddr.port fromClient) (port ▸ Ne.symm wellFormed.ephemeral)
  · intro toClient other _ same
    simp only at same
    exact same ▸ reply toClient

theorem authentic_of_ack {parties : MdpParties} (wellFormed : WellFormed system)
    {attempt : MdpAttempt} (accepted : attempt ∈ parties.accepted)
    (admitted : Admitted system attempt) :
    ∀ message ∈ attempt.server.ack attempt.world attempt.message,
      Authentic system parties message := by
  intro message member
  obtain ⟨remote, payload, sent, rfl⟩ := mem_replies_iff.mp member
  simp only [List.mem_singleton, ServerAction.mdpSend.injEq] at sent
  obtain ⟨rfl, rfl, _⟩ := sent
  exact authentic_of_reply wellFormed admitted.isServer admitted.addressed rfl
    fun ours => .ack rfl accepted ⟨rfl, ours⟩

theorem authentic_of_result {parties : MdpParties} (wellFormed : WellFormed system)
    {attempt : MdpAttempt} (executed : attempt ∈ parties.executed)
    (admitted : Admitted system attempt) {ret : Int} {actions : List ServerAction}
    (handled : attempt.server.handle attempt.world attempt.message = .ok (ret, actions)) :
    ∀ message ∈ attempt.server.replies attempt.message (actions.drop 1),
      Authentic system parties message := by
  intro message member
  obtain ⟨remote, payload, sent, rfl⟩ := mem_replies_iff.mp member
  obtain ⟨back, returned⟩ := result_of_finish admitted.accepts handled sent
  exact authentic_of_reply wellFormed admitted.isServer admitted.addressed back
    fun ours => .result executed ⟨rfl, ours⟩ returned

/-! ## What the client makes of a message -/

theorem load_packet {datagram : Datagram} {type : UInt8} (first : load datagram.bytes 0 = .ok type) :
    load datagram.packet.recvPayload 0 = .ok type := by
  obtain ⟨behind, array⟩ := prefix_overread datagram.behind datagram.size
  rw [Datagram.packet, ← array]
  exact load_append first behind

/-- A packet of a server leaves the books sound. -/
theorem sound_of_arrival {parties : MdpParties} {message : MdpMessage} {datagram : Datagram}
    (authentic : Authentic system parties message) (sound : Sound system parties)
    (toClient : message.destination = system.address)
    (sender : datagram.sender = message.source.sid) (bytes : datagram.bytes = message.payload)
    {reaction : Reaction}
    (reacted : reactToPacket system.call datagram.packet parties.client.rpcResult = .ok reaction) :
    CallBooks.Sound (carrier system) (booksOf parties)
      (reactionTable parties.client.rpcResult reaction) := by
  have proper := authentic.sender toClient
  rw [← sender] at proper
  have reply : (carrier system).isServer datagram.packet.sender →
      Reply (carrier system) (booksOf parties) datagram.packet.sender datagram.bytes := by
    rintro ⟨server, isServer, same⟩
    have isSender : message.source.sid = server.sid := by rw [same, ← sender]; rfl
    rw [← same, bytes]
    exact authentic.reply toClient server isServer isSender
  refine sound.books.react reacted proper reply ?_ ?_
  · intro _ isAck
    exact load_packet (by rw [show datagram.bytes = _ from isAck]; rfl)
  · intro _ attempt stored returned answer
    exact ⟨datagram, returned, answer⟩

theorem event_cases (state : MdpState) (input : MdpInput) :
    (∃ datagram, input.datagram = some datagram ∧
        mdpEvent state input = .received datagram.packet) ∨
      MdpEvent.packet? (mdpEvent state input) = none := by
  unfold mdpEvent
  split
  · exact .inr rfl
  · split
    · exact .inr rfl
    · split
      · exact .inr rfl
      · rename_i datagram arrived
        exact .inl ⟨datagram, arrived, rfl⟩

/-- A turn of the client is a step of its loop, or it is stuck. -/
theorem mdpStep_of_round {parties : MdpParties} {call : ClientCall} {input : MdpInput}
    (running : parties.client.returned = none)
    (waiting : parties.client.received = 0 ∨ parties.client.received = 1) :
    MdpStep call parties.client (mdpEvent parties.client input)
        (parties.clientRound call input).client ∨
      (parties.clientRound call input).client = parties.client := by
  obtain ⟨client, round, same, _⟩ | ⟨same, _⟩ := clientRound_cases parties call input
  · rw [same]
    exact .inl (.round input running waiting round)
  · exact .inr same

/-- A turn of the client leaves the table alone, or it reacts to the message that it takes. -/
theorem table_of_round {parties : MdpParties} {call : ClientCall} {arrived : Multiset MdpMessage}
    {input : MdpInput} {address : MdpSockaddr} (running : parties.client.returned = none)
    (waiting : parties.client.received = 0 ∨ parties.client.received = 1)
    (arrives : Arrives address arrived input.datagram) :
    (parties.clientRound call input).client.rpcResult = parties.client.rpcResult ∨
      ∃ (message : MdpMessage) (datagram : Datagram) (reaction : Reaction), message ∈ arrived ∧
        message.destination = address ∧ datagram.sender = message.source.sid ∧
        datagram.bytes = message.payload ∧
        reactToPacket call datagram.packet parties.client.rpcResult = .ok reaction ∧
        (parties.clientRound call input).client.rpcResult =
          reactionTable parties.client.rpcResult reaction := by
  obtain step | same := @mdpStep_of_round parties call input running waiting
  · have table := mdp_tableStep step
    obtain ⟨datagram, isDatagram, isEvent⟩ | noPacket := event_cases parties.client input
    · rw [isDatagram] at arrives
      rw [isEvent] at table
      obtain ⟨reaction, reacted, same⟩ := table
      cases arrives with
      | message message _ toClient sender bytes =>
        exact .inr ⟨message, datagram, reaction, Multiset.mem_singleton_self _, toClient, sender, bytes,
          reacted, same⟩
    · rw [noPacket] at table
      exact .inl table
  · exact .inl (congrArg MdpState.rpcResult same)

/-- The books are sound after a turn of the client. -/
theorem sound_of_round {parties : MdpParties} {arrived : Multiset MdpMessage} {input : MdpInput}
    (sound : Sound system parties) (running : parties.client.returned = none)
    (waiting : parties.client.received = 0 ∨ parties.client.received = 1)
    (arrives : Arrives system.address arrived input.datagram)
    (authentic : ∀ message ∈ arrived, Authentic system parties message) :
    (parties.clientRound system.call input).client.rpcResult.cells.length = 5 ∧
      CallBooks.Sound (carrier system) (booksOf parties)
        (parties.clientRound system.call input).client.rpcResult := by
  obtain same | ⟨message, datagram, reaction, isArrived, toClient, sender, bytes, reacted, same⟩ :=
    @table_of_round parties system.call arrived input system.address running waiting arrives
  · rw [same]
    exact ⟨sound.size, sound.books⟩
  · rw [same]
    exact ⟨(react_size reacted).trans sound.size,
      sound_of_arrival (authentic message isArrived) sound toClient sender bytes reacted⟩

/-! ## Every run -/

theorem enter_executing {parties : MdpParties} {sid other : Sid} {phase : MdpServerPhase}
    {attempt : MdpAttempt} (executing : (parties.enter sid phase).phase other = .executing attempt) :
    phase = .executing attempt ∨ parties.phase other = .executing attempt := by
  simp only [MdpParties.enter, Function.update_apply] at executing
  split at executing
  · exact .inl executing
  · exact .inr executing

/-- A server that does not start an execution leaves the soundness as it is. -/
theorem Sound.enter {parties : MdpParties} {sid : Sid} {phase : MdpServerPhase}
    (sound : Sound system parties) (other : ∀ attempt, phase ≠ .executing attempt) :
    Sound system (parties.enter sid phase) := by
  refine ⟨fun at' attempt executing => ?_, sound.size, sound.books⟩
  obtain entered | before := enter_executing executing
  · exact absurd entered (other attempt)
  · exact sound.phases at' attempt before

theorem phaseAfter_ne_executing {α : Type} (outcome : Except ServerStop α) (attempt : MdpAttempt) :
    phaseAfter outcome ≠ .executing attempt := by
  cases outcome with
  | ok value => exact MdpServerPhase.noConfusion
  | error stop => exact MdpServerPhase.noConfusion

theorem sound_of_turn {parties next : MdpParties} {received sent : Multiset MdpMessage}
    (turn : MdpTurn system parties received sent next) (sound : Sound system parties)
    (authentic : ∀ message ∈ received, Authentic system parties message) : Sound system next := by
  cases turn with
  | client input _ running waiting arrives =>
    obtain ⟨size, books⟩ := sound_of_round sound running waiting arrives authentic
    exact ⟨sound.phases, size, books⟩
  | refuse world message _ _ _ _ => exact sound.enter (phaseAfter_ne_executing _)
  | accept world message rp isServer _ addressed accepts =>
    have ours := fun isOurs => ((authentic message (Multiset.mem_singleton_self _)).call isOurs).1
    refine ⟨fun sid attempt executing => ?_, sound.size,
      sound.books.accept ⟨isServer, accepts, addressed, ours⟩⟩
    obtain entered | before := enter_executing executing
    · cases entered
      exact Books.mem_accept (booksOf parties) _
    · exact List.mem_append_left _ (sound.phases sid attempt before)
  | finish attempt executing handled =>
    have accepted := sound.phases _ attempt executing
    have listening := @Sound.enter system parties attempt.server.sid .listening sound (by simp)
    exact ⟨listening.phases, sound.size, sound.books.execute accepted⟩
  | fail attempt _ _ => exact sound.enter (by simp)

/-- Everything that a turn sends is authentic. -/
theorem sent_of_turn {parties next : MdpParties} {received sent : Multiset MdpMessage}
    (wellFormed : WellFormed system) (turn : MdpTurn system parties received sent next)
    (sound : Sound system next) : ∀ message ∈ sent, Authentic system next message := by
  cases turn with
  | client input _ _ _ _ =>
    intro message member
    split at member
    · obtain ⟨source, payload, server, _, destination⟩ := mem_copies member
      have port : message.destination.port = mdpPortRpc := by rw [destination]; rfl
      have elsewhere : message.destination ≠ system.address := by
        intro same
        exact wellFormed.ephemeral ((congrArg MdpSockaddr.port same).symm.trans port)
      exact ⟨fun _ => ⟨payload, port⟩, fun toClient => absurd toClient elsewhere,
        fun toClient => absurd toClient elsewhere⟩
    · cases member
  | refuse world message _ _ _ _ => exact fun _ member => nomatch member
  | @accept server world message rp _ _ _ _ =>
    have accepted := (booksOf parties).mem_accept ⟨server, message, rp, world⟩
    exact authentic_of_ack wellFormed accepted (sound.books.admitted _ accepted)
  | finish attempt _ handled =>
    have executed := (booksOf parties).mem_execute attempt
    have admitted := sound.books.admitted _ (sound.books.executed executed)
    exact authentic_of_result wellFormed executed admitted handled
  | fail attempt _ _ => exact fun _ member => nomatch member

/-- The origin of what is in flight, and what the parties know of each other. -/
def provenance (wellFormed : WellFormed system) :
    Provenance (MdpTurn system) system.Foreign where
  sound := Sound system
  authentic := Authentic system
  injected _ _ foreign :=
    ⟨fun fromClient => absurd fromClient foreign.1, fun toClient => (foreign.2 toClient).1,
      fun toClient server isServer same => absurd same ((foreign.2 toClient).2 server isServer)⟩
  kept turn _ _ _ authentic := authentic.mono (grows_of_turn turn)
  sent turn sound authentic :=
    have sound' := sound_of_turn turn sound authentic
    ⟨sound', sent_of_turn wellFormed turn sound'⟩

theorem sound_of_run (wellFormed : WellFormed system)
    {guard : Network MdpParties MdpMessage → NetworkEvent MdpMessage → Prop}
    {past : List (NetworkEvent MdpMessage)} {network : Network MdpParties MdpMessage}
    (run : system.Run guard system.start past network) :
    (provenance wellFormed).Holds network := by
  refine (provenance wellFormed).of_run ⟨⟨?_, rfl, sound_empty⟩, ?_⟩ run
  · exact fun _ _ executing => nomatch executing
  · exact fun _ inFlight => nomatch inFlight

/-! ## The turns are those of the code -/

/-- A handler that does not accept the call does nothing. -/
theorem actions_of_refused {server : MdpServer} {world : MdpWorld} {message : MdpMessage} {ret : Int}
    {actions : List ServerAction} (handled : server.handle world message = .ok (ret, actions))
    (refused : ¬ ∃ rp, server.Accepts world message rp) : actions = [] := by
  unfold MdpServer.handle rpcServerMdpHandle at handled
  obtain ⟨type, loaded, handled⟩ := bind_eq_ok_iff.mp handled
  rw [mapError_eq_ok_iff] at loaded
  split at handled
  · cases handled
    rfl
  · rename_i isCall
    obtain rfl := not_not.mp isCall
    obtain ⟨admission, admitted, handled⟩ := bind_eq_ok_iff.mp handled
    cases admission with
    | unparsableSender =>
      cases handled
      rfl
    | rejected rp =>
      obtain ⟨_, _, handled⟩ := bind_eq_ok_iff.mp handled
      cases handled
      rfl
    | accepted rp => exact absurd ⟨rp, loaded, admitted⟩ refused

/-- A call of the handler is one turn that refuses, or a turn that accepts and one that finishes:
together they send what the handler sends. -/
theorem turns_of_handle {parties : MdpParties} {server : MdpServer} {world : MdpWorld}
    {message : MdpMessage} {ret : Int} {actions : List ServerAction}
    (isServer : server ∈ system.servers) (listening : parties.phase server.sid = .listening)
    (addressed : message.destination = server.address)
    (handled : server.handle world message = .ok (ret, actions)) :
    (actions = [] ∧ ∃ next, MdpTurn system parties {message} 0 next ∧
        next.phase server.sid = .listening) ∨
      ∃ between next sent sent', MdpTurn system parties {message} sent between ∧
        MdpTurn system between 0 sent' next ∧ sent + sent' = server.replies message actions ∧
        next.phase server.sid = .listening := by
  by_cases accepting : ∃ rp, server.Accepts world message rp
  · obtain ⟨rp, accepts⟩ := accepting
    obtain ⟨result, executed, rfl⟩ := mdp_accepted handled accepts.1 accepts.2
    let attempt : MdpAttempt := ⟨server, message, rp, world⟩
    let atWork : MdpParties := { parties.enter server.sid (.executing attempt) with
      accepted := parties.accepted ++ [attempt] }
    have executing : atWork.phase server.sid = .executing attempt := Function.update_self _ _ _
    refine .inr ⟨atWork, _, _, _, .accept world message rp isServer listening addressed accepts,
      @MdpTurn.finish system atWork attempt ret _ executing handled, ?_, Function.update_self _ _ _⟩
    rw [MdpServer.ack, MdpServer.replies, MdpServer.replies, MdpServer.replies, Multiset.coe_add,
      ← List.filterMap_append]
    rfl
  · have nothing := actions_of_refused handled accepting
    refine .inl ⟨nothing, _, .refuse world message isServer listening addressed accepting, ?_⟩
    rw [handled]
    exact Function.update_self _ _ _

/-- The client of a run makes a run of the loop of `rpc_client_call_mdp`. -/
theorem client_run {guard : Network MdpParties MdpMessage → NetworkEvent MdpMessage → Prop}
    {past : List (NetworkEvent MdpMessage)} {network : Network MdpParties MdpMessage}
    (run : system.Run guard system.start past network) :
    ∃ events, GuardedRun (MdpStep system.call) (fun _ _ => True) (.entry system.received) events
      network.parties.client := by
  induction run with
  | refl => exact ⟨[], .refl⟩
  | tail _ _ step inductionHypothesis =>
    obtain ⟨events, clientRun⟩ := inductionHypothesis
    cases step with
    | turn turn =>
      cases turn with
      | client input _ running waiting _ =>
        obtain step | same := @mdpStep_of_round _ system.call input running waiting
        · exact ⟨_, .tail clientRun trivial step⟩
        · exact ⟨events, same ▸ clientRun⟩
      | refuse _ _ _ _ _ _ => exact ⟨events, clientRun⟩
      | accept _ _ _ _ _ _ _ => exact ⟨events, clientRun⟩
      | finish _ _ _ => exact ⟨events, clientRun⟩
      | fail _ _ _ => exact ⟨events, clientRun⟩
    | lose _ => exact ⟨events, clientRun⟩
    | duplicate _ => exact ⟨events, clientRun⟩
    | inject _ => exact ⟨events, clientRun⟩

end ServalRpc.Verified.MdpProvenance
