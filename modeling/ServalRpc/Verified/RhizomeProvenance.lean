import ServalRpc.Verified.Polling
import ServalRpc.Verified.RhizomeBundles

/-! # Where the bundles of a Rhizome call come from

As long as nobody else publishes answers under the sid of a server, what the client takes for an
answer of a server is a bundle that the server has published, and the client's table holds nothing
else.
-/

namespace ServalRpc.Verified.RhizomeProvenance

open CLib HandlerSteps ListenerSteps ClientTable Delivery ResultManifest CallBooks RhizomeBundles

variable {system : RhizomeSystem} {parties next : RhizomeParties} {seen sent : Multiset Bundle}

/-! ## What the client makes of a bundle -/

theorem head_ack (behind : Nat → UInt8) {count : Nat} (nonzero : count ≠ 0) :
    load (overread [rpcPktCallAck] behind count) 0 = .ok rpcPktCallAck :=
  load_of_head? (overread_head? _ behind nonzero)

/-- A visit that does not pass the row over gets a packet from a bundle for the client, under the sid
of the sender of this bundle. -/
structure Received (system : RhizomeSystem) (bundle : Bundle) (packet : Packet) : Prop where
  interests : system.Interests bundle
  sender : ∀ sid, system.Sender bundle sid → packet.sender = sid
  whole : bundle.content.length < 2 ^ 31 →
    packet.recvPayload = bundle.content ∧ packet.len = bundle.content.length

theorem received_of_visit {state : RhizomeState} {row : Row} {rows : List Row} {input : RowInput}
    {bundle : Bundle} {event : RhizomeEvent} {packet : Packet}
    (pending : state.pending = row :: rows) (visits : system.Visits row input.body bundle)
    (isEvent : rhizomeEvent system.call state (.visit input) = .ok event)
    (isPacket : RhizomeEvent.packet? event = some packet) : Received system bundle packet := by
  obtain ⟨_, rfl⟩ | ⟨interesting, sender, isSender, ⟨_, rfl⟩ | ⟨body, isBody, rfl⟩⟩ :=
    Polling.visit_event pending isEvent
  · cases isPacket
  · cases isPacket
  · obtain rfl := Option.some.inj isPacket
    obtain rfl := visits.body body isBody
    obtain ⟨service, name, interesting⟩ := (interestingRow_iff _ _ _).mp interesting
    have lists := visits.listed.lists
    refine ⟨⟨?_, name, ?_, interesting.nameIsRpc⟩, fun sid ⟨text, isText, parsed⟩ => ?_, fun small => ?_⟩
    · rw [← lists.recipient, interesting.notMyFile]
    · rw [← lists.name, interesting.isName]
    · have same := (lists.sender.symm.trans isSender).symm.trans isText
      rw [rowPacket, Option.some.inj same, parsed, Option.getD_some]
    · have size : sizeOfInt row.filesize = bundle.content.length := by
        rw [lists.filesize, sizeOfInt_valueint_of_lt small]
      rw [rowPacket, size]
      exact ⟨overread_self _ _, rfl⟩

/-- A bundle of a server leaves the books sound. -/
theorem sound_of_received {bundle : Bundle} {packet : Packet} {reaction : Reaction}
    (sound : Sound system parties) (authentic : Authentic system parties bundle)
    (received : Received system bundle packet)
    (reacted : reactToPacket system.call packet parties.client.rpcResult = .ok reaction) :
    CallBooks.Sound (carrier system) (booksOf parties)
      (reactionTable parties.client.rpcResult reaction) := by
  obtain ⟨sid, isSender, proper, fromServer⟩ := authentic.answers received.interests
  obtain rfl := received.sender sid isSender
  have reply : (carrier system).isServer packet.sender →
      Reply (carrier system) (booksOf parties) packet.sender packet.recvPayload ∧
        packet.len = rpcPktSize - 1 := by
    rintro ⟨server, isServer, same⟩
    have published := fromServer server isServer same.symm
    have small : bundle.content.length < 2 ^ 31 := by
      rw [reply_size published]
      decide
    obtain ⟨whole, len⟩ := received.whole small
    rw [whole, len]
    exact ⟨published, reply_size published⟩
  refine sound.books.react reacted proper (fun isServer => (reply isServer).1) ?_ ?_
  · rintro _ ⟨behind, isAck⟩
    rw [IsAck, isAck]
    exact head_ack behind (by decide)
  · rintro isServer _ bytes ⟨payload, returned, isContent⟩ answer
    exact ⟨packet, payload, returned, isContent, (reply isServer).2, answer⟩

/-- The client makes a step of its loops, or it is stuck and keeps what it has. -/
theorem clientRound_cases (parties : RhizomeParties) (call : ClientCall) (input : RhizomeInput) :
    (∃ event, rhizomeEvent call parties.client input = .ok event ∧
        rpcClientRhizomeListenRound call parties.client event =
          .ok (parties.clientRound call input).client) ∨
      (parties.clientRound call input).client = parties.client := by
  unfold RhizomeParties.clientRound
  cases isEvent : rhizomeEvent call parties.client input with
  | error stop => exact .inr rfl
  | ok event =>
    simp only [ok_bind]
    cases round : rpcClientRhizomeListenRound call parties.client event with
    | error stop => exact .inr rfl
    | ok client => exact .inl ⟨event, rfl, round⟩

/-! ## Every run -/

/-- The books are sound after a turn of the client at a row. -/
theorem sound_of_visit {row : Row} {rows : List Row} {bundle : Bundle} {input : RowInput}
    (sound : Sound system parties) (running : parties.client.returned = none)
    (pending : parties.client.pending = row :: rows) (visits : system.Visits row input.body bundle)
    (authentic : Authentic system parties bundle) :
    CallBooks.Sound (carrier system) (booksOf parties)
      (parties.clientRound system.call (.visit input)).client.rpcResult := by
  obtain ⟨event, isEvent, round⟩ | same :=
    clientRound_cases parties system.call (.visit input)
  · have more : parties.client.pending ≠ [] := by
      rw [pending]
      exact List.cons_ne_nil _ _
    have table := rhizome_tableStep (.visit input running more isEvent round)
    cases isPacket : RhizomeEvent.packet? event with
    | none =>
      rw [isPacket] at table
      rw [show _ = _ from table]
      exact sound.books
    | some packet =>
      rw [isPacket] at table
      obtain ⟨reaction, reacted, table⟩ := table
      rw [table]
      exact sound_of_received sound authentic
        (received_of_visit pending visits isEvent isPacket) reacted
  · rw [same]
    exact sound.books

/-- A poll leaves the table alone. -/
theorem table_of_poll {elapsed : Int} {listing : Option (List Row)}
    (running : parties.client.returned = none) (none : parties.client.pending = [])
    (waiting : parties.client.received = 0) :
    (parties.clientRound system.call (.poll elapsed listing)).client.rpcResult =
      parties.client.rpcResult := by
  obtain ⟨event, isEvent, round⟩ | same :=
    clientRound_cases parties system.call (.poll elapsed listing)
  · have table := rhizome_tableStep (.poll elapsed listing running none waiting isEvent round)
    obtain rfl | rfl | ⟨rows, _, rfl⟩ := Polling.poll_event isEvent
    · exact table
    · exact table
    · exact table
  · rw [same]

/-- The caller of an accepted call is the sender that was given for it. -/
theorem caller_of_admitted {serval : Serval} {conf : Option (List UInt8)} {packet : List UInt8}
    {sender : Option CString} {rp : RPCProcedure}
    (admitted : admitCall serval conf packet sender = .ok (.accepted rp)) :
    ∃ text, sender = some text ∧ rp.callerSid = serval.strToSidT text := by
  obtain ⟨text, callerSid, parsed, isSender, isSid, _, rfl⟩ := admitCall_accepted admitted
  exact ⟨text, isSender, isSid.symm⟩

/-- A packet that a poll takes for a call is the content of its bundle. -/
theorem packet_of_accepts {server : Serval} {doneCalls : List CString} {visit : Visit}
    {packet : List UInt8} {rp : RPCProcedure} {bundle : Bundle}
    (visits : system.Visits visit.row visit.body bundle)
    (accepts : visit.Accepts server doneCalls packet rp) : packet = bundle.content := by
  obtain ⟨body, isBody, copied⟩ := accepts.copied
  obtain rfl := visits.body body isBody
  obtain ⟨_, _, _, _, _, positive, small⟩ := wantedRow_iff.mp accepts.wanted
  rw [visits.listed.lists.filesize] at positive small copied
  obtain ⟨_, short⟩ := (sizeOfInt_valueint (by decide)).mp ⟨positive, small⟩
  have bound : mdpMtu < 2 ^ 31 := by decide
  rw [sizeOfInt_valueint_of_lt (Nat.lt_of_le_of_lt short bound), loadRange_eq_ok_iff] at copied
  rw [← copied.2, List.drop_zero, List.take_length]

theorem admitted_of_accept (wellFormed : WellFormed system) {server : Serval}
    (isServer : server ∈ system.servers) {doneCalls : List CString} {visit : Visit}
    {packet : List UInt8} {rp : RPCProcedure} {bundle : Bundle}
    (visits : system.Visits visit.row visit.body bundle)
    (accepts : visit.Accepts server doneCalls packet rp)
    (authentic : Authentic system parties bundle) :
    Admitted system ⟨server, packet, rp, visit.world.execute⟩ := by
  refine ⟨isServer, ⟨_, _, accepts.admitted⟩, fun isCaller => ?_⟩
  obtain ⟨text, isSender, parsed⟩ := caller_of_admitted accepts.admitted
  rw [wellFormed.parses server isServer] at parsed
  rw [packet_of_accepts visits accepts]
  refine authentic.calls ⟨text, ?_, parsed.symm.trans isCaller⟩
  rw [← visits.listed.lists.sender, isSender]

/-- The same for a call that comes with the sid of its caller. -/
theorem admitted_of_remote {server : Serval} (isServer : server ∈ system.servers)
    {conf : Option (List UInt8)} {packet : List UInt8} {rp : RPCProcedure} {remote : Sid}
    (execute : ExecuteWorld)
    (admitted : admitCall server conf packet (some (tohexSidT remote)) = .ok (.accepted rp))
    (sent : remote = system.call.serval.mySid → packet ∈ system.packets) :
    rp.callerSid = some remote ∧ Admitted system ⟨server, packet, rp, execute⟩ := by
  obtain ⟨text, isSender, parsed⟩ := caller_of_admitted admitted
  obtain rfl := Option.some.inj isSender
  rw [server.strToSidT_tohexSidT] at parsed
  refine ⟨parsed, isServer, ⟨_, _, admitted⟩, fun isCaller => sent ?_⟩
  exact Option.some.inj (parsed.symm.trans isCaller)

theorem sound_of_turn (wellFormed : WellFormed system)
    (turn : RhizomeTurn system parties seen sent next) (sound : Sound system parties)
    (authentic : ∀ bundle ∈ seen, Authentic system parties bundle) : Sound system next := by
  cases turn with
  | clientPoll elapsed listing _ running none waiting _ =>
    refine ⟨sound.attempts, ?_⟩
    rw [table_of_poll running none waiting]
    exact sound.books
  | clientVisit bundle input _ running pending visits =>
    have seen := authentic bundle (Multiset.mem_singleton_self _)
    exact ⟨sound.attempts, sound_of_visit sound running pending visits seen⟩
  | poll rows _ _ _ => exact sound.enter (by simp)
  | pass visit bundle _ _ _ _ _ => exact sound.enter (by simp)
  | accept visit bundle isServer visiting visits accepts isCaller _ =>
    have admitted := admitted_of_accept wellFormed isServer visits accepts
      (authentic bundle (Multiset.mem_singleton_self _))
    refine ⟨fun sid attempt rows executing => ?_, sound.books.accept admitted⟩
    obtain entered | before := enter_executing executing
    · cases entered
      exact ⟨Books.mem_accept (booksOf parties) _, accepts⟩
    · obtain ⟨accepted, accepts⟩ := sound.attempts sid attempt rows before
      exact ⟨List.mem_append_left _ accepted, accepts⟩
  | @finish rows next goesOn _ attempt executing round _ =>
    obtain ⟨accepted, _⟩ := sound.attempts _ attempt rows executing
    have visiting := @Sound.enter system parties attempt.server.mySid ⟨next, .visiting rows⟩ sound
      (by simp)
    exact ⟨visiting.attempts, sound.books.execute accepted⟩
  | leave _ _ _ => exact sound.enter (by simp)
  | serveMsp world delivery isServer _ _ _ admitted packets _ _ =>
    exact sound.serve (admitted_of_remote isServer world.execute admitted packets).2
  | serveMdp world isServer _ _ admitted packets _ _ =>
    exact sound.serve (admitted_of_remote isServer world.execute admitted packets).2
  | upload _ _ _ _ _ _ => exact sound

theorem publish_of_mspAnswer {server : Serval} {world : MspWorld} {rpcName : CString}
    {result : ExecuteResult} {publication : Publication}
    (member : .publish publication ∈ mspAnswer server .all world rpcName result) :
    result.returnCode ≠ 0 ∧ publication =
      (rpcServerRhizomeSendResult server world.insertion world.remote rpcName
        result.resultPayload.cells).2 := by
  unfold mspAnswer at member
  split at member
  · cases member
  · rename_i succeeded
    split at member
    · simp at member
    · exact ⟨succeeded, by simpa using member⟩

theorem publish_of_mdpAnswer {server : Serval} {world : MdpWorld} {remote : Sid} {rpcName : CString}
    {result : ExecuteResult} {publication : Publication}
    (member : .publish publication ∈ mdpAnswer server .all world remote rpcName result) :
    result.returnCode ≠ 0 ∧ publication =
      (rpcServerRhizomeSendResult server world.insertion sidBroadcast rpcName
        result.resultPayload.cells).2 := by
  unfold mdpAnswer at member
  split at member
  · cases member
  · rename_i succeeded
    split at member
    · simp at member
    · exact ⟨succeeded, by simpa using member⟩

/-- What a round publishes behind its ACK is the result of a successful execution. -/
theorem publish_of_round {attempt : RowAttempt} {state : ProcessState} {goesOn : Bool}
    {publication : Publication}
    (accepts : attempt.visit.Accepts attempt.server attempt.process.doneCalls attempt.packet attempt.rp)
    (round : rhizomeRound attempt.server attempt.process attempt.visit = .ok (state, goesOn))
    (member : .publish publication ∈ state.actions.drop (attempt.process.actions.length + 1)) :
    ∃ caller result, attempt.rp.callerSid = some caller ∧
      excecuteCall attempt.server attempt.visit.world.execute attempt.rp = .ok result ∧
      result.returnCode ≠ 0 ∧
      publication = rowAnswer attempt.server attempt.visit caller attempt.rp.name result := by
  obtain ⟨caller, result, attempted, _⟩ := round_attempted round
    ⟨attempt.packet, ⟨accepts.wanted, accepts.copied, accepts.type⟩, accepts.admitted⟩
  rw [attempted.actions, List.drop_append, List.drop_of_length_le (Nat.le_succ _),
    Nat.add_sub_cancel_left, List.nil_append, List.drop_succ_cons, List.drop_zero] at member
  simp only [List.mem_cons, reduceCtorEq, false_or] at member
  split at member
  · cases member
  · rename_i succeeded
    exact ⟨caller, result, attempted.isCaller, attempted.executed, succeeded, by simpa using member⟩

theorem sent_of_turn (wellFormed : WellFormed system)
    (turn : RhizomeTurn system parties seen sent next) (before : Sound system parties)
    (sound : Sound system next) (oneLine : OneLine next) :
    ∀ bundle ∈ sent, Authentic system next bundle := by
  cases turn with
  | clientPoll _ _ _ _ _ _ _ => exact fun _ member => nomatch member
  | clientVisit _ _ _ _ _ _ => exact fun _ member => nomatch member
  | poll _ _ _ _ => exact fun _ member => nomatch member
  | pass _ _ _ _ _ _ _ => exact fun _ member => nomatch member
  | @accept server rows packet rp caller _ visit bundle _ _ _ _ isCaller adds =>
    have accepted := (booksOf parties).mem_accept ⟨server, packet, rp, visit.world.execute⟩
    exact fun bundle => authentic_of_ack wellFormed (sound.books.admitted _ accepted)
      (oneLine _ accepted) accepted isCaller adds
  | @finish rows state goesOn _ attempt executing round published =>
    obtain ⟨accepted, accepts⟩ := before.attempts _ attempt rows executing
    have executed := (booksOf parties).mem_execute attempt.served
    intro bundle member
    obtain ⟨publication, member, manifest, content⟩ := mem_of_published published member
    obtain ⟨caller, result, isCaller, returned, succeeded, rfl⟩ :=
      publish_of_round accepts round member
    exact authentic_of_result wellFormed (sound.books.admitted _ accepted) (oneLine _ accepted) executed
      (fun _ => isCaller) returned succeeded manifest content
  | leave _ _ _ => exact fun _ member => nomatch member
  | @serveMsp server packet rp _ _ _ world delivery isServer _ delivered type admitted packets
      handled published =>
    have served := List.mem_singleton_self (⟨server, packet, rp, world.execute⟩ : ServedCall)
    obtain ⟨isCaller, admits⟩ := admitted_of_remote isServer world.execute admitted packets
    obtain ⟨result, returned, rfl⟩ := msp_accepted handled delivered type admitted
    intro bundle member
    obtain ⟨publication, member, manifest, content⟩ := mem_of_published published member
    have answered : .publish publication ∈ mspAnswer server .all world rp.name result := by
      obtain stopped | sent := List.mem_append.mp member
      · split at stopped
        · simp at stopped
        · cases stopped
      · simpa using sent
    obtain ⟨succeeded, rfl⟩ := publish_of_mspAnswer answered
    exact authentic_of_result wellFormed admits (oneLine _ (List.mem_append_right _ served))
      (List.mem_append_right _ served) (fun _ => isCaller) returned succeeded manifest content
  | @serveMdp server packet rp _ _ _ _ world isServer _ type admitted packets handled published =>
    have served := List.mem_singleton_self (⟨server, packet, rp, world.execute⟩ : ServedCall)
    obtain ⟨isCaller, admits⟩ := admitted_of_remote isServer world.execute admitted packets
    obtain ⟨result, returned, rfl⟩ := mdp_accepted handled type admitted
    intro bundle member
    obtain ⟨publication, member, manifest, content⟩ := mem_of_published published member
    obtain ⟨succeeded, rfl⟩ := publish_of_mdpAnswer (by simpa using member)
    exact authentic_of_result wellFormed admits (oneLine _ (List.mem_append_right _ served))
      (List.mem_append_right _ served) (fun same => absurd same.symm wellFormed.notBroadcast) returned
      succeeded manifest content
  | upload served accepted content member isCaller adds =>
    exact fun bundle => authentic_of_upload wellFormed (sound.books.admitted _ member)
      (oneLine _ member) adds

/-- The origin of what is published, and what the parties know of each other. -/
def provenance (wellFormed : WellFormed system) :
    Provenance (RhizomeTurn system) system.Foreign where
  sound parties := OneLine parties → Sound system parties
  authentic parties bundle := OneLine parties → Authentic system parties bundle
  injected _ _ foreign _ := by
    refine ⟨fun interests => ?_, foreign.calls⟩
    obtain ⟨sid, isSender, proper, others⟩ := foreign.answers interests
    exact ⟨sid, isSender, proper, fun server isServer same => absurd same (others server isServer)⟩
  kept turn _ _ _ authentic oneLine :=
    have grows := grows_of_turn turn
    (authentic (oneLine.of_grows grows)).mono grows
  sent turn sound authentic := by
    have grows := grows_of_turn turn
    have sound' (oneLine : OneLine _) := sound_of_turn wellFormed turn
      (sound (oneLine.of_grows grows)) fun bundle member =>
        authentic bundle member (oneLine.of_grows grows)
    exact ⟨sound', fun bundle member oneLine => sent_of_turn wellFormed turn
      (sound (oneLine.of_grows grows)) (sound' oneLine) oneLine bundle member⟩

/-- The bundle of the call itself is under the client's sid. -/
theorem authentic_of_call (wellFormed : WellFormed system) (id : CString) :
    Authentic system parties
      ⟨id, callManifest system.call.serval system.call.sid system.call.rpcName, system.payload⟩ := by
  refine ⟨fun _ => ⟨system.call.serval.mySid, ?_, wellFormed.proper, ?_⟩, fun _ => wellFormed.payload⟩
  · refine ⟨_, ?_, system.call.serval.strToSidT_tohexSidT _⟩
    exact @manifestField_sender .call _ _ _ wellFormed.oneLine system.daemon
  · exact fun server isServer same => absurd same.symm (wellFormed.elsewhere server isServer)

theorem sound_of_run (wellFormed : WellFormed system) {id : CString}
    {guard : Network RhizomeParties Bundle → NetworkEvent Bundle → Prop}
    {past : List (NetworkEvent Bundle)} {board : Network RhizomeParties Bundle}
    (run : system.Run guard (system.start id) past board) :
    (provenance wellFormed).Holds board := by
  refine (provenance wellFormed).of_board_run ⟨fun _ => ⟨?_, sound_empty⟩, ?_⟩ run
  · exact fun _ _ _ executing => nomatch executing
  · intro bundle published _
    obtain rfl := Multiset.mem_singleton.mp published
    exact authentic_of_call wellFormed id

/-! ## The turns are those of the code -/

theorem published_publish {publication : Publication} {actions : List ServerAction}
    (published : Published (.publish publication :: actions) sent) :
    ∃ added rest, publication.Adds added ∧ Published actions rest ∧ sent = added + rest := by
  cases published with
  | publish adds rest => exact ⟨_, _, adds, rest, rfl⟩
  | other none _ => exact absurd rfl (none publication)

/-- A round at a row of the listing is one turn that passes the row over, or a turn that accepts and
one that finishes: together they publish what the round publishes. -/
theorem turns_of_round {server : Serval} {process state : ProcessState} {rows : List Row}
    {visit : Visit} {bundle : Bundle} {goesOn : Bool} (isServer : server ∈ system.servers)
    (visiting : parties.server server.mySid = ⟨process, .visiting (visit.row :: rows)⟩)
    (visits : system.Visits visit.row visit.body bundle)
    (round : rhizomeRound server process visit = .ok (state, goesOn))
    (published : Published (state.actions.drop process.actions.length) sent) :
    (sent = 0 ∧ RhizomeTurn system parties {bundle} 0
        (parties.enter server.mySid ⟨state, .visiting (if goesOn then rows else [])⟩)) ∨
      ∃ between final sent₁ sent₂, RhizomeTurn system parties {bundle} sent₁ between ∧
        RhizomeTurn system between 0 sent₂ final ∧ sent₁ + sent₂ = sent ∧
        final.server server.mySid = ⟨state, .visiting rows⟩ := by
  have isProcess : (parties.server server.mySid).process = process := by rw [visiting]
  have isPhase : (parties.server server.mySid).phase = .visiting (visit.row :: rows) := by
    rw [visiting]
  by_cases accepting : ∃ packet rp, visit.Accepts server process.doneCalls packet rp
  · obtain ⟨packet, rp, accepts⟩ := accepting
    obtain ⟨caller, result, attempted, _⟩ := round_attempted round
      ⟨packet, ⟨accepts.wanted, accepts.copied, accepts.type⟩, accepts.admitted⟩
    have split := published
    rw [attempted.actions, List.drop_left] at split
    obtain ⟨acked, rest, adds, after, rfl⟩ := published_publish split
    have behind : Published (state.actions.drop (process.actions.length + 1)) rest := by
      rw [attempted.actions, List.drop_append, List.drop_of_length_le (Nat.le_succ _),
        Nat.add_sub_cancel_left, List.nil_append, List.drop_succ_cons, List.drop_zero]
      exact after
    have turn := @RhizomeTurn.accept system parties server rows packet rp caller acked visit bundle
      isServer isPhase visits (by rw [isProcess]; exact accepts) attempted.isCaller adds
    rw [isProcess] at turn
    let attempt : RowAttempt := ⟨server, process, visit, packet, rp⟩
    let atWork : RhizomeParties := { parties.enter server.mySid ⟨process, .executing attempt rows⟩ with
      accepted := parties.accepted ++ [⟨server, packet, rp, visit.world.execute⟩] }
    have working : atWork.server server.mySid = ⟨process, .executing attempt rows⟩ :=
      Function.update_self _ _ _
    have finishing := @RhizomeTurn.finish system atWork rows state goesOn rest attempt
      (show (atWork.server server.mySid).phase = _ by rw [working]) round behind
    exact .inr ⟨_, _, _, _, turn, finishing, rfl, Function.update_self _ _ _⟩
  · obtain ⟨rp, _, _, eligible, _⟩ | ⟨_, _, same⟩ := round_attempts round
    · obtain ⟨packet, call, admitted⟩ := eligible
      exact absurd ⟨packet, rp, call.wanted, call.copied, call.type, admitted⟩ accepting
    · rw [same, List.drop_length] at published
      cases published with
      | nil =>
        exact .inl ⟨rfl, .pass visit bundle isServer isPhase visits (by rw [isProcess]; exact accepting)
          (by rw [isProcess]; exact round)⟩

/-- A turn leaves the client alone or is a step of its loops. -/
theorem client_of_turn (turn : RhizomeTurn system parties seen sent next) :
    next.client = parties.client ∨
      ∃ event, RhizomeStep system.call parties.client event next.client := by
  cases turn with
  | clientPoll elapsed listing _ running none waiting _ =>
    obtain ⟨event, isEvent, round⟩ | same :=
      clientRound_cases parties system.call (.poll elapsed listing)
    · exact .inr ⟨event, .poll elapsed listing running none waiting isEvent round⟩
    · exact .inl same
  | clientVisit bundle input _ running pending _ =>
    have more : parties.client.pending ≠ [] := by
      rw [pending]
      exact List.cons_ne_nil _ _
    obtain ⟨event, isEvent, round⟩ | same :=
      clientRound_cases parties system.call (.visit input)
    · exact .inr ⟨event, .visit input running more isEvent round⟩
    · exact .inl same
  | poll _ _ _ _ => exact .inl rfl
  | pass _ _ _ _ _ _ _ => exact .inl rfl
  | accept _ _ _ _ _ _ _ _ => exact .inl rfl
  | finish _ _ _ _ => exact .inl rfl
  | leave _ _ _ => exact .inl rfl
  | serveMsp _ _ _ _ _ _ _ _ _ _ => exact .inl rfl
  | serveMdp _ _ _ _ _ _ _ _ => exact .inl rfl
  | upload _ _ _ _ _ _ => exact .inl rfl

/-- The client of a run makes a run of the loops of `_rpc_client_rhizome_listen`. -/
theorem client_run {id : CString} {guard : Network RhizomeParties Bundle → NetworkEvent Bundle → Prop}
    {past : List (NetworkEvent Bundle)} {board : Network RhizomeParties Bundle}
    (run : system.Run guard (system.start id) past board) :
    ∃ events, GuardedRun (RhizomeStep system.call) (fun _ _ => True) .entry events
      board.parties.client := by
  induction run with
  | refl => exact ⟨[], .refl⟩
  | tail _ _ step inductionHypothesis =>
    obtain ⟨events, clientRun⟩ := inductionHypothesis
    cases step with
    | turn _ turn =>
      obtain same | ⟨event, step⟩ := client_of_turn turn
      · exact ⟨events, same ▸ clientRun⟩
      · exact ⟨_, .tail clientRun trivial step⟩
    | inject _ => exact ⟨events, clientRun⟩

end ServalRpc.Verified.RhizomeProvenance
