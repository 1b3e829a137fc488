import ServalRpc.Verified.PlainStrings
import ServalRpc.Verified.RhizomeProvenance

/-! # Rhizome calls that complete

A call over MDP that was acknowledged and lost its answer is lost.  A call over Rhizome stays in the
stores: whatever has happened to it, a server that has not recorded it as done can bring it to its
end.
-/

namespace ServalRpc.Verified.RhizomeCompletion

open CLib HandlerSteps ListenerSteps ClientTable ListenerRounds Delivery PlainAnswers SlotOrigins
  ResultManifest Manifests RhizomeBundles RhizomeProvenance

variable {system : RhizomeSystem} {parties next : RhizomeParties} {seen sent : Multiset Bundle}

/-! ## What every run keeps -/

def callBundle (system : RhizomeSystem) (id : CString) : Bundle :=
  ⟨id, callManifest system.call.serval system.call.sid system.call.rpcName, system.payload⟩

theorem call_stays {id : CString} {guard : Network RhizomeParties Bundle → NetworkEvent Bundle → Prop}
    {past : List (NetworkEvent Bundle)} {board : Network RhizomeParties Bundle}
    (run : system.Run guard (system.start id) past board) :
    callBundle system id ∈ board.inFlight := by
  induction run with
  | refl => exact Multiset.mem_singleton_self _
  | tail _ _ step inductionHypothesis =>
    cases step with
    | turn _ _ => exact Multiset.mem_add.mpr (.inl inductionHypothesis)
    | inject _ => exact Multiset.mem_cons_of_mem inductionHypothesis

/-- A listener that has not returned has not received anything that ends it. -/
structure Waits (client : RhizomeState) : Prop where
  size : client.rpcResult.cells.length = 5
  received : client.returned = none → client.received = 0

@[simp] theorem advance_received (state : RhizomeState) : state.advance.received = state.received := by
  unfold RhizomeState.advance
  split
  · rfl
  · rfl

theorem received_of_round {call : ClientCall} {state next : RhizomeState} {event : RhizomeEvent}
    (round : rpcClientRhizomeListenRound call state event = .ok next) (goesOn : next.returned = none) :
    next.received = state.received := by
  unfold rpcClientRhizomeListenRound at round
  cases event with
  | timeout =>
    simp only at round
    split at round
    · cases round
      cases goesOn
    · cases round
      cases goesOn
  | transferFailed =>
    cases round
    cases goesOn
  | polled rows =>
    obtain ⟨pending, _, round⟩ := bind_eq_ok_iff.mp round
    cases round
    rfl
  | skipped =>
    cases round
    exact advance_received state
  | received packet =>
    obtain ⟨reaction, _, round⟩ := bind_eq_ok_iff.mp round
    cases reaction with
    | ignored =>
      cases round
      exact advance_received state
    | acknowledged rpcResult =>
      cases round
      exact advance_received state
    | answered rpcResult complete =>
      cases complete with
      | false =>
        cases round
        exact advance_received state
      | true =>
        cases round
        cases goesOn

theorem Waits.step {call : ClientCall} {state next : RhizomeState} {event : RhizomeEvent}
    (before : Waits state) (step : RhizomeStep call state event next) : Waits next := by
  obtain ⟨running, _⟩ := rhizome_outcome step
  refine ⟨?_, fun goesOn => ?_⟩
  · have table := rhizome_tableStep step
    unfold TableStep at table
    split at table
    · rw [table]
      exact before.size
    · obtain ⟨reaction, reacted, same⟩ := table
      rw [same, react_size reacted]
      exact before.size
  · rw [← before.received running]
    cases step with
    | poll _ _ _ _ _ _ round => exact received_of_round round goesOn
    | visit _ _ _ _ round => exact received_of_round round goesOn

theorem waits_of_run {id : CString}
    {guard : Network RhizomeParties Bundle → NetworkEvent Bundle → Prop}
    {past : List (NetworkEvent Bundle)} {board : Network RhizomeParties Bundle}
    (run : system.Run guard (system.start id) past board) : Waits board.parties.client := by
  obtain ⟨events, clientRun⟩ := client_run run
  exact @GuardedRun.invariant _ _ _ _ _ (fun _ client => Waits client)
    ⟨List.length_replicate, fun _ => rfl⟩ (fun _ _ _ _ before _ step => before.step step) _ _ clientRun

/-! ## Rows -/

/-- A row that a daemon could list a bundle in. -/
def listedRow (daemon : Daemon) (bundle : Bundle) : Row where
  token := none
  service := daemon.manifestField bundle.manifest serviceKey
  id := bundle.id
  version := 1
  inserttime := 0
  filesize := valueint bundle.content.length
  filehash := CString.ofChars []
  sender := daemon.manifestField bundle.manifest senderKey
  recipient := daemon.manifestField bundle.manifest recipientKey
  name := daemon.manifestField bundle.manifest nameKey

theorem listedRow_lists (daemon : Daemon) (bundle : Bundle) :
    daemon.ListsBundle (listedRow daemon bundle) bundle :=
  ⟨rfl, rfl, rfl, rfl, rfl, rfl⟩

theorem listedRow_filesize (daemon : Daemon) {bundle : Bundle}
    (small : bundle.content.length < 2 ^ 31) :
    (listedRow daemon bundle).filesize = bundle.content.length := by
  exact valueint_of_lt small

theorem listedRow_visits (system : RhizomeSystem) (bundle : Bundle) :
    system.Visits (listedRow system.daemon bundle) (some bundle.content) bundle :=
  ⟨listedRow_lists _ _, fun _ same => (Option.some.inj same).symm⟩

/-! ## The server -/

/-- The server is there for the call, its execution prints a string that is no filehash, and the
store takes the result. -/
structure Available (system : RhizomeSystem) (server : Serval) (world : RhizomeWorld)
    (rp : RPCProcedure) (result : ExecuteResult) (text : CString) : Prop where
  isServer : server ∈ system.servers
  addressed : system.call.sid = sidAny ∨ system.call.sid = server.mySid
  notEmpty : 0 < system.payload.length
  notTooBig : system.payload.length ≤ mdpMtu
  type : load system.payload 0 = .ok rpcPktCall
  admitted : admitCall server world.conf system.payload (some (tohexSidT system.call.serval.mySid)) =
    .ok (.accepted rp)
  isName : rp.name = system.call.rpcName
  executed : excecuteCall server world.execute rp = .ok result
  succeeded : result.returnCode ≠ 0
  freed : rpcFreeRp result.rp = .ok ()
  stored : world.resultInsertion.accepted = true
  plain : PlainAnswer (result.resultPayload.cells.take (rpcPktSize - 1)) text

section Complete

variable {server : Serval} {world : RhizomeWorld} {rp : RPCProcedure} {result : ExecuteResult}
  {text : CString} {id : CString}

def callVisit (system : RhizomeSystem) (id : CString) (world : RhizomeWorld) : Visit :=
  ⟨listedRow system.daemon (callBundle system id), some system.payload, world⟩

theorem isCaller_of_available (available : Available system server world rp result text) :
    rp.callerSid = some system.call.serval.mySid := by
  obtain ⟨_, isSender, parsed⟩ := caller_of_admitted available.admitted
  obtain rfl := Option.some.inj isSender
  rw [parsed, server.strToSidT_tohexSidT]

/-- The poll of the server gets as far as the ACK. -/
theorem accepts_of_available (oneLine : 10 ∉ system.call.rpcName.bytes)
    (available : Available system server world rp result text) {doneCalls : List CString}
    (notDone : id ∉ doneCalls) :
    (callVisit system id world).Accepts server doneCalls system.payload rp := by
  have service := system.daemon.manifestField_text _ _ (@manifestText_fieldsOf .call
    system.call.serval system.call.sid _ oneLine) (fieldsOf_distinct _) serviceKey (by decide)
  have sender := @manifestField_sender .call system.call.serval system.call.sid _ oneLine
    system.daemon
  have recipient := @manifestField_recipient .call system.call.serval system.call.sid _ oneLine
    system.daemon
  have size : sizeOfInt (valueint system.payload.length) = system.payload.length :=
    sizeOfInt_valueint_of_lt (Nat.lt_of_le_of_lt available.notTooBig (by decide))
  refine ⟨wantedRow_iff.mpr ⟨serviceRpc, service, by decide, ?_, notDone, ?_, ?_⟩,
    ⟨system.payload, rfl, ?_⟩, available.type, ?_⟩
  · have isRecipient : (callVisit system id world).row.recipient =
        if namesRecipient .call system.call.sid then some (tohexSidT system.call.sid) else none :=
      recipient
    rw [isRecipient]
    obtain any | same := available.addressed
    · rw [any]
      rfl
    · rw [same]
      split
      · exact beq_self_eq_true _
      · rfl
  · exact size.symm ▸ available.notEmpty
  · exact size.symm ▸ available.notTooBig
  · have whole : sizeOfInt (callVisit system id world).row.filesize = system.payload.length := size
    rw [whole, loadRange_of_le (by simp), List.drop_zero, List.take_length]
  · have isSender : (callVisit system id world).row.sender =
        some (tohexSidT system.call.serval.mySid) := sender
    rw [isSender]
    exact available.admitted

/-- The bundle with the result. -/
def answerBundle (system : RhizomeSystem) (server : Serval) (world : RhizomeWorld)
    (result : ExecuteResult) : Bundle :=
  ⟨CString.ofChars [], resultManifest server system.call.serval.mySid system.call.rpcName,
    overread result.resultPayload.cells world.resultInsertion.behind (rpcPktSize - 1)⟩

theorem answer_content (available : Available system server world rp result text) :
    (answerBundle system server world result).content =
      result.resultPayload.cells.take (rpcPktSize - 1) := by
  have inside : rpcPktSize - 1 ≤ result.resultPayload.cells.length := by
    rw [(resultPacket_of_executed available.executed available.succeeded).size]
    exact Nat.sub_le _ _
  rw [answerBundle, overread_of_le _ inside]

/-- The round that was begun with the ACK publishes the result. -/
theorem finish_of_available (available : Available system server world rp result text)
    {process : ProcessState}
    (accepts : (callVisit system id world).Accepts server process.doneCalls system.payload rp) :
    ∃ state, rhizomeRound server process (callVisit system id world) = .ok (state, true) ∧
      Published (state.actions.drop (process.actions.length + 1))
        {answerBundle system server world result} := by
  obtain ⟨state, round, attempted⟩ := @round_of_eligible _ process _ _ _ _
    ⟨system.payload, ⟨accepts.wanted, accepts.copied, accepts.type⟩, accepts.admitted⟩
    (isCaller_of_available available) available.executed available.freed
  refine ⟨state, round, ?_⟩
  rw [attempted.actions, if_neg available.succeeded, List.drop_append,
    List.drop_of_length_le (Nat.le_succ _), Nat.add_sub_cancel_left, List.nil_append,
    List.drop_succ_cons, List.drop_zero]
  refine .other (by simp) ?_
  have isBundle : answerBundle system server world result =
      ⟨CString.ofChars [],
        (rowAnswer server (callVisit system id world) system.call.serval.mySid rp.name result).manifest,
        (rowAnswer server (callVisit system id world) system.call.serval.mySid rp.name
          result).content⟩ := by
    simp only [answerBundle, rowAnswer, rpcServerRhizomeSendResult, callVisit, available.isName]
  have adds : (rowAnswer server (callVisit system id world) system.call.serval.mySid rp.name
      result).Adds {answerBundle system server world result} := by
    rw [isBundle]
    exact .accepted _ available.stored
  have published := Published.publish adds .nil
  rwa [Multiset.add_zero] at published

/-! ## The client -/

/-- The client takes a listing of one row. -/
theorem clientRound_poll (parties : RhizomeParties) (call : ClientCall) (row : Row) :
    parties.clientRound call (.poll parties.client.waitTime (some [row])) =
      { parties with client := { parties.client with pending := [row] } } := by
  have event : rhizomeEvent call parties.client (.poll parties.client.waitTime (some [row])) =
      .ok (.polled [row]) := by
    simp [rhizomeEvent]
  have visiting : rowsToVisit parties.client.token [row] = .ok [row] := by
    unfold rowsToVisit
    cases parties.client.token with
    | none => rfl
    | some _ => rfl
  simp only [RhizomeParties.clientRound, event, ok_bind, rpcClientRhizomeListenRound, visiting]
  rfl

/-- The last step: the result ends the call. -/
theorem answer_completes (oneLine : 10 ∉ system.call.rpcName.bytes)
    (direct : system.call.sid ≠ sidBroadcast)
    (available : Available system server world rp result text)
    (pending : parties.client.pending =
      [listedRow system.daemon (answerBundle system server world result)])
    (size : parties.client.rpcResult.cells.length = 5) :
    ∃ input : RowInput, system.Visits
        (listedRow system.daemon (answerBundle system server world result)) input.body
        (answerBundle system server world result) ∧
      (parties.clientRound system.call (.visit input)).client.returned = some 2 ∧
      ∃ slot, (parties.clientRound system.call (.visit input)).client.rpcResult.cells[0]? =
          some slot ∧ slot.serverSid = server.mySid ∧ CString.read slot.content = .ok text := by
  let bundle := answerBundle system server world result
  let row := listedRow system.daemon bundle
  let input : RowInput := ⟨0, sidAny, some bundle.content, fun _ => 0, [], fun _ => 0⟩
  have lists : system.daemon.Lists row (resultManifest server system.call.serval.mySid
      system.call.rpcName) bundle.content := (listedRow_lists system.daemon bundle).lists
  have interesting : interestingRow system.call 0 row = .ok true :=
    (interestingRow_result_iff lists (show (0 : Int) - 0 < 600000 by decide)).mpr ⟨rfl, oneLine⟩
  have isSender : row.sender = some (tohexSidT server.mySid) :=
    @manifestField_sender .result _ _ _ oneLine system.daemon
  have event : rhizomeEvent system.call parties.client (.visit input) =
      .ok (.received (rowPacket system.call row input (tohexSidT server.mySid) bundle.content)) := by
    unfold rhizomeEvent
    simp only [pending]
    have filter : interestingRow system.call input.now row = .ok true := interesting
    have sent : deref row.sender = .ok (tohexSidT server.mySid) := by rw [isSender]; rfl
    rw [filter, sent]
    rfl
  have content : PlainAnswer bundle.content text := by
    rw [answer_content available]
    exact available.plain
  have small : bundle.content.length < 2 ^ 31 :=
    Nat.lt_of_le_of_lt content.fits (by decide)
  have fileSize := listedRow_filesize system.daemon small
  have received := @receives_row system.call row input (tohexSidT server.mySid) bundle.content fileSize
    (Nat.lt_trans small (by decide))
  have inside : 0 < parties.client.rpcResult.cells.length := by omega
  obtain ⟨new, overwritten, reacted⟩ := react_selected content received
    (selectedSlot_direct direct _ parties.client.rpcResult) (List.getElem?_eq_getElem inside)
  rw [isSidTBroadcast_of_direct direct, Bool.not_false, Bool.true_or] at reacted
  refine ⟨input, listedRow_visits system bundle, ?_⟩
  simp only [RhizomeParties.clientRound, event, ok_bind, rpcClientRhizomeListenRound, reacted]
  refine ⟨rfl, new, List.getElem?_set_self inside, ?_, ?_⟩
  · rw [overwritten.serverSid, rowPacket, system.call.serval.strToSidT_tohexSidT]
    rfl
  · rw [overwritten.content]
    exact CString.read_append content.body _

theorem exists_adds (publication : Publication) : ∃ sent, publication.Adds sent := by
  cases accepted : publication.accepted with
  | false => exact ⟨0, .refused accepted⟩
  | true => exact ⟨_, .accepted (CString.ofChars []) accepted⟩

/-- Nobody else publishes. -/
def LeftAlone (_ : Network RhizomeParties Bundle) : NetworkEvent Bundle → Prop
  | .injected _ => False
  | _ => True

theorem leftAlone_turn {board before : Network RhizomeParties Bundle}
    {past : List (NetworkEvent Bundle)} {seen sent : Multiset Bundle} {next : RhizomeParties}
    (run : system.Run LeftAlone board past before) (visible : seen ⊆ before.inFlight)
    (turn : RhizomeTurn system before.parties seen sent next) :
    system.Run LeftAlone board (past ++ [.turn seen sent]) ⟨next, before.inFlight + sent⟩ :=
  .tail run trivial (.turn visible turn)

theorem singleton_visible {bundle : Bundle} {board : Multiset Bundle} (published : bundle ∈ board) :
    ({bundle} : Multiset Bundle) ⊆ board :=
  Multiset.singleton_subset.mpr published

/-- An available server that finds the call in its store brings it to its end. -/
theorem completes_of_available (oneLine : 10 ∉ system.call.rpcName.bytes)
    (direct : system.call.sid ≠ sidBroadcast)
    (available : Available system server world rp result text) {board : Network RhizomeParties Bundle}
    (published : callBundle system id ∈ board.inFlight) (waits : Waits board.parties.client)
    (running : board.parties.stopped = none) (waiting : board.parties.client.returned = none)
    (noRows : board.parties.client.pending = [])
    (idle : (board.parties.server server.mySid).phase = .idle)
    (notDone : id ∉ (board.parties.server server.mySid).process.doneCalls) :
    ∃ later final, system.Run LeftAlone board later final ∧
      final.parties.accepted =
        board.parties.accepted ++ [⟨server, system.payload, rp, world.execute⟩] ∧
      final.parties.client.returned = some 2 ∧
      ∃ slot, final.parties.client.rpcResult.cells[0]? = some slot ∧
        slot.serverSid = server.mySid ∧ CString.read slot.content = .ok text := by
  let row := listedRow system.daemon (callBundle system id)
  let process : ProcessState := ⟨0, (board.parties.server server.mySid).process.doneCalls, []⟩
  let attempt : RowAttempt := ⟨server, process, callVisit system id world, system.payload, rp⟩
  have accepts : (callVisit system id world).Accepts server process.doneCalls system.payload rp :=
    accepts_of_available oneLine available notDone
  obtain ⟨acked, adds⟩ := exists_adds (rpcServerRhizomeSendResult server world.ackInsertion
    system.call.serval.mySid rp.name [rpcPktCallAck]).2
  obtain ⟨state, round, answered⟩ := finish_of_available available accepts
  -- The server lists the call, accepts it and publishes its result.
  have polled := leftAlone_turn .refl (singleton_visible published)
    (.poll [row] available.isServer idle (by
      intro listed member
      obtain rfl := List.mem_singleton.mp member
      exact ⟨_, Multiset.mem_singleton_self _, listedRow_lists _ _⟩))
  let polling := board.parties.enter server.mySid ⟨process, .visiting [row]⟩
  have visiting : polling.server server.mySid = ⟨process, .visiting [row]⟩ := Function.update_self _ _ _
  have accepting := @RhizomeTurn.accept system polling server [] system.payload rp
    system.call.serval.mySid acked (callVisit system id world) (callBundle system id)
    available.isServer (by rw [visiting]; rfl) (listedRow_visits _ _) (by rw [visiting]; exact accepts)
    (isCaller_of_available available) adds
  have accepted := leftAlone_turn polled
    (singleton_visible (Multiset.mem_add.mpr (.inl published))) accepting
  rw [visiting] at accepted
  let atWork : RhizomeParties := { polling.enter server.mySid ⟨process, .executing attempt []⟩ with
    accepted := polling.accepted ++ [⟨server, system.payload, rp, world.execute⟩] }
  have working : atWork.server server.mySid = ⟨process, .executing attempt []⟩ :=
    Function.update_self _ _ _
  have executing : (atWork.server server.mySid).phase = .executing attempt [] := by rw [working]
  have finished := leftAlone_turn accepted (Multiset.zero_subset _)
    (@RhizomeTurn.finish system atWork [] state true _ attempt executing round answered)
  -- The client lists the result and takes it.
  let final : RhizomeParties := { atWork.enter server.mySid ⟨state, .visiting []⟩ with
    executed := atWork.executed ++ [attempt.served] }
  let answerRow := listedRow system.daemon (answerBundle system server world result)
  have inStore : answerBundle system server world result ∈ board.inFlight + 0 + acked +
      {answerBundle system server world result} :=
    Multiset.mem_add.mpr (.inr (Multiset.mem_singleton_self _))
  have listing := @RhizomeTurn.clientPoll system final
    {answerBundle system server world result} final.client.waitTime (some [answerRow]) running
    waiting noRows (waits.received waiting) (by
      intro rows isListing listed member
      obtain rfl := Option.some.inj isListing
      obtain rfl := List.mem_singleton.mp member
      exact ⟨_, Multiset.mem_singleton_self _, listedRow_lists _ _⟩)
  have listed := leftAlone_turn finished (singleton_visible inStore) listing
  rw [clientRound_poll] at listed
  obtain ⟨input, visits, returned, slot, at', isServer, holds⟩ :=
    @answer_completes system { final with client := { final.client with pending := [answerRow] } }
      server world rp result text oneLine direct available rfl waits.size
  have taken := leftAlone_turn listed
    (singleton_visible (Multiset.mem_add.mpr (.inl inStore)))
    (.clientVisit (answerBundle system server world result) input running waiting rfl visits)
  exact ⟨_, _, taken, rfl, returned, slot, at', isServer, holds⟩

end Complete

end ServalRpc.Verified.RhizomeCompletion
