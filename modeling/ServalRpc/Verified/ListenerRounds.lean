import ServalRpc.Verified.AnswerLedger

/-! # What the return code says about a run

The invariants of both listeners that tie a return value to the packets so far.  The timeouts count
the slots that an ACK claimed, not those that a RESPONSE filled.
-/

namespace ServalRpc.Verified.ListenerRounds

open CLib ListenerSteps ClientTable ResultSlots AnswerLedger

/-! ## Telling the truth -/

/-- The slot holds the answer of this packet, a RESPONSE from its server. -/
def AnswerOf (call : ClientCall) (packet : Packet) (result : RPCResult) : Prop :=
  IsResponse packet ∧ packet.sender = result.serverSid ∧
    ∃ bytes, answerBytes call packet = .ok bytes ∧ bytes <+: result.content

/-- What the documentation says about the codes 1 and 2. -/
structure Truthful (call : ClientCall) (packets : List Packet) (rpcResult : ResultTable)
    (code : Int) : Prop where
  stored : code = 2 → ∃ packet ∈ packets, ∃ result ∈ rpcResult.cells, AnswerOf call packet result
  filled : code = 2 → ∀ result ∈ rpcResult.cells.take (rpcClientResultGetInsertIndex rpcResult),
    ∃ packet ∈ packets, AnswerOf call packet result
  acknowledged : code = 1 ↔ (∃ packet ∈ packets, IsAck packet) ∧
    ¬ ∃ packet ∈ packets, IsResponse packet

theorem ackSenders_eq_nil_iff (packets : List Packet) :
    ackSenders packets = [] ↔ ¬ ∃ packet ∈ packets, IsAck packet := by
  simp [ackSenders]

/-- With every entry answered, a code that is 2 as soon as there is an ACK tells the truth. -/
theorem truthful_of_complete {call : ClientCall} {packets : List Packet} {rpcResult : ResultTable}
    (orderly : Orderly packets) (mirrors : Mirrors call packets rpcResult)
    (complete : (ledgerOf call packets).Complete) {code silent : Int} (notOne : silent ≠ 1)
    (notTwo : silent ≠ 2) (isCode : code = if ackSenders packets = [] then silent else 2) :
    Truthful call packets rpcResult code := by
  have answered : ∀ entry ∈ ledgerOf call packets, ∃ packet ∈ packets, IsResponse packet ∧
      packet.sender = entry.1 ∧ ∃ bytes ∈ entry.2, answerBytes call packet = .ok bytes := by
    intro entry member
    obtain ⟨bytes, hasBytes⟩ := Option.isSome_iff_exists.mp (complete entry member)
    obtain ⟨packet, received, response, sender, answer⟩ := answer_received member hasBytes
    exact ⟨packet, received, response, sender, bytes, hasBytes, answer⟩
  have index := mirrors.insertIndex_eq orderly
  rw [← length_ledgerOf call] at index
  have filled : ∀ result ∈ rpcResult.cells.take (rpcClientResultGetInsertIndex rpcResult),
      ∃ packet ∈ packets, AnswerOf call packet result := by
    intro result member
    rw [index] at member
    obtain ⟨entry, inside, sid, holds⟩ := mirrors.represents.exists_entry member
    obtain ⟨packet, received, response, sender, bytes, hasBytes, answer⟩ := answered entry inside
    exact ⟨packet, received, response, sender.trans sid.symm, bytes, answer, holds bytes hasBytes⟩
  by_cases none : ackSenders packets = []
  · rw [if_pos none] at isCode
    subst isCode
    have noAck := (ackSenders_eq_nil_iff packets).mp none
    refine ⟨fun two => absurd two notTwo, fun two => absurd two notTwo, ?_⟩
    exact ⟨fun one => absurd one notOne, fun ack => absurd ack.1 noAck⟩
  · rw [if_neg none] at isCode
    subst isCode
    have positive : 0 < (ledgerOf call packets).length := by
      rw [length_ledgerOf]
      exact List.length_pos_iff.mpr none
    have inTable : 0 < rpcResult.cells.length := by rw [mirrors.size]; decide
    have first : rpcResult.cells[0] ∈
        rpcResult.cells.take (rpcClientResultGetInsertIndex rpcResult) := by
      rw [index]
      exact List.mem_take_iff_getElem.mpr ⟨0, by omega, rfl⟩
    obtain ⟨packet, received, answer⟩ := filled _ first
    refine ⟨fun _ => ⟨packet, received, _, List.getElem_mem inTable, answer⟩, fun _ => filled, ?_⟩
    exact ⟨fun one => absurd one (by decide),
      fun noAnswer => absurd ⟨packet, received, answer.1⟩ noAnswer.2⟩

/-- Every server that acknowledged has sent a RESPONSE, before or after its ACK. -/
def Responded (packets : List Packet) : Prop :=
  ∀ ack ∈ packets, IsAck ack → ∃ response ∈ packets, IsResponse response ∧
    response.sender = ack.sender

/-- Conversely a code that tells the truth leaves no server without a RESPONSE. -/
theorem responded_of_truthful {call : ClientCall} {packets : List Packet}
    {rpcResult : ResultTable} (orderly : Orderly packets) (mirrors : Mirrors call packets rpcResult)
    {code silent : Int} (isCode : code = if ackSenders packets = [] then silent else 2)
    (truthful : Truthful call packets rpcResult code) : Responded packets := by
  intro ack received isAck
  have acked : ackSenders packets ≠ [] := fun none =>
    (ackSenders_eq_nil_iff packets).mp none ⟨ack, received, isAck⟩
  rw [if_neg acked] at isCode
  have index := mirrors.insertIndex_eq orderly
  rw [← length_ledgerOf call] at index
  have key : ack.sender ∈ (ledgerOf call packets).keys := by
    rw [keys_ledgerOf]
    exact List.mem_map_of_mem (List.mem_filter.mpr ⟨received, decide_eq_true isAck⟩)
  obtain ⟨entry, inLedger, isSender⟩ := List.mem_map.mp key
  obtain ⟨result, inside, sid, _⟩ := mirrors.represents.exists_cell inLedger
  rw [← index] at inside
  obtain ⟨response, answering, isResponse, sender, _⟩ := truthful.filled isCode result inside
  exact ⟨response, answering, isResponse, sender.trans (sid.trans isSender)⟩

/-! ## Calls to all servers -/

section All

variable {call : ClientCall} {packets : List Packet} {rpcResult : ResultTable} {packet : Packet}
  {reaction : Reaction}

theorem timeoutCode_all (all : call.sid = sidBroadcast) (mirrors : Mirrors call packets rpcResult)
    (orderly : Orderly packets) (silent : Int) :
    timeoutCode call rpcResult silent = if ackSenders packets = [] then silent else 2 := by
  have counted := mirrors.insertIndex_eq orderly
  unfold timeoutCode
  by_cases noAck : ackSenders packets = []
  · have none : rpcClientResultGetInsertIndex rpcResult = 0 := by rw [counted, noAck]; rfl
    simp [none, noAck]
  · have some : 0 < rpcClientResultGetInsertIndex rpcResult := by
      rw [counted]
      exact List.length_pos_iff.mpr noAck
    simp [all, some, noAck]

theorem receivedAfter_eq (all : call.sid = sidBroadcast)
    (reacted : reactToPacket call packet rpcResult = .ok reaction)
    (goesOn : completes reaction = false) (received : Int) :
    receivedAfter received reaction = if IsAck packet then 1 else received := by
  obtain ⟨ack, rfl⟩ | ⟨response, reacted⟩ | ⟨notAck, _, rfl⟩ := react_cases reacted
  · rw [if_pos ack]
    rfl
  · rw [if_neg fun ack => not_isResponse_of_isAck ack response]
    obtain ⟨_, rfl⟩ | ⟨_, _, _, _, _, _, _, _, _, rfl⟩ := response_all_cases all reacted
    · rfl
    · rw [show (_ == 4) = false from goesOn]
      rfl
  · rw [if_neg notAck]
    rfl

/-- The answer that ends the call is in the last slot, so an ACK came before it. -/
theorem acked_of_completes (all : call.sid = sidBroadcast) (mirrors : Mirrors call packets rpcResult)
    (reacted : reactToPacket call packet rpcResult = .ok reaction)
    (complete : completes reaction = true) : ackSenders packets ≠ [] := by
  obtain ⟨_, rfl⟩ | ⟨_, reacted⟩ | ⟨_, _, rfl⟩ := react_cases reacted
  · cases complete
  · obtain ⟨_, rfl⟩ | ⟨position, _, _, _, found, _, _, _, _, rfl⟩ := response_all_cases all reacted
    · cases complete
    · have last : position = 4 := eq_of_beq complete
      have slots := mirrors.represents.keyIdx?_le found
      rw [length_ledgerOf, last] at slots
      intro noAck
      rw [noAck] at slots
      exact absurd slots (by decide)
  · cases complete

/-- The table represents the ledger, and a return value says whether there was an ACK. -/
structure Counted (call : ClientCall) (silent : Int) (packets : List Packet)
    (rpcResult : ResultTable) (returned : Option Int) : Prop where
  mirrors : Mirrors call packets rpcResult
  code : ∀ code ∈ returned, code = if ackSenders packets = [] then silent else 2

/-- A round of either listener at a packet. -/
theorem Counted.code_of_received (all : call.sid = sidBroadcast)
    (mirrors : Mirrors call packets rpcResult)
    (reacted : reactToPacket call packet rpcResult = .ok reaction) (silent : Int) :
    ∀ code ∈ (if completes reaction then some 2 else none : Option Int),
      code = if ackSenders (packets ++ [packet]) = [] then silent else 2 := by
  intro code isCode
  split at isCode
  · rename_i complete
    cases isCode
    have acked := acked_of_completes all mirrors reacted complete
    rw [if_neg]
    rw [ackSenders_snoc]
    exact List.append_ne_nil_of_left_ne_nil acked _
  · cases isCode

/-- The MDP loop also knows while it runs whether there was an ACK. -/
structure MdpCounted (call : ClientCall) (packets : List Packet) (state : MdpState) : Prop where
  counted : Counted call 0 packets state.rpcResult state.returned
  running : state.returned = none → state.received = if ackSenders packets = [] then 0 else 1

theorem MdpCounted.step (all : call.sid = sidBroadcast) {state next : MdpState} {event : MdpEvent}
    (before : MdpCounted call packets state) (sent : event ≠ .sendFailed)
    (orderly : Orderly (packets ++ (MdpEvent.packet? event).toList))
    (step : MdpStep call state event next) :
    MdpCounted call (packets ++ (MdpEvent.packet? event).toList) next := by
  obtain ⟨⟨mirrors, _⟩, running⟩ := before
  obtain ⟨notReturned, outcome⟩ := mdp_outcome step
  have mirrors' := mirrors.tableStep all orderly (mdp_tableStep step)
  have received := running notReturned
  cases event with
  | timeout =>
    simp only [MdpEvent.packet?, Option.toList_none, List.append_nil] at *
    obtain ⟨_, returned⟩ := outcome
    rw [timeoutCode_all all mirrors orderly, received] at returned
    refine ⟨⟨mirrors', ?_⟩, fun none => ?_⟩
    · intro code isCode
      cases returned.symm.trans isCode
      split <;> rfl
    · cases returned.symm.trans none
  | sendFailed => exact absurd rfl sent
  | quiet =>
    simp only [MdpEvent.packet?, Option.toList_none, List.append_nil] at *
    obtain ⟨_, sameReceived, returned⟩ := outcome
    refine ⟨⟨mirrors', ?_⟩, fun _ => sameReceived.trans received⟩
    intro code isCode
    cases returned.symm.trans isCode
  | received packet =>
    simp only [MdpEvent.packet?, Option.toList_some] at *
    obtain ⟨reaction, reacted, _, isReceived, returned⟩ := outcome
    refine ⟨⟨mirrors', ?_⟩, fun none => ?_⟩
    · rw [returned]
      exact Counted.code_of_received all mirrors reacted 0
    · have goesOn : completes reaction = false := by
        rw [returned] at none
        cases done : completes reaction with
        | false => rfl
        | true => rw [done] at none; cases none
      rw [isReceived, receivedAfter_eq all reacted goesOn, received, ackSenders_snoc]
      by_cases ack : IsAck packet
      · simp [ack]
      · simp [ack]

theorem Counted.rhizomeStep (all : call.sid = sidBroadcast) {state next : RhizomeState}
    {event : RhizomeEvent} (before : Counted call (-1) packets state.rpcResult state.returned)
    (transferred : event ≠ .transferFailed)
    (orderly : Orderly (packets ++ (RhizomeEvent.packet? event).toList))
    (step : RhizomeStep call state event next) :
    Counted call (-1) (packets ++ (RhizomeEvent.packet? event).toList) next.rpcResult
      next.returned := by
  obtain ⟨mirrors, _⟩ := before
  obtain ⟨_, outcome⟩ := rhizome_outcome step
  have mirrors' := mirrors.tableStep all orderly (rhizome_tableStep step)
  cases event with
  | timeout =>
    simp only [RhizomeEvent.packet?, Option.toList_none, List.append_nil] at *
    obtain ⟨_, returned⟩ := outcome
    rw [timeoutCode_all all mirrors orderly] at returned
    refine ⟨mirrors', fun code isCode => ?_⟩
    cases returned.symm.trans isCode
    rfl
  | transferFailed => exact absurd rfl transferred
  | polled rows =>
    exact ⟨mirrors', fun code isCode => nomatch outcome.2.symm.trans isCode⟩
  | skipped =>
    exact ⟨mirrors', fun code isCode => nomatch outcome.2.symm.trans isCode⟩
  | received packet =>
    obtain ⟨reaction, reacted, _, returned⟩ := outcome
    refine ⟨mirrors', ?_⟩
    rw [returned]
    exact Counted.code_of_received all mirrors reacted (-1)

end All

/-! ## Calls to one server -/

section Direct

variable {call : ClientCall} {packets : List Packet} {packet : Packet} {reaction : Reaction}

/-- The table with one answer. -/
def answeredTable (result : RPCResult) : ResultTable :=
  ⟨result :: List.replicate 4 emptyResult, []⟩

theorem isSidTBroadcast_of_direct (direct : call.sid ≠ sidBroadcast) :
    isSidTBroadcast call.sid = false := by
  rw [Bool.eq_false_iff, ne_eq, isSidTBroadcast_iff]
  exact direct

theorem response_direct_cases (direct : call.sid ≠ sidBroadcast) (response : IsResponse packet)
    (reacted : reactToResponse call packet .empty = .ok reaction) :
    ∃ result, AnswerOf call packet result ∧ reaction = .answered (answeredTable result) true := by
  rw [reactToResponse, isSidTBroadcast_of_direct direct, if_neg Bool.false_ne_true] at reacted
  obtain ⟨bytes, answer, reacted⟩ := bind_eq_ok_iff.mp reacted
  obtain ⟨table, stored, reacted⟩ := bind_eq_ok_iff.mp reacted
  obtain ⟨old, loaded, stored⟩ := bind_eq_ok_iff.mp stored
  obtain ⟨new, copied, stored⟩ := bind_eq_ok_iff.mp stored
  rw [mapError_eq_ok_iff] at loaded copied
  obtain ⟨_, holds⟩ := copyContent_ok copied
  cases stored
  cases reacted
  exact ⟨new.setServerSid packet.sender, ⟨response, rfl, bytes, answer, holds⟩, rfl⟩

/-- A whole RESPONSE with a string that is no filehash is an answer. -/
theorem direct_answered (direct : call.sid ≠ sidBroadcast) {front back : List UInt8}
    (payload : packet.recvPayload = rpcPktCallResponse :: (front ++ 0 :: back))
    (nulFree : 0 ∉ front) (noFilehash : front.length ≠ 128)
    (whole : packet.len = packet.recvPayload.length) (fits : packet.len ≤ rpcPktSize) :
    ∃ rpcResult, reactToPacket call packet .empty = .ok (.answered rpcResult true) := by
  have response : IsResponse packet := by rw [IsResponse, payload]; rfl
  have body : CString.read (packet.recvPayload.drop 1) =
      .ok (CString.upToNul (front ++ 0 :: back)) := by
    rw [payload]
    exact CString.read_of_mem (List.mem_append_right _ List.mem_cons_self)
  have noHash : rpcStrIsFilehash (CString.upToNul (front ++ 0 :: back)) = false := by
    simp [rpcStrIsFilehash, CString.length, CString.upToNul_append nulFree, noFilehash]
  have positive : 1 ≤ packet.len := by rw [whole, payload]; simp
  have size : sizeSub packet.len 1 = packet.len - 1 := sizeSub_of_le positive
  have answer : answerBytes call packet = .ok (packet.recvPayload.drop 1) := by
    have copied : loadRange packet.recvPayload 1 (packet.len - 1) =
        .ok (packet.recvPayload.drop 1) := by
      rw [loadRange_of_le (by omega), List.take_of_length_le (by rw [List.length_drop, whole])]
    simp only [answerBytes, body, noHash, size, copied, Except.mapError, ok_bind, Bool.false_eq_true,
      if_false]
  obtain ⟨table, stored⟩ := @storeAnswer_of_fits .empty 0 (by decide) (packet.recvPayload.drop 1)
    (by rw [List.length_drop]; omega)
  rw [reactToPacket_of_isResponse response, reactToResponse, isSidTBroadcast_of_direct direct,
    if_neg Bool.false_ne_true, answer, ok_bind, stored]
  exact ⟨_, rfl⟩

theorem react_direct_cases (direct : call.sid ≠ sidBroadcast)
    (reacted : reactToPacket call packet .empty = .ok reaction) :
    (¬ IsResponse packet ∧ reactionTable .empty reaction = .empty ∧ completes reaction = false) ∨
      ∃ result, AnswerOf call packet result ∧ reaction = .answered (answeredTable result) true := by
  obtain ⟨ack, rfl⟩ | ⟨response, reacted⟩ | ⟨_, notResponse, rfl⟩ := react_cases reacted
  · refine .inl ⟨not_isResponse_of_isAck ack, ?_, rfl⟩
    rw [reactionTable, reactToAck, isSidTBroadcast_of_direct direct]
    rfl
  · exact .inr (response_direct_cases direct response reacted)
  · exact .inl ⟨notResponse, rfl, rfl⟩

/-- A call to one server has met no RESPONSE, or the first one ended it. -/
inductive Direct (call : ClientCall) (packets : List Packet) : ResultTable → Option Int → Prop where
  | silent {returned : Option Int} : (¬ ∃ packet ∈ packets, IsResponse packet) →
      returned = none ∨ returned = some (-1) → Direct call packets .empty returned
  | answered {packet : Packet} {result : RPCResult} : packet ∈ packets →
      AnswerOf call packet result → Direct call packets (answeredTable result) (some 2)

theorem Direct.waiting {rpcResult : ResultTable} (before : Direct call packets rpcResult none) :
    rpcResult = .empty ∧ ¬ ∃ packet ∈ packets, IsResponse packet := by
  cases before with
  | silent noResponse _ => exact ⟨rfl, noResponse⟩

theorem Direct.step (direct : call.sid ≠ sidBroadcast) {state next : RhizomeState}
    {event : RhizomeEvent} (before : Direct call packets state.rpcResult state.returned)
    (step : RhizomeStep call state event next) :
    Direct call (packets ++ (RhizomeEvent.packet? event).toList) next.rpcResult next.returned := by
  obtain ⟨running, outcome⟩ := rhizome_outcome step
  rw [running] at before
  obtain ⟨empty, noResponse⟩ := before.waiting
  have quiet (same : next.rpcResult = state.rpcResult)
      (returned : next.returned = none ∨ next.returned = some (-1)) :
      Direct call (packets ++ []) next.rpcResult next.returned := by
    rw [same, empty, List.append_nil]
    exact .silent noResponse returned
  cases event with
  | timeout =>
    obtain ⟨same, returned⟩ := outcome
    rw [timeoutCode, if_neg fun counted => direct counted.1] at returned
    exact quiet same (.inr returned)
  | transferFailed => exact quiet outcome.1 (.inr outcome.2)
  | polled rows => exact quiet outcome.1 (.inl outcome.2)
  | skipped => exact quiet outcome.1 (.inl outcome.2)
  | received packet =>
    obtain ⟨reaction, reacted, table, returned⟩ := outcome
    rw [empty] at reacted table
    rw [table, returned]
    obtain ⟨notResponse, same, goesOn⟩ | ⟨result, answer, rfl⟩ := react_direct_cases direct reacted
    · rw [same, goesOn]
      refine .silent ?_ (.inl rfl)
      rintro ⟨other, member, response⟩
      obtain old | new := List.mem_append.mp member
      · exact noResponse ⟨other, old, response⟩
      · obtain rfl := List.mem_singleton.mp new
        exact notResponse response
    · exact .answered (List.mem_append_right _ (List.mem_singleton.mpr rfl)) answer

/-- A call to one server tells the truth exactly when an ACK does not stay without a RESPONSE. -/
theorem Direct.truthful_iff {rpcResult : ResultTable} {code : Int}
    (returned : Direct call packets rpcResult (some code)) :
    Truthful call packets rpcResult code ↔
      ((∃ packet ∈ packets, IsAck packet) → ∃ packet ∈ packets, IsResponse packet) := by
  cases returned with
  | silent noResponse isCode =>
    obtain rfl : code = -1 := by simpa using isCode
    constructor
    · intro truthful ack
      exact absurd (truthful.acknowledged.mpr ⟨ack, noResponse⟩) (by decide)
    · intro answered
      refine ⟨fun two => absurd two (by decide), fun two => absurd two (by decide), ?_⟩
      refine ⟨fun one => absurd one (by decide), fun acked => ?_⟩
      exact absurd (answered acked.1) noResponse
  | @answered packet result received answer =>
    have response : ∃ packet ∈ packets, IsResponse packet := ⟨packet, received, answer.1⟩
    refine iff_of_true ⟨fun _ => ?_, fun _ other member => ?_, ?_⟩ fun _ => response
    · exact ⟨packet, received, result, List.mem_cons_self, answer⟩
    · have only : other = result := by
        by_cases any : isSidTAny result.serverSid
        · have index : rpcClientResultGetInsertIndex (answeredTable result) = 0 := by
            simp [rpcClientResultGetInsertIndex, answeredTable, List.findIdx_cons, any]
          rw [index] at member
          cases member
        · have index : rpcClientResultGetInsertIndex (answeredTable result) = 1 := by
            have free : isSidTAny emptyResult.serverSid = true := rfl
            simp [rpcClientResultGetInsertIndex, answeredTable, List.findIdx_cons,
              List.replicate_succ, any, free]
          rw [index] at member
          exact List.mem_singleton.mp member
      exact ⟨packet, received, only ▸ answer⟩
    · exact ⟨fun one => absurd one (by decide), fun acked => absurd response acked.2⟩

end Direct

end ServalRpc.Verified.ListenerRounds
