import ServalRpc.Verified.ResultSlots

/-! # The ledger of a call to all servers

The ledger has an entry for each server that acknowledged the call, with the answer it gave after
that.  The result table represents the ledger as long as the ACKs come from at most five servers,
each of which acknowledges once.
-/

namespace ServalRpc.Verified.AnswerLedger

open CLib ListenerSteps ClientTable ResultSlots

/-! ## The ledger of the received packets -/

abbrev Answers := Ledger Sid (List UInt8)

def record (call : ClientCall) (ledger : Answers) (packet : Packet) : Answers :=
  if IsAck packet then ledger.claim packet.sender
  else if IsResponse packet then
    match answerBytes call packet with
    | .ok bytes => ledger.answer packet.sender bytes
    | .error _ => ledger
  else ledger

def ledgerOf (call : ClientCall) (packets : List Packet) : Answers :=
  packets.foldl (record call) []

def ackSenders (packets : List Packet) : List Sid :=
  (packets.filter fun packet => IsAck packet).map Packet.sender

/-- The ACKs come from at most five servers, each of which acknowledges once. -/
structure Orderly (packets : List Packet) : Prop where
  distinct : (ackSenders packets).Nodup
  few : (ackSenders packets).length ≤ 5
  proper : ∀ sender ∈ ackSenders packets, sender ≠ sidAny ∧ sender ≠ sidBroadcast

section Ledger

variable (call : ClientCall)

theorem ledgerOf_snoc (packets : List Packet) (packet : Packet) :
    ledgerOf call (packets ++ [packet]) = record call (ledgerOf call packets) packet := by
  simp [ledgerOf]

theorem ackSenders_snoc (packets : List Packet) (packet : Packet) :
    ackSenders (packets ++ [packet]) =
      ackSenders packets ++ if IsAck packet then [packet.sender] else [] := by
  by_cases ack : IsAck packet <;> simp [ackSenders, ack]

theorem keys_ledgerOf (packets : List Packet) :
    (ledgerOf call packets).keys = ackSenders packets := by
  induction packets using List.reverseRecOn with
  | nil => rfl
  | append_singleton packets packet inductionHypothesis =>
    rw [ledgerOf_snoc, ackSenders_snoc, record, ← inductionHypothesis]
    split
    · exact Ledger.keys_claim _ _
    · rw [List.append_nil]
      split
      · split
        · exact Ledger.keys_answer _ _ _
        · rfl
      · rfl

theorem length_ledgerOf (packets : List Packet) :
    (ledgerOf call packets).length = (ackSenders packets).length := by
  rw [← keys_ledgerOf call, Ledger.keys, List.length_map]

theorem Orderly.of_snoc {packets : List Packet} {packet : Packet}
    (orderly : Orderly (packets ++ [packet])) : Orderly packets := by
  obtain ⟨distinct, few, proper⟩ := orderly
  rw [ackSenders_snoc] at distinct few proper
  refine ⟨(List.nodup_append.mp distinct).1, ?_, fun sender member => ?_⟩
  · rw [List.length_append] at few
    omega
  · exact proper sender (List.mem_append_left _ member)

theorem Orderly.of_event {packets : List Packet} {event : Option Packet}
    (orderly : Orderly (packets ++ event.toList)) : Orderly packets := by
  cases event with
  | none => rwa [Option.toList_none, List.append_nil] at orderly
  | some packet => exact orderly.of_snoc

variable {call} in
/-- An answer in the ledger is the answer of a RESPONSE from that server. -/
theorem answer_received {packets : List Packet} {entry : Sid × Option (List UInt8)}
    (member : entry ∈ ledgerOf call packets) {bytes : List UInt8} (answered : entry.2 = some bytes) :
    ∃ packet ∈ packets, IsResponse packet ∧ packet.sender = entry.1 ∧
      answerBytes call packet = .ok bytes := by
  induction packets using List.reverseRecOn with
  | nil => cases member
  | append_singleton packets packet inductionHypothesis =>
    have earlier : entry ∈ ledgerOf call packets → ∃ other ∈ packets ++ [packet],
        IsResponse other ∧ other.sender = entry.1 ∧ answerBytes call other = .ok bytes := by
      intro member
      obtain ⟨other, received, rest⟩ := inductionHypothesis member
      exact ⟨other, List.mem_append_left _ received, rest⟩
    rw [ledgerOf_snoc, record] at member
    split at member
    · obtain old | new := List.mem_append.mp member
      · exact earlier old
      · obtain rfl := List.mem_singleton.mp new
        cases answered
    · split at member
      · rename_i response
        split at member
        · rename_i other answer
          obtain rfl | old := Ledger.mem_answer member
          · cases answered
            exact ⟨packet, by simp, response, rfl, answer⟩
          · exact earlier old
        · exact earlier member
      · exact earlier member

/-- An entry without an answer is an ACK that no RESPONSE of its server followed. -/
theorem exists_ack_of_unanswered {packets : List Packet} {entry : Sid × Option (List UInt8)}
    (member : entry ∈ ledgerOf call packets) (unanswered : entry.2 = none) :
    ∃ before ack after, packets = before ++ ack :: after ∧ IsAck ack ∧ ack.sender = entry.1 ∧
      ∀ packet ∈ after, IsResponse packet → packet.sender = entry.1 →
        ∀ bytes, answerBytes call packet ≠ .ok bytes := by
  induction packets using List.reverseRecOn with
  | nil => cases member
  | append_singleton packets packet inductionHypothesis =>
    have older (old : entry ∈ ledgerOf call packets)
        (silent : IsResponse packet → packet.sender = entry.1 →
          ∀ bytes, answerBytes call packet ≠ .ok bytes) :
        ∃ before ack after, packets ++ [packet] = before ++ ack :: after ∧ IsAck ack ∧
          ack.sender = entry.1 ∧ ∀ packet ∈ after, IsResponse packet → packet.sender = entry.1 →
            ∀ bytes, answerBytes call packet ≠ .ok bytes := by
      obtain ⟨before, ack, after, rfl, isAck, sender, others⟩ := inductionHypothesis old
      refine ⟨before, ack, after ++ [packet], by simp, isAck, sender, fun other member => ?_⟩
      obtain earlier | last := List.mem_append.mp member
      · exact others other earlier
      · obtain rfl := List.mem_singleton.mp last
        exact silent
    rw [ledgerOf_snoc, record] at member
    split at member
    · rename_i isAck
      obtain old | new := List.mem_append.mp member
      · exact older old fun response => absurd response (not_isResponse_of_isAck isAck)
      · obtain rfl := List.mem_singleton.mp new
        exact ⟨packets, packet, [], rfl, isAck, rfl, fun _ inNil => nomatch inNil⟩
    · split at member
      · split at member
        · rename_i bytes answer
          obtain ⟨old, differs⟩ := Ledger.mem_answer_of_none member unanswered
          exact older old fun _ same => absurd same.symm differs
        · rename_i stop failed
          exact older member fun _ _ bytes answer => nomatch failed.symm.trans answer
      · rename_i notResponse
        exact older member fun response => absurd response notResponse

/-- Every ACK is followed by a RESPONSE of its server. -/
def Answered (packets : List Packet) : Prop :=
  ∀ before ack after, packets = before ++ ack :: after → IsAck ack →
    ∃ response ∈ after, IsResponse response ∧ response.sender = ack.sender ∧
      ∃ bytes, answerBytes call response = .ok bytes

variable {call} in
theorem Answered.complete {packets : List Packet} (answered : Answered call packets) :
    (ledgerOf call packets).Complete := by
  intro entry member
  cases answer : entry.2 with
  | some bytes => rfl
  | none =>
    obtain ⟨before, ack, after, split, isAck, sender, silent⟩ :=
      exists_ack_of_unanswered call member answer
    obtain ⟨response, later, isResponse, sameSender, bytes, hasBytes⟩ :=
      answered before ack after split isAck
    exact absurd hasBytes (silent response later isResponse (sameSender.trans sender) bytes)

end Ledger

/-! ## The table represents the ledger -/

def Holds (bytes : List UInt8) (result : RPCResult) : Prop := bytes <+: result.content

/-- The table of five slots represents the ledger of the packets. -/
structure Mirrors (call : ClientCall) (packets : List Packet) (rpcResult : ResultTable) : Prop where
  represents : Represents RPCResult.serverSid sidAny Holds (ledgerOf call packets) rpcResult.cells
  size : rpcResult.cells.length = 5

section Mirrors

variable {call : ClientCall} {packets : List Packet} {rpcResult : ResultTable}

theorem mirrors_empty : Mirrors call [] .empty := by
  refine ⟨represents_nil fun result member => ?_, rfl⟩
  rw [List.eq_of_mem_replicate member]
  rfl

theorem Mirrors.insertIndex_eq (mirrors : Mirrors call packets rpcResult) (orderly : Orderly packets) :
    rpcClientResultGetInsertIndex rpcResult = (ackSenders packets).length := by
  rw [ClientTable.insertIndex_eq, mirrors.represents.freeIdx_eq, length_ledgerOf]
  rw [keys_ledgerOf]
  exact fun any => (orderly.proper _ any).1 rfl

theorem Mirrors.broadcast_not_mem (mirrors : Mirrors call packets rpcResult)
    (orderly : Orderly packets) : sidBroadcast ∉ sids rpcResult := by
  obtain ⟨free, keys, blanks⟩ := mirrors.represents.map_key
  rw [sids, keys, keys_ledgerOf, List.mem_append, not_or]
  refine ⟨fun held => (orderly.proper _ held).2 rfl, fun held => ?_⟩
  exact sidBroadcast_ne_sidAny (blanks _ held)

theorem Mirrors.react (all : call.sid = sidBroadcast) (mirrors : Mirrors call packets rpcResult)
    {packet : Packet} (orderly : Orderly (packets ++ [packet])) {reaction : Reaction}
    (reacted : reactToPacket call packet rpcResult = .ok reaction) :
    Mirrors call (packets ++ [packet]) (reactionTable rpcResult reaction) := by
  have before := orderly.of_snoc
  have keys := keys_ledgerOf call packets
  have proper : sidAny ∉ (ledgerOf call packets).keys := by
    rw [keys]
    exact fun any => (before.proper _ any).1 rfl
  obtain ⟨represents, size⟩ := mirrors
  obtain ⟨ack, rfl⟩ | ⟨response, reacted⟩ | ⟨notAck, notResponse, rfl⟩ := react_cases reacted
  · -- There is a free slot for the sender, and the first free one is the next of the ledger.
    have few := orderly.few
    rw [ackSenders_snoc, if_pos ack, List.length_append, List.length_singleton] at few
    have room : (ledgerOf call packets).length < rpcResult.cells.length := by
      rw [length_ledgerOf, size]
      omega
    have absent := Mirrors.broadcast_not_mem ⟨represents, size⟩ before
    have inside : freeIdx RPCResult.serverSid sidAny rpcResult.cells < rpcResult.cells.length := by
      rw [represents.freeIdx_eq proper]
      exact room
    have claimed := represents.claim proper room (fun result => result.setServerSid packet.sender)
      (fun _ => rfl)
    simp only [reactionTable, reactToAck_all all, if_neg absent, Block.update_of_lt inside]
    refine ⟨?_, by simpa using size⟩
    rw [ledgerOf_snoc, record, if_pos ack]
    exact claimed
  · have notAck : ¬ IsAck packet := fun ack => not_isResponse_of_isAck ack response
    obtain ⟨absent, rfl⟩ | ⟨position, old, new, bytes, found, at', answer, sameSid, holds, rfl⟩ :=
      response_all_cases all reacted
    · have notKey : packet.sender ∉ (ledgerOf call packets).keys := by
        obtain ⟨free, split, _⟩ := represents.map_key
        have notHeld := (keyIdx?_eq_none_iff RPCResult.serverSid rpcResult.cells _).mp absent
        rw [split, List.mem_append, not_or] at notHeld
        exact notHeld.1
      refine ⟨?_, size⟩
      rw [ledgerOf_snoc, record, if_neg notAck, if_pos response]
      split
      · rw [Ledger.answer_of_not_mem notKey]
        exact represents
      · exact represents
    · have distinct : (ledgerOf call packets).keys.Nodup := keys ▸ before.distinct
      obtain ⟨cell, atCell, isSender⟩ := keyIdx?_eq_some found
      have sender : new.serverSid = packet.sender := by
        cases at'.symm.trans atCell
        exact sameSid.trans isSender
      refine ⟨?_, by simpa [reactionTable] using size⟩
      rw [ledgerOf_snoc, record, if_neg notAck, if_pos response, answer]
      exact represents.answer distinct found sender holds
  · refine ⟨?_, size⟩
    rw [ledgerOf_snoc, record, if_neg notAck, if_neg notResponse]
    exact represents

theorem Mirrors.tableStep (all : call.sid = sidBroadcast) (mirrors : Mirrors call packets rpcResult)
    {event : Option Packet} (orderly : Orderly (packets ++ event.toList)) {next : ResultTable}
    (step : TableStep call rpcResult event next) :
    Mirrors call (packets ++ event.toList) next := by
  cases event with
  | none =>
    obtain rfl : next = rpcResult := step
    rwa [Option.toList_none, List.append_nil]
  | some packet =>
    obtain ⟨reaction, reacted, rfl⟩ := step
    exact mirrors.react all orderly reacted

end Mirrors

end ServalRpc.Verified.AnswerLedger
