import ServalRpc.Model.ClientCalls
import ServalRpc.Verified.ListenerRounds
import ServalRpc.Verified.MspSteps

/-! # Answers that are strings

A RESPONSE carries a string, or the filehash of a file.  A string that is no filehash is stored as it
was received, terminator included, in the slot that the call selects for its sender.
-/

namespace ServalRpc.Verified.PlainAnswers

open CLib ListenerSteps ClientTable ListenerRounds MspSteps

/-- The received bytes are a RESPONSE with a string that is no filehash. -/
structure PlainAnswer (bytes : List UInt8) (text : CString) : Prop where
  type : bytes.head? = some rpcPktCallResponse
  body : CString.read (bytes.drop 1) = .ok text
  plain : rpcStrIsFilehash text = false
  fits : bytes.length ≤ rpcPktSize

/-- The array of the packet starts with the received bytes, and may go on behind them. -/
structure Receives (packet : Packet) (bytes : List UInt8) : Prop where
  array : bytes <+: packet.recvPayload
  len : packet.len = bytes.length

theorem receives_datagram (datagram : Datagram) : Receives datagram.packet datagram.bytes := by
  have array := prefix_overread datagram.behind datagram.size
  constructor
  · simpa only [Datagram.packet] using array
  · rfl

theorem receives_row {call : ClientCall} {row : Row} {input : RowInput} {sender : CString}
    {body : List UInt8} (listed : row.filesize = body.length) (small : body.length < 2 ^ 64) :
    Receives (rowPacket call row input sender body) body := by
  have size : sizeOfInt row.filesize = body.length := by rw [listed, sizeOfInt_natCast small]
  have array : (rowPacket call row input sender body).recvPayload = body := by
    rw [rowPacket, size, overread_self]
  refine ⟨?_, size⟩
  simp only [array, List.prefix_rfl]

section Answer

variable {call : ClientCall} {packet : Packet} {bytes : List UInt8} {text : CString}

theorem PlainAnswer.load_type (answer : PlainAnswer bytes text) :
    load bytes 0 = .ok rpcPktCallResponse :=
  load_of_head? answer.type

theorem PlainAnswer.terminated (answer : PlainAnswer bytes text) : 0 ∈ bytes.drop 1 :=
  (CString.mem_of_read answer.body).1

theorem nonempty_of_terminated (terminated : 0 ∈ bytes.drop 1) : 1 ≤ bytes.length := by
  cases bytes with
  | nil => cases terminated
  | cons first rest => exact Nat.succ_pos _

/-- The copy takes everything behind the type. -/
theorem copied_of_terminated (terminated : 0 ∈ bytes.drop 1) :
    loadRange bytes 1 (sizeSub bytes.length 1) = .ok (bytes.drop 1) := by
  have nonempty := nonempty_of_terminated terminated
  rw [sizeSub_of_le nonempty, loadRange_of_le (by omega), List.take_of_length_le (by simp)]

theorem PlainAnswer.room (answer : PlainAnswer bytes text) : (bytes.drop 1).length ≤ rpcPktSize := by
  rw [List.length_drop]
  exact Nat.le_trans (Nat.sub_le _ _) answer.fits

theorem PlainAnswer.isResponse (answer : PlainAnswer bytes text) (received : Receives packet bytes) :
    IsResponse packet := by
  obtain ⟨behind, array⟩ := received.array
  rw [IsResponse, ← array]
  exact load_append answer.load_type behind

theorem PlainAnswer.answerBytes_eq (answer : PlainAnswer bytes text)
    (received : Receives packet bytes) : answerBytes call packet = .ok (bytes.drop 1) := by
  obtain ⟨behind, array⟩ := received.array
  have body : CString.read (packet.recvPayload.drop 1) = .ok text := by
    rw [← array, List.drop_append_of_le_length (nonempty_of_terminated answer.terminated)]
    exact CString.read_append answer.body behind
  have copied : loadRange packet.recvPayload 1 (sizeSub packet.len 1) = .ok (bytes.drop 1) := by
    rw [← array, received.len]
    exact loadRange_append (copied_of_terminated answer.terminated) behind
  simp only [answerBytes, body, answer.plain, copied, Except.mapError, ok_bind, Bool.false_eq_true,
    if_false]

end Answer

/-! ## The slot of an answer -/

/-- The slot that a RESPONSE of this sender goes to. -/
def selectedSlot (call : ClientCall) (sender : Sid) (rpcResult : ResultTable) : Option Nat :=
  if isSidTBroadcast call.sid then rpcClientResultGetSidIndex rpcResult sender else some 0

theorem selectedSlot_all {call : ClientCall} (all : call.sid = sidBroadcast) (sender : Sid)
    (rpcResult : ResultTable) :
    selectedSlot call sender rpcResult = keyIdx? RPCResult.serverSid rpcResult.cells sender :=
  if_pos ((isSidTBroadcast_iff _).mpr all)

theorem selectedSlot_direct {call : ClientCall} (direct : call.sid ≠ sidBroadcast) (sender : Sid)
    (rpcResult : ResultTable) : selectedSlot call sender rpcResult = some 0 :=
  if_neg (by rw [isSidTBroadcast_iff]; exact direct)

/-- The selected slot is one of the table. -/
theorem selectedSlot_lt {call : ClientCall} {sender : Sid} {rpcResult : ResultTable} {position : Nat}
    (size : rpcResult.cells.length = 5)
    (selected : selectedSlot call sender rpcResult = some position) :
    position < rpcResult.cells.length := by
  by_cases all : call.sid = sidBroadcast
  · rw [selectedSlot_all all] at selected
    obtain ⟨cell, at', _⟩ := keyIdx?_eq_some selected
    exact (List.getElem?_eq_some_iff.mp at').1
  · rw [selectedSlot_direct all] at selected
    cases selected
    omega

/-- A slot whose content starts with these bytes and goes on as before. -/
structure Overwritten (sender : Sid) (bytes : List UInt8) (old new : RPCResult) : Prop where
  serverSid : new.serverSid = sender
  content : new.content = bytes ++ old.content.drop bytes.length

theorem copyContent_exact (result : RPCResult) {bytes : List UInt8}
    (fits : bytes.length ≤ rpcPktSize) :
    ∃ next, result.copyContent bytes = .ok next ∧
      Overwritten result.serverSid bytes result next := by
  have stored : storeRange result.content 0 bytes =
      .ok (bytes ++ result.content.drop bytes.length) := by
    have room : 0 + bytes.length ≤ result.content.length := by rw [result.size]; omega
    rw [storeRange, if_pos room]
    simp
  obtain ⟨next, copied⟩ := copyContent_of_fits result fits
  refine ⟨next, copied, ?_⟩
  unfold RPCResult.copyContent at copied
  split at copied
  · rename_i content stored'
    cases stored.symm.trans stored'
    cases copied
    exact ⟨rfl, rfl⟩
  · cases copied

theorem storeAnswer_exact {rpcResult : ResultTable} {position : Nat} {old : RPCResult}
    (at' : rpcResult.cells[position]? = some old) {bytes : List UInt8}
    (fits : bytes.length ≤ rpcPktSize) :
    ∃ new, Overwritten old.serverSid bytes old new ∧
      storeAnswer rpcResult position bytes =
        .ok ⟨rpcResult.cells.set position new, rpcResult.stray⟩ := by
  obtain ⟨inside, same⟩ := List.getElem?_eq_some_iff.mp at'
  obtain ⟨new, copied, overwritten⟩ := copyContent_exact old fits
  refine ⟨new, overwritten, ?_⟩
  rw [storeAnswer, load_of_lt inside, same]
  simp only [Except.mapError, ok_bind, copied, Block.store_of_lt inside]
  rfl

section React

variable {call : ClientCall} {packet : Packet} {bytes : List UInt8} {text : CString}
  {rpcResult : ResultTable}

/-- A string goes to the selected slot and nowhere else. -/
theorem react_selected (answer : PlainAnswer bytes text) (received : Receives packet bytes)
    {position : Nat} {old : RPCResult}
    (selected : selectedSlot call packet.sender rpcResult = some position)
    (at' : rpcResult.cells[position]? = some old) :
    ∃ new, Overwritten packet.sender (bytes.drop 1) old new ∧
      reactToPacket call packet rpcResult =
        .ok (.answered ⟨rpcResult.cells.set position new, rpcResult.stray⟩
          (!isSidTBroadcast call.sid || position == 4)) := by
  obtain ⟨new, overwritten, stored⟩ := storeAnswer_exact at' answer.room
  rw [reactToPacket_of_isResponse (answer.isResponse received), reactToResponse]
  by_cases all : call.sid = sidBroadcast
  · have broadcast := (isSidTBroadcast_iff _).mpr all
    rw [selectedSlot_all all, ← sidIndex_eq] at selected
    rw [if_pos broadcast, selected]
    simp only [answer.answerBytes_eq received, stored, ok_bind, broadcast]
    refine ⟨new, ⟨?_, overwritten.content⟩, rfl⟩
    obtain ⟨cell, atCell, isSender⟩ := keyIdx?_eq_some ((sidIndex_eq _ _).symm.trans selected)
    cases at'.symm.trans atCell
    exact overwritten.serverSid.trans isSender
  · have direct := isSidTBroadcast_of_direct all
    rw [selectedSlot_direct all] at selected
    cases selected
    rw [direct, if_neg Bool.false_ne_true, answer.answerBytes_eq received, ok_bind, stored, ok_bind]
    refine ⟨new.setServerSid packet.sender, ⟨rfl, overwritten.content⟩, ?_⟩
    rw [Block.update_set (List.getElem?_eq_some_iff.mp at').1]
    rfl

theorem ignored_of_unselected
    (unselected : selectedSlot call packet.sender rpcResult = none) :
    reactToResponse call packet rpcResult = .ok .ignored := by
  rw [reactToResponse]
  by_cases all : call.sid = sidBroadcast
  · rw [selectedSlot_all all, ← sidIndex_eq] at unselected
    rw [if_pos ((isSidTBroadcast_iff _).mpr all), unselected]
    rfl
  · rw [selectedSlot_direct all] at unselected
    cases unselected

end React

/-- Over MSP a string goes to the first slot. -/
theorem mspHandler_plain {call : ClientCall} {memory : ClientMemory} {delivery : ClientDelivery}
    {bytes : List UInt8} {text : CString} {old : RPCResult} (answer : PlainAnswer bytes text)
    (delivered : delivery.payload = some bytes) (at' : memory.rpcResult.cells[0]? = some old) :
    ∃ new, Overwritten delivery.remote (bytes.drop 1) old new ∧
      rpcClientMspHandler call memory delivery =
        .ok (delivery.len, ⟨2, ⟨memory.rpcResult.cells.set 0 new, memory.rpcResult.stray⟩⟩) := by
  have len := delivery.complete bytes delivered
  have copied : mspAnswerBytes call delivery bytes = .ok (bytes.drop 1) := by
    simp only [mspAnswerBytes, answer.body, answer.plain, ← len,
      copied_of_terminated answer.terminated, Except.mapError, ok_bind, Bool.false_eq_true, if_false]
  obtain ⟨new, overwritten, stored⟩ := storeAnswer_exact at' answer.room
  refine ⟨new.setServerSid delivery.remote, ⟨rfl, overwritten.content⟩, ?_⟩
  rw [mspHandler_response delivered answer.load_type, copied, ok_bind, stored, ok_bind,
    Block.update_set (List.getElem?_eq_some_iff.mp at').1]

/-- A message on an open connection. -/
def messageDelivery (sender : Sid) (payload : List UInt8) : ClientDelivery where
  closed := false
  shutdownRemote := false
  payload := some payload
  len := payload.length
  complete _ same := by rw [← Option.some.inj same]
  remote := sender
  downloads := []
  pathRest _ := 0

/-- The answer `3` of a server. -/
def plainDatagram (sender : Sid) : Datagram where
  sender := sender
  bytes := [rpcPktCallResponse, 51, 0]
  size := by decide
  behind _ := 0
  downloads := []
  pathRest _ := 0

theorem plainDatagram_answer (sender : Sid) :
    ∃ text, PlainAnswer (plainDatagram sender).bytes text :=
  ⟨_, rfl, rfl, rfl, (plainDatagram sender).size⟩

end ServalRpc.Verified.PlainAnswers
