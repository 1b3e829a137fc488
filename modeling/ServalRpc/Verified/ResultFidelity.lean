import ServalRpc.Verified.Addressee
import ServalRpc.Verified.Delivery
import ServalRpc.Verified.PlainAnswers

/-! # A result that is a string

The server sends the whole result packet over MDP and MSP, and all of it but the last byte over
Rhizome.  The last byte is the terminator of the longest string that fits.
-/

namespace ServalRpc.Verified.ResultFidelity

open CLib ListenerSteps PlainAnswers

/-- `result_payload` with a string. -/
def resultPayload (text : CString) : List UInt8 :=
  rpcPktCallResponse :: (text.bytes ++ List.replicate (rpcPktSize - 1 - text.length) 0)

/-- The content of the slot is this string. -/
def Stored (text : CString) (position : Nat) (rpcResult : ResultTable) : Prop :=
  ∃ result, rpcResult.cells[position]? = some result ∧ CString.read result.content = .ok text

/-- The string that is scanned ends inside the received bytes, and the slot holds it afterwards. -/
def Faithful (text : CString) (received : List UInt8) (position : Nat)
    (after : Except ClientStop ResultTable) : Prop :=
  0 ∈ received.drop 1 ∧ ∃ rpcResult, after = .ok rpcResult ∧ Stored text position rpcResult

/-! ## Result packets -/

section Packet

variable {text : CString}

/-- The packet is a string and its terminator, when there is room for one. -/
theorem resultPayload_split {count : Nat} (room : text.length + 2 ≤ count) (inside : count ≤ rpcPktSize) :
    (resultPayload text).take count =
      rpcPktCallResponse :: (text.bytes ++ 0 :: List.replicate (count - 2 - text.length) 0) := by
  obtain ⟨rest, rfl⟩ := Nat.exists_eq_add_of_le room
  have zeros : rest + 1 ≤ rpcPktSize - 1 - text.length := by omega
  have first : text.length + 2 + rest = (text.bytes.length + (rest + 1)) + 1 := by
    simp only [CString.length]
    omega
  have left : text.length + 2 + rest - 2 - text.length = rest := by omega
  rw [resultPayload, first, List.take_succ_cons, List.take_length_add_append, List.take_replicate,
    Nat.min_eq_left zeros, ← first, left, List.replicate_succ]

theorem resultPayload_length (short : text.length ≤ rpcPktSize - 1) :
    (resultPayload text).length = rpcPktSize := by
  have positive : 0 < rpcPktSize := by decide
  simp only [resultPayload, List.length_cons, List.length_append, List.length_replicate]
  simp only [CString.length] at short ⊢
  omega

/-- As much of the packet as has the terminator in it is an answer. -/
theorem resultPayload_answer (plain : rpcStrIsFilehash text = false) {count : Nat}
    (room : text.length + 2 ≤ count) (inside : count ≤ rpcPktSize) :
    PlainAnswer ((resultPayload text).take count) text := by
  have split := resultPayload_split room inside
  refine ⟨?_, ?_, plain, ?_⟩
  · rw [split, List.head?_cons]
  · rw [split, List.drop_one, List.tail_cons]
    exact CString.read_terminated text _
  · rw [List.length_take]
    exact Nat.le_trans (Nat.min_le_left _ _) inside

theorem resultPayload_whole (plain : rpcStrIsFilehash text = false)
    (short : text.length ≤ rpcPktSize - 2) : PlainAnswer (resultPayload text) text := by
  have positive : 2 ≤ rpcPktSize := by decide
  have answer := resultPayload_answer plain (show text.length + 2 ≤ rpcPktSize by omega) (Nat.le_refl _)
  rwa [List.take_of_length_le (Nat.le_of_eq (resultPayload_length (by omega)))] at answer

/-- A string that leaves no room for its terminator is not terminated. -/
theorem resultPayload_unterminated (full : text.length + 2 = rpcPktSize) :
    (resultPayload text).take (rpcPktSize - 1) = rpcPktCallResponse :: text.bytes := by
  have first : rpcPktSize - 1 = text.bytes.length + 1 := by
    simp only [CString.length] at full
    omega
  rw [resultPayload, first, List.take_succ_cons, List.take_left']
  rfl

end Packet

/-! ## Storing an answer -/

section Answer

variable {text : CString} {bytes : List UInt8} {position : Nat}

theorem stored_of_overwritten {sender : Sid} {old new : RPCResult} (answer : PlainAnswer bytes text)
    (overwritten : Overwritten sender (bytes.drop 1) old new) {cells : List RPCResult}
    (inside : position < cells.length) (stray : List Nat) :
    Stored text position ⟨cells.set position new, stray⟩ := by
  refine ⟨new, List.getElem?_set_self inside, ?_⟩
  rw [overwritten.content]
  exact CString.read_append answer.body _

theorem faithful_of_react {call : ClientCall} {packet : Packet} {rpcResult : ResultTable}
    (answer : PlainAnswer bytes text) (received : Receives packet bytes)
    (selected : selectedSlot call packet.sender rpcResult = some position)
    (inside : position < rpcResult.cells.length) :
    Faithful text bytes position
      ((reactToPacket call packet rpcResult).map (reactionTable rpcResult)) := by
  refine ⟨answer.terminated, ?_⟩
  obtain ⟨new, overwritten, reacted⟩ := react_selected answer received selected
    (List.getElem?_eq_getElem inside)
  rw [reacted]
  exact ⟨_, rfl, stored_of_overwritten answer overwritten inside _⟩

end Answer

/-- The bundle of a result, whoever gets it. -/
def resultBody (serval : Serval) (insertion : Insertion) (caller : Sid) (rpcName : CString)
    (payload : List UInt8) : List UInt8 :=
  (rpcServerRhizomeSendResult serval insertion caller rpcName payload).2.content

theorem resultBody_eq {payload : List UInt8} (size : payload.length = rpcPktSize) (serval : Serval)
    (insertion : Insertion) (caller : Sid) (rpcName : CString) :
    resultBody serval insertion caller rpcName payload = payload.take (rpcPktSize - 1) := by
  have inside : rpcPktSize - 1 ≤ payload.length := by
    rw [size]
    exact Nat.sub_le _ _
  have content := overread_of_le insertion.behind inside
  simpa only [resultBody, rpcServerRhizomeSendResult] using content

/-- A string of a result packet reaches its slot over MDP and over MSP; over Rhizome it does exactly
when it is shorter than the longest one. -/
theorem simple_result_fidelity_iff (call : ClientCall) (text : CString)
    (short : text.length ≤ rpcPktSize - 2) (plain : rpcStrIsFilehash text = false) :
    (∀ (state : MdpState) (datagram : Datagram) (position : Nat),
      datagram.bytes = resultPayload text → state.rpcResult.cells.length = 5 →
      selectedSlot call datagram.sender state.rpcResult = some position →
        Faithful text datagram.bytes position
          ((rpcClientCallMdpRound call state (.received datagram.packet)).map MdpState.rpcResult)) ∧
    (∀ (memory : ClientMemory) (delivery : ClientDelivery),
      delivery.payload = some (resultPayload text) → memory.rpcResult.cells.length = 5 →
        Faithful text (resultPayload text) 0
          ((rpcClientMspHandler call memory delivery).map fun handled => handled.2.rpcResult)) ∧
    ∀ (server : Serval) (insertion : Insertion) (caller : Sid) (rpcName : CString)
      (state : RhizomeState) (row : Row) (input : RowInput) (sender : CString) (body : List UInt8)
      (position : Nat),
      body = resultBody server insertion caller rpcName (resultPayload text) →
      row.filesize = body.length → state.rpcResult.cells.length = 5 →
      selectedSlot call (rowPacket call row input sender body).sender state.rpcResult =
        some position →
        (Faithful text body position ((rpcClientRhizomeListenRound call state
            (.received (rowPacket call row input sender body))).map RhizomeState.rpcResult) ↔
          text.length ≤ rpcPktSize - 3) := by
  have size : (resultPayload text).length = rpcPktSize := resultPayload_length (by omega)
  have whole := resultPayload_whole plain short
  have header : 3 ≤ rpcPktSize := by decide
  refine ⟨?_, ?_, ?_⟩
  · intro state datagram position isResult five selected
    rw [mdpRound_table]
    rw [← isResult] at whole
    exact faithful_of_react whole (receives_datagram datagram) selected (selectedSlot_lt five selected)
  · intro memory delivery delivered five
    have inside : 0 < memory.rpcResult.cells.length := by omega
    obtain ⟨new, overwritten, handled⟩ := @mspHandler_plain call memory delivery _ _ _ whole delivered
      (List.getElem?_eq_getElem inside)
    rw [handled]
    exact ⟨whole.terminated, _, rfl,
      stored_of_overwritten whole overwritten inside _⟩
  · intro server insertion caller rpcName state row input sender body position isBody listed five
      selected
    rw [resultBody_eq size] at isBody
    have length : body.length = rpcPktSize - 1 := by
      rw [isBody, List.length_take, size]
      exact Nat.min_eq_left (Nat.sub_le _ _)
    have received : Receives (rowPacket call row input sender body) body :=
      receives_row listed (by rw [length]; decide)
    rw [listenRound_table]
    constructor
    · rintro ⟨terminated, _⟩
      -- The longest string fills the bundle up to its end.
      by_contra long
      have full : text.length + 2 = rpcPktSize := by omega
      rw [isBody, resultPayload_unterminated full] at terminated
      exact text.nulFree terminated
    · intro shorter
      have answer : PlainAnswer body text := by
        rw [isBody]
        exact resultPayload_answer plain (by omega) (Nat.sub_le _ _)
      exact faithful_of_react answer received selected (selectedSlot_lt five selected)

/-! ## A short and a long result -/

def resultDatagram (text : CString) (short : text.length ≤ rpcPktSize - 1) : Datagram where
  sender := ResultSlots.server 1
  bytes := resultPayload text
  size := Nat.le_of_eq (resultPayload_length short)
  behind _ := 0
  downloads := []
  pathRest _ := 0

def resultDelivery (text : CString) : ClientDelivery :=
  messageDelivery (ResultSlots.server 1) (resultPayload text)

/-- The bundle in which the server sends the result of `add`. -/
def resultBundle (text : CString) : List UInt8 :=
  resultBody (Serval.executable (ResultSlots.server 1)) (Delivery.insertionOf true) Download.caller
    CommandLine.addName (resultPayload text)

def resultInput (text : CString) : RowInput :=
  { LateAnswers.lateInput with body := some (resultBundle text) }

def resultPacket (text : CString) : Packet :=
  rowPacket (Addressee.callServer 1) LateAnswers.lateRow (resultInput text)
    (tohexSidT (ResultSlots.server 1)) (resultBundle text)

theorem lateRow_filesize : LateAnswers.lateRow.filesize = (rpcPktSize - 1 : Nat) := by
  have length : LateAnswers.latePublication.content.length = rpcPktSize - 1 := by
    rw [LateAnswers.latePublication_content, List.length_cons, List.length_append, List.length_cons,
      List.length_cons, List.length_nil, List.length_replicate]
    rfl
  rw [LateAnswers.lateRow_listed.filesize, length]
  exact valueint_of_lt (by decide)

theorem resultBundle_length {text : CString} (short : text.length ≤ rpcPktSize - 1) :
    (resultBundle text).length = rpcPktSize - 1 := by
  have size := resultPayload_length short
  rw [resultBundle, resultBody_eq size, List.length_take, size]
  exact Nat.min_eq_left (Nat.sub_le _ _)

theorem resultInput_received (text : CString) :
    rhizomeEvent (Addressee.callServer 1) LateAnswers.lateState.listener (.visit (resultInput text)) =
      .ok (.received (resultPacket text)) := by
  have interesting : interestingRow (Addressee.callServer 1) (resultInput text).now LateAnswers.lateRow =
      .ok true := LateAnswers.lateRow_interesting _
  simp only [rhizomeEvent, LateAnswers.lateState, interesting, LateAnswers.lateRow_sender]
  rfl

def shortText : CString := CString.ofChars ['3']

theorem simple_result_fidelity_short :
    Faithful shortText (resultPayload shortText) 0 ((rpcClientCallMdpRound (Addressee.callServer 1)
      (.entry 0) (.received (resultDatagram shortText (by decide)).packet)).map
        MdpState.rpcResult) ∧
    Faithful shortText (resultPayload shortText) 0 ((rpcClientMspHandler (Addressee.callServer 1) .initial
      (resultDelivery shortText)).map fun handled => handled.2.rpcResult) ∧
    Faithful shortText (resultBundle shortText) 0 ((rpcClientRhizomeListenRound (Addressee.callServer 1)
      LateAnswers.lateState.listener (.received (resultPacket shortText))).map
        RhizomeState.rpcResult) := by
  obtain ⟨mdp, msp, rhizome⟩ := simple_result_fidelity_iff (Addressee.callServer 1) shortText (by decide)
    (by decide)
  have listed : LateAnswers.lateRow.filesize = (resultBundle shortText).length := by
    rw [lateRow_filesize, resultBundle_length (by decide)]
  refine ⟨?_, msp .initial (resultDelivery shortText) rfl rfl, ?_⟩
  · exact mdp (.entry 0) (resultDatagram shortText (by decide)) 0 rfl rfl rfl
  · exact (rhizome _ _ _ _ LateAnswers.lateState.listener LateAnswers.lateRow (resultInput shortText) _ _
      0 rfl listed rfl rfl).mpr (by decide)

/-- The longest result. -/
def fullText : CString := CString.ofLetter (rpcPktSize - 2) 97 CString.letter_visible

theorem fullText_length : fullText.length = rpcPktSize - 2 := CString.length_ofLetter _ _

/-- Over Rhizome the longest result comes without its terminator, and the client reads on behind it. -/
theorem longest_result_unterminated :
    fullText.length = rpcPktSize - 2 ∧ rpcStrIsFilehash fullText = false ∧
    rhizomeEvent (Addressee.callServer 1) LateAnswers.lateState.listener (.visit (resultInput fullText)) =
      .ok (.received (resultPacket fullText)) ∧
    ¬ Faithful fullText (resultBundle fullText) 0 ((rpcClientRhizomeListenRound (Addressee.callServer 1)
      LateAnswers.lateState.listener (.received (resultPacket fullText))).map
        RhizomeState.rpcResult) := by
  have full : fullText.length + 2 = rpcPktSize := by
    rw [fullText_length]
    rfl
  have size : (resultPayload fullText).length = rpcPktSize := resultPayload_length (by omega)
  refine ⟨fullText_length, ?_, resultInput_received fullText, ?_⟩
  · rw [rpcStrIsFilehash, fullText_length]
    rfl
  · rintro ⟨terminated, _⟩
    rw [resultBundle, resultBody_eq size, resultPayload_unterminated full] at terminated
    exact fullText.nulFree terminated

end ServalRpc.Verified.ResultFidelity
