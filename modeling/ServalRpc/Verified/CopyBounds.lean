import ServalRpc.Verified.Addressee
import ServalRpc.Verified.PlainAnswers

/-! # What the client reads and copies

The client reads a packet out of a larger buffer, or copies it out of one, and takes its length from
the transport or from a listing.  Here the packet is cut down to the bytes that were received for it,
so that a read behind them and a copy behind the content of a slot are faults.
-/

namespace ServalRpc.Verified.CopyBounds

open CLib ListenerSteps ClientTable MspSteps PlainAnswers

/-- The client has left the received bytes or the content of a slot. -/
def LeavesBounds : ClientStop → Prop
  | .fault fault => OutOfBounds fault
  | .downloading => False

/-- The packet of these bytes, without the rest of the receive buffer. -/
def cutPacket (sender : Sid) (bytes : List UInt8) (downloads : List StoreWorld)
    (pathRest : Nat → UInt8) : Packet :=
  ⟨sender, bytes, bytes.length, downloads, pathRest⟩

/-! ## Downloads -/

theorem deref_fault {α : Type} {pointer : Option α} {fault : Fault}
    (failed : deref pointer = .error fault) : ¬ OutOfBounds fault := by
  cases pointer with
  | none =>
    cases failed
    decide
  | some value => cases failed

theorem avoids_deref {α : Type} (pointer : Option α) : Avoids OutOfBounds (deref pointer) :=
  fun _ failed => deref_fault failed

section Download

variable (serval : Serval) (rpcName sid : CString)

theorem avoids_wantedFile (row : Row) : Avoids OutOfBounds (wantedFile serval rpcName sid row) := by
  unfold wantedFile
  refine avoids_bind_iff.mpr ⟨avoids_deref _, fun service _ => ?_⟩
  refine avoids_bind_iff.mpr ⟨avoids_deref _, fun name _ => ?_⟩
  cases row.sender with
  | none => exact avoids_ok _
  | some sender =>
    dsimp only
    split
    · exact avoids_ok _
    · exact avoids_ok _

theorem avoids_downloadLoop (store : StoreWorld) (rows : List Row) :
    Avoids OutOfBounds (downloadLoop serval store rpcName sid rows) := by
  induction rows with
  | nil => exact avoids_ok _
  | cons row rows inductionHypothesis =>
    refine avoids_bind_iff.mpr ⟨avoids_wantedFile serval rpcName sid row, fun wanted _ => ?_⟩
    cases wanted with
    | none => exact inductionHypothesis
    | some sender =>
      dsimp only
      cases store.decrypted row.id with
      | none => exact avoids_ok _
      | some bytes => exact avoids_ok _

theorem avoids_awaitDownload (stores : List StoreWorld) :
    Avoids OutOfBounds (awaitDownload serval rpcName sid stores) := by
  induction stores with
  | nil => exact avoids_ok _
  | cons store stores inductionHypothesis =>
    have downloading : Avoids OutOfBounds (rpcDownloadFile serval store rpcName sid) := by
      unfold rpcDownloadFile
      cases store.listing with
      | none => exact avoids_ok _
      | some rows =>
        dsimp only
        split
        · exact avoids_ok _
        · exact avoids_downloadLoop serval rpcName sid store rows
    refine avoids_bind_iff.mpr ⟨downloading, fun download _ => ?_⟩
    split
    · exact avoids_ok _
    · exact inductionHypothesis

/-- A row that a download for this sid takes. -/
def hashRow : Row where
  token := none
  service := some serviceRpc
  id := CString.ofChars []
  version := 0
  inserttime := 0
  filesize := 0
  filehash := CString.ofChars []
  sender := some sid
  recipient := none
  name := some (CString.ofChars ['f', '_'] ++ rpcName)

/-- Whatever is called, some store has its file. -/
theorem exists_download : ∃ stores fpath,
    awaitDownload serval rpcName sid stores = .ok (some fpath) := by
  have same (text : CString) : CString.strncmpEq text text text.length = true :=
    (CString.strncmpEq_length_iff text text).mpr List.prefix_rfl
  have wanted : wantedFile serval rpcName sid (hashRow rpcName sid) = .ok (some sid) := by
    simp only [wantedFile, hashRow, deref_some, ok_bind, same, Bool.or_true, forNobodyOrMe,
      Bool.and_true, serviceIsRpc, if_true]
    rfl
  refine ⟨[⟨some [hashRow rpcName sid], fun _ => some []⟩], ?_⟩
  simp only [awaitDownload, rpcDownloadFile, downloadLoop, wanted, List.length_singleton,
    Nat.one_ne_zero, if_false, ok_bind]
  exact ⟨_, rfl⟩

end Download

/-! ## Copies -/

theorem avoids_mapError {α : Type} {read : Except Fault α} :
    Avoids LeavesBounds (read.mapError .fault) ↔ Avoids OutOfBounds read := by
  cases read with
  | error fault => simp [Except.mapError, avoids_error_iff, LeavesBounds]
  | ok value => simp [Except.mapError, avoids_ok]

theorem avoids_read_iff (memory : List UInt8) :
    Avoids OutOfBounds (CString.read memory) ↔ 0 ∈ memory := by
  by_cases terminated : 0 ∈ memory
  · simp [CString.read_of_mem terminated, avoids_ok, terminated]
  · rw [CString.read_of_not_mem terminated, avoids_error_iff]
    simp [terminated, OutOfBounds]

theorem avoids_storeAnswer_iff {rpcResult : ResultTable} {position : Nat} {old : RPCResult}
    (at' : rpcResult.cells[position]? = some old) (bytes : List UInt8) :
    Avoids LeavesBounds (storeAnswer rpcResult position bytes) ↔ bytes.length ≤ rpcPktSize := by
  by_cases fits : bytes.length ≤ rpcPktSize
  · obtain ⟨new, _, stored⟩ := storeAnswer_exact at' fits
    simp [stored, avoids_ok, fits]
  · have failed : old.copyContent bytes = .error .writeOutOfBounds := by
      have stored : storeRange old.content 0 bytes = .error .writeOutOfBounds :=
        if_neg (by rw [old.size]; omega)
      unfold RPCResult.copyContent
      split
      · rename_i content stored'
        cases stored.symm.trans stored'
      · rename_i fault stored'
        cases stored.symm.trans stored'
        rfl
    obtain ⟨inside, same⟩ := List.getElem?_eq_some_iff.mp at'
    have left : storeAnswer rpcResult position bytes = .error (.fault .writeOutOfBounds) := by
      rw [storeAnswer, load_of_lt inside, same]
      simp only [Except.mapError, ok_bind, failed]
      rfl
    rw [left, avoids_error_iff]
    simp [fits, LeavesBounds, OutOfBounds]

/-- How a listener and the MSP handler get the bytes that they store; `sid` is that of the
download. -/
def fetchAnswer (call : ClientCall) (sid : CString) (packet : Packet) :
    Except ClientStop (List UInt8) := do
  let body ← (CString.read (packet.recvPayload.drop 1)).mapError .fault
  if rpcStrIsFilehash body then
    match ← (awaitDownload call.serval call.rpcName sid packet.downloads).mapError .fault with
    | none => throw .downloading
    | some fpath =>
      pure (overread fpath.terminated packet.pathRest (128 + call.rpcName.length + 3))
  else (loadRange packet.recvPayload 1 (sizeSub packet.len 1)).mapError .fault

theorem answerBytes_eq (call : ClientCall) (packet : Packet) :
    answerBytes call packet = fetchAnswer call (tohexSidT sidBroadcast) packet := rfl

theorem mspAnswerBytes_eq (call : ClientCall) (delivery : ClientDelivery) (payload : List UInt8) :
    mspAnswerBytes call delivery payload = fetchAnswer call (tohexSidT call.sid)
      ⟨delivery.remote, payload, delivery.len, delivery.downloads, delivery.pathRest⟩ := rfl

/-- The string behind the type ends inside the packet, and what is stored fits a slot: the array with
the path of a file, or the packet without its type. -/
def CopyFits (call : ClientCall) (bytes : List UInt8) : Prop :=
  0 ∈ bytes.drop 1 ∧
    if rpcStrIsFilehash (CString.upToNul (bytes.drop 1)) then
      128 + call.rpcName.length + 3 ≤ rpcPktSize
    else bytes.length - 1 ≤ rpcPktSize

instance (call : ClientCall) (bytes : List UInt8) : Decidable (CopyFits call bytes) :=
  inferInstanceAs (Decidable (_ ∧ _))

theorem avoids_copy_iff (call : ClientCall) (sid : CString) (sender : Sid) (bytes : List UInt8)
    {rpcResult : ResultTable} {position : Nat} {old : RPCResult}
    (at' : rpcResult.cells[position]? = some old) :
    (∀ downloads pathRest, Avoids LeavesBounds (do
      let stored ← fetchAnswer call sid (cutPacket sender bytes downloads pathRest)
      storeAnswer rpcResult position stored)) ↔ CopyFits call bytes := by
  unfold CopyFits fetchAnswer
  simp only [cutPacket, avoids_bind_iff, avoids_mapError, avoids_read_iff, mapError_eq_ok_iff,
    avoids_storeAnswer_iff at']
  by_cases terminated : 0 ∈ bytes.drop 1
  · have body := CString.read_of_mem terminated
    simp only [terminated, body, true_and, Except.ok.injEq, forall_eq', Except.mapError, ok_bind]
    cases filehash : rpcStrIsFilehash (CString.upToNul (bytes.drop 1)) with
    | true =>
      simp only [if_true]
      constructor
      · intro avoids
        obtain ⟨stores, fpath, downloaded⟩ := exists_download call.serval call.rpcName sid
        have fits := (avoids stores fun _ => 0).2 _ (by rw [downloaded]; rfl)
        simpa [overread] using fits
      · intro fits downloads pathRest
        refine ⟨avoids_bind_iff.mpr ⟨avoids_mapError.mpr (avoids_awaitDownload _ _ _ _), ?_⟩, ?_⟩
        · intro fetched _
          cases fetched with
          | none => exact avoids_error_iff.mpr id
          | some fpath => exact avoids_ok _
        · intro stored fetching
          obtain ⟨fetched, _, fetching⟩ := bind_eq_ok_iff.mp fetching
          cases fetched with
          | none => cases fetching
          | some fpath =>
            cases fetching
            simpa [overread] using fits
    | false =>
      simp [copied_of_terminated terminated, avoids_ok]
  · simp only [terminated, false_and, iff_false]
    intro avoids
    exact avoids [] fun _ => 0

/-! ## Packets -/

section Packet

variable {call : ClientCall} {rpcResult : ResultTable}

theorem avoids_response_iff {packet : Packet} {position : Nat}
    (selected : selectedSlot call packet.sender rpcResult = some position) :
    Avoids LeavesBounds (reactToResponse call packet rpcResult) ↔
      Avoids LeavesBounds (do
        let stored ← fetchAnswer call (tohexSidT sidBroadcast) packet
        storeAnswer rpcResult position stored) := by
  have returns {α : Type} (value : α) : Avoids LeavesBounds (pure value) := avoids_ok value
  rw [reactToResponse]
  by_cases all : call.sid = sidBroadcast
  · rw [selectedSlot_all all, ← sidIndex_eq] at selected
    rw [if_pos ((isSidTBroadcast_iff _).mpr all), selected, ← answerBytes_eq]
    simp only [avoids_bind_iff, returns, implies_true, and_true]
  · rw [selectedSlot_direct all] at selected
    cases selected
    rw [ListenerRounds.isSidTBroadcast_of_direct all, if_neg Bool.false_ne_true, ← answerBytes_eq]
    simp only [avoids_bind_iff, returns, implies_true, and_true]

/-- There is a type to read, and a RESPONSE that is stored fits. -/
def Fits (call : ClientCall) (bytes : List UInt8) (selected : Option Nat) : Prop :=
  bytes ≠ [] ∧ (bytes.head? = some rpcPktCallResponse → selected ≠ none → CopyFits call bytes)

/-- A listener reads received bytes only, and copies what fits, exactly when the packet fits. -/
theorem avoids_react_iff (size : rpcResult.cells.length = 5) (sender : Sid) (bytes : List UInt8) :
    (∀ downloads pathRest, Avoids LeavesBounds
      (reactToPacket call (cutPacket sender bytes downloads pathRest) rpcResult)) ↔
        Fits call bytes (selectedSlot call sender rpcResult) := by
  cases bytes with
  | nil =>
    have left : ∀ downloads pathRest, reactToPacket call (cutPacket sender [] downloads pathRest)
        rpcResult = .error (.fault .readOutOfBounds) := fun _ _ => rfl
    simp [left, avoids_error_iff, LeavesBounds, OutOfBounds, Fits]
  | cons pktType rest =>
    have type (downloads : List StoreWorld) (pathRest : Nat → UInt8) :
        load (cutPacket sender (pktType :: rest) downloads pathRest).recvPayload 0 = .ok pktType := rfl
    by_cases response : pktType = rpcPktCallResponse
    · subst response
      have reacts (downloads : List StoreWorld) (pathRest : Nat → UInt8) :=
        reactToPacket_of_isResponse (type downloads pathRest) call rpcResult
      cases selected : selectedSlot call sender rpcResult with
      | none =>
        have ignored (downloads : List StoreWorld) (pathRest : Nat → UInt8) :=
          @ignored_of_unselected call (cutPacket sender (rpcPktCallResponse :: rest) downloads
            pathRest) rpcResult selected
        simp [reacts, ignored, avoids_ok, Fits]
      | some position =>
        have at' := List.getElem?_eq_getElem (selectedSlot_lt size selected)
        have copies := avoids_copy_iff call (tohexSidT sidBroadcast) sender
          (rpcPktCallResponse :: rest) at'
        have fits : Fits call (rpcPktCallResponse :: rest) (some position) ↔
            CopyFits call (rpcPktCallResponse :: rest) := by
          simp [Fits]
        rw [fits, ← copies]
        apply forall₂_congr
        intro downloads pathRest
        rw [reacts downloads pathRest]
        exact avoids_response_iff selected
    · have reacts (downloads : List StoreWorld) (pathRest : Nat → UInt8) : ∃ reaction,
          reactToPacket call (cutPacket sender (pktType :: rest) downloads pathRest) rpcResult =
            .ok reaction := by
        rw [reactToPacket, type downloads pathRest]
        simp only [Except.mapError, ok_bind, response, if_false]
        split
        · exact ⟨_, rfl⟩
        · exact ⟨_, rfl⟩
      refine iff_of_true (fun downloads pathRest => ?_) ?_
      · obtain ⟨reaction, reacted⟩ := reacts downloads pathRest
        rw [reacted]
        exact avoids_ok reaction
      · simp [Fits, response]

/-- What is fetched from a terminated packet does not depend on the rest of the buffer. -/
theorem answerBytes_eq_cut {packet : Packet} {bytes : List UInt8} (received : Receives packet bytes)
    (terminated : 0 ∈ bytes.drop 1) :
    answerBytes call packet = answerBytes call
      (cutPacket packet.sender bytes packet.downloads packet.pathRest) := by
  obtain ⟨behind, array⟩ := received.array
  have copied := copied_of_terminated terminated
  have body := CString.read_of_mem terminated
  have body' : CString.read (packet.recvPayload.drop 1) = .ok (CString.upToNul (bytes.drop 1)) := by
    rw [← array, List.drop_append_of_le_length (nonempty_of_terminated terminated)]
    exact CString.read_append body behind
  have copied' : loadRange packet.recvPayload 1 (sizeSub packet.len 1) = .ok (bytes.drop 1) := by
    rw [← array, received.len]
    exact loadRange_append copied behind
  simp only [answerBytes, cutPacket, body, body', copied, copied']

/-- As long as the cut packet is handled inside its bounds, what lies behind it in the buffer does not
matter. -/
theorem react_eq_cut {packet : Packet} {bytes : List UInt8} (received : Receives packet bytes)
    (inside : Avoids LeavesBounds (reactToPacket call
      (cutPacket packet.sender bytes packet.downloads packet.pathRest) rpcResult)) :
    reactToPacket call packet rpcResult = reactToPacket call
      (cutPacket packet.sender bytes packet.downloads packet.pathRest) rpcResult := by
  obtain ⟨behind, array⟩ := received.array
  cases bytes with
  | nil =>
    have bad : LeavesBounds (.fault .readOutOfBounds) := by
      rw [LeavesBounds]
      decide
    exact absurd bad (inside _ rfl)
  | cons pktType rest =>
    have type : load packet.recvPayload 0 = .ok pktType := by
      rw [← array]
      rfl
    have cutType : load (cutPacket packet.sender (pktType :: rest) packet.downloads
        packet.pathRest).recvPayload 0 = .ok pktType := rfl
    by_cases response : pktType = rpcPktCallResponse
    · subst response
      rw [reactToPacket_of_isResponse cutType] at inside
      rw [reactToPacket_of_isResponse cutType, reactToPacket_of_isResponse type]
      cases selected : selectedSlot call packet.sender rpcResult with
      | none =>
        have ignored := @ignored_of_unselected call (cutPacket packet.sender
          (rpcPktCallResponse :: rest) packet.downloads packet.pathRest) rpcResult selected
        rw [ignored_of_unselected selected, ignored]
      | some position =>
        have selectedCut : selectedSlot call (cutPacket packet.sender (rpcPktCallResponse :: rest)
            packet.downloads packet.pathRest).sender rpcResult = some position := selected
        have fetched := (avoids_bind_iff.mp ((avoids_response_iff selectedCut).mp inside)).1
        have terminated := (avoids_read_iff _).mp (avoids_mapError.mp (avoids_bind_iff.mp fetched).1)
        rw [reactToResponse, reactToResponse, answerBytes_eq_cut received terminated]
        rfl
    · rw [reactToPacket, reactToPacket, type, cutType]
      simp only [Except.mapError, ok_bind, response, if_false]
      rfl

end Packet

section Channels

variable (call : ClientCall)

/-- The handler of MSP is handed the received bytes themselves. -/
theorem avoids_msp_iff {memory : ClientMemory} (size : memory.rpcResult.cells.length = 5)
    {delivery : ClientDelivery} {payload : List UInt8} (delivered : delivery.payload = some payload)
    (nonempty : payload ≠ []) :
    (∀ downloads pathRest, Avoids LeavesBounds
      (rpcClientMspHandler call memory { delivery with downloads, pathRest })) ↔
        (payload.head? = some rpcPktCallResponse → CopyFits call payload) := by
  have len := delivery.complete payload delivered
  have inside : 0 < memory.rpcResult.cells.length := by omega
  have at' := List.getElem?_eq_getElem inside
  cases payload with
  | nil => exact absurd rfl nonempty
  | cons pktType rest =>
    have type : load (pktType :: rest) 0 = .ok pktType := rfl
    have notZero := len_ne_zero delivered type
    by_cases response : pktType = rpcPktCallResponse
    · subst response
      rw [List.head?_cons, imp_iff_right rfl, ← avoids_copy_iff call (tohexSidT call.sid)
        delivery.remote (rpcPktCallResponse :: rest) at']
      apply forall₂_congr
      intro downloads pathRest
      rw [@mspHandler_response call memory { delivery with downloads, pathRest } _ delivered type]
      simp only [mspAnswerBytes_eq, avoids_bind_iff, avoids_ok, implies_true, and_true, cutPacket, len]
    · have handled (downloads : List StoreWorld) (pathRest : Nat → UInt8) : ∃ after,
          rpcClientMspHandler call memory { delivery with downloads, pathRest } = .ok after := by
        simp only [rpcClientMspHandler, delivered, notZero, if_false, type, Except.mapError, ok_bind,
          response]
        split
        · exact ⟨_, rfl⟩
        · exact ⟨_, rfl⟩
      refine iff_of_true (fun downloads pathRest => ?_) (by simp [response])
      obtain ⟨after, returned⟩ := handled downloads pathRest
      rw [returned]
      exact avoids_ok after

/-- The payload of a row is copied in the size of the listing first. -/
def reactToRow (row : Row) (sender : Sid) (body : List UInt8) (downloads : List StoreWorld)
    (pathRest : Nat → UInt8) (rpcResult : ResultTable) : Except ClientStop Reaction := do
  let recvPayload ← (loadRange body 0 (sizeOfInt row.filesize)).mapError .fault
  reactToPacket call (cutPacket sender recvPayload downloads pathRest) rpcResult

theorem avoids_row_iff {rpcResult : ResultTable} (size : rpcResult.cells.length = 5) (row : Row)
    (sender : Sid) (body : List UInt8) :
    (∀ downloads pathRest, Avoids LeavesBounds
      (reactToRow call row sender body downloads pathRest rpcResult)) ↔
        sizeOfInt row.filesize ≤ body.length ∧
          Fits call (body.take (sizeOfInt row.filesize)) (selectedSlot call sender rpcResult) := by
  by_cases complete : sizeOfInt row.filesize ≤ body.length
  · have copied : loadRange body 0 (sizeOfInt row.filesize) =
        .ok (body.take (sizeOfInt row.filesize)) := loadRange_of_le (by rwa [Nat.zero_add])
    simp only [reactToRow, copied, Except.mapError, ok_bind, complete, true_and]
    exact avoids_react_iff size sender _
  · have copied : loadRange body 0 (sizeOfInt row.filesize) = .error .readOutOfBounds :=
      loadRange_of_lt (by omega)
    refine iff_of_false (fun inside => ?_) fun fits => complete fits.1
    have left := inside [] fun _ => 0
    rw [reactToRow, copied] at left
    exact left _ rfl (by rw [LeavesBounds]; decide)

/-- At a row that is handled inside its bounds, the listener does what it does on the copy. -/
theorem react_row_eq_cut {rpcResult : ResultTable} {row : Row} {input : RowInput} {sender : CString}
    {body : List UInt8} (complete : sizeOfInt row.filesize ≤ body.length)
    (inside : Avoids LeavesBounds (reactToRow call row (rowPacket call row input sender body).sender
      body input.downloads input.pathRest rpcResult)) :
    reactToPacket call (rowPacket call row input sender body) rpcResult =
      reactToRow call row (rowPacket call row input sender body).sender body input.downloads
        input.pathRest rpcResult := by
  have copied : loadRange body 0 (sizeOfInt row.filesize) =
      .ok (body.take (sizeOfInt row.filesize)) := loadRange_of_le (by rwa [Nat.zero_add])
  have received : Receives (rowPacket call row input sender body)
      (body.take (sizeOfInt row.filesize)) := by
    have array : (rowPacket call row input sender body).recvPayload =
        body.take (sizeOfInt row.filesize) := by
      rw [rowPacket, overread_of_le _ complete]
    constructor
    · exact array ▸ List.prefix_rfl
    · rw [List.length_take, Nat.min_eq_left complete]
      rfl
  rw [reactToRow, copied] at inside ⊢
  exact react_eq_cut received inside

/-- Each channel of the client reads received bytes only, and copies what fits a slot, exactly when
the packet has a type and, if it is a RESPONSE for a slot, a terminated string and a length or a path
that fits; a bundle must also be as long as the listing says.  Inside these bounds the rest of the
buffer does not matter, so the listeners do what they do on the received bytes alone. -/
theorem client_copies_inside_iff :
    (∀ (rpcResult : ResultTable) (datagram : Datagram), rpcResult.cells.length = 5 →
      ((∀ downloads pathRest, Avoids LeavesBounds (reactToPacket call
          (cutPacket datagram.sender datagram.bytes downloads pathRest) rpcResult)) ↔
        Fits call datagram.bytes (selectedSlot call datagram.sender rpcResult))) ∧
    (∀ (memory : ClientMemory) (delivery : ClientDelivery) (payload : List UInt8),
      memory.rpcResult.cells.length = 5 → delivery.payload = some payload → payload ≠ [] →
        ((∀ downloads pathRest, Avoids LeavesBounds
            (rpcClientMspHandler call memory { delivery with downloads, pathRest })) ↔
          (payload.head? = some rpcPktCallResponse → CopyFits call payload))) ∧
    (∀ (rpcResult : ResultTable) (row : Row) (sender : Sid) (body : List UInt8),
      rpcResult.cells.length = 5 →
        ((∀ downloads pathRest, Avoids LeavesBounds
            (reactToRow call row sender body downloads pathRest rpcResult)) ↔
          sizeOfInt row.filesize ≤ body.length ∧
            Fits call (body.take (sizeOfInt row.filesize)) (selectedSlot call sender rpcResult))) ∧
    (∀ (rpcResult : ResultTable) (datagram : Datagram),
      Avoids LeavesBounds (reactToPacket call (cutPacket datagram.sender datagram.bytes
        datagram.downloads datagram.pathRest) rpcResult) →
      reactToPacket call datagram.packet rpcResult = reactToPacket call (cutPacket datagram.sender
        datagram.bytes datagram.downloads datagram.pathRest) rpcResult) ∧
    ∀ (rpcResult : ResultTable) (row : Row) (input : RowInput) (sender : CString)
      (body : List UInt8), sizeOfInt row.filesize ≤ body.length →
      let packet := rowPacket call row input sender body
      Avoids LeavesBounds
        (reactToRow call row packet.sender body input.downloads input.pathRest rpcResult) →
      reactToPacket call packet rpcResult =
        reactToRow call row packet.sender body input.downloads input.pathRest rpcResult :=
  ⟨fun _ datagram size => avoids_react_iff size datagram.sender datagram.bytes,
    fun _ _ _ size delivered nonempty => avoids_msp_iff call size delivered nonempty,
    fun _ row sender body size => avoids_row_iff call size row sender body,
    fun _ datagram inside => react_eq_cut (receives_datagram datagram) inside,
    fun _ _ _ _ _ complete inside => react_row_eq_cut call complete inside⟩

end Channels

/-! ## Packets inside and outside -/

/-- The shortest answer with a text. -/
def shortAnswer : List UInt8 := [rpcPktCallResponse, 51, 0]

def shortDatagram : Datagram where
  sender := ResultSlots.server 1
  bytes := shortAnswer
  size := by decide
  behind _ := 0
  downloads := []
  pathRest _ := 0

/-- A row whose listing says three bytes. -/
def shortRow : Row := { LateAnswers.lateRow with filesize := 3 }

theorem client_copies_inside_short :
    (∀ downloads pathRest, Avoids LeavesBounds (reactToPacket (Addressee.callServer 1)
      (cutPacket shortDatagram.sender shortDatagram.bytes downloads pathRest) .empty)) ∧
    (∀ downloads pathRest, Avoids LeavesBounds (rpcClientMspHandler (Addressee.callServer 1) .initial
      { messageDelivery (ResultSlots.server 1) shortAnswer with downloads, pathRest })) ∧
    ∀ downloads pathRest, Avoids LeavesBounds (reactToRow (Addressee.callServer 1) shortRow
      (ResultSlots.server 1) shortAnswer downloads pathRest .empty) := by
  obtain ⟨mdp, msp, rhizome, _, _⟩ := client_copies_inside_iff (Addressee.callServer 1)
  have copies : CopyFits (Addressee.callServer 1) shortAnswer := by decide
  have fits : Fits (Addressee.callServer 1) shortAnswer (some 0) := ⟨by decide, fun _ _ => copies⟩
  refine ⟨(mdp .empty shortDatagram rfl).mpr fits, ?_, ?_⟩
  · exact (msp .initial (messageDelivery _ shortAnswer) shortAnswer rfl rfl (by decide)).mpr
      fun _ => copies
  · exact (rhizome .empty shortRow (ResultSlots.server 1) shortAnswer rfl).mpr ⟨by decide, fits⟩

/-- A text that fits a message of MSP and no slot. -/
def outsizeText : CString := CString.ofLetter 998 97 CString.letter_visible

def longMessage : List UInt8 := rpcPktCallResponse :: outsizeText.terminated

theorem longMessage_length : longMessage.length = 1000 := by
  have text : outsizeText.bytes.length = 998 := CString.length_ofLetter _ _
  rw [longMessage, CString.terminated, List.length_cons, List.length_append, text,
    List.length_singleton]

theorem longMessage_outside (call : ClientCall) : ¬ CopyFits call longMessage := by
  have text : CString.upToNul (longMessage.drop 1) = outsizeText :=
    CString.ext (CString.upToNul_append outsizeText.nulFree [])
  have plain : rpcStrIsFilehash outsizeText = false := by
    rw [rpcStrIsFilehash, outsizeText, CString.length_ofLetter]
    rfl
  rw [CopyFits, text, plain, if_neg Bool.false_ne_true, longMessage_length]
  exact fun copies => absurd copies.2 (by decide)

theorem longMessage_handled :
    ¬ ∀ downloads pathRest, Avoids LeavesBounds (rpcClientMspHandler (Addressee.callServer 1) .initial
      { messageDelivery (ResultSlots.server 1) longMessage with downloads, pathRest }) := by
  have delivered : (messageDelivery (ResultSlots.server 1) longMessage).payload = some longMessage :=
    rfl
  rw [avoids_msp_iff _ rfl delivered (List.cons_ne_nil _ _)]
  exact fun fits => longMessage_outside _ (fits rfl)

/-- An empty datagram, a RESPONSE without a body, a message that is longer than the content of a slot,
and a bundle that is shorter than the listing says. -/
theorem copies_outside :
    (¬ ∀ downloads pathRest, Avoids LeavesBounds (reactToPacket (Addressee.callServer 1)
      (cutPacket (ResultSlots.server 1) [] downloads pathRest) .empty)) ∧
    (¬ ∀ downloads pathRest, Avoids LeavesBounds (reactToPacket (Addressee.callServer 1)
      (cutPacket (ResultSlots.server 1) [rpcPktCallResponse] downloads pathRest) .empty)) ∧
    (longMessage.length ≤ mspMessageSize ∧
      ¬ ∀ downloads pathRest, Avoids LeavesBounds (rpcClientMspHandler (Addressee.callServer 1) .initial
        { messageDelivery (ResultSlots.server 1) longMessage with downloads, pathRest })) ∧
    ¬ ∀ downloads pathRest, Avoids LeavesBounds (reactToRow (Addressee.callServer 1) shortRow
      (ResultSlots.server 1) [rpcPktCallAck] downloads pathRest .empty) := by
  refine ⟨?_, ?_, ⟨?_, ?_⟩, ?_⟩
  · rw [avoids_react_iff rfl]
    exact fun fits => fits.1 rfl
  · rw [avoids_react_iff rfl]
    exact fun fits => absurd (fits.2 rfl (by decide)) (by decide)
  · rw [longMessage_length]
    decide
  · exact longMessage_handled
  · rw [avoids_row_iff _ rfl]
    exact fun fits => absurd fits.1 (by decide)

end ServalRpc.Verified.CopyBounds
