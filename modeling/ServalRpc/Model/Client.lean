import ServalRpc.CLib.Run
import ServalRpc.Model.Execute

/-! # The client's listeners

`rpc_client_call_mdp` and `_rpc_client_rhizome_listen` wait for answers in loops of their own, and
treat a packet alike.  In a call to all servers an ACK claims a slot of the result table and a
RESPONSE fills the slot of its sender.  Every other call is over with its first RESPONSE.
-/

namespace ServalRpc

open CLib

/-! ## The result table -/

structure RPCResult where
  serverSid : Sid
  content : List UInt8
  size : content.length = rpcPktSize
  deriving DecidableEq

/-- A slot after the `memset` of `rpc_result`. -/
def emptyResult : RPCResult := ⟨sidAny, List.replicate rpcPktSize 0, List.length_replicate⟩

abbrev ResultTable := Block RPCResult

def ResultTable.empty : ResultTable := Block.calloc 5 emptyResult

def RPCResult.setServerSid (result : RPCResult) (sid : Sid) : RPCResult :=
  { result with serverSid := sid }

/-- `memcpy` to the start of the content. -/
def RPCResult.copyContent (result : RPCResult) (bytes : List UInt8) : Except Fault RPCResult :=
  match stored : storeRange result.content 0 bytes with
  | .ok content => .ok ⟨result.serverSid, content, (storeRange_length stored).trans result.size⟩
  | .error fault => .error fault

/-- `rpc_client_result_get_insert_index`; 5 when the table is full. -/
def rpcClientResultGetInsertIndex (rpcResult : ResultTable) : Nat :=
  rpcResult.cells.findIdx fun result => isSidTAny result.serverSid

/-- `_rpc_client_result_get_sid_index`; `none` is -1. -/
def rpcClientResultGetSidIndex (rpcResult : ResultTable) (sid : Sid) : Option Nat :=
  rpcResult.cells.findIdx? fun result => sid == result.serverSid

/-! ## Packets -/

structure ClientCall where
  serval : Serval
  sid : Sid
  rpcName : CString

/-- What a listener has received from one server: the array it copied the packet to, the length
of the packet, and what a download started by this packet meets. -/
structure Packet where
  sender : Sid
  recvPayload : List UInt8
  len : Nat
  downloads : List StoreWorld
  /-- The bytes of `fpath` behind the path. -/
  pathRest : Nat → UInt8

/-- Why a listener has not finished its round. -/
inductive ClientStop where
  | fault (fault : Fault)
  | downloading
  deriving DecidableEq, Repr

/-- The bytes that a RESPONSE is stored as: its body, or the array with the path of the file that
it names. -/
def answerBytes (call : ClientCall) (packet : Packet) : Except ClientStop (List UInt8) := do
  let body ← (CString.read (packet.recvPayload.drop 1)).mapError .fault
  if rpcStrIsFilehash body then
    match ← (awaitDownload call.serval call.rpcName (tohexSidT sidBroadcast)
      packet.downloads).mapError .fault with
    | none => throw .downloading
    | some fpath =>
      pure (overread fpath.terminated packet.pathRest (128 + call.rpcName.length + 3))
  else (loadRange packet.recvPayload 1 (sizeSub packet.len 1)).mapError .fault

/-- What a packet does to the call: nothing, or it acknowledges the call, or it is an answer;
`complete` is set by the answer that ends the call. -/
inductive Reaction where
  | ignored
  | acknowledged (rpcResult : ResultTable)
  | answered (rpcResult : ResultTable) (complete : Bool)
  deriving DecidableEq

/-- Stores an answer in the slot at `position`. -/
def storeAnswer (rpcResult : ResultTable) (position : Nat) (bytes : List UInt8) :
    Except ClientStop ResultTable := do
  let result ← (load rpcResult.cells position).mapError .fault
  let result ← (result.copyContent bytes).mapError .fault
  pure (rpcResult.store position result)

def reactToAck (call : ClientCall) (packet : Packet) (rpcResult : ResultTable) : ResultTable :=
  -- The table is searched for the sid of the call and not for that of the sender.
  if isSidTBroadcast call.sid && (rpcClientResultGetSidIndex rpcResult call.sid).isNone then
    rpcResult.update (rpcClientResultGetInsertIndex rpcResult)
      fun result => result.setServerSid packet.sender
  else rpcResult

def reactToResponse (call : ClientCall) (packet : Packet) (rpcResult : ResultTable) :
    Except ClientStop Reaction := do
  if isSidTBroadcast call.sid then
    match rpcClientResultGetSidIndex rpcResult packet.sender with
    | none => pure .ignored
    | some position =>
      let bytes ← answerBytes call packet
      let rpcResult ← storeAnswer rpcResult position bytes
      pure (.answered rpcResult (position == 4))
  else
    let bytes ← answerBytes call packet
    let rpcResult ← storeAnswer rpcResult 0 bytes
    pure (.answered (rpcResult.update 0 fun result => result.setServerSid packet.sender) true)

def reactToPacket (call : ClientCall) (packet : Packet) (rpcResult : ResultTable) :
    Except ClientStop Reaction := do
  let pktType ← (load packet.recvPayload 0).mapError .fault
  if pktType = rpcPktCallAck then pure (.acknowledged (reactToAck call packet rpcResult))
  else if pktType = rpcPktCallResponse then reactToResponse call packet rpcResult
  else pure .ignored

/-! ## MDP -/

structure MdpState where
  received : Int
  waitTime : Int
  /-- How often the call packet has been sent. -/
  sent : Nat
  rpcResult : ResultTable
  returned : Option Int

/-- The state in which `rpc_client_call_mdp` enters its loop; it does not set `received`. -/
def MdpState.entry (received : Int) : MdpState := ⟨received, 10, 0, .empty, none⟩

/-- A datagram, the bytes of the receive buffer behind it, and what a download meets. -/
structure Datagram where
  sender : Sid
  bytes : List UInt8
  size : bytes.length ≤ rpcPktSize
  behind : Nat → UInt8
  downloads : List StoreWorld
  pathRest : Nat → UInt8

def Datagram.packet (datagram : Datagram) : Packet where
  sender := datagram.sender
  recvPayload := overread datagram.bytes datagram.behind rpcPktSize
  len := datagram.bytes.length
  downloads := datagram.downloads
  pathRest := datagram.pathRest

/-- What one round of the loop meets; `datagram` is `none` when nothing arrives or `mdp_recv`
fails. -/
structure MdpInput where
  elapsed : Int
  sendOk : Bool
  datagram : Option Datagram

/-- What a round turns out to be. -/
inductive MdpEvent where
  | timeout
  | sendFailed
  | quiet
  | received (packet : Packet)

def mdpEvent (state : MdpState) (input : MdpInput) : MdpEvent :=
  if input.elapsed > state.waitTime then .timeout
  else if state.received = 0 ∧ !input.sendOk then .sendFailed
  else match input.datagram with
    | none => .quiet
    | some datagram => .received datagram.packet

/-- One round of the loop of `rpc_client_call_mdp`. -/
def rpcClientCallMdpRound (call : ClientCall) (state : MdpState) (event : MdpEvent) :
    Except ClientStop MdpState := do
  let sending := { state with sent := if state.received = 0 then state.sent + 1 else state.sent }
  match event with
  | .timeout =>
    -- The index counts the slots that an ACK claimed, answered or not.
    let numAnswers := rpcClientResultGetInsertIndex state.rpcResult
    if isSidTBroadcast call.sid && decide (numAnswers > 0) then
      pure { state with returned := some 2 }
    else pure { state with returned := some state.received }
  | .sendFailed => pure { state with returned := some (-1) }
  | .quiet => pure sending
  | .received packet =>
    match ← reactToPacket call packet state.rpcResult with
    | .ignored => pure sending
    | .acknowledged rpcResult =>
      pure { sending with rpcResult, waitTime := state.waitTime + 20, received := 1 }
    | .answered rpcResult complete =>
      if complete then pure { sending with rpcResult, received := 2, returned := some 2 }
      else pure { sending with rpcResult }

/-- The loop runs while `received` is 0 or 1. -/
inductive MdpStep (call : ClientCall) : MdpState → MdpEvent → MdpState → Prop where
  | round {state next : MdpState} (input : MdpInput) :
      state.returned = none → state.received = 0 ∨ state.received = 1 →
      rpcClientCallMdpRound call state (mdpEvent state input) = .ok next →
      MdpStep call state (mdpEvent state input) next

/-! ## Rhizome -/

structure RhizomeState where
  returnCode : Int
  received : Int
  waitTime : Int
  token : Option CString
  /-- The rows of the current listing that the inner loop has not reached yet. -/
  pending : List Row
  rpcResult : ResultTable
  returned : Option Int

/-- The state in which `rpc_client_call_rhizome` starts to listen. -/
def RhizomeState.entry : RhizomeState := ⟨-1, 0, 20, none, [], .empty, none⟩

/-- What the inner loop meets at a row: the time, the value of `server_sid` before the sender is
parsed, the payload (`none` when it is not transferred) with the memory behind it, and what a
download meets. -/
structure RowInput where
  now : Int
  staleSid : Sid
  body : Option (List UInt8)
  behind : Nat → UInt8
  downloads : List StoreWorld
  pathRest : Nat → UInt8

/-- A round of the outer loop, or one of the inner loop over the rows. -/
inductive RhizomeInput where
  | poll (elapsed : Int) (listing : Option (List Row))
  | visit (input : RowInput)

inductive RhizomeEvent where
  | timeout
  | transferFailed
  | polled (rows : List Row)
  | skipped
  | received (packet : Packet)

/-- The filter of `_rpc_client_rhizome_listen` on a row. -/
def interestingRow (call : ClientCall) (now : Int) (row : Row) : Except Fault Bool := do
  let service ← deref row.service
  let notMyFile := match row.recipient with
    | none => false
    | some recipient => recipient == tohexSidT call.serval.mySid
  let name ← deref row.name
  let nameIsRpc := CString.strncmpEq name call.rpcName call.rpcName.length
  let notToOld := decide (now - row.inserttime < 600000)
  pure (serviceIsRpc service && notMyFile && nameIsRpc && notToOld)

/-- The packet in the payload of a row; `server_sid` keeps its value when the sender does not
parse. -/
def rowPacket (call : ClientCall) (row : Row) (input : RowInput) (sender : CString)
    (body : List UInt8) : Packet where
  sender := (call.serval.strToSidT sender).getD input.staleSid
  recvPayload := overread body input.behind (sizeOfInt row.filesize)
  len := sizeOfInt row.filesize
  downloads := input.downloads
  pathRest := input.pathRest

def rhizomeEvent (call : ClientCall) (state : RhizomeState) (input : RhizomeInput) :
    Except ClientStop RhizomeEvent :=
  match input, state.pending with
  | .poll elapsed listing, _ =>
    if elapsed > state.waitTime then .ok .timeout
    else match listing with
      | none => .ok .transferFailed
      | some rows => .ok (.polled rows)
  | .visit _, [] => .ok .skipped
  | .visit input, row :: _ => do
    if !(← (interestingRow call input.now row).mapError .fault) then pure .skipped
    else
      let sender ← (deref row.sender).mapError .fault
      match input.body with
      | none => pure .transferFailed
      | some body => pure (.received (rowPacket call row input sender body))

/-- The rows that the inner loop will visit: all of them, or only the first one in the first
round. -/
def rowsToVisit (token : Option CString) (rows : List Row) : Except Fault (List Row) :=
  match token with
  | some _ => .ok rows
  | none => do
    let row ← deref rows.head?
    pure [row]

/-- Leaves the row that the inner loop is at; its token is kept for the next poll. -/
def RhizomeState.advance (state : RhizomeState) : RhizomeState :=
  match state.pending with
  | [] => state
  | row :: rows => { state with token := row.token, pending := rows }

/-- One round of either loop of `_rpc_client_rhizome_listen`. -/
def rpcClientRhizomeListenRound (call : ClientCall) (state : RhizomeState) (event : RhizomeEvent) :
    Except ClientStop RhizomeState := do
  match event with
  | .timeout =>
    let numAnswers := rpcClientResultGetInsertIndex state.rpcResult
    if isSidTBroadcast call.sid && decide (numAnswers > 0) then
      pure { state with returnCode := 2, received := 1, returned := some 2 }
    -- The 1 that an ACK has set is lost.
    else pure { state with returnCode := -1, returned := some (-1) }
  | .transferFailed => pure { state with returnCode := -1, returned := some (-1) }
  | .polled rows =>
    let pending ← (rowsToVisit state.token rows).mapError .fault
    pure { state with pending }
  | .skipped => pure state.advance
  | .received packet =>
    match ← reactToPacket call packet state.rpcResult with
    | .ignored => pure state.advance
    | .acknowledged rpcResult =>
      pure { state.advance with
        rpcResult
        waitTime := if state.waitTime = 20 then 120 else state.waitTime
        returnCode := 1 }
    | .answered rpcResult complete =>
      if complete then
        pure { state.advance with rpcResult, returnCode := 2, received := 1, returned := some 2 }
      else pure { state.advance with rpcResult }

/-- The inner loop runs while rows are pending, the outer one while `received` is 0. -/
inductive RhizomeStep (call : ClientCall) : RhizomeState → RhizomeEvent → RhizomeState → Prop where
  | poll {state next : RhizomeState} {event : RhizomeEvent} (elapsed : Int)
      (listing : Option (List Row)) :
      state.returned = none → state.pending = [] → state.received = 0 →
      rhizomeEvent call state (.poll elapsed listing) = .ok event →
      rpcClientRhizomeListenRound call state event = .ok next →
      RhizomeStep call state event next
  | visit {state next : RhizomeState} {event : RhizomeEvent} (input : RowInput) :
      state.returned = none → state.pending ≠ [] →
      rhizomeEvent call state (.visit input) = .ok event →
      rpcClientRhizomeListenRound call state event = .ok next →
      RhizomeStep call state event next

end ServalRpc
