import ServalRpc.Model.Execute
import ServalRpc.Model.Offering

/-! # The server handlers

Each handler parses the packet, checks the call, acknowledges it, executes the procedure and
sends the result.  The packet is the object of the bytes that were received, so a handler that
reads behind them has a fault of the packet.  What the handler does to the outside is its list
of actions; the outcome of every operation outside the program is a field of its world.
-/

namespace ServalRpc

open CLib

inductive ServerMode where
  | msp
  | mdp
  | rhizome
  | all
  deriving DecidableEq, Repr

/-- Why a handler has not returned: a fault, told apart by what was being read, or a download
that has not succeeded yet. -/
inductive ServerStop where
  | packet (fault : Fault)
  | listing (fault : Fault)
  | conf (fault : Fault)
  | procedure (fault : Fault)
  | downloading
  deriving DecidableEq, Repr

/-- The bundle that an insertion hands to the daemon, and whether the daemon took it. -/
structure Publication where
  manifest : CString
  content : List UInt8
  accepted : Bool
  deriving DecidableEq

inductive ServerAction where
  | mdpSend (remote : Sid) (payload : List UInt8) (sent : Bool)
  | mspSend (payload : List UInt8) (sent : Int)
  | mspStop
  | publish (publication : Publication)
  | excecute (rp : RPCProcedure)
  deriving DecidableEq

/-! ## Publishing over Rhizome -/

/-- The outcome of an insertion, and the memory behind the array that is published. -/
structure Insertion where
  accepted : Bool
  behind : Nat → UInt8

def resultManifest (serval : Serval) (sid : Sid) (rpcName : CString) : CString :=
  CString.ofChars ['s', 'e', 'r', 'v', 'i', 'c', 'e', '=', 'R', 'P', 'C', '\n'] ++
    CString.ofChars ['n', 'a', 'm', 'e', '='] ++ rpcName ++
    CString.ofChars ['\n', 's', 'e', 'n', 'd', 'e', 'r', '='] ++ tohexSidT serval.mySid ++
    CString.ofChars ['\n', 'r', 'e', 'c', 'i', 'p', 'i', 'e', 'n', 't', '='] ++ tohexSidT sid ++
    CString.ofChars ['\n']

/-- `_rpc_server_rhizome_send_result` writes `RPC_PKT_SIZE - 1` bytes, whatever the array holds. -/
def rpcServerRhizomeSendResult (serval : Serval) (insertion : Insertion) (sid : Sid)
    (rpcName : CString) (payload : List UInt8) : Int × Publication :=
  (if insertion.accepted then 1 else -1,
    { manifest := resultManifest serval sid rpcName
      content := overread payload insertion.behind (rpcPktSize - 1)
      accepted := insertion.accepted })

/-! ## Checking and executing a call -/

inductive Admission where
  | unparsableSender
  | rejected (rp : RPCProcedure)
  | accepted (rp : RPCProcedure)
  deriving DecidableEq

/-- What the three handlers do alike with a call: parse it, parse its sender, and check whether
it is offered and accepted. -/
def admitCall (serval : Serval) (conf : Option (List UInt8)) (payload : List UInt8)
    (sender : Option CString) : Except ServerStop Admission := do
  let rp ← (rpcServerParseCall payload payload.length).mapError .packet
  let sender ← (deref sender).mapError .listing
  match serval.strToSidT sender with
  | none => pure .unparsableSender
  | some callerSid =>
    let rp := { rp with callerSid := some callerSid }
    let offering ← (rpcServerOffering conf rp).mapError .conf
    -- The requirements are only read when the call is offered.
    if offering = 0 then pure (.rejected rp)
    else
      let requirements ← (readRequirements serval payload).mapError .packet
      if rpcServerAccepts rp requirements = 0 then pure (.rejected rp) else pure (.accepted rp)

/-- `_rpc_server_excecute` on a cleared result packet. -/
def excecuteCall (serval : Serval) (world : ExecuteWorld) (rp : RPCProcedure) :
    Except ServerStop ExecuteResult := do
  match ← (rpcServerExcecute serval world (Block.calloc rpcPktSize 0) rp).mapError .procedure with
  | none => throw .downloading
  | some result => pure result

/-- A call that a server has accepted, from whichever channel: the packet, what it was parsed to,
and what its execution meets. -/
structure ServedCall where
  server : Serval
  packet : List UInt8
  rp : RPCProcedure
  execute : ExecuteWorld

/-! ## MDP -/

structure MdpWorld where
  conf : Option (List UInt8)
  execute : ExecuteWorld
  ackSent : Bool
  reachable : Int
  resultSent : Bool
  insertion : Insertion

/-- What `_rpc_server_mdp_handle` does with the result of an execution. -/
def mdpAnswer (serval : Serval) (serverMode : ServerMode) (world : MdpWorld) (remote : Sid)
    (rpcName : CString) (result : ExecuteResult) : List ServerAction :=
  if result.returnCode = 0 then []
  -- A failed lookup returns -1, which counts as reachable.
  else if world.reachable ≠ 0 then
    [.mdpSend remote result.resultPayload.cells world.resultSent]
  else if serverMode = .all then
    [.publish (rpcServerRhizomeSendResult serval world.insertion sidBroadcast rpcName
      result.resultPayload.cells).2]
  else []

/-- `_rpc_server_mdp_handle`; `received` is `none` when `mdp_recv` fails. -/
def rpcServerMdpHandle (serval : Serval) (serverMode : ServerMode) (world : MdpWorld)
    (received : Option (Sid × List UInt8)) : Except ServerStop (Int × List ServerAction) := do
  match received with
  | none => pure (-1, [])
  | some (remote, payload) =>
    let type ← (load payload 0).mapError .packet
    if type ≠ rpcPktCall then pure (0, [])
    else match ← admitCall serval world.conf payload (some (tohexSidT remote)) with
      | .unparsableSender => pure (-1, [])
      | .rejected rp =>
        (rpcFreeRp rp).mapError .procedure
        pure (0, [])
      | .accepted rp =>
        let result ← excecuteCall serval world.execute rp
        (rpcFreeRp result.rp).mapError .procedure
        pure (0, .mdpSend remote [rpcPktCallAck] world.ackSent :: .excecute rp ::
          mdpAnswer serval serverMode world remote rp.name result)

/-! ## MSP -/

structure MspWorld where
  conf : Option (List UInt8)
  execute : ExecuteWorld
  remote : Sid
  ackSent : Int
  /-- The socket after the execution: `msp_socket_is_null` and `msp_socket_is_data`. -/
  socketIsNull : Bool
  socketIsData : Bool
  resultSent : Int
  insertion : Insertion

/-- The arguments of the handler; `closing` is set by the flags for a remote shutdown, a closed
socket and an error, and a missing payload is a null pointer. -/
structure MspDelivery where
  closing : Bool
  payload : Option (List UInt8)
  len : Nat
  complete : ∀ bytes ∈ payload, bytes.length = len

/-- What `_rpc_server_msp_handler` does with the result of an execution. -/
def mspAnswer (serval : Serval) (serverMode : ServerMode) (world : MspWorld) (rpcName : CString)
    (result : ExecuteResult) : List ServerAction :=
  if result.returnCode = 0 then []
  else if !world.socketIsNull && world.socketIsData then
    [.mspSend result.resultPayload.cells world.resultSent]
  else if serverMode = .all then
    [.publish (rpcServerRhizomeSendResult serval world.insertion world.remote rpcName
      result.resultPayload.cells).2]
  else []

/-- `_rpc_server_msp_handler`; the first component is the number of bytes it reports as consumed. -/
def rpcServerMspHandler (serval : Serval) (serverMode : ServerMode) (world : MspWorld)
    (delivery : MspDelivery) : Except ServerStop (Nat × List ServerAction) := do
  let len := delivery.len
  let stopped := if delivery.closing then [ServerAction.mspStop] else []
  let ret := if delivery.closing then len else 0
  match delivery.payload with
  | none => pure (ret, stopped)
  | some payload =>
    if len = 0 then pure (ret, stopped)
    else
      let type ← (load payload 0).mapError .packet
      if type ≠ rpcPktCall then pure (ret, stopped)
      else match ← admitCall serval world.conf payload (some (tohexSidT world.remote)) with
        | .unparsableSender => pure (len, stopped)
        | .rejected rp =>
          (rpcFreeRp rp).mapError .procedure
          pure (len, stopped)
        | .accepted rp =>
          -- The count of the ACK that `ret` receives is overwritten on every path.
          let result ← excecuteCall serval world.execute rp
          (rpcFreeRp result.rp).mapError .procedure
          pure (len, stopped ++ .mspSend [rpcPktCallAck] world.ackSent :: .excecute rp ::
            mspAnswer serval serverMode world rp.name result)

/-! ## Rhizome -/

structure RhizomeWorld where
  conf : Option (List UInt8)
  execute : ExecuteWorld
  ackInsertion : Insertion
  resultInsertion : Insertion

/-- A row of the listing, with what the daemon returns when its payload is requested and with the
world while it is handled. -/
structure Visit where
  row : Row
  body : Option (List UInt8)
  world : RhizomeWorld

/-- `_rpc_server_rhizome_done`. -/
def rpcServerRhizomeDone (doneCalls : List CString) (id : CString) : Bool :=
  doneCalls.any (· == id)

/-- `_rpc_server_rhizome_finished`. -/
def rpcServerRhizomeFinished (doneCalls : List CString) (id : CString) : List CString :=
  doneCalls ++ [id]

/-- The filter of `_rpc_server_rhizome_process` on one row. -/
def wantedRow (serval : Serval) (doneCalls : List CString) (row : Row) : Except Fault Bool := do
  let service ← deref row.service
  let filesize := sizeOfInt row.filesize
  let notTooBig := 0 < filesize && filesize ≤ mdpMtu
  let notDone := !rpcServerRhizomeDone doneCalls row.id
  pure (serviceIsRpc service && forNobodyOrMe serval row.recipient && notDone && notTooBig)

structure ProcessState where
  returnCode : Int
  doneCalls : List CString
  actions : List ServerAction
  deriving DecidableEq

/-- The ACK of the call in a row. -/
def rowAck (serval : Serval) (visit : Visit) (caller : Sid) (rpcName : CString) : Publication :=
  (rpcServerRhizomeSendResult serval visit.world.ackInsertion caller rpcName [rpcPktCallAck]).2

/-- The result of the call in a row. -/
def rowAnswer (serval : Serval) (visit : Visit) (caller : Sid) (rpcName : CString)
    (result : ExecuteResult) : Publication :=
  (rpcServerRhizomeSendResult serval visit.world.resultInsertion caller rpcName
    result.resultPayload.cells).2

/-- One round of the loop over the rows; the flag tells whether the loop goes on. -/
def rhizomeRound (serval : Serval) (state : ProcessState) (visit : Visit) :
    Except ServerStop (ProcessState × Bool) := do
  let wanted ← (wantedRow serval state.doneCalls visit.row).mapError .listing
  if !wanted then pure (state, true)
  else match visit.body with
    | none => pure ({ state with returnCode := -1 }, false)
    | some body =>
      let recvPayload ← (loadRange body 0 (sizeOfInt visit.row.filesize)).mapError .packet
      let type ← (load recvPayload 0).mapError .packet
      if type ≠ rpcPktCall then pure (state, true)
      else match ← admitCall serval visit.world.conf recvPayload visit.row.sender with
        | .unparsableSender => pure ({ state with returnCode := -1 }, false)
        | .rejected rp =>
          (rpcFreeRp rp).mapError .procedure
          -- No later row takes this code back.
          pure ({ state with returnCode := -1 }, true)
        | .accepted rp =>
          let caller ← (deref rp.callerSid).mapError .procedure
          let ack := rowAck serval visit caller rp.name
          let result ← excecuteCall serval visit.world.execute rp
          let attempted := state.actions ++ [.publish ack, .excecute rp]
          (rpcFreeRp result.rp).mapError .procedure
          if result.returnCode = 0 then pure ({ state with actions := attempted }, true)
          else
            let answer := rowAnswer serval visit caller rp.name result
            pure ({ state with
              doneCalls := rpcServerRhizomeFinished state.doneCalls visit.row.id
              actions := attempted ++ [.publish answer] }, true)

def rhizomeLoop (serval : Serval) (state : ProcessState) : List Visit → Except ServerStop ProcessState
  | [] => .ok state
  | visit :: visits => do
    let (state, goesOn) ← rhizomeRound serval state visit
    if goesOn then rhizomeLoop serval state visits else pure state

/-- `_rpc_server_rhizome_process`; `listing` is `none` when there is no cURL handle or the listing
is not transferred. -/
def rpcServerRhizomeProcess (serval : Serval) (doneCalls : List CString)
    (listing : Option (List Visit)) : Except ServerStop ProcessState :=
  match listing with
  | none => .ok ⟨-1, doneCalls, []⟩
  | some visits =>
    if visits.length = 0 then .ok ⟨1, doneCalls, []⟩
    else rhizomeLoop serval ⟨0, doneCalls, []⟩ visits

end ServalRpc
