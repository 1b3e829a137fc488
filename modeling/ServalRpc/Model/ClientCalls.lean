import ServalRpc.Model.Client

/-! # The entry points of the client

`received` and `rpc_result` are global, so a call finds them as the previous call of the process has
left them.  Each entry point is modelled from the point where it looks at them to its return; a
call that the given inputs do not end has no return code yet.
-/

namespace ServalRpc

open CLib

/-- The globals `received` and `rpc_result`. -/
structure ClientMemory where
  received : Int
  rpcResult : ResultTable

def ClientMemory.initial : ClientMemory := ⟨0, .empty⟩

structure CallOutcome where
  code : Option Int
  memory : ClientMemory

/-- What the caller of the API sees. -/
def CallOutcome.visible (outcome : CallOutcome) : Option Int × ResultTable :=
  (outcome.code, outcome.memory.rpcResult)

/-! ## MDP -/

/-- The return value of `rpc_client_call_mdp`, if it returns in this state. -/
def MdpState.code (state : MdpState) : Option Int :=
  match state.returned with
  | some code => some code
  | none => if state.received = 0 ∨ state.received = 1 then none else some state.received

def mdpLoop (call : ClientCall) (state : MdpState) : List MdpInput → Except ClientStop MdpState
  | [] => .ok state
  | input :: inputs => do
    if state.code.isSome then pure state
    else
      let next ← rpcClientCallMdpRound call state (mdpEvent state input)
      mdpLoop call next inputs

/-- What `rpc_client_call_mdp` meets: the result of `_rpc_sid_is_reachable`, whether it gets and binds
its socket, and the rounds of its loop. -/
structure MdpCallWorld where
  reachable : Int
  socket : Bool
  bound : Bool
  inputs : List MdpInput

/-- A server that is named has to be reachable. -/
def mdpRefuses (call : ClientCall) (reachable : Int) : Bool :=
  !isSidTAny call.sid && !isSidTBroadcast call.sid && reachable == 0

def rpcClientCallMdp (call : ClientCall) (world : MdpCallWorld) (memory : ClientMemory) :
    Except ClientStop CallOutcome := do
  if mdpRefuses call world.reachable then pure ⟨some (-1), memory⟩
  else
    let memory := { memory with rpcResult := .empty }
    if !world.socket then pure ⟨some (-1), memory⟩
    else if !world.bound then pure ⟨some (-1), memory⟩
    else
      let state ← mdpLoop call (.entry memory.received) world.inputs
      pure ⟨state.code, ⟨state.received, state.rpcResult⟩⟩

/-! ## Rhizome -/

/-- The return value of `_rpc_client_rhizome_listen`, if it returns in this state. -/
def RhizomeState.code (state : RhizomeState) : Option Int :=
  match state.returned with
  | some code => some code
  | none => if state.pending = [] ∧ state.received ≠ 0 then some state.returnCode else none

/-- The inner loop takes inputs for its rows, and the outer one takes polls. -/
def RhizomeState.takes (state : RhizomeState) : RhizomeInput → Bool
  | .poll _ _ => state.pending.isEmpty
  | .visit _ => !state.pending.isEmpty

def listenLoop (call : ClientCall) (state : RhizomeState) :
    List RhizomeInput → Except ClientStop RhizomeState
  | [] => .ok state
  | input :: inputs => do
    if state.code.isSome then pure state
    else if state.takes input then
      let event ← rhizomeEvent call state input
      let next ← rpcClientRhizomeListenRound call state event
      listenLoop call next inputs
    else listenLoop call state inputs

/-- Whether there is a cURL handle, and the rounds of both loops. -/
structure ListenWorld where
  curl : Bool
  inputs : List RhizomeInput

def rpcClientRhizomeListen (call : ClientCall) (world : ListenWorld) (memory : ClientMemory) :
    Except ClientStop CallOutcome := do
  if !world.curl then pure ⟨some (-1), memory⟩
  else
    let state ← listenLoop call
      { RhizomeState.entry with received := memory.received, rpcResult := memory.rpcResult }
      world.inputs
    pure ⟨state.code, ⟨state.received, state.rpcResult⟩⟩

structure RhizomeCallWorld where
  curl : Bool
  inserted : Bool
  listen : ListenWorld

/-- `rpc_client_call_rhizome` clears both globals first. -/
def rpcClientCallRhizome (call : ClientCall) (world : RhizomeCallWorld) (_ : ClientMemory) :
    Except ClientStop CallOutcome :=
  if !world.curl then pure ⟨some (-1), .initial⟩
  else if !world.inserted then pure ⟨some (-1), .initial⟩
  else rpcClientRhizomeListen call world.listen .initial

/-! ## MSP -/

/-- `MSP_SOCKET`, which the library and its callers pass by value; `none` is the null pointer. -/
structure MspHandle where
  ptr : Option Nat
  salt : UInt32

def mspSocketIsNull (sock : MspHandle) : Bool := sock.ptr.isNone

/-- The arguments of `_rpc_client_msp_handler`: whether the state has one of `MSP_STATE_CLOSED` and
`MSP_STATE_ERROR`, and `MSP_STATE_SHUTDOWN_REMOTE`; the payload; the sid that `msp_get_remote` gives;
and what a download meets. -/
structure ClientDelivery where
  closed : Bool
  shutdownRemote : Bool
  payload : Option (List UInt8)
  len : Nat
  complete : ∀ bytes ∈ payload, bytes.length = len
  remote : Sid
  downloads : List StoreWorld
  pathRest : Nat → UInt8

/-- A connection that ends before an ACK is a failure. -/
def receivedAtEnd (received : Int) : Int := if received = 1 ∨ received = 2 then received else -1

/-- The bytes that a RESPONSE is stored as; the file is looked for among those of the server. -/
def mspAnswerBytes (call : ClientCall) (delivery : ClientDelivery) (payload : List UInt8) :
    Except ClientStop (List UInt8) := do
  let body ← (CString.read (payload.drop 1)).mapError .fault
  if rpcStrIsFilehash body then
    match ← (awaitDownload call.serval call.rpcName (tohexSidT call.sid)
      delivery.downloads).mapError .fault with
    | none => throw .downloading
    | some fpath =>
      pure (overread fpath.terminated delivery.pathRest (128 + call.rpcName.length + 3))
  else (loadRange payload 1 (sizeSub delivery.len 1)).mapError .fault

/-- `_rpc_client_msp_handler`; the first component is the number of bytes it reports as consumed. -/
def rpcClientMspHandler (call : ClientCall) (memory : ClientMemory) (delivery : ClientDelivery) :
    Except ClientStop (Nat × ClientMemory) := do
  let received := if delivery.closed then receivedAtEnd memory.received else memory.received
  let received := if delivery.shutdownRemote then receivedAtEnd received else received
  let memory := { memory with received }
  match delivery.payload with
  | none => pure (delivery.len, memory)
  | some payload =>
    if delivery.len = 0 then pure (delivery.len, memory)
    else
      let pktType ← (load payload 0).mapError .fault
      if pktType = rpcPktCallAck then pure (delivery.len, { memory with received := 1 })
      else if pktType = rpcPktCallResponse then
        let bytes ← mspAnswerBytes call delivery payload
        let rpcResult ← storeAnswer memory.rpcResult 0 bytes
        pure (delivery.len,
          ⟨2, rpcResult.update 0 fun result => result.setServerSid delivery.remote⟩)
      else pure (delivery.len, memory)

/-- The calls of the handler while `msp_processing`, `msp_recv` or `msp_close_all` runs. -/
def mspDeliver (call : ClientCall) (memory : ClientMemory) :
    List ClientDelivery → Except ClientStop ClientMemory
  | [] => .ok memory
  | delivery :: deliveries => do
    let (_, next) ← rpcClientMspHandler call memory delivery
    mspDeliver call next deliveries

/-- A round of the loop: the socket at its start, and the deliveries in it. -/
structure MspRound where
  socketIsNull : Bool
  socketIsData : Bool
  deliveries : List ClientDelivery

/-- What `rpc_client_call_msp` meets.  It calls `_rpc_client_rhizome_listen` without arguments, which
finds some sid and some name in their place. -/
structure MspCallWorld where
  reachable : Int
  rounds : List MspRound
  closing : List ClientDelivery
  straySid : Sid
  strayName : CString
  listen : ListenWorld

/-- The loop is over, and `msp_close_all` may still call the handler. -/
def mspFinish (call : ClientCall) (world : MspCallWorld) (memory : ClientMemory) :
    Except ClientStop CallOutcome := do
  let memory ← mspDeliver call memory world.closing
  pure ⟨some memory.received, memory⟩

def mspLoop (call : ClientCall) (world : MspCallWorld) (memory : ClientMemory) :
    List MspRound → Except ClientStop CallOutcome
  | [] =>
    if memory.received = 0 ∨ memory.received = 1 then .ok ⟨none, memory⟩
    else mspFinish call world memory
  | round :: rounds => do
    if memory.received = 0 ∨ memory.received = 1 then
      if round.socketIsNull && !round.socketIsData then
        let memory ← mspDeliver call memory world.closing
        rpcClientRhizomeListen ⟨call.serval, world.straySid, world.strayName⟩ world.listen memory
      else
        let memory ← mspDeliver call memory round.deliveries
        mspLoop call world memory rounds
    else mspFinish call world memory

def rpcClientCallMsp (call : ClientCall) (world : MspCallWorld) (memory : ClientMemory) :
    Except ClientStop CallOutcome :=
  if world.reachable = 0 then pure ⟨some (-1), memory⟩
  else mspLoop call world { memory with rpcResult := .empty } world.rounds

/-! ## The transparent call -/

/-- What `rpc_client_call` meets, with the world of the Rhizome call that each code leads to. -/
structure TransparentWorld where
  mdp : MdpCallWorld
  msp : MspCallWorld
  rhizome : Int → RhizomeCallWorld

/-- After a call that returned `trigger`, try Rhizome; the codes up to `trigger` are failures then. -/
def retryOverRhizome (call : ClientCall) (world : TransparentWorld) (trigger : Int)
    (outcome : CallOutcome) : Except ClientStop CallOutcome := do
  if outcome.code = some trigger then
    let again ← rpcClientCallRhizome call (world.rhizome trigger) outcome.memory
    pure { again with code := again.code.map fun code =>
      if -1 ≤ code ∧ code ≤ trigger then -1 else code }
  else pure outcome

def rpcClientCall (call : ClientCall) (world : TransparentWorld) (memory : ClientMemory) :
    Except ClientStop CallOutcome := do
  let memory := { memory with received := 0 }
  let first ←
    if isSidTBroadcast call.sid || isSidTAny call.sid then rpcClientCallMdp call world.mdp memory
    else rpcClientCallMsp call world.msp memory
  let afterFailure ← retryOverRhizome call world (-1) first
  let afterNothing ← retryOverRhizome call world 0 afterFailure
  retryOverRhizome call world 1 afterNothing

/-! ## Calls of one process -/

inductive ApiCall where
  | mdp (call : ClientCall) (world : MdpCallWorld)
  | msp (call : ClientCall) (world : MspCallWorld)
  | rhizome (call : ClientCall) (world : RhizomeCallWorld)
  | transparent (call : ClientCall) (world : TransparentWorld)

def ApiCall.run : ApiCall → ClientMemory → Except ClientStop CallOutcome
  | .mdp call world => rpcClientCallMdp call world
  | .msp call world => rpcClientCallMsp call world
  | .rhizome call world => rpcClientCallRhizome call world
  | .transparent call world => rpcClientCall call world

/-- A call that has returned: what it has found, its code, and the result table that it has left. -/
structure ApiEvent where
  api : ApiCall
  found : ClientMemory
  code : Int
  rpcResult : ResultTable

structure ApiStep (before : ClientMemory) (event : ApiEvent) (after : ClientMemory) : Prop where
  found : event.found = before
  called : event.api.run before = .ok ⟨some event.code, after⟩
  left : event.rpcResult = after.rpcResult

end ServalRpc
