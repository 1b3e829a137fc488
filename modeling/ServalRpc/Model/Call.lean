import ServalRpc.CLib.Strtok
import ServalRpc.Model.Serval

/-! # Call packets

The client flattens the parameters into one string and writes header, name and parameters
into a byte array; the server splits that array again.
-/

namespace ServalRpc

open CLib

/-- The separator `"|"` of a call packet. -/
def callDelimiter : CString := CString.ofChars ['|']

/-! ## Client side -/

/-- `_rpc_flatten_params`; `params` are the cells of the pointer array. -/
def rpcFlattenParams (paramc : Nat) (params : List (Option CString)) (delim : CString) :
    Except Fault CString := do
  let strings ← derefRange params paramc
  pure (strings.foldl (fun flat param => flat ++ delim ++ param) (CString.ofChars []))

/-- `_rpc_client_prepare_call_payload`; `payload` is the caller's array before the call. -/
def rpcClientPrepareCallPayload (serval : Serval) (payload : List UInt8) (paramc : Nat)
    (rpcName flatParams : CString) (requirements : UInt32) : Except Fault (List UInt8) := do
  let payload ← storeRange payload 0 [rpcPktCall]
  let payload ← storeRange payload 1 (serval.writeUint32 requirements)
  -- `write_uint8` keeps the low byte of the count.
  let payload ← storeRange payload 5 [UInt8.ofNat paramc]
  let payload ← storeRange payload 6 rpcName.bytes
  let payload ← storeRange payload (6 + rpcName.length) flatParams.bytes
  storeRange payload (6 + rpcName.length + flatParams.length) [0]

/-- The array that the three client functions declare for the call packet. -/
def callPayloadSize (rpcName flatParams : CString) : Nat :=
  1 + 4 + 1 + rpcName.length + flatParams.length + 1

/-! ## Server side -/

structure ParamRepr where
  paramcN : UInt8
  paramcS : CString
  deriving DecidableEq

/-- `callerSid` is `none` until a handler has set it. -/
structure RPCProcedure where
  name : CString
  paramc : ParamRepr
  params : Block (Option CString)
  callerSid : Option Sid
  deriving DecidableEq

/-- One round of the parameter loop: `rp.params[i++]` becomes a copy of the token. -/
def storeParam (state : Block (Option CString) × Nat) (tok : CString) :
    Block (Option CString) × Nat :=
  (state.1.store state.2 (some tok), state.2 + 1)

/-- `_rpc_server_parse_call`; `payload` is what the handler received. -/
def rpcServerParseCall (payload : List UInt8) (len : Nat) : Except Fault RPCProcedure := do
  let paramcN ← load payload 5
  -- `len - 6` is a `size_t` and wraps when the header is not complete.
  let chPayload ← loadRange payload 6 (sizeSub len 6)
  let (tok, rest) ← strtok 124 chPayload
  let name ← deref tok
  -- The array is as long as the count says, and the loop stores whatever the text holds.
  let params := Block.calloc paramcN.toNat none
  let (params, _) ← strtokFold 124 storeParam (params, 0) rest
  pure ⟨name, ⟨paramcN, CString.decimal paramcN.toNat⟩, params, none⟩

/-- The `read_uint32(&payload[1])` of the handlers. -/
def readRequirements (serval : Serval) (payload : List UInt8) : Except Fault UInt32 := do
  let bytes ← loadRange payload 1 4
  pure (serval.readUint32 bytes)

/-- `_rpc_free_rp` reads every pointer it frees. -/
def rpcFreeRp (rp : RPCProcedure) : Except Fault Unit :=
  (List.range rp.paramc.paramcN.toNat).forM fun i => do
    let _ ← load rp.params.cells i

end ServalRpc
