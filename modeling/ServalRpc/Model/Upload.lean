import ServalRpc.Model.Server

/-! # The parameters of a call

In a complex call the first parameter is the path of a local file.  The client publishes the file
and passes its filehash instead.  All parameters go into one array, and from there into the packet.
-/

namespace ServalRpc

open CLib

/-- The manifest of `_rpc_add_file_to_store`; a file for everybody has no recipient. -/
def fileManifest (serval : Serval) (sid : Sid) (rpcName : CString) : CString :=
  let manifest := CString.ofChars ['s', 'e', 'r', 'v', 'i', 'c', 'e', '=', 'R', 'P', 'C', '\n'] ++
    CString.ofChars ['n', 'a', 'm', 'e', '=', 'f', '_'] ++ rpcName ++
    CString.ofChars ['\n', 's', 'e', 'n', 'd', 'e', 'r', '='] ++ tohexSidT serval.mySid
  if isSidTBroadcast sid then manifest ++ CString.ofChars ['\n']
  else manifest ++
    CString.ofChars ['\n', 'r', 'e', 'c', 'i', 'p', 'i', 'e', 'n', 't', '='] ++ tohexSidT sid ++
    CString.ofChars ['\n']

/-- `_rpc_add_file_to_store`. -/
def rpcAddFileToStore (serval : Serval) (accepted : Bool) (sid : Sid) (rpcName : CString)
    (content : List UInt8) : Int × Publication :=
  (if accepted then 0 else -1,
    { manifest := fileManifest serval sid rpcName
      content := content
      accepted := accepted })

/-- What the client meets while it prepares the parameters: the files that are there, the outcome
of an insertion, and the text of the `filehash` array after it. -/
structure UploadWorld where
  file : CString → Option (List UInt8)
  accepted : Bool
  filehash : CString

/-- `_rpc_client_replace_if_path`: the flat parameters, and the bundle if one is published. -/
def rpcClientReplaceIfPath (serval : Serval) (world : UploadWorld) (rpcName : CString)
    (params : List (Option CString)) (paramc : Nat) :
    Except Fault (CString × Option Publication) := do
  let first ← derefAt params 0
  match world.file first with
  | some content =>
    -- The return code is not looked at, nor who is called.
    let publication := (rpcAddFileToStore serval world.accepted sidBroadcast rpcName content).2
    let flat ← rpcFlattenParams paramc (some world.filehash :: params.drop 1) callDelimiter
    pure (flat, some publication)
  | none =>
    let flat ← rpcFlattenParams paramc params callDelimiter
    pure (flat, none)

/-! ## The packet -/

/-- The size of the array `flat_params` of the three call functions. -/
def flatParamsSize : Nat := 512

/-- What `rpc_client_call_mdp`, `rpc_client_call_msp` and `rpc_client_call_rhizome` do alike with their
arguments: the text that they copy to `flat_params`, and the packet.  The array of the packet is as
long as its parts, and `stack` is what it holds before. -/
def prepareCall (serval : Serval) (world : UploadWorld) (stack : Nat → UInt8) (rpcName : CString)
    (params : List (Option CString)) (paramc : Nat) (requirements : UInt32) :
    Except Fault (CString × List UInt8) := do
  -- `strcpy` copies the text whatever its length.
  let (flatParams, _) ← rpcClientReplaceIfPath serval world rpcName params paramc
  let payload := (List.range (callPayloadSize rpcName flatParams)).map stack
  let payload ← rpcClientPrepareCallPayload serval payload paramc rpcName flatParams requirements
  pure (flatParams, payload)

end ServalRpc
