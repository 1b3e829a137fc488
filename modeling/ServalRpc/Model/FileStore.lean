import ServalRpc.Model.Execute
import ServalRpc.Model.Upload

/-! # Files and the replies of the store

`_rpc_add_file_to_store` cuts the filehash out of the reply of the store, and its two callers read it
from an array of theirs.  `Model.Upload` and `Model.Execute` take what is in that array as given; here
it comes from the reply.
-/

namespace ServalRpc.FileStore

open CLib

/-- How the request of an insertion ends. -/
inductive InsertReply where
  /-- `curl_easy_init` has returned `NULL`. -/
  | noHandle
  /-- `curl_easy_perform` has not returned `CURLE_OK`. -/
  | failed
  /-- The bytes that `_rpc_curl_write_response` has been given. -/
  | response (body : List UInt8)

/-- The form that is posted: a manifest, and the file of this path. -/
structure FileRequest where
  filepath : CString
  manifest : CString
  content : List UInt8

/-- What a caller of `_rpc_add_file_to_store` meets: the files that are there, the reply of the store,
and what the stack holds where the `filehash` array is. -/
structure FileWorld where
  file : CString → Option (List UInt8)
  reply : InsertReply
  stack : Nat → UInt8

/-- The return code, the array of the caller, and the request if it was made. -/
structure AddedFile where
  returnCode : Int
  filehash : List UInt8
  request : Option FileRequest

/-- `_rpc_add_file_to_store`; `content` is what the file holds. -/
def rpcAddFileToStore (serval : Serval) (reply : InsertReply) (filehash : List UInt8) (sid : Sid)
    (rpcName filepath : CString) (content : List UInt8) : Except Fault AddedFile :=
  let request : FileRequest := ⟨filepath, fileManifest serval sid rpcName, content⟩
  match reply with
  | .noHandle => .ok ⟨-1, filehash, none⟩
  | .failed => .ok ⟨-1, filehash, some request⟩
  | .response body => do
    -- `_rpc_curl_write_response` keeps a NUL behind what has arrived.
    let memory := body ++ [0]
    let text ← CString.read memory
    -- Without any '=' `strrchr` returns `NULL`.
    let position ← deref (CString.strrchr text 61)
    let responseFilehash ← loadRange memory (position + 1) 128
    let filehash ← storeRange filehash 0 responseFilehash
    let filehash ← storeRange filehash 128 [0]
    pure ⟨0, filehash, some request⟩

/-! ## The client -/

/-- `_rpc_client_replace_if_path`: its return code, the flat parameters, and the request. -/
def rpcClientReplaceIfPath (serval : Serval) (files : FileWorld) (rpcName : CString)
    (params : List (Option CString)) (paramc : Nat) :
    Except Fault (Int × CString × Option FileRequest) := do
  let first ← derefAt params 0
  match files.file first with
  | some content =>
    let filehash := (List.range 129).map files.stack
    -- The return code is not looked at.
    let added ← rpcAddFileToStore serval files.reply filehash sidBroadcast rpcName first content
    let newParam ← CString.read added.filehash
    let flat ← rpcFlattenParams paramc (some newParam :: params.drop 1) callDelimiter
    pure (0, flat, added.request)
  | none =>
    let flat ← rpcFlattenParams paramc params callDelimiter
    pure (0, flat, none)

/-! ## The server -/

/-- Where `_rpc_server_excecute` is before it reads the pipe: it has returned 0, it waits for a file,
or a process runs. -/
inductive Started where
  | refused (rp : RPCProcedure)
  | downloading
  | running (rp : RPCProcedure) (run : ProcessRun)

/-- `_rpc_server_excecute` up to `popen`. -/
def startProcess (serval : Serval) (world : ExecuteWorld) (rp : RPCProcedure) :
    Except Fault Started := do
  let bin := world.sysconfdir ++ binFolder ++ rp.name
  if !world.binExists bin then pure (.refused rp)
  else
    match ← fetchFirstParam serval world rp with
    | none => pure .downloading
    | some rp =>
      let flatParams ← rpcFlattenParams rp.paramc.paramcN.toNat rp.params.cells
        (CString.ofChars [' '])
      match world.popen (bin ++ flatParams) with
      | none => pure (.refused rp)
      | some run => pure (.running rp run)

/-- The result packet from the output of the process, and the request if the output names a file. -/
def collectResult (serval : Serval) (files : FileWorld) (rp : RPCProcedure) (output : List UInt8)
    (resultPayload : Block UInt8) : Except Fault (Block UInt8 × Option FileRequest) := do
  let resultPayload := resultPayload.store 0 rpcPktCallResponse
  let line := fgetsLine (rpcPktSize - 1) output
  let resultPayload := if line = [] then resultPayload else resultPayload.storeFrom 1 (line ++ [0])
  let resultPayload := resultPayload.store rpcPktSize 0
  let result ← CString.read (resultPayload.cells.drop 1)
  match files.file result with
  | some content =>
    let filehash := (List.range rpcPktSize).map files.stack
    let caller ← deref rp.callerSid
    -- Here, too, the return code is not looked at.
    let added ← rpcAddFileToStore serval files.reply filehash caller rp.name result content
    let filehash ← loadRange added.filehash 0 (rpcPktSize - 1)
    let resultPayload := resultPayload.storeFrom 1 filehash
    pure (resultPayload.store rpcPktSize 0, added.request)
  | none => pure (resultPayload, none)

/-- `_rpc_server_excecute`, with the request that it makes of the store. -/
def rpcServerExcecute (serval : Serval) (world : ExecuteWorld) (files : FileWorld)
    (resultPayload : Block UInt8) (rp : RPCProcedure) :
    Except Fault (Option ExecuteResult × Option FileRequest) := do
  match ← startProcess serval world rp with
  | .refused rp => pure (some ⟨0, resultPayload, rp⟩, none)
  | .downloading => pure (none, none)
  | .running rp run =>
    let (resultPayload, request) ← collectResult serval files rp run.output resultPayload
    pure (some ⟨if run.exitStatus ≠ 0 then 0 else 1, resultPayload, rp⟩, request)

end ServalRpc.FileStore
