import ServalRpc.Model.Call
import ServalRpc.Model.Store

/-! # Executing a procedure

`_rpc_server_excecute` builds a command line from the procedure, hands it to `popen`, and
puts the first line of its output into the result packet.
-/

namespace ServalRpc

open CLib

/-- What the started process prints, and its exit status. -/
structure ProcessRun where
  output : List UInt8
  exitStatus : Nat

/-- What one execution meets outside the program. -/
structure ExecuteWorld where
  sysconfdir : CString
  /-- `!access(path, F_OK)` for the binary. -/
  binExists : CString → Bool
  /-- The store at each round of the download loop. -/
  downloads : List StoreWorld
  /-- `popen`; `none` is `NULL`. -/
  popen : CString → Option ProcessRun
  /-- `!access(path, F_OK)` for the first line of the output. -/
  resultExists : CString → Bool
  /-- The `filehash` array after `_rpc_add_file_to_store`. -/
  filehash : List UInt8

/-- The return code, the caller's packet, and the procedure, whose first parameter may have been
replaced. -/
structure ExecuteResult where
  returnCode : Int
  resultPayload : Block UInt8
  rp : RPCProcedure

def binFolder : CString :=
  CString.ofChars ['/', 's', 'e', 'r', 'v', 'a', 'l', '/', 'r', 'p', 'c', '_', 'b', 'i', 'n', '/']

/-- `while (_rpc_download_file(fpath, ...) != 1) sleep(1);`: the path of the first success, or
`none` when no round has succeeded yet. -/
def awaitDownload (serval : Serval) (rpcName sid : CString) :
    List StoreWorld → Except Fault (Option CString)
  | [] => .ok none
  | store :: later => do
    let download ← rpcDownloadFile serval store rpcName sid
    if download.returnCode = 1 then pure (download.file.map Prod.fst)
    else awaitDownload serval rpcName sid later

/-- A first parameter that is a filehash is replaced by the path of the downloaded file. -/
def fetchFirstParam (serval : Serval) (world : ExecuteWorld) (rp : RPCProcedure) :
    Except Fault (Option RPCProcedure) := do
  -- The first parameter is read whatever the count is.
  let first ← derefAt rp.params.cells 0
  if rpcStrIsFilehash first then
    let caller ← deref rp.callerSid
    match ← awaitDownload serval rp.name (tohexSidT caller) world.downloads with
    | none => pure none
    | some fpath => pure (some { rp with params := rp.params.store 0 (some fpath) })
  else pure (some rp)

/-- `fgets(buffer, size, pipe)`: up to `size - 1` bytes, and no further than the first newline. -/
def fgetsLine (size : Nat) (output : List UInt8) : List UInt8 :=
  let line := output.takeWhile (· != 10)
  ((line ++ (output.drop line.length).take 1)).take (size - 1)

/-- The result packet from the output of the process. -/
def collectResult (world : ExecuteWorld) (output : List UInt8) (resultPayload : Block UInt8) :
    Except Fault (Block UInt8) := do
  let resultPayload := resultPayload.store 0 rpcPktCallResponse
  let line := fgetsLine (rpcPktSize - 1) output
  -- Without any output `fgets` returns `NULL` and leaves the buffer alone.
  let resultPayload := if line = [] then resultPayload else resultPayload.storeFrom 1 (line ++ [0])
  let resultPayload := resultPayload.store rpcPktSize 0
  let result ← CString.read (resultPayload.cells.drop 1)
  if world.resultExists result then
    let filehash ← loadRange world.filehash 0 (rpcPktSize - 1)
    let resultPayload := resultPayload.storeFrom 1 filehash
    pure (resultPayload.store rpcPktSize 0)
  else pure resultPayload

/-- `_rpc_server_excecute`; `none` when it is still in its download loop. -/
def rpcServerExcecute (serval : Serval) (world : ExecuteWorld) (resultPayload : Block UInt8)
    (rp : RPCProcedure) : Except Fault (Option ExecuteResult) := do
  let bin := world.sysconfdir ++ binFolder ++ rp.name
  if !world.binExists bin then pure (some ⟨0, resultPayload, rp⟩)
  else
    match ← fetchFirstParam serval world rp with
    | none => pure none
    | some rp =>
      let flatParams ← rpcFlattenParams rp.paramc.paramcN.toNat rp.params.cells
        (CString.ofChars [' '])
      match world.popen (bin ++ flatParams) with
      | none => pure (some ⟨0, resultPayload, rp⟩)
      | some run =>
        let resultPayload ← collectResult world run.output resultPayload
        pure (some ⟨if run.exitStatus ≠ 0 then 0 else 1, resultPayload, rp⟩)

end ServalRpc
