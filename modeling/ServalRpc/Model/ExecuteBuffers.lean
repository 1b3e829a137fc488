import ServalRpc.CLib.Writes
import ServalRpc.Model.FileStore

/-! # The arrays of an execution

`_rpc_server_excecute` writes to two arrays of its own, to two blocks that it allocates, and to the
array of its caller.  The trace follows `Model.FileStore`; the writes of the functions that it calls
are those of `_rpc_flatten_params`.
-/

namespace ServalRpc

open CLib

/-- `bin`, the copy of a path that becomes the first parameter, the block of `_rpc_flatten_params`,
`cmd`, and the array of the caller. -/
inductive ExecuteBuffer where
  | bin
  | param
  | flatParams
  | cmd
  | resultPayload
  deriving DecidableEq

/-- The two `strcat` of `_rpc_flatten_params` for each parameter; `flat` is what they find. -/
def flattenWrites (size : Nat) (delim : CString) :
    CString → List CString → List (Write ExecuteBuffer)
  | _, [] => []
  | flat, param :: params =>
    .append .flatParams size flat.length delim ::
      .append .flatParams size (flat ++ delim).length param ::
        flattenWrites size delim (flat ++ delim ++ param) params

/-- `params_size + paramc + 1`: the block of `_rpc_flatten_params`. -/
def flatParamsBlock (params : List CString) : Nat :=
  (params.map CString.length).sum + params.length + 1

/-- The copy of the path of a downloaded file, which `fetchFirstParam` puts in the first place. -/
def fetchWrites (serval : Serval) (world : ExecuteWorld) (rp : RPCProcedure) :
    List (Write ExecuteBuffer) :=
  match derefAt rp.params.cells 0, rp.callerSid with
  | .ok first, some caller =>
    if rpcStrIsFilehash first then
      match awaitDownload serval rp.name (tohexSidT caller) world.downloads with
      | .ok (some fpath) => [.text .param (fpath.length + 1) fpath]
      | _ => []
    else []
  | _, _ => []

/-- The command line of a procedure whose first parameter is in place. -/
def commandWrites (bin : CString) (rp : RPCProcedure) : List (Write ExecuteBuffer) :=
  let delim := CString.ofChars [' ']
  match derefRange rp.params.cells rp.paramc.paramcN.toNat,
      rpcFlattenParams rp.paramc.paramcN.toNat rp.params.cells delim with
  | .ok params, .ok flatParams =>
    flattenWrites (flatParamsBlock params) delim (CString.ofChars []) params ++
      [.text .cmd (bin.length + flatParams.length) (bin ++ flatParams)]
  -- A null pointer is followed before the block is allocated.
  | _, _ => []

/-- `_rpc_server_excecute` up to `popen`. -/
def startWrites (serval : Serval) (world : ExecuteWorld) (rp : RPCProcedure) :
    List (Write ExecuteBuffer) :=
  let bin := world.sysconfdir ++ binFolder ++ rp.name
  .text .bin (world.sysconfdir.length + binFolder.length + rp.name.length) bin ::
    if !world.binExists bin then []
    else
      fetchWrites serval world rp ++
        match fetchFirstParam serval world rp with
        | .ok (some next) => commandWrites bin next
        | _ => []

/-! ## The packet -/

/-- The line that is read and the end of the packet. -/
def lineWrites (size : Nat) (line : List UInt8) : List (Write ExecuteBuffer) :=
  (if line = [] then [] else [⟨.resultPayload, size, 1, line.length + 1⟩]) ++
    [⟨.resultPayload, size, rpcPktSize, 1⟩]

/-- A process runs: the type, the line, and the filehash if the line names a file. -/
def resultWrites (world : ExecuteWorld) (output : List UInt8) (resultPayload : Block UInt8) :
    List (Write ExecuteBuffer) :=
  let size := resultPayload.cells.length
  let typed := resultPayload.store 0 rpcPktCallResponse
  let line := fgetsLine (rpcPktSize - 1) output
  let printed := (if line = [] then typed else typed.storeFrom 1 (line ++ [0])).store rpcPktSize 0
  [⟨.resultPayload, size, 0, 1⟩] ++ lineWrites size line ++
    match CString.read (printed.cells.drop 1) with
    | .error _ => []
    | .ok result =>
      if world.resultExists result then
        [⟨.resultPayload, size, 1, rpcPktSize - 1⟩, ⟨.resultPayload, size, rpcPktSize, 1⟩]
      else []

/-- `_rpc_server_excecute`. -/
def excecuteWrites (serval : Serval) (world : ExecuteWorld) (resultPayload : Block UInt8)
    (rp : RPCProcedure) : List (Write ExecuteBuffer) :=
  startWrites serval world rp ++
    match FileStore.startProcess serval world rp with
    | .ok (.running _ run) => resultWrites world run.output resultPayload
    | _ => []

end ServalRpc
