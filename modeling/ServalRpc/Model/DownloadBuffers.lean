import ServalRpc.CLib.Writes
import ServalRpc.Model.Execute

/-! # The arrays of a download

`_rpc_download_file` formats four texts and copies the last path to the array of its caller, which
copies it on.  The traces here follow the loops of `Model.Store` and `Model.Execute`.
-/

namespace ServalRpc

open CLib

/-- The arrays that are written, in the order of the source: four of the download, the `fpath` of
its caller, and what the caller copies the path to. -/
inductive DownloadBuffer where
  | rpcCmpName
  | rpcDownName
  | filepath
  | urlDecrypt
  | fpath
  | param
  | content
  deriving DecidableEq

/-- `_rpc_server_excecute`, `rpc_client_call_mdp`, `_rpc_client_rhizome_listen` and
`_rpc_client_msp_handler`. -/
inductive DownloadCaller where
  | serverExcecute
  | clientCallMdp
  | clientRhizomeListen
  | clientMspHandler
  deriving DecidableEq

def rpcCmpName (rpcName : CString) : CString :=
  CString.ofChars ['f', '_'] ++ rpcName

def rpcDownName (rpcName : CString) (version : Int) (sender : CString) : CString :=
  CString.ofChars ['f', '_'] ++ rpcName ++ CString.ofChars ['_'] ++ decimalInt version ++
    CString.ofChars ['_'] ++ sender

/-- `"http://localhost:4110/restful/rhizome/%s/decrypted.bin"` -/
def urlDecrypt (bid : CString) : CString :=
  CString.ofChars ['h', 't', 't', 'p', ':', '/', '/', 'l', 'o', 'c', 'a', 'l', 'h', 'o', 's', 't'] ++
    CString.ofChars [':', '4', '1', '1', '0', '/', 'r', 'e', 's', 't', 'f', 'u', 'l', '/'] ++
    CString.ofChars ['r', 'h', 'i', 'z', 'o', 'm', 'e', '/'] ++ bid ++
    CString.ofChars ['/', 'd', 'e', 'c', 'r', 'y', 'p', 't', 'e', 'd', '.', 'b', 'i', 'n']

/-- `sizeof(in_time)` and `sizeof(sender)`: a number and a pointer. -/
def sizeofInTime : Nat := 8

def sizeofSender : Nat := 8

/-- `128 + strlen(rpc_name) + 3`: the `fpath` array of every caller. -/
def fpathSize (rpcName : CString) : Nat := 128 + rpcName.length + 3

/-- The texts for a row that the filter takes. -/
def wantedFileWrites (store : StoreWorld) (rpcName : CString) (row : Row) (sender : CString) :
    List (Write DownloadBuffer) :=
  let downName := rpcDownName rpcName row.version sender
  let filepath := rpcTmpFolder ++ downName
  [.text .rpcDownName (4 + rpcName.length + sizeofInTime + sizeofSender) downName,
    .text .filepath (rpcTmpFolder.length + downName.length) filepath,
    .text .urlDecrypt 117 (urlDecrypt row.id)] ++
    match store.decrypted row.id with
    | none => []
    | some _ => [.text .fpath (fpathSize rpcName) filepath]

/-- The loop over the rows. -/
def downloadLoopWrites (serval : Serval) (store : StoreWorld) (rpcName sid : CString) :
    List Row → List (Write DownloadBuffer)
  | [] => []
  | row :: rows =>
    .text .rpcCmpName (4 + rpcName.length) (rpcCmpName rpcName) ::
      match wantedFile serval rpcName sid row with
      -- The filter has followed a null pointer.
      | .error _ => []
      | .ok none => downloadLoopWrites serval store rpcName sid rows
      | .ok (some sender) => wantedFileWrites store rpcName row sender

/-- `_rpc_download_file`. -/
def downloadWrites (serval : Serval) (store : StoreWorld) (rpcName sid : CString) :
    List (Write DownloadBuffer) :=
  match store.listing with
  | none => []
  | some rows => downloadLoopWrites serval store rpcName sid rows

/-- The copy of a caller: the server takes the path, the clients the whole of `fpath`. -/
def DownloadCaller.copyWrite (caller : DownloadCaller) (rpcName fpath : CString) :
    Write DownloadBuffer :=
  match caller with
  | .serverExcecute => .text .param (fpath.length + 1) fpath
  | .clientCallMdp | .clientRhizomeListen | .clientMspHandler =>
    ⟨.content, rpcPktSize, 0, 128 + rpcName.length + 3⟩

/-- `while (_rpc_download_file(fpath, ...) != 1) sleep(1);` and the copy behind it. -/
def awaitDownloadWrites (caller : DownloadCaller) (serval : Serval) (rpcName sid : CString) :
    List StoreWorld → List (Write DownloadBuffer)
  | [] => []
  | store :: later =>
    downloadWrites serval store rpcName sid ++
      match rpcDownloadFile serval store rpcName sid with
      | .error _ => []
      | .ok download =>
        if download.returnCode = 1 then
          (download.file.map Prod.fst).toList.map (caller.copyWrite rpcName)
        else awaitDownloadWrites caller serval rpcName sid later

end ServalRpc
