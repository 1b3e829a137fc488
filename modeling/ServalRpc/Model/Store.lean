import ServalRpc.Model.Serval

/-! # The Rhizome store

What the program sees of the store through the daemon: the rows of the bundle list, newest
first, and the decrypted payload of each bundle.  The rows are those that the JSON parser
returns; a JSON null is `none`.
-/

namespace ServalRpc

open CLib

/-- A row of `bundlelist.json`, with the fields in the order of the listing. -/
structure Row where
  token : Option CString
  service : Option CString
  id : CString
  version : Int
  inserttime : Int
  filesize : Int
  filehash : CString
  sender : Option CString
  recipient : Option CString
  name : Option CString
  deriving DecidableEq

/-- The answers of the daemon while one function runs; `none` is a failed transfer. -/
structure StoreWorld where
  listing : Option (List Row)
  decrypted : CString → Option (List UInt8)

def serviceRpc : CString := CString.ofChars ['R', 'P', 'C']

/-- `!strncmp(service, "RPC", strlen("RPC"))`. -/
def serviceIsRpc (service : CString) : Bool :=
  CString.strncmpEq service serviceRpc serviceRpc.length

/-- The `not_my_file` of the server and of the download: the bundle is for nobody in particular
or for this node. -/
def forNobodyOrMe (serval : Serval) (recipient : Option CString) : Bool :=
  match recipient with
  | none => true
  | some recipient => recipient == tohexSidT serval.mySid

/-! ## Filehashes -/

/-- `_rpc_str_is_filehash`: 128 upper-case hexadecimal digits. -/
def rpcStrIsFilehash (hash : CString) : Bool :=
  hash.length == 128 && hash.bytes.all fun byte => (48 ≤ byte && byte ≤ 57) || (65 ≤ byte && byte ≤ 70)

/-! ## Downloading a file -/

def rpcTmpFolder : CString :=
  CString.ofChars ['/', 't', 'm', 'p', '/', 'r', 'p', 'c', '_', 't', 'm', 'p', '/']

/-- `printf` with `PRId64`. -/
def decimalInt (number : Int) : CString :=
  if number < 0 then CString.ofChars ['-'] ++ CString.decimal number.natAbs
  else CString.decimal number.natAbs

/-- The path of the downloaded file: `f_<name>_<version>_<sender>` in the temporary folder. -/
def downloadPath (rpcName : CString) (version : Int) (sender : CString) : CString :=
  rpcTmpFolder ++ (CString.ofChars ['f', '_'] ++ rpcName ++ CString.ofChars ['_'] ++
    decimalInt version ++ CString.ofChars ['_'] ++ sender)

/-- What a call of `_rpc_download_file` leaves behind: its return code, and the path copied to
`fpath` with the bytes of the file there. -/
structure Download where
  returnCode : Int
  file : Option (CString × List UInt8)
  deriving DecidableEq

/-- The filter of `_rpc_download_file` on one row, with the sender for the path. -/
def wantedFile (serval : Serval) (rpcName sid : CString) (row : Row) :
    Except Fault (Option CString) := do
  let rpcCmpName := CString.ofChars ['f', '_'] ++ rpcName
  let service ← deref row.service
  let name ← deref row.name
  let filenameIsRight := CString.strncmpEq name rpcCmpName rpcCmpName.length
  let notMyFile := forNobodyOrMe serval row.recipient
  -- Neither this filter nor its caller compares the filehash of the row.
  match row.sender with
  | none => pure none
  | some sender =>
    let rightClient := CString.strncmpEq (tohexSidT sidBroadcast) sid sid.length ||
      CString.strncmpEq sender sid sid.length
    if serviceIsRpc service && notMyFile && filenameIsRight && rightClient then pure (some sender)
    else pure none

/-- The loop over the rows: the first wanted one is fetched and ends the loop. -/
def downloadLoop (serval : Serval) (store : StoreWorld) (rpcName sid : CString) :
    List Row → Except Fault Download
  | [] => .ok ⟨-1, none⟩
  | row :: rows => do
    match ← wantedFile serval rpcName sid row with
    | none => downloadLoop serval store rpcName sid rows
    | some sender =>
      match store.decrypted row.id with
      | none => pure ⟨-1, none⟩
      | some bytes => pure ⟨1, some (downloadPath rpcName row.version sender, bytes)⟩

/-- `_rpc_download_file`. -/
def rpcDownloadFile (serval : Serval) (store : StoreWorld) (rpcName sid : CString) :
    Except Fault Download :=
  match store.listing with
  | none => .ok ⟨-1, none⟩
  | some rows => if rows.length = 0 then .ok ⟨0, none⟩ else downloadLoop serval store rpcName sid rows

end ServalRpc
