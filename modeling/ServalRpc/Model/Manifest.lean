import ServalRpc.CLib.Writes
import ServalRpc.Model.Daemon
import ServalRpc.Model.Upload

/-! # The arrays of the manifests

Three functions build a manifest in an array `manifest_str` of theirs, two of them differently for a
call that is not meant for one node.  The size of the array is computed from the length of a format
without its conversions and the lengths of what replaces them.
-/

namespace ServalRpc

open CLib

/-- The manifest of `rpc_client_call_rhizome`; a call for everybody or anybody has no recipient. -/
def callManifest (serval : Serval) (sid : Sid) (rpcName : CString) : CString :=
  let manifest := CString.ofChars ['s', 'e', 'r', 'v', 'i', 'c', 'e', '=', 'R', 'P', 'C', '\n'] ++
    CString.ofChars ['n', 'a', 'm', 'e', '='] ++ rpcName ++
    CString.ofChars ['\n', 's', 'e', 'n', 'd', 'e', 'r', '='] ++ tohexSidT serval.mySid
  if isSidTBroadcast sid || isSidTAny sid then manifest ++ CString.ofChars ['\n']
  else manifest ++
    CString.ofChars ['\n', 'r', 'e', 'c', 'i', 'p', 'i', 'e', 'n', 't', '='] ++ tohexSidT sid ++
    CString.ofChars ['\n']

/-- The functions that build a manifest: `rpc_client_call_rhizome`, `_rpc_add_file_to_store` and
`_rpc_server_rhizome_send_result`. -/
inductive ManifestBuilder where
  | call
  | file
  | result
  deriving DecidableEq

namespace ManifestBuilder

/-- The text that `sprintf` writes to `manifest_str`. -/
def text : ManifestBuilder → Serval → Sid → CString → CString
  | call => callManifest
  | file => fileManifest
  | result => resultManifest

/-! ## Sizes -/

/-- `"service=RPC\nname="`, the front of the texts that are measured for a call and for a result. -/
def frontText : CString :=
  CString.ofChars ['s', 'e', 'r', 'v', 'i', 'c', 'e', '=', 'R', 'P', 'C', '\n'] ++
    CString.ofChars ['n', 'a', 'm', 'e', '=']

/-- `"\nsender=\n"` -/
def senderText : CString :=
  CString.ofChars ['\n', 's', 'e', 'n', 'd', 'e', 'r', '=', '\n']

/-- `"recipient=\n"` -/
def recipientText : CString :=
  CString.ofChars ['r', 'e', 'c', 'i', 'p', 'i', 'e', 'n', 't', '=', '\n']

/-- `"service=RPC\nname=f_"` -/
def fileFrontText : CString := frontText ++ CString.ofChars ['f', '_']

/-- `"service=RPC\nnamef_="`: the text that is measured for a file with a recipient. -/
def misspeltFrontText : CString :=
  CString.ofChars ['s', 'e', 'r', 'v', 'i', 'c', 'e', '=', 'R', 'P', 'C', '\n'] ++
    CString.ofChars ['n', 'a', 'm', 'e', 'f', '_', '=']

/-- The `manifest_size` of a manifest without a recipient. -/
def sizeForAll (front : CString) (sid : Sid) (rpcName : CString) : Nat :=
  (front ++ senderText).length + rpcName.length + (tohexSidT sid).length

/-- The `manifest_size` of a manifest with a recipient. -/
def sizeForOne (front : CString) (sid : Sid) (rpcName : CString) : Nat :=
  (front ++ senderText ++ recipientText).length + rpcName.length + (tohexSidT sid).length * 2

/-- `manifest_size`: the cells of `manifest_str`. -/
def manifestSize : ManifestBuilder → Sid → CString → Nat
  | call, sid, rpcName =>
    if isSidTBroadcast sid || isSidTAny sid then sizeForAll frontText sid rpcName
    else sizeForOne frontText sid rpcName
  | file, sid, rpcName =>
    if isSidTBroadcast sid then sizeForAll fileFrontText sid rpcName
    else sizeForOne misspeltFrontText sid rpcName
  | result, sid, rpcName => sizeForOne frontText sid rpcName

/-- The write of a builder. -/
def write (builder : ManifestBuilder) (serval : Serval) (sid : Sid) (rpcName : CString) :
    Write Unit :=
  .text () (builder.manifestSize sid rpcName) (builder.text serval sid rpcName)

end ManifestBuilder

/-! ## Reading a manifest line by line -/

/-- The key and the value of a line, which are separated by its first `=`. -/
def keyValue (line : CString) : Option (CString × CString) :=
  if 61 ∈ line.bytes then
    some (CString.upToNul (line.bytes.takeWhile (· != 61)),
      CString.upToNul ((line.bytes.dropWhile (· != 61)).drop 1))
  else none

/-- The lines of a manifest, `none` for one that is no `key=value`. -/
def readLines (manifest : CString) : List (Option (CString × CString)) :=
  (tokens 10 manifest.bytes).map keyValue

end ServalRpc
