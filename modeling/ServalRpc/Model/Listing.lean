import ServalRpc.CLib.Walk
import ServalRpc.Model.Client
import ServalRpc.Model.CurlMemory
import ServalRpc.Model.JsonParser
import ServalRpc.Model.Server

/-! # From the body of a response to the rows of a listing

Three functions copy the body of `bundlelist.json` to an array, have it parsed, and take the rows
apart by position.  A row that has been taken apart is a `Row`, and the filters are those on rows.
-/

namespace ServalRpc

open CLib

/-! ## The body -/

def rowsKey : CString := CString.ofChars ['r', 'o', 'w', 's']

/-- The record behind a completed transfer of this body. -/
def receivedBody (body : List UInt8) : CurlResultMemory :=
  ⟨some (body ++ [0]), body.length⟩

/-- `json_string`, which has `(size_t)size - 1` cells. -/
def jsonString (curlResultMemory : CurlResultMemory) : Except Fault (List UInt8) := do
  let memory ← deref curlResultMemory.memory
  loadRange memory 0 (sizeSub curlResultMemory.size 1)

section Rows

variable {D : Type} (doubles : Doubles D) (view : D → Int)

/-- The `rows` of a listing: `json_string` is all that lies there for the parser. -/
def listingRows (curlResultMemory : CurlResultMemory) : Except ParseStop (Option Json) := do
  let jsonString ← (jsonString curlResultMemory).mapError .fault
  let incomingJson ← cJSONParse doubles jsonString
  pure (cJSONGetObjectItem (incomingJson.map (itemFields view none)) rowsKey)

end Rows

/-! ## A row -/

/-- `cJSON_GetArrayItem(recent_file, position)->...` for some positions. -/
def readItems (recentFile : Option Json) (positions : List Nat) : Except Fault Unit :=
  positions.forM fun position => do
    let _ ← deref (cJSONGetArrayItem recentFile position)

/-- The `valuestring` of an item. -/
def itemString (recentFile : Option Json) (position : Nat) : Option CString :=
  (cJSONGetArrayItem recentFile position).bind Json.valuestring

/-- `bid`, and the `id` of the server. -/
def itemId (recentFile : Option Json) : Option CString :=
  itemString recentFile 3

/-- The items of a row under the names of their columns.  Those that a function does not read are
not there for it. -/
def rowOf (recentFile : Option Json) : Row where
  token := itemString recentFile 0
  service := itemString recentFile 2
  id := (itemId recentFile).getD (CString.ofChars [])
  version := (cJSONGetArrayItem recentFile 4).elim 0 Json.valuedouble
  inserttime := (cJSONGetArrayItem recentFile 6).elim 0 Json.valuedouble
  filesize := (cJSONGetArrayItem recentFile 9).elim 0 Json.valueint
  filehash := (itemString recentFile 10).getD (CString.ofChars [])
  sender := itemString recentFile 11
  recipient := itemString recentFile 12
  name := itemString recentFile 13

/-- `cJSON_GetArrayItem(rows, i)` for the first `count` values of `i`. -/
def recentFiles (rows : Option Json) (count : Nat) : List (Option Json) :=
  (List.range count).map (cJSONGetArrayItem rows)

/-! ## The server -/

/-- What comes of a row that the server handles: the payload is not transferred, it is no call, or it
is one, which is done (`finished`) or not. -/
inductive ServerHandling where
  | failed
  | noCall
  | call (finished : Bool)
  deriving DecidableEq

/-- A row of the loop of `_rpc_server_rhizome_process`; the state is `done_calls`. -/
def serverVisit (serval : Serval) (handling : ServerHandling) (doneCalls : List CString)
    (recentFile : Option Json) : Except Fault (List CString × Bool) := do
  readItems recentFile [2, 3, 9, 11, 12]
  let row := rowOf recentFile
  -- The id is only read when there is one to compare it with.
  if doneCalls ≠ [] then
    let _ ← deref (itemId recentFile)
  if !(← wantedRow serval doneCalls row) then pure (doneCalls, true)
  else
    -- The URL of the payload has the id once more.
    let bid ← deref (itemId recentFile)
    match handling with
    | .failed => pure (doneCalls, false)
    | .noCall => pure (doneCalls, true)
    | .call finished =>
      let sender ← deref row.sender
      match serval.strToSidT sender with
      | none => pure (doneCalls, false)
      | some _ =>
        pure (if finished then rpcServerRhizomeFinished doneCalls bid else doneCalls, true)

/-- `_rpc_server_rhizome_process` on the rows of a listing. -/
def serverRows (serval : Serval) (handlings : Nat → ServerHandling) (doneCalls : List CString)
    (rows : Option Json) : Except Fault (List CString) := do
  let numFiles ← cJSONGetArraySize rows
  if numFiles = 0 then pure doneCalls
  else walk (serverVisit serval) (recentFiles rows numFiles) handlings doneCalls

/-! ## The download -/

/-- A row of the loop of `_rpc_download_file`; the state is the sender of the row that ended it. -/
def downloadVisit (serval : Serval) (rpcName sid : CString) (_ : Unit) (found : Option CString)
    (recentFile : Option Json) : Except Fault (Option CString × Bool) := do
  readItems recentFile [2, 4, 11, 12, 13]
  match ← wantedFile serval rpcName sid (rowOf recentFile) with
  | none => pure (found, true)
  | some sender =>
    let _ ← deref (itemId recentFile)
    -- Transferred or not, the payload of this row is the last one.
    pure (some sender, false)

/-- `_rpc_download_file` on the rows of a listing. -/
def downloadRows (serval : Serval) (rpcName sid : CString) (rows : Option Json) :
    Except Fault (Option CString) := do
  let numRows ← cJSONGetArraySize rows
  if numRows = 0 then pure none
  else walk (downloadVisit serval rpcName sid) (recentFiles rows numRows) (fun _ => ()) none

/-! ## The client -/

/-- What the client meets at a row: the time, and whether the loop goes on behind a row that it
handles. -/
structure ListenHandling where
  now : Int
  transferred : Bool
  goesOn : Bool
  deriving DecidableEq

/-- A row of the inner loop of `_rpc_client_rhizome_listen`; the state is the token. -/
def listenVisit (call : ClientCall) (handling : ListenHandling) (_ : Option CString)
    (recentFile : Option Json) : Except Fault (Option CString × Bool) := do
  readItems recentFile [0, 2, 6, 11, 12, 13]
  let row := rowOf recentFile
  if !(← interestingRow call handling.now row) then pure (row.token, true)
  else
    let _ ← deref row.sender
    let _ ← deref (itemId recentFile)
    if handling.transferred then
      readItems recentFile [9]
      pure (row.token, handling.goesOn)
    else pure (row.token, false)

/-- A round of `_rpc_client_rhizome_listen` on the rows of a listing. -/
def listenRows (call : ClientCall) (handlings : Nat → ListenHandling) (token : Option CString)
    (rows : Option Json) : Except Fault (Option CString) := do
  let numFiles ← match token with
    | some _ => cJSONGetArraySize rows
    | none => pure 1
  walk (listenVisit call) (recentFiles rows numFiles) handlings token

/-! ## The three functions -/

section Listings

variable {D : Type} (doubles : Doubles D) (view : D → Int)

/-- What a function does with the body of a listing, by what it does with its rows. -/
def withRows {α : Type} (curlResultMemory : CurlResultMemory)
    (rowsRead : Option Json → Except Fault α) : Except ParseStop α := do
  let rows ← listingRows doubles view curlResultMemory
  (rowsRead rows).mapError .fault

/-- `_rpc_server_rhizome_process` on a listing. -/
def serverListing (serval : Serval) (curlResultMemory : CurlResultMemory)
    (handlings : Nat → ServerHandling) (doneCalls : List CString) :
    Except ParseStop (List CString) :=
  withRows doubles view curlResultMemory (serverRows serval handlings doneCalls)

/-- `_rpc_download_file` on a listing. -/
def downloadListing (serval : Serval) (rpcName sid : CString) (curlResultMemory : CurlResultMemory) :
    Except ParseStop (Option CString) :=
  withRows doubles view curlResultMemory (downloadRows serval rpcName sid)

/-- A round of `_rpc_client_rhizome_listen` on a listing. -/
def listenListing (call : ClientCall) (curlResultMemory : CurlResultMemory)
    (handlings : Nat → ListenHandling) (token : Option CString) :
    Except ParseStop (Option CString) :=
  withRows doubles view curlResultMemory (listenRows call handlings token)

end Listings

end ServalRpc
