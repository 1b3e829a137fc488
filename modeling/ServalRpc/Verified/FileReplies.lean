import ServalRpc.Verified.PlainStrings
import ServalRpc.Verified.ProcessStart

/-! # Filehashes and the replies of the store

A filehash is the 128 characters behind the last '=' of a reply.  Without a reply the array of the
caller stays what it was on the stack, and both callers go on with it.
-/

namespace ServalRpc.Verified.FileReplies

open CLib FileStore CallCodec PlainStrings ProcessStart ServalRpc.Verified.Representation

/-! ## Insertions -/

/-- The bytes behind the last '=' of the text that a reply is. -/
def CutFrom (body digits : List UInt8) : Prop :=
  ∃ front rest, (CString.upToNul body).bytes = front ++ 61 :: rest ∧ 61 ∉ rest ∧
    front.length + 128 ≤ body.length ∧ digits = ((body ++ [0]).drop (front.length + 1)).take 128

/-- The reply has this filehash right behind its last '='. -/
def Names (reply : InsertReply) (hash : CString) : Prop :=
  rpcStrIsFilehash hash = true ∧ ∃ body front behind, reply = .response body ∧
    (CString.upToNul body).bytes = front ++ 61 :: (hash.bytes ++ behind) ∧ 61 ∉ behind

/-- A filehash that is somewhere in the reply. -/
def Taken (reply : InsertReply) (hash : CString) : Prop :=
  rpcStrIsFilehash hash = true ∧ ∃ body, reply = .response body ∧ hash.bytes <:+: body

/-- The reply, if there is one, has an '=' and behind the last one enough bytes to copy. -/
def Completes (reply : InsertReply) : Prop :=
  ∀ body, reply = .response body → ∃ digits, CutFrom body digits

/-- `curl_easy_perform` has returned `CURLE_OK`. -/
def performed : InsertReply → Bool
  | .noHandle | .failed => false
  | .response _ => true

section Insertion

variable {serval : Serval} {sid : Sid} {rpcName path : CString} {content body filehash : List UInt8}

theorem CutFrom.length {digits : List UInt8} (cut : CutFrom body digits) : digits.length = 128 := by
  obtain ⟨front, rest, _, _, room, rfl⟩ := cut
  simp only [List.length_take, List.length_drop, List.length_append, List.length_singleton]
  omega

/-- A reply gives a filehash exactly when there are enough bytes behind an '='. -/
theorem add_response_iff (room : 129 ≤ filehash.length) {added : AddedFile} :
    FileStore.rpcAddFileToStore serval (.response body) filehash sid rpcName path content =
        .ok added ↔
      ∃ digits, CutFrom body digits ∧ added = ⟨0, digits ++ 0 :: filehash.drop 129,
        some ⟨path, fileManifest serval sid rpcName, content⟩⟩ := by
  have stored {digits : List UInt8} (size : digits.length = 128) :
      (do let array ← storeRange filehash 0 digits; storeRange array 128 [0]) =
        .ok (digits ++ 0 :: filehash.drop 129) := by
    have first := storeRange_at_end [] filehash digits 0 rfl (by omega)
    have second := storeRange_at_end digits (filehash.drop 128) [0] 128 size.symm (by
      rw [List.length_drop, List.length_singleton]
      omega)
    rw [List.nil_append, List.nil_append, size] at first
    rw [first, ok_bind, second]
    simp
  simp only [FileStore.rpcAddFileToStore, CString.read_append_nul, ok_bind]
  constructor
  · intro returned
    obtain ⟨position, isPosition, returned⟩ := bind_eq_ok_iff.mp returned
    obtain ⟨front, rest, split, last, rfl⟩ :=
      CString.strrchr_eq_some_iff.mp ((deref_eq_ok_iff _ _).mp isPosition)
    obtain ⟨digits, loaded, returned⟩ := bind_eq_ok_iff.mp returned
    obtain ⟨inside, isDigits⟩ := loadRange_eq_ok_iff.mp loaded
    rw [List.length_append, List.length_singleton] at inside
    have cut : CutFrom body digits := ⟨front, rest, split, last, by omega, isDigits.symm⟩
    refine ⟨digits, cut, ?_⟩
    rw [← bind_assoc, stored cut.length] at returned
    exact (Except.ok.inj returned).symm
  · rintro ⟨digits, cut, rfl⟩
    have size := cut.length
    obtain ⟨front, rest, split, last, inside, isDigits⟩ := cut
    have loaded : loadRange (body ++ [0]) (front.length + 1) 128 = .ok digits := by
      rw [loadRange_eq_ok_iff, List.length_append, List.length_singleton]
      exact ⟨by omega, isDigits.symm⟩
    rw [CString.strrchr_of_split split last, deref_some, ok_bind, loaded, ok_bind, ← bind_assoc,
      stored size]
    rfl

theorem filehash_iff (hash : CString) : rpcStrIsFilehash hash = true ↔ hash.bytes.length = 128 ∧
    ∀ byte ∈ hash.bytes, (48 ≤ byte ∧ byte ≤ 57) ∨ (65 ≤ byte ∧ byte ≤ 70) := by
  simp [rpcStrIsFilehash, CString.length]

/-- The memory of a reply is its text, the NUL that ends it, and what is behind. -/
theorem memory_split (body : List UInt8) :
    ∃ behind, body ++ [0] = (CString.upToNul body).bytes ++ 0 :: behind := by
  have terminated : 0 ∈ body ++ [0] := List.mem_append_right _ List.mem_cons_self
  have same := (CString.read_of_mem terminated).symm.trans (CString.read_append_nul body [])
  obtain ⟨behind, split⟩ := CString.exists_eq_append_of_mem terminated
  exact ⟨behind, by rwa [Except.ok.inj same] at split⟩

theorem drop_past (front : List UInt8) (byte : UInt8) (behind : List UInt8) :
    (front ++ byte :: behind).drop (front.length + 1) = behind := by
  rw [← List.drop_drop, List.drop_left, List.drop_one, List.tail_cons]

theorem cutFrom_of_names {hash : CString} (names : Names (.response body) hash) :
    CutFrom body hash.bytes := by
  obtain ⟨isFilehash, body, front, behind, ⟨⟩, split, last⟩ := names
  obtain ⟨size, digits⟩ := (filehash_iff hash).mp isFilehash
  have noEquals : 61 ∉ hash.bytes := fun member => absurd (digits 61 member) (by decide)
  obtain ⟨rest, memory⟩ := memory_split body
  rw [split] at memory
  have length := congrArg List.length memory
  simp only [List.length_append, List.length_cons, List.length_nil] at length
  refine ⟨front, hash.bytes ++ behind, split, by simp [noEquals, last], by omega, ?_⟩
  rw [memory, List.append_assoc, List.cons_append, drop_past, List.append_assoc, ← size,
    List.take_left]

theorem names_of_cutFrom {digits : List UInt8} (cut : CutFrom body digits)
    (isFilehash : rpcStrIsFilehash (CString.upToNul digits) = true) :
    Names (.response body) (CString.upToNul digits) := by
  have size := cut.length
  obtain ⟨front, rest, split, last, inside, isDigits⟩ := cut
  obtain ⟨length, _⟩ := (filehash_iff _).mp isFilehash
  -- A string as long as all the digits leaves no room for a NUL among them.
  have text : (CString.upToNul digits).bytes <+: digits := List.takeWhile_prefix _
  have whole := text.eq_of_length (length.trans size.symm)
  have nulFree := (CString.upToNul digits).nulFree
  rw [whole] at nulFree
  obtain ⟨behind, memory⟩ := memory_split body
  have isRest : digits = (rest ++ 0 :: behind).take 128 := by
    rw [isDigits, memory, split, List.append_assoc, List.cons_append, drop_past]
  have room : 128 ≤ rest.length := by
    by_contra short
    rw [isRest, List.take_append, List.take_of_length_le (by omega)] at nulFree
    obtain ⟨count, isCount⟩ : ∃ count, 128 - rest.length = count + 1 :=
      ⟨128 - rest.length - 1, by omega⟩
    simp [isCount] at nulFree
  rw [List.take_append_of_le_length room] at isRest
  refine ⟨isFilehash, body, front, rest.drop 128, rfl, ?_, fun member => last ?_⟩
  · rw [whole, isRest, List.take_append_drop]
    exact split
  · exact List.mem_of_mem_drop member

theorem Names.taken {reply : InsertReply} {hash : CString} (names : Names reply hash) :
    Taken reply hash := by
  obtain ⟨isFilehash, body, front, behind, rfl, split, _⟩ := names
  obtain ⟨rest, whole⟩ : (CString.upToNul body).bytes <+: body := List.takeWhile_prefix _
  refine ⟨isFilehash, body, rfl, front ++ [61], behind ++ rest, ?_⟩
  rw [← whole, split]
  simp

/-! What the callers read is a front of their array that is longer than a filehash. -/

variable {added : AddedFile} {front : List UInt8}

theorem added_length {reply : InsertReply} (room : 129 ≤ filehash.length)
    (returned : FileStore.rpcAddFileToStore serval reply filehash sid rpcName path content = .ok added) :
    added.filehash.length = filehash.length := by
  cases reply with
  | noHandle | failed =>
    cases returned
    rfl
  | response body =>
    obtain ⟨digits, cut, rfl⟩ := (add_response_iff room).mp returned
    have size := cut.length
    simp only [List.length_append, List.length_cons, List.length_drop]
    omega

/-- The return code and the form are those of `Model.Upload`. -/
theorem add_refines {reply : InsertReply} (room : 129 ≤ filehash.length)
    (returned : FileStore.rpcAddFileToStore serval reply filehash sid rpcName path content =
      .ok added) :
    added.returnCode = (ServalRpc.rpcAddFileToStore serval (performed reply) sid rpcName content).1 ∧
    ∀ request ∈ added.request, request = ⟨path,
      (ServalRpc.rpcAddFileToStore serval (performed reply) sid rpcName content).2.manifest,
      (ServalRpc.rpcAddFileToStore serval (performed reply) sid rpcName content).2.content⟩ := by
  cases reply with
  | noHandle =>
    cases returned
    exact ⟨rfl, fun request made => by cases made⟩
  | failed =>
    cases returned
    exact ⟨rfl, fun request made => (Option.mem_some.mp made).symm⟩
  | response body =>
    obtain ⟨digits, _, rfl⟩ := (add_response_iff room).mp returned
    exact ⟨rfl, fun request made => (Option.mem_some.mp made).symm⟩

theorem add_returns_iff (serval : Serval) (sid : Sid) (rpcName path : CString) (content : List UInt8)
    {reply : InsertReply} (room : 129 ≤ filehash.length) : (∃ added,
      FileStore.rpcAddFileToStore serval reply filehash sid rpcName path content = .ok added) ↔
        Completes reply := by
  cases reply with
  | noHandle | failed => exact iff_of_true ⟨_, rfl⟩ fun body same => by cases same
  | response body =>
    simp only [add_response_iff room, Completes, InsertReply.response.injEq, forall_eq']
    constructor
    · rintro ⟨added, digits, cut, _⟩
      exact ⟨digits, cut⟩
    · rintro ⟨digits, cut⟩
      exact ⟨_, digits, cut, rfl⟩

theorem added_of_names (serval : Serval) (sid : Sid) (rpcName path : CString) (content : List UInt8)
    {reply : InsertReply} {hash : CString} (room : 129 ≤ filehash.length) (names : Names reply hash) :
    ∃ filehash',
      FileStore.rpcAddFileToStore serval reply filehash sid rpcName path content =
        .ok ⟨0, filehash', some ⟨path, fileManifest serval sid rpcName, content⟩⟩ ∧
      ∀ front, front <+: filehash' → 129 ≤ front.length → CString.read front = .ok hash := by
  obtain ⟨_, body, _, _, rfl, _⟩ := id names
  have cut := cutFrom_of_names names
  refine ⟨_, (add_response_iff room).mpr ⟨hash.bytes, cut, rfl⟩, fun front isFront wide => ?_⟩
  rw [← CString.upToNul_bytes hash]
  exact CString.read_prefix isFront (by rwa [cut.length])

theorem names_of_added {reply : InsertReply} {text : CString} (room : 129 ≤ filehash.length)
    (returned : FileStore.rpcAddFileToStore serval reply filehash sid rpcName path content = .ok added)
    (isFront : front <+: added.filehash) (wide : 129 ≤ front.length)
    (read : CString.read front = .ok text) (taken : Taken reply text) : Names reply text := by
  obtain ⟨isFilehash, body, rfl, _⟩ := taken
  obtain ⟨digits, cut, rfl⟩ := (add_response_iff room).mp returned
  cases read.symm.trans (CString.read_prefix isFront (by rwa [cut.length]))
  exact names_of_cutFrom cut isFilehash

end Insertion

/-! ## The client -/

section Client

variable {serval : Serval} {files : FileWorld} {rpcName first : CString} {content : List UInt8}
variable {params : List (Option CString)} {paramc : Nat} {rest : List CString}

/-- What the client sends for a file starts with a filehash of the reply, unless it reports a
failure. -/
def SendsFilehash (serval : Serval) (files : FileWorld) (rpcName : CString)
    (params : List (Option CString)) (paramc : Nat) (rest : List CString) : Prop :=
  ∃ code flat request,
    FileStore.rpcClientReplaceIfPath serval files rpcName params paramc = .ok (code, flat, request) ∧
    (code ≠ 0 ∨ ∃ hash, Taken files.reply hash ∧ flat = flatParams callDelimiter (hash :: rest))

theorem client_file (walked : derefRange params paramc = .ok (first :: rest))
    (isFile : files.file first = some content) :
    FileStore.rpcClientReplaceIfPath serval files rpcName params paramc = (do
      let added ← FileStore.rpcAddFileToStore serval files.reply ((List.range 129).map files.stack)
        sidBroadcast rpcName first content
      let newParam ← CString.read added.filehash
      pure (0, flatParams callDelimiter (newParam :: rest), added.request)) := by
  have flattened (newParam : CString) :=
    flatten_of_walked (derefRange_replace walked newParam) callDelimiter
  simp only [FileStore.rpcClientReplaceIfPath, derefAt_of_derefRange walked, ok_bind, isFile, flattened]

theorem flatParams_head {left right : CString}
    (same : flatParams callDelimiter (left :: rest) = flatParams callDelimiter (right :: rest)) :
    left = right := by
  have bytes := congrArg CString.bytes same
  simp only [flatParams_bytes, List.flatMap_cons, List.append_assoc, List.append_cancel_left_eq,
    List.append_cancel_right_eq] at bytes
  exact CString.ext bytes

/-- What `Model.Upload` takes as given is what the reply leaves in the array. -/
theorem client_refines {world : UploadWorld} (sameFiles : world.file = files.file)
    (inserted : ∀ first content, derefAt params 0 = .ok first → files.file first = some content →
      ∃ added, FileStore.rpcAddFileToStore serval files.reply ((List.range 129).map files.stack)
        sidBroadcast rpcName first content = .ok added ∧
        CString.read added.filehash = .ok world.filehash) :
    (FileStore.rpcClientReplaceIfPath serval files rpcName params paramc).map
        (fun replaced => replaced.2.1) =
      (ServalRpc.rpcClientReplaceIfPath serval world rpcName params paramc).map Prod.fst := by
  unfold FileStore.rpcClientReplaceIfPath ServalRpc.rpcClientReplaceIfPath
  cases isFirst : derefAt params 0 with
  | error fault => rfl
  | ok first =>
    simp only [ok_bind, sameFiles]
    cases isFile : files.file first with
    | some content =>
      obtain ⟨added, returned, read⟩ := inserted first content isFirst isFile
      simp only [returned, ok_bind, read]
      cases rpcFlattenParams paramc (some world.filehash :: params.drop 1) callDelimiter <;> rfl
    | none =>
      cases rpcFlattenParams paramc params callDelimiter <;> rfl

theorem client_sends_iff (walked : derefRange params paramc = .ok (first :: rest))
    (isFile : files.file first = some content) :
    SendsFilehash serval files rpcName params paramc rest ↔ ∃ hash, Names files.reply hash := by
  have room : 129 ≤ ((List.range 129).map files.stack).length := by simp
  rw [SendsFilehash, client_file walked isFile]
  constructor
  · rintro ⟨code, flat, request, replaced, safe⟩
    obtain ⟨added, returned, replaced⟩ := bind_eq_ok_iff.mp replaced
    obtain ⟨newParam, read, replaced⟩ := bind_eq_ok_iff.mp replaced
    cases replaced
    -- The code is 0 whatever the insertion has returned.
    obtain failed | ⟨hash, taken, same⟩ := safe
    · exact absurd rfl failed
    · obtain rfl := flatParams_head same
      have wide := (added_length room returned).symm ▸ room
      exact ⟨newParam, names_of_added room returned List.prefix_rfl wide read taken⟩
  · rintro ⟨hash, names⟩
    obtain ⟨filehash, returned, texts⟩ :=
      added_of_names serval sidBroadcast rpcName first content room names
    have wide := (added_length room returned).symm ▸ room
    refine ⟨0, _, some ⟨first, fileManifest serval sidBroadcast rpcName, content⟩, ?_,
      .inr ⟨hash, names.taken, rfl⟩⟩
    rw [returned, ok_bind, texts filehash List.prefix_rfl wide]
    rfl

end Client

/-! ## The server -/

/-- The packet of this output, once the array of the filehash has taken the place of the line. -/
def replacedBlock (output filehash : List UInt8) : Block UInt8 :=
  ((printedLine output (Block.calloc rpcPktSize 0)).storeFrom 1
    (filehash.take (rpcPktSize - 1))).store rpcPktSize 0

theorem replacedBlock_cells (output : List UInt8) {filehash : List UInt8}
    (size : filehash.length = rpcPktSize) :
    (replacedBlock output filehash).cells = rpcPktCallResponse :: filehash.take (rpcPktSize - 1) := by
  have cells := printedLine_cells output
  unfold replacedBlock
  generalize printedLine output (Block.calloc rpcPktSize 0) = printed at cells ⊢
  have whole : printed.cells.length = rpcPktSize := by rw [cells, printedPacket_length]
  have fits : 1 + (filehash.take (rpcPktSize - 1)).length = printed.cells.length := by
    have positive : 1 ≤ rpcPktSize := by decide
    rw [List.length_take, size]
    omega
  rw [Block.store_of_le (by rw [Block.storeFrom_length, whole]),
    Block.storeFrom_of_fits (Nat.le_of_eq fits), fits, List.drop_length, List.append_nil, cells]
  rfl

/-- `replaceLine` with the reply of the store. -/
def replaceFile (serval : Serval) (files : FileWorld) (rp : RPCProcedure) (printed : Block UInt8) :
    Except Fault (Block UInt8 × Option FileRequest) := do
  let result ← CString.read (printed.cells.drop 1)
  match files.file result with
  | some content =>
    let filehash := (List.range rpcPktSize).map files.stack
    let caller ← deref rp.callerSid
    let added ← FileStore.rpcAddFileToStore serval files.reply filehash caller rp.name result content
    let filehash ← loadRange added.filehash 0 (rpcPktSize - 1)
    pure ((printed.storeFrom 1 filehash).store rpcPktSize 0, added.request)
  | none => pure (printed, none)

section Server

variable {serval : Serval} {world : ExecuteWorld} {files : FileWorld} {rp started : RPCProcedure}
variable {run : ProcessRun} {output content : List UInt8} {caller : Sid} {resultPayload : Block UInt8}

theorem collect_split (serval : Serval) (files : FileWorld) (rp : RPCProcedure) (output : List UInt8)
    (resultPayload : Block UInt8) :
    FileStore.collectResult serval files rp output resultPayload =
      replaceFile serval files rp (printedLine output resultPayload) := rfl

theorem collect_plain (noFile : files.file (outputLine output) = none) :
    FileStore.collectResult serval files rp output (Block.calloc rpcPktSize 0) =
      .ok (printedLine output (Block.calloc rpcPktSize 0), none) := by
  simp only [collect_split, replaceFile, printedLine_read, ok_bind, noFile]
  rfl

theorem array_room (stack : Nat → UInt8) : 129 ≤ ((List.range rpcPktSize).map stack).length := by
  rw [List.length_map, List.length_range]
  decide

theorem collect_file_iff (isFile : files.file (outputLine output) = some content)
    (isCaller : rp.callerSid = some caller) {collected : Block UInt8 × Option FileRequest} :
    FileStore.collectResult serval files rp output (Block.calloc rpcPktSize 0) = .ok collected ↔
      ∃ added, FileStore.rpcAddFileToStore serval files.reply ((List.range rpcPktSize).map files.stack)
        caller rp.name (outputLine output) content = .ok added ∧
      collected = (replacedBlock output added.filehash, added.request) := by
  simp only [collect_split, replaceFile, printedLine_read, ok_bind, isFile, isCaller, deref_some]
  rw [bind_eq_ok_iff]
  refine exists_congr fun added => and_congr_right fun returned => ?_
  have size := added_length (array_room files.stack) returned
  rw [loadRange_of_le (by rw [size, List.length_map, List.length_range]; decide), List.drop_zero]
  constructor
  · intro same
    exact (Except.ok.inj same).symm
  · rintro rfl
    rfl

theorem excecute_running (running : startProcess serval world rp = .ok (.running started run)) :
    FileStore.rpcServerExcecute serval world files resultPayload rp = (do
      let collected ← FileStore.collectResult serval files started run.output resultPayload
      pure (some ⟨if run.exitStatus ≠ 0 then 0 else 1, collected.1, started⟩, collected.2)) := by
  simp only [FileStore.rpcServerExcecute, running, ok_bind]

/-- What `Model.Execute` takes as given is what the reply leaves in the array. -/
theorem collect_refines (sameFiles : ∀ path, world.resultExists path = (files.file path).isSome)
    (inserted : ∀ path content, files.file path = some content → ∃ caller added,
      rp.callerSid = some caller ∧ FileStore.rpcAddFileToStore serval files.reply
        ((List.range rpcPktSize).map files.stack) caller rp.name path content = .ok added ∧
      added.filehash = world.filehash) :
    (FileStore.collectResult serval files rp output resultPayload).map Prod.fst =
      ServalRpc.collectResult world output resultPayload := by
  rw [collect_split, collectResult_split, replaceFile, replaceLine]
  generalize printedLine output resultPayload = printed
  cases CString.read (printed.cells.drop 1) with
  | error fault => rfl
  | ok result =>
    simp only [ok_bind, sameFiles]
    cases isFile : files.file result with
    | none => rfl
    | some content =>
      obtain ⟨caller, added, isCaller, returned, same⟩ := inserted result content isFile
      simp only [isCaller, deref_some, ok_bind, returned, same, Option.isSome_some, if_true]
      cases loadRange world.filehash 0 (rpcPktSize - 1) <;> rfl

theorem server_refines (sameFiles : ∀ path, world.resultExists path = (files.file path).isSome)
    (inserted : ∀ started run, startProcess serval world rp = .ok (.running started run) →
      ∀ path content, files.file path = some content → ∃ caller added,
        started.callerSid = some caller ∧ FileStore.rpcAddFileToStore serval files.reply
          ((List.range rpcPktSize).map files.stack) caller started.name path content = .ok added ∧
        added.filehash = world.filehash) :
    (FileStore.rpcServerExcecute serval world files resultPayload rp).map Prod.fst =
      ServalRpc.rpcServerExcecute serval world resultPayload rp := by
  rw [excecute_split, FileStore.rpcServerExcecute]
  cases start : startProcess serval world rp with
  | error fault => rfl
  | ok started =>
    cases started with
    | refused started | downloading => rfl
    | running started run =>
      have refined := @collect_refines serval world files started run.output resultPayload sameFiles
        (inserted started run start)
      simp only [ok_bind, afterStart, ← refined]
      cases FileStore.collectResult serval files started run.output resultPayload <;> rfl

/-- What the server has in its packet for a file is a filehash of the reply, unless it reports a
failure. -/
def AnswersFilehash (serval : Serval) (world : ExecuteWorld) (files : FileWorld)
    (rp : RPCProcedure) : Prop :=
  ∃ result request,
    FileStore.rpcServerExcecute serval world files (Block.calloc rpcPktSize 0) rp =
      .ok (some result, request) ∧
    (result.returnCode = 0 ∨ ∃ hash, Taken files.reply hash ∧
      CString.read (result.resultPayload.cells.drop 1) = .ok hash)

theorem started_caller (running : startProcess serval world rp = .ok (.running started run)) :
    started.callerSid = rp.callerSid := by
  obtain refused | waits | ⟨next, fetch, refused | ⟨line, run, _, isNext⟩⟩ := started_cases running
  · cases refused
  · cases waits
  · cases refused
  · cases isNext
    obtain rfl | ⟨fpath, rfl⟩ := fetched_cases fetch <;> rfl

theorem replacedBlock_front {added : AddedFile} (returned : FileStore.rpcAddFileToStore serval
      files.reply ((List.range rpcPktSize).map files.stack) caller rp.name (outputLine output) content =
        .ok added) :
    (replacedBlock output added.filehash).cells.drop 1 <+: added.filehash ∧
      129 ≤ ((replacedBlock output added.filehash).cells.drop 1).length := by
  have size := added_length (array_room files.stack) returned
  rw [List.length_map, List.length_range] at size
  rw [replacedBlock_cells output size, List.drop_one, List.tail_cons, List.length_take, size]
  exact ⟨List.take_prefix _ _, by decide⟩

theorem excecute_file_iff (running : startProcess serval world rp = .ok (.running started run))
    (isCaller : rp.callerSid = some caller)
    (isFile : files.file (outputLine run.output) = some content)
    {executed : Option ExecuteResult × Option FileRequest} :
    FileStore.rpcServerExcecute serval world files (Block.calloc rpcPktSize 0) rp = .ok executed ↔
      ∃ added, FileStore.rpcAddFileToStore serval files.reply ((List.range rpcPktSize).map files.stack)
        caller started.name (outputLine run.output) content = .ok added ∧
      executed = (some ⟨if run.exitStatus ≠ 0 then 0 else 1, replacedBlock run.output added.filehash,
        started⟩, added.request) := by
  have isCaller' := (started_caller running).trans isCaller
  rw [excecute_running running, bind_eq_ok_iff]
  constructor
  · rintro ⟨collected, isCollected, same⟩
    obtain ⟨added, returned, rfl⟩ := (collect_file_iff isFile isCaller').mp isCollected
    exact ⟨added, returned, (Except.ok.inj same).symm⟩
  · rintro ⟨added, returned, rfl⟩
    exact ⟨_, (collect_file_iff isFile isCaller').mpr ⟨added, returned, rfl⟩, rfl⟩

theorem server_answers_iff (running : startProcess serval world rp = .ok (.running started run))
    (isCaller : rp.callerSid = some caller)
    (isFile : files.file (outputLine run.output) = some content) :
    AnswersFilehash serval world files rp ↔
      (∃ hash, Names files.reply hash) ∨ run.exitStatus ≠ 0 ∧ Completes files.reply := by
  have room := array_room files.stack
  have executed {executed : Option ExecuteResult × Option FileRequest} :=
    @excecute_file_iff _ _ _ _ _ _ _ _ running isCaller isFile executed
  constructor
  · rintro ⟨result, request, finished, safe⟩
    obtain ⟨added, returned, same⟩ := executed.mp finished
    cases same
    obtain failed | ⟨hash, taken, read⟩ := safe
    · refine .inr ⟨fun zero => ?_, (add_returns_iff _ _ _ _ _ room).mp ⟨added, returned⟩⟩
      simp [zero] at failed
    · obtain ⟨isFront, wide⟩ := replacedBlock_front returned
      exact .inl ⟨hash, names_of_added room returned isFront wide read taken⟩
  · rintro (⟨hash, names⟩ | ⟨failed, completes⟩)
    · obtain ⟨filehash, returned, texts⟩ := added_of_names serval caller started.name
        (outputLine run.output) content room names
      obtain ⟨isFront, wide⟩ := replacedBlock_front returned
      exact ⟨_, _, executed.mpr ⟨_, returned, rfl⟩, .inr ⟨hash, names.taken, texts _ isFront wide⟩⟩
    · obtain ⟨added, returned⟩ := (add_returns_iff serval caller started.name
        (outputLine run.output) content room).mpr completes
      exact ⟨_, _, executed.mpr ⟨added, returned, rfl⟩, .inl (if_pos failed)⟩

end Server

/-- A file becomes a filehash of the reply, or its failure is reported, for a client exactly when the
reply has a filehash behind its last '=', and for a server also when the procedure has failed and the
reply can be read. -/
theorem failed_upload_stopped_iff (serval : Serval) (files : FileWorld) :
    (∀ (rpcName first : CString) (params : List (Option CString)) (paramc : Nat)
      (rest : List CString) (content : List UInt8),
      derefRange params paramc = .ok (first :: rest) → files.file first = some content →
        (SendsFilehash serval files rpcName params paramc rest ↔ ∃ hash, Names files.reply hash)) ∧
    ∀ (world : ExecuteWorld) (rp started : RPCProcedure) (run : ProcessRun) (caller : Sid)
      (content : List UInt8),
      startProcess serval world rp = .ok (.running started run) → rp.callerSid = some caller →
      files.file (outputLine run.output) = some content →
        (AnswersFilehash serval world files rp ↔
          (∃ hash, Names files.reply hash) ∨ run.exitStatus ≠ 0 ∧ Completes files.reply) :=
  ⟨fun _ _ _ _ _ _ walked isFile => client_sends_iff walked isFile,
    fun _ _ _ _ _ _ running isCaller isFile => server_answers_iff running isCaller isFile⟩

/-! ## A reply, and none -/

theorem started_of_params {serval : Serval} {world : ExecuteWorld} {rp : RPCProcedure}
    {params : List CString} {run : ProcessRun}
    (installed : world.binExists (CommandLine.binary world rp) = true)
    (fetched : fetchFirstParam serval world rp = .ok (some rp))
    (read : derefRange rp.params.cells rp.paramc.paramcN.toNat = .ok params)
    (opened : world.popen (CommandLine.binary world rp ++ flatParams (CString.ofChars [' ']) params) =
      some run) :
    startProcess serval world rp = .ok (.running rp run) := by
  unfold CommandLine.binary at installed opened
  have flattened := flatten_of_walked read (CString.ofChars [' '])
  simp only [startProcess, installed, fetched, flattened, ok_bind, Bool.not_true,
    Bool.false_eq_true, if_false, opened]
  rfl

theorem printing_started (output : List UInt8) :
    startProcess (Serval.executable sidAny) (Delivery.printingWorld output) Delivery.addCalled =
      .ok (.running Delivery.addCalled ⟨output, 0⟩) :=
  started_of_params rfl (CommandLine.fetchFirstParam_of_noFilehash rfl (by decide))
    (CommandLine.addProcedure_params ['1'] ['2']) rfl

/-- Everything is a file, and the stack holds zeros. -/
def filesOf (reply : InsertReply) : FileWorld := ⟨fun _ => some [116, 10], reply, fun _ => 0⟩

/-- The reply to the insertion of a file with this hash. -/
def replyOf (hash : CString) : InsertReply :=
  .response (CString.ofChars ['f', 'i', 'l', 'e', 'h', 'a', 's', 'h', '='] ++ hash ++
    CString.ofChars ['\n']).bytes

theorem replyOf_names {hash : CString} (isFilehash : rpcStrIsFilehash hash = true) :
    Names (replyOf hash) hash := by
  refine ⟨isFilehash, _, (CString.ofChars ['f', 'i', 'l', 'e', 'h', 'a', 's', 'h']).bytes, [10], rfl,
    ?_, by decide⟩
  rw [CString.upToNul_bytes, CString.append_bytes, CString.append_bytes, List.append_assoc]
  rfl

theorem failed_upload_stopped_hash :
    SendsFilehash (Serval.executable sidAny) (filesOf (replyOf (Download.hashOf 65)))
      CommandLine.addName [some (CString.ofChars ['a'])] 1 [] ∧
    AnswersFilehash (Serval.executable sidAny) (Delivery.printingWorld [97])
      (filesOf (replyOf (Download.hashOf 65))) Delivery.addCalled := by
  have names := replyOf_names Download.hashOf_isFilehash
  have stopped := failed_upload_stopped_iff (Serval.executable sidAny)
    (filesOf (replyOf (Download.hashOf 65)))
  exact ⟨(stopped.1 _ _ _ _ _ _ rfl rfl).mpr ⟨_, names⟩,
    (stopped.2 _ _ _ _ _ _ (printing_started [97]) rfl rfl).mpr (.inl ⟨_, names⟩)⟩

/-- Without a reply, the client calls with what was on its stack, and the server answers with it; a
reply without an '=' stops both. -/
theorem stack_sent_for_file :
    (∃ request, FileStore.rpcClientReplaceIfPath (Serval.executable sidAny) (filesOf .failed)
      CommandLine.addName [some (CString.ofChars ['a'])] 1 =
        .ok (0, flatParams callDelimiter [CString.ofChars []], request)) ∧
    ∀ reply ∈ [.noHandle, .failed, .response []],
      ¬ SendsFilehash (Serval.executable sidAny) (filesOf reply) CommandLine.addName
        [some (CString.ofChars ['a'])] 1 [] ∧
      ¬ AnswersFilehash (Serval.executable sidAny) (Delivery.printingWorld [97]) (filesOf reply)
        Delivery.addCalled := by
  have unnamed {reply : InsertReply} (member : reply ∈ [.noHandle, .failed, .response []]) :
      ¬ ∃ hash, Names reply hash := by
    rintro ⟨hash, _, body, front, behind, rfl, split, _⟩
    simp only [List.mem_cons, List.not_mem_nil, or_false, reduceCtorEq, false_or,
      InsertReply.response.injEq] at member
    subst member
    simp [CString.upToNul] at split
  refine ⟨⟨_, rfl⟩, fun reply member => ⟨fun sends => ?_, fun answers => ?_⟩⟩
  · exact unnamed member ((client_sends_iff rfl rfl).mp sends)
  · obtain names | ⟨failed, _⟩ := (server_answers_iff (printing_started [97]) rfl rfl).mp answers
    · exact unnamed member names
    · exact failed rfl

end ServalRpc.Verified.FileReplies
