import ServalRpc.Verified.CallSize
import ServalRpc.Verified.ResultFidelity

/-! # Strings and files

A parameter and a result are strings or stand for files.  The sender looks into its file system, and
the receiver, which gets the same field in both cases, asks whether it is a filehash.
-/

namespace ServalRpc.Verified.PlainStrings

open CLib ListenerSteps ParseCall CallCodec CallSize CommandLine HandlerSteps MspSteps
open PlainAnswers ResultFidelity ServalRpc.Verified.Representation

/-! ## Parameters -/

/-- What the server can get back from these parameters: their parts between the delimiters. -/
def parts (params : List CString) : List CString :=
  params.flatMap fun param => tokens 124 param.bytes

/-- What the server gets back from a call whose name is a token of its own. -/
def returnedCall (rpcName : CString) (params : List CString) : RPCProcedure :=
  parsedProcedure (UInt8.ofNat params.length) rpcName (parts params)

/-- The server reads the call of this procedure with this first parameter, and whatever its store
holds, it puts this string behind the path of the binary. -/
structure HandsOver (server : Serval) (world : ExecuteWorld) (resultPayload : Block UInt8)
    (caller : Sid) (rpcName first : CString) (payload : List UInt8) (rp : RPCProcedure)
    (params : List CString) : Prop where
  parsed : rpcServerParseCall payload payload.length = .ok rp
  name : rp.name = rpcName
  inside : rp.params.stray = []
  read : derefRange rp.params.cells rp.paramc.paramcN.toNat = .ok (first :: params)
  opened : ∀ downloads, Opened server { world with downloads } resultPayload
    { rp with callerSid := some caller }
    (binary world rp ++ flatParams (CString.ofChars [' ']) (first :: params))

section Parameters

theorem mem_parts {params : List CString} {part : CString} (member : part ∈ parts params) :
    Transmissible part := by
  obtain ⟨param, _, inParam⟩ := List.mem_flatMap.mp member
  exact mem_tokens param.nulFree inParam

theorem tokens_of_transmissible {string : CString} (transmissible : Transmissible string) :
    tokens 124 string.bytes = [string] := by
  rw [tokens_word transmissible.1 transmissible.2, CString.upToNul_bytes]

theorem callPacket_tokens (serval : Serval) (rpcName : CString) (params : List CString)
    (requirements : UInt32) :
    tokens 124 (callText (callPacket serval rpcName params requirements)) =
      tokens 124 rpcName.bytes ++ parts params := by
  rw [callPacket_text, tokens_joined, List.flatMap_map, List.flatMap_cons, parts]

/-- The server gets the name back when it is a token of its own, and then the parts. -/
theorem parse_named_iff {serval : Serval} {rpcName : CString} {params : List CString}
    {requirements : UInt32} {payload : List UInt8} {rp : RPCProcedure}
    (packet : payload = callPacket serval rpcName params requirements) :
    (rpcServerParseCall payload payload.length = .ok rp ∧ rp.name = rpcName) ↔
      Transmissible rpcName ∧ rp = returnedCall rpcName params := by
  subst packet
  have split := callPacket_tokens serval rpcName params requirements
  have count := callPacket_count serval rpcName params requirements
  constructor
  · rintro ⟨parsed, named⟩
    obtain ⟨name, fields, found, rfl⟩ := parsed_tokens parsed
    obtain rfl : name = rpcName := named
    have transmissible := (transmissible_of_tokens (CString.nulFree _) found).1
    rw [split, tokens_of_transmissible transmissible, List.singleton_append] at found
    obtain rfl := (List.cons.inj found).2
    exact ⟨transmissible, by rw [count, returnedCall]⟩
  · rintro ⟨transmissible, rfl⟩
    rw [tokens_of_transmissible transmissible] at split
    rw [parse_named (callPacket_terminated serval rpcName params requirements) split, count]
    exact ⟨rfl, rfl⟩

/-- A first parameter that is a filehash keeps the server waiting for its file. -/
theorem not_opened_of_filehash {serval : Serval} {world : ExecuteWorld}
    {resultPayload : Block UInt8} {rp : RPCProcedure} {first command : CString} {caller : Sid}
    (present : derefAt rp.params.cells 0 = .ok first) (isFilehash : rpcStrIsFilehash first = true)
    (isCaller : rp.callerSid = some caller) (nothing : world.downloads = []) :
    ¬ Opened serval world resultPayload rp command := by
  have waits (popen : CString → Option ProcessRun) :
      fetchFirstParam serval { world with popen := popen } rp = .ok none := by
    simp only [fetchFirstParam, present, ok_bind, isFilehash, if_true, isCaller, deref_some, nothing,
      awaitDownload]
    rfl
  rintro ⟨run, differ⟩
  apply differ
  simp only [rpcServerExcecute, waits, ok_bind]

theorem returnedCall_params {rpcName : CString} {params : List CString} (few : params.length < 256)
    (complete : (parts params).length = params.length) :
    (returnedCall rpcName params).params = ⟨(parts params).map some, []⟩ := by
  have count : (UInt8.ofNat params.length).toNat = params.length := UInt8.toNat_ofNat_of_lt' few
  rw [returnedCall, parsedProcedure, Block.calloc_storeFrom_of_length (complete.trans count.symm)]

theorem returnedCall_read_iff {rpcName : CString} {params fields : List CString}
    (few : params.length < 256) :
    ((returnedCall rpcName params).params.stray = [] ∧
        derefRange (returnedCall rpcName params).params.cells
          (UInt8.ofNat params.length).toNat = .ok fields) ↔
      parts params = fields ∧ fields.length = params.length := by
  have count : (UInt8.ofNat params.length).toNat = params.length := UInt8.toNat_ofNat_of_lt' few
  constructor
  · rintro ⟨inside, read⟩
    have size : (returnedCall rpcName params).params.cells.length =
        (UInt8.ofNat params.length).toNat :=
      (Block.storeFrom_length _ _ _).trans List.length_replicate
    -- The array has one cell for each counted parameter, so all of them have been read.
    have cells : (returnedCall rpcName params).params.cells = fields.map some := by
      have whole := (derefRange_eq_ok_iff.mp read).2
      rwa [List.take_of_length_le (Nat.le_of_eq size)] at whole
    have complete : (parts params).length = params.length := by
      refine ((parsedProcedure_wellFormed_iff _ rpcName _).mp ⟨size, inside, ?_⟩).trans count
      rw [← returnedCall, cells]
      simp
    rw [returnedCall_params few complete] at cells
    have isParts := List.map_injective_iff.mpr (Option.some_injective _) cells
    exact ⟨isParts, isParts ▸ complete⟩
  · rintro ⟨rfl, complete⟩
    rw [returnedCall_params few complete, count, ← complete, derefRange_eq_ok_iff, List.length_map]
    exact ⟨rfl, Nat.le_refl _, List.take_of_length_le (by rw [List.length_map])⟩

theorem handsOver_iff {client server : Serval} {world : ExecuteWorld} {resultPayload : Block UInt8}
    {caller : Sid} {rpcName first : CString} {rest : List CString} {requirements : UInt32}
    {payload : List UInt8} (few : (first :: rest).length < 256)
    (packet : payload = callPacket client rpcName (first :: rest) requirements)
    (installed : world.binExists (world.sysconfdir ++ binFolder ++ rpcName) = true) :
    (∃ rp params, HandsOver server world resultPayload caller rpcName first payload rp params) ↔
      Transmissible rpcName ∧ Transmissible first ∧ rpcStrIsFilehash first = false ∧
        (parts (first :: rest)).length = (first :: rest).length := by
  have present {params : List CString} (isParts : parts (first :: rest) = first :: params)
      (complete : (parts (first :: rest)).length = (first :: rest).length) :
      derefAt (returnedCall rpcName (first :: rest)).params.cells 0 = .ok first := by
    rw [derefAt_eq_ok_iff, returnedCall_params few complete, isParts]
    rfl
  constructor
  · rintro ⟨rp, params, parsed, name, inside, read, opened⟩
    obtain ⟨transmissible, rfl⟩ := (parse_named_iff packet).mp ⟨parsed, name⟩
    obtain ⟨isParts, complete⟩ := (returnedCall_read_iff few).mp ⟨inside, read⟩
    rw [← isParts] at complete
    refine ⟨transmissible, mem_parts (isParts ▸ List.mem_cons_self), ?_, complete⟩
    by_contra isFilehash
    rw [Bool.not_eq_false] at isFilehash
    exact @not_opened_of_filehash server { world with downloads := [] } resultPayload
      { returnedCall rpcName (first :: rest) with callerSid := some caller } _ _ _
      (present isParts complete) isFilehash rfl rfl (opened [])
  · rintro ⟨transmissible, sendable, plain, complete⟩
    have isParts : parts (first :: rest) = first :: parts rest := by
      rw [parts, List.flatMap_cons, tokens_of_transmissible sendable]
      rfl
    obtain ⟨parsed, name⟩ := (parse_named_iff packet).mpr ⟨transmissible, rfl⟩
    obtain ⟨inside, read⟩ := (returnedCall_read_iff few).mpr ⟨isParts, isParts ▸ complete⟩
    refine ⟨_, parts rest, parsed, name, inside, read, fun downloads => ?_⟩
    exact (@opened_iff server { world with downloads } resultPayload
      { returnedCall rpcName (first :: rest) with callerSid := some caller } _ _
      (present isParts complete) plain).mpr ⟨installed, _, read, rfl⟩

end Parameters

/-! ## Results -/

/-- The string that the server looks for in its file system. -/
def outputLine (output : List UInt8) : CString :=
  CString.upToNul (fgetsLine (rpcPktSize - 1) output)

/-- The execution has ended well, this is what its process has printed, and there is no file of this
name. -/
structure Printed (server : Serval) (world : ExecuteWorld) (rp : RPCProcedure)
    (output : List UInt8) (result : ExecuteResult) : Prop where
  executed : excecuteCall server world rp = .ok result
  succeeded : result.returnCode ≠ 0
  prints : ∀ line run, world.popen line = some run → run.output = output
  noFile : world.resultExists (outputLine output) = false

/-- The slot holds the output as a string. -/
def StoresOutput (output : List UInt8) (position : Nat)
    (after : Except ClientStop ResultTable) : Prop :=
  ∃ rpcResult text, after = .ok rpcResult ∧ Stored text position rpcResult ∧ text.bytes = output

/-- The output is one line that fits the packet and reads as a string that is no filehash. -/
structure KeptOutput (output : List UInt8) : Prop where
  nulFree : 0 ∉ output
  line : fgetsLine (rpcPktSize - 1) output = output
  plain : rpcStrIsFilehash (CString.upToNul output) = false

section Results

variable {output : List UInt8}

/-- The packet of an output that names no file. -/
def printedPacket (output : List UInt8) : List UInt8 :=
  rpcPktCallResponse :: (fgetsLine (rpcPktSize - 1) output ++
    List.replicate (rpcPktSize - 1 - (fgetsLine (rpcPktSize - 1) output).length) 0)

theorem fgetsLine_prefix (size : Nat) (output : List UInt8) : fgetsLine size output <+: output := by
  have line : output.takeWhile (· != 10) <+: output := List.takeWhile_prefix _
  obtain ⟨rest, split⟩ := line
  refine (List.take_prefix _ _).trans ⟨rest.drop 1, ?_⟩
  have behind : output.drop (output.takeWhile (· != 10)).length = rest := by
    nth_rewrite 2 [← split]
    exact List.drop_left
  rw [behind, List.append_assoc, List.take_append_drop, split]

theorem fgetsLine_short (output : List UInt8) :
    (fgetsLine (rpcPktSize - 1) output).length + 2 ≤ rpcPktSize := by
  have cut : (fgetsLine (rpcPktSize - 1) output).length ≤ rpcPktSize - 1 - 1 :=
    List.length_take_le _ _
  have room : 2 ≤ rpcPktSize := by decide
  omega

theorem printedPacket_length (output : List UInt8) : (printedPacket output).length = rpcPktSize := by
  have short := fgetsLine_short output
  simp only [printedPacket, List.length_cons, List.length_append, List.length_replicate]
  omega

theorem upToNul_padded (line : List UInt8) {count : Nat} (padded : 0 < count) :
    CString.read (line ++ List.replicate count 0) = .ok (CString.upToNul line) := by
  obtain ⟨count, rfl⟩ := Nat.exists_eq_succ_of_ne_zero (Nat.ne_of_gt padded)
  rw [List.replicate_succ]
  exact CString.read_append_nul line _

theorem printedPacket_read (output : List UInt8) :
    CString.read ((printedPacket output).drop 1) = .ok (outputLine output) := by
  have short := fgetsLine_short output
  exact upToNul_padded _ (by omega)

/-- The line goes behind the type, and the rest of the packet stays zero. -/
theorem storedLine_cells (output : List UInt8) (typed : Block UInt8)
    (isTyped : typed = (Block.calloc rpcPktSize 0).store 0 rpcPktCallResponse) :
    (if fgetsLine (rpcPktSize - 1) output = [] then typed
      else typed.storeFrom 1 (fgetsLine (rpcPktSize - 1) output ++ [0])).cells =
        printedPacket output := by
  have short := fgetsLine_short output
  obtain ⟨rest, isSize⟩ : ∃ rest, rpcPktSize = rest + 1 := ⟨rpcPktSize - 1, by omega⟩
  have cells : typed = ⟨rpcPktCallResponse :: List.replicate rest 0, []⟩ := by
    rw [isTyped, Block.store_of_lt (by rw [Block.calloc, List.length_replicate]; omega),
      Block.calloc, isSize, List.replicate_succ]
    rfl
  rw [printedPacket]
  generalize fgetsLine (rpcPktSize - 1) output = line at short ⊢
  split
  · rename_i nothing
    rw [cells, nothing, isSize]
    rfl
  · have fits : 1 + (line ++ [0]).length ≤ (rpcPktCallResponse :: List.replicate rest 0).length := by
      simp only [List.length_append, List.length_cons, List.length_nil, List.length_replicate]
      omega
    obtain ⟨zeros, isRest⟩ : ∃ zeros, rest = line.length + 1 + zeros := ⟨rest - line.length - 1, by omega⟩
    have front : 1 + (line ++ [0]).length = line.length + 1 + 1 := by
      simp only [List.length_append, List.length_cons, List.length_nil]
      omega
    have left : rpcPktSize - 1 - line.length = zeros + 1 := by omega
    rw [cells, Block.storeFrom_of_fits fits, front, left, isRest]
    simp [List.replicate_succ]

theorem printedLine_cells (output : List UInt8) :
    (printedLine output (Block.calloc rpcPktSize 0)).cells = printedPacket output := by
  have cells := storedLine_cells output _ rfl
  rw [printedLine, Block.store_of_le]
  · exact cells
  · rw [cells, printedPacket_length]

/-- The string that the server looks for is what is in the packet. -/
theorem printedLine_read (output : List UInt8) :
    CString.read ((printedLine output (Block.calloc rpcPktSize 0)).cells.drop 1) =
      .ok (outputLine output) := by
  rw [printedLine_cells]
  exact printedPacket_read output

theorem collected_cells {world : ExecuteWorld} {resultPayload : Block UInt8}
    (collected : collectResult world output (Block.calloc rpcPktSize 0) = .ok resultPayload)
    (noFile : world.resultExists (outputLine output) = false) :
    resultPayload.cells = printedPacket output := by
  rw [collectResult_split, replaceLine, printedLine_read, ok_bind, noFile,
    if_neg Bool.false_ne_true] at collected
  cases collected
  exact printedLine_cells output

theorem Printed.cells {server : Serval} {world : ExecuteWorld} {rp : RPCProcedure}
    {result : ExecuteResult} (printed : Printed server world rp output result) :
    result.resultPayload.cells = printedPacket output := by
  obtain ⟨line, run, started, collected⟩ :=
    Delivery.collected_of_executed printed.executed printed.succeeded
  rw [printed.prints line run started] at collected
  exact collected_cells collected printed.noFile

/-- The string that arrives is the output exactly when the line and the string are all of it. -/
theorem kept_iff (output : List UInt8) : KeptOutput output ↔
    (outputLine output).bytes = output ∧ rpcStrIsFilehash (outputLine output) = false := by
  constructor
  · rintro ⟨nulFree, line, plain⟩
    rw [outputLine, line]
    exact ⟨CString.upToNul_bytes_of_nulFree nulFree, plain⟩
  · rintro ⟨whole, plain⟩
    have text : (outputLine output).bytes <+: fgetsLine (rpcPktSize - 1) output :=
      List.takeWhile_prefix _
    have line := fgetsLine_prefix (rpcPktSize - 1) output
    have isLine : fgetsLine (rpcPktSize - 1) output = output := by
      refine line.eq_of_length_le ?_
      have shorter := text.length_le
      rwa [whole] at shorter
    refine ⟨whole ▸ (outputLine output).nulFree, isLine, ?_⟩
    rwa [outputLine, isLine] at plain

end Results

section Answers

variable {output bytes : List UInt8} {text : CString} {position : Nat}

theorem storesOutput_iff {after : Except ClientStop ResultTable} {rpcResult : ResultTable}
    (returned : after = .ok rpcResult) (stored : Stored text position rpcResult) :
    StoresOutput output position after ↔ text.bytes = output := by
  constructor
  · rintro ⟨rpcResult', other, returned', ⟨slot', at'', read'⟩, whole⟩
    cases returned.symm.trans returned'
    obtain ⟨slot, at', read⟩ := stored
    cases at'.symm.trans at''
    cases read.symm.trans read'
    exact whole
  · intro whole
    exact ⟨rpcResult, text, returned, stored, whole⟩

theorem not_storesOutput_error {stop : ClientStop} :
    ¬ StoresOutput output position (.error stop) := by
  rintro ⟨_, _, returned, _⟩
  cases returned

theorem answerBytes_downloading {call : ClientCall} {packet : Packet}
    (received : Receives packet bytes) (body : CString.read (bytes.drop 1) = .ok text)
    (isFilehash : rpcStrIsFilehash text = true) (nothing : packet.downloads = []) :
    answerBytes call packet = .error .downloading := by
  obtain ⟨behind, array⟩ := received.array
  have nonempty := nonempty_of_terminated (CString.mem_of_read body).1
  have whole : CString.read (packet.recvPayload.drop 1) = .ok text := by
    rw [← array, List.drop_append_of_le_length nonempty]
    exact CString.read_append body behind
  simp only [answerBytes, whole, isFilehash, nothing, awaitDownload, Except.mapError, ok_bind, if_true]
  rfl

theorem react_error {call : ClientCall} {packet : Packet} {rpcResult : ResultTable}
    {stop : ClientStop} (response : IsResponse packet)
    (selected : selectedSlot call packet.sender rpcResult = some position)
    (failed : answerBytes call packet = .error stop) :
    reactToPacket call packet rpcResult = .error stop := by
  rw [reactToPacket_of_isResponse response, reactToResponse]
  unfold selectedSlot at selected
  split at selected
  · rename_i all
    rw [if_pos all, selected]
    simp only [failed]
    rfl
  · rename_i direct
    rw [if_neg direct, failed]
    rfl

/-- A RESPONSE with a string is stored whatever the store holds exactly when it is no filehash. -/
theorem react_storesOutput_iff {call : ClientCall} {rpcResult : ResultTable}
    (packet : List StoreWorld → Packet) (isWorld : ∀ downloads, (packet downloads).downloads = downloads)
    (received : ∀ downloads, Receives (packet downloads) bytes)
    (type : bytes.head? = some rpcPktCallResponse) (body : CString.read (bytes.drop 1) = .ok text)
    (fits : bytes.length ≤ rpcPktSize)
    (selected : ∀ downloads, selectedSlot call (packet downloads).sender rpcResult = some position)
    (inside : position < rpcResult.cells.length) :
    (∀ downloads, StoresOutput output position ((reactToPacket call (packet downloads) rpcResult).map
        (reactionTable rpcResult))) ↔
      text.bytes = output ∧ rpcStrIsFilehash text = false := by
  cases plain : rpcStrIsFilehash text with
  | true =>
    refine iff_of_false (fun stores => ?_) fun kept => Bool.noConfusion kept.2
    have response : IsResponse (packet []) := by
      obtain ⟨behind, array⟩ := (received []).array
      rw [IsResponse, ← array]
      exact load_append (load_of_head? type) behind
    have failed := react_error response (selected [])
      (answerBytes_downloading (received []) body plain (isWorld []))
    have stored := stores []
    rw [failed] at stored
    exact not_storesOutput_error stored
  | false =>
    have answer : PlainAnswer bytes text := ⟨type, body, plain, fits⟩
    have each (downloads : List StoreWorld) : StoresOutput output position
        ((reactToPacket call (packet downloads) rpcResult).map (reactionTable rpcResult)) ↔
          text.bytes = output := by
      obtain ⟨_, _, returned, stored⟩ := faithful_of_react answer (received downloads)
        (selected downloads) inside
      exact storesOutput_iff returned stored
    simp only [each, and_true, forall_const]

theorem handler_storesOutput_iff {call : ClientCall} {memory : ClientMemory}
    (delivery : List StoreWorld → ClientDelivery)
    (isWorld : ∀ downloads, (delivery downloads).downloads = downloads)
    (delivered : ∀ downloads, (delivery downloads).payload = some bytes)
    (type : bytes.head? = some rpcPktCallResponse) (body : CString.read (bytes.drop 1) = .ok text)
    (fits : bytes.length ≤ rpcPktSize) (inside : 0 < memory.rpcResult.cells.length) :
    (∀ downloads, StoresOutput output 0 ((rpcClientMspHandler call memory (delivery downloads)).map
        fun handled => handled.2.rpcResult)) ↔
      text.bytes = output ∧ rpcStrIsFilehash text = false := by
  cases plain : rpcStrIsFilehash text with
  | true =>
    refine iff_of_false (fun stores => ?_) fun kept => Bool.noConfusion kept.2
    have failed : mspAnswerBytes call (delivery []) bytes = .error .downloading := by
      simp only [mspAnswerBytes, body, plain, isWorld, awaitDownload, Except.mapError, ok_bind, if_true]
      rfl
    have stored := stores []
    rw [mspHandler_response (delivered []) (load_of_head? type), failed] at stored
    exact not_storesOutput_error stored
  | false =>
    have answer : PlainAnswer bytes text := ⟨type, body, plain, fits⟩
    have each (downloads : List StoreWorld) : StoresOutput output 0
        ((rpcClientMspHandler call memory (delivery downloads)).map
          fun handled => handled.2.rpcResult) ↔ text.bytes = output := by
      obtain ⟨new, overwritten, handled⟩ := @mspHandler_plain call memory _ _ _ _ answer
        (delivered downloads) (List.getElem?_eq_getElem inside)
      rw [handled]
      exact storesOutput_iff rfl (stored_of_overwritten answer overwritten inside _)
    simp only [each, and_true, forall_const]

theorem bundle_body (isBundle : bytes = (printedPacket output).take (rpcPktSize - 1)) :
    bytes.drop 1 = ((printedPacket output).drop 1).take (rpcPktSize - 2) := by
  rw [isBundle, List.drop_take]
  rfl

/-- The bytes that stay behind come after the terminator. -/
theorem bundle_read (isBundle : bytes = (printedPacket output).take (rpcPktSize - 1))
    (terminated : 0 ∈ bytes.drop 1) : CString.read (bytes.drop 1) = .ok (outputLine output) := by
  have read := CString.read_of_mem terminated
  have whole := CString.read_append read (((printedPacket output).drop 1).drop (rpcPktSize - 2))
  rw [bundle_body isBundle, List.take_append_drop, printedPacket_read] at whole
  rw [read, bundle_body isBundle, Except.ok.inj whole]

/-- Over Rhizome the last byte of the packet stays behind, and the NUL of the longest line is there. -/
theorem bundle_terminated_iff (isBundle : bytes = (printedPacket output).take (rpcPktSize - 1))
    (kept : KeptOutput output) : 0 ∈ bytes.drop 1 ↔ output.length ≤ rpcPktSize - 3 := by
  have room : 3 ≤ rpcPktSize := by decide
  rw [bundle_body isBundle, printedPacket, kept.line, List.drop_one, List.tail_cons, List.take_append,
    List.take_replicate, List.mem_append, List.mem_replicate]
  constructor
  · rintro (inLine | ⟨zeros, _⟩)
    · exact absurd (List.mem_of_mem_take inLine) kept.nulFree
    · omega
  · intro short
    exact .inr ⟨by omega, rfl⟩

theorem bundle_storesOutput_iff {call : ClientCall} {rpcResult : ResultTable}
    (packet : List StoreWorld → Packet) (isWorld : ∀ downloads, (packet downloads).downloads = downloads)
    (isBundle : bytes = (printedPacket output).take (rpcPktSize - 1))
    (array : ∀ downloads, (packet downloads).recvPayload = bytes)
    (len : ∀ downloads, (packet downloads).len = bytes.length)
    (selected : ∀ downloads, selectedSlot call (packet downloads).sender rpcResult = some position)
    (inside : position < rpcResult.cells.length) :
    (∀ downloads, StoresOutput output position ((reactToPacket call (packet downloads) rpcResult).map
        (reactionTable rpcResult))) ↔
      KeptOutput output ∧ output.length ≤ rpcPktSize - 3 := by
  have type : bytes.head? = some rpcPktCallResponse := by
    rw [isBundle, List.head?_take, if_neg (by decide)]
    rfl
  by_cases terminated : 0 ∈ bytes.drop 1
  · have received (downloads : List StoreWorld) : Receives (packet downloads) bytes := by
      refine ⟨?_, len downloads⟩
      simp only [array, List.prefix_rfl]
    have fits : bytes.length ≤ rpcPktSize := by
      rw [isBundle, List.length_take]
      have size := printedPacket_length output
      omega
    have read := bundle_read isBundle terminated
    rw [react_storesOutput_iff packet isWorld received type read fits selected inside, ← kept_iff]
    exact ⟨fun kept => ⟨kept, (bundle_terminated_iff isBundle kept).mp terminated⟩, And.left⟩
  · refine iff_of_false (fun stores => ?_) fun ⟨kept, short⟩ =>
      terminated ((bundle_terminated_iff isBundle kept).mpr short)
    have response : IsResponse (packet []) := by
      rw [IsResponse, array]
      exact load_of_head? type
    have failed : answerBytes call (packet []) = .error (.fault .readOutOfBounds) := by
      rw [answerBytes, array, CString.read_of_not_mem terminated]
      rfl
    have stored := stores []
    rw [react_error response (selected []) failed] at stored
    exact not_storesOutput_error stored

theorem mdp_storesOutput_iff {call : ClientCall} {state : MdpState} {datagram : Datagram}
    (isResult : datagram.bytes = printedPacket output) (five : state.rpcResult.cells.length = 5)
    (selected : selectedSlot call datagram.sender state.rpcResult = some position) :
    (∀ downloads, StoresOutput output position ((rpcClientCallMdpRound call state
        (.received { datagram with downloads }.packet)).map MdpState.rpcResult)) ↔
      KeptOutput output := by
  have type : datagram.bytes.head? = some rpcPktCallResponse := by
    rw [isResult]
    rfl
  have body : CString.read (datagram.bytes.drop 1) = .ok (outputLine output) := by
    rw [isResult]
    exact printedPacket_read output
  have received (downloads : List StoreWorld) :
      Receives (Datagram.packet { datagram with downloads }) datagram.bytes :=
    receives_datagram { datagram with downloads }
  have stores := @react_storesOutput_iff output datagram.bytes (outputLine output) position call
    state.rpcResult (fun downloads => Datagram.packet { datagram with downloads }) (fun _ => rfl)
    received type body datagram.size (fun _ => selected) (selectedSlot_lt five selected)
  simp only [mdpRound_table]
  rw [kept_iff]
  exact stores

end Answers

/-! ## Both directions -/

/-- The call fits the client's array, the count byte and the packet; its name and its first parameter
are tokens, the parameter is no filehash, and there are as many parts as parameters. -/
structure Sendable (rpcName first : CString) (rest : List CString) : Prop where
  flatParams : flatLength ((first :: rest).map some) < flatParamsSize
  count : (first :: rest).length < 256
  size : 7 + rpcName.length + flatLength ((first :: rest).map some) ≤ rpcPktSize
  name : Transmissible rpcName
  param : Transmissible first
  plain : rpcStrIsFilehash first = false
  complete : (parts (first :: rest)).length = (first :: rest).length

theorem sendable_iff {client server : Serval} {upload : UploadWorld} {stack : Nat → UInt8}
    {rpcName first : CString} {rest : List CString} {requirements : UInt32} {flat : CString}
    {payload : List UInt8} {caller : Sid} {world : ExecuteWorld} {resultPayload : Block UInt8}
    (noFile : upload.file first = none)
    (prepared : prepareCall client upload stack rpcName ((first :: rest).map some)
      (first :: rest).length requirements = .ok (flat, payload))
    (installed : world.binExists (world.sysconfdir ++ binFolder ++ rpcName) = true) :
    (ReceivedWhole (first :: rest).length flat payload ∧
        ∃ rp params, HandsOver server world resultPayload caller rpcName first payload rp params) ↔
      Sendable rpcName first rest := by
  cases prepared.symm.trans (prepareCall_of_strings client upload stack rpcName first rest
    requirements noFile)
  have whole := receivedWhole_packed_iff client rpcName (first :: rest).length
    (flatParams callDelimiter (first :: rest)) requirements
  rw [flatParams_length] at whole
  constructor
  · rintro ⟨received, handed⟩
    obtain ⟨flatFits, few, sizeFits⟩ := whole.mp received
    obtain ⟨name, sendable, plain, complete⟩ := (handsOver_iff few rfl installed).mp handed
    exact ⟨flatFits, few, sizeFits, name, sendable, plain, complete⟩
  · rintro ⟨flatFits, few, sizeFits, name, sendable, plain, complete⟩
    exact ⟨whole.mpr ⟨flatFits, few, sizeFits⟩,
      (handsOver_iff few rfl installed).mpr ⟨name, sendable, plain, complete⟩⟩

/-- A first parameter that names no file of the client reaches the command line of the procedure
exactly when it is sendable, and is a word of it when the line needs no quotes.  An output that names
no file of the server becomes the content exactly when the packet keeps it.  Otherwise the string is
cut, or its receiver waits for a file. -/
theorem plain_strings_kept :
    (∀ (client server : Serval) (upload : UploadWorld) (stack : Nat → UInt8) (rpcName first : CString)
      (rest : List CString) (requirements : UInt32) (flat : CString) (payload : List UInt8)
      (caller : Sid) (world : ExecuteWorld) (resultPayload : Block UInt8),
      upload.file first = none →
      prepareCall client upload stack rpcName ((first :: rest).map some) (first :: rest).length
        requirements = .ok (flat, payload) →
      world.binExists (world.sysconfdir ++ binFolder ++ rpcName) = true →
        ((ReceivedWhole (first :: rest).length flat payload ∧
            ∃ rp params, HandsOver server world resultPayload caller rpcName first payload rp params) ↔
          Sendable rpcName first rest) ∧
        ∀ rp params, HandsOver server world resultPayload caller rpcName first payload rp params →
          (Shell.simpleCommand (binary world rp ++
              flatParams (CString.ofChars [' ']) (first :: params)).bytes =
                some ((binary world rp).bytes :: (first :: params).map CString.bytes) ↔
            Shell.isPlainCommand (binary world rp).bytes = true ∧
              ∀ param ∈ first :: params, Shell.isPlain param.bytes = true)) ∧
    ∀ (server : Serval) (world : ExecuteWorld) (rp : RPCProcedure) (output : List UInt8)
      (result : ExecuteResult), Printed server world rp output result → ∀ call : ClientCall,
      (∀ (state : MdpState) (datagram : Datagram) (position : Nat),
        datagram.bytes = result.resultPayload.cells → state.rpcResult.cells.length = 5 →
        selectedSlot call datagram.sender state.rpcResult = some position →
          ((∀ downloads, StoresOutput output position ((rpcClientCallMdpRound call state
              (.received { datagram with downloads }.packet)).map MdpState.rpcResult)) ↔
            KeptOutput output)) ∧
      (∀ (memory : ClientMemory) (delivery : ClientDelivery),
        delivery.payload = some result.resultPayload.cells → memory.rpcResult.cells.length = 5 →
          ((∀ downloads, StoresOutput output 0 ((rpcClientMspHandler call memory
              { delivery with downloads }).map fun handled => handled.2.rpcResult)) ↔
            KeptOutput output)) ∧
      ∀ (insertion : Insertion) (caller : Sid) (state : RhizomeState) (row : Row) (input : RowInput)
        (sender : CString) (body : List UInt8) (position : Nat),
        body = resultBody server insertion caller rp.name result.resultPayload.cells →
        row.filesize = body.length → state.rpcResult.cells.length = 5 →
        selectedSlot call (rowPacket call row input sender body).sender state.rpcResult =
          some position →
          ((∀ downloads, StoresOutput output position ((rpcClientRhizomeListenRound call state
              (.received (rowPacket call row { input with downloads } sender body))).map
                RhizomeState.rpcResult)) ↔
            KeptOutput output ∧ output.length ≤ rpcPktSize - 3) := by
  constructor
  · intro client server upload stack rpcName first rest requirements flat payload caller world
      resultPayload noFile prepared installed
    refine ⟨sendable_iff noFile prepared installed, fun rp params _ => ?_⟩
    rw [binary_flatParams_bytes, Shell.simpleCommand_join_iff, List.forall_mem_map]
  · intro server world rp output result printed call
    have cells := printed.cells
    have size := printedPacket_length output
    have read := printedPacket_read output
    refine ⟨?_, ?_, ?_⟩
    · intro state datagram position isResult five selected
      exact mdp_storesOutput_iff (isResult.trans cells) five selected
    · intro memory delivery delivered five
      rw [cells] at delivered
      rw [kept_iff]
      exact handler_storesOutput_iff (fun downloads => { delivery with downloads }) (fun _ => rfl)
        (fun _ => delivered) rfl read (Nat.le_of_eq size) (by omega)
    · intro insertion caller state row input sender body position isBody listed five selected
      have isBundle : body = (printedPacket output).take (rpcPktSize - 1) := by
        rw [isBody, cells, resultBody_eq size]
      have small : body.length < 2 ^ 64 := by
        rw [isBundle, List.length_take, size]
        decide
      have isSize : sizeOfInt row.filesize = body.length := by rw [listed, sizeOfInt_natCast small]
      simp only [listenRound_table]
      refine bundle_storesOutput_iff
        (fun downloads => rowPacket call row { input with downloads } sender body) (fun _ => rfl)
        isBundle (fun _ => ?_) (fun _ => isSize) (fun _ => selected)
        (selectedSlot_lt five selected)
      rw [rowPacket, isSize, overread_self]

/-! ## Strings that are files for their receiver -/

/-- The packet with this output, as the datagram of a server. -/
def printedDatagram (output : List UInt8) : Datagram where
  sender := ResultSlots.server 1
  bytes := printedPacket output
  size := Nat.le_of_eq (printedPacket_length output)
  behind _ := 0
  downloads := []
  pathRest _ := 0

theorem printing_printed (output : List UInt8) : ∃ result,
    Printed (Serval.executable sidAny) (Delivery.printingWorld output) Delivery.addCalled output
      result := by
  obtain ⟨result, executed, succeeded, _⟩ := Delivery.printing_executed output
  refine ⟨result, executed, succeeded, ?_, rfl⟩
  rintro line run ⟨⟩
  rfl

/-- The call `add|1|2`, and the line `3`. -/
theorem plain_strings_kept_add : (∃ flat payload,
      prepareCall (Serval.executable sidAny) plainUpload (fun _ => 0) addName
        ([CString.ofChars ['1'], CString.ofChars ['2']].map some) 2 0 = .ok (flat, payload) ∧
      ∃ rp params, HandsOver (Serval.executable sidAny) addWorld (Block.calloc rpcPktSize 0)
        Download.caller addName (CString.ofChars ['1']) payload rp params) ∧
    ∀ downloads, StoresOutput [51, 10] 0 ((rpcClientCallMdpRound (Addressee.callServer 1) (.entry 0)
      (.received { printedDatagram [51, 10] with downloads }.packet)).map MdpState.rpcResult) := by
  have prepared := prepareCall_of_strings (Serval.executable sidAny) plainUpload (fun _ => 0) addName
    (CString.ofChars ['1']) [CString.ofChars ['2']] 0 rfl
  have sendable : Sendable addName (CString.ofChars ['1']) [CString.ofChars ['2']] :=
    ⟨by decide, by decide, by decide, by decide, by decide, by decide, by decide⟩
  have handed := (plain_strings_kept.1 (Serval.executable sidAny) (Serval.executable sidAny) _ _ _ _ _
    _ _ _ Download.caller addWorld (Block.calloc rpcPktSize 0) rfl prepared rfl).1.mpr sendable
  obtain ⟨result, printed⟩ := printing_printed [51, 10]
  have stores := (plain_strings_kept.2 _ _ _ _ result printed (Addressee.callServer 1)).1 (.entry 0)
    (printedDatagram [51, 10]) 0 printed.cells.symm rfl rfl
  exact ⟨⟨_, _, prepared, handed.2⟩, stores.mpr ⟨by decide, by decide, by decide⟩⟩

/-- A parameter or a result of 128 digits is a filehash for its receiver; a parameter with a delimiter
becomes two, and of two lines one is lost. -/
theorem strings_taken_for_files :
    (∀ first ∈ [Download.hashOf 65, CString.ofChars ['1', '|', '2']], ∃ flat payload,
      prepareCall (Serval.executable sidAny) plainUpload (fun _ => 0) addName [some first] 1 0 =
        .ok (flat, payload) ∧
      ¬ ∃ rp params, HandsOver (Serval.executable sidAny) addWorld (Block.calloc rpcPktSize 0)
        Download.caller addName first payload rp params) ∧
    ∀ output ∈ [(Download.hashOf 65).bytes, [49, 10, 50, 10]],
      (∃ result, Printed (Serval.executable sidAny) (Delivery.printingWorld output)
        Delivery.addCalled output result ∧ result.resultPayload.cells = (printedDatagram output).bytes) ∧
      ¬ ∀ downloads, StoresOutput output 0 ((rpcClientCallMdpRound (Addressee.callServer 1) (.entry 0)
        (.received { printedDatagram output with downloads }.packet)).map MdpState.rpcResult) := by
  constructor
  · intro first member
    have few : [first].length < 256 := show 1 < 256 by decide
    refine ⟨_, _, prepareCall_of_strings _ _ _ _ first [] _ rfl, fun handed => ?_⟩
    obtain ⟨_, transmissible, plain, _⟩ := (handsOver_iff few rfl rfl).mp handed
    simp only [List.mem_cons, List.not_mem_nil, or_false] at member
    obtain rfl | rfl := member
    · cases Download.hashOf_isFilehash.symm.trans plain
    · exact absurd transmissible (by decide)
  · intro output member
    obtain ⟨result, printed⟩ := printing_printed output
    refine ⟨⟨result, printed, printed.cells⟩, fun stores => ?_⟩
    have kept := (@mdp_storesOutput_iff output 0 (Addressee.callServer 1) (.entry 0)
      (printedDatagram output) rfl rfl rfl).mp stores
    simp only [List.mem_cons, List.not_mem_nil, or_false] at member
    obtain rfl | rfl := member
    · have plain := kept.plain
      rw [CString.upToNul_bytes] at plain
      cases Download.hashOf_isFilehash.symm.trans plain
    · exact absurd kept.line (by decide)

end ServalRpc.Verified.PlainStrings
