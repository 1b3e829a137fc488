import ServalRpc.Verified.FileReplies

/-! # What a process prints

`_rpc_server_excecute` reads one line of the pipe and keeps its newline.  So a path is only found
when nothing ends it, and what follows the first line does not come back.
-/

namespace ServalRpc.Verified.ProcessOutput

open CLib FileStore FileReplies PlainStrings

/-! ## The line that is read -/

section Line

variable {size : Nat} {line : List UInt8}

theorem takeWhile_line (noNewline : 10 ∉ line) : ∀ byte ∈ line, (byte != 10) = true := by
  intro byte member
  simpa using fun newline : byte = 10 => noNewline (newline ▸ member)

theorem fgetsLine_of_noNewline (noNewline : 10 ∉ line) (short : line.length ≤ size - 1) :
    fgetsLine size line = line := by
  have whole : line.takeWhile (· != 10) = line :=
    List.takeWhile_eq_self_iff.mpr (takeWhile_line noNewline)
  rw [fgetsLine, whole, List.drop_length, List.take_nil, List.append_nil]
  exact List.take_of_length_le short

/-- The newline belongs to the line. -/
theorem fgetsLine_of_newline (noNewline : 10 ∉ line) (behind : List UInt8)
    (short : line.length + 1 ≤ size - 1) : fgetsLine size (line ++ 10 :: behind) = line ++ [10] := by
  have front : (line ++ 10 :: behind).takeWhile (· != 10) = line := by
    simp [List.takeWhile_append_of_pos (takeWhile_line noNewline)]
  rw [fgetsLine, front, List.drop_left]
  apply List.take_of_length_le
  simpa using short

/-- All of an output is read exactly when it has no newline but at its end. -/
theorem fgetsLine_eq_self_iff {output : List UInt8} (short : output.length ≤ size - 1) :
    fgetsLine size output = output ↔ 10 ∉ output.dropLast := by
  by_cases newline : 10 ∈ output
  · obtain ⟨line, behind, rfl, noNewline⟩ := List.eq_append_cons_of_mem newline
    have room : line.length + 1 ≤ size - 1 := by
      rw [List.length_append, List.length_cons] at short
      omega
    rw [fgetsLine_of_newline noNewline behind room]
    -- Something behind the newline is lost, and makes it one of the bytes before the last.
    cases behind with
    | nil => simp [noNewline]
    | cons byte behind => simp [List.dropLast_append_of_ne_nil]
  · refine iff_of_true (fgetsLine_of_noNewline newline short) fun member => ?_
    exact newline (List.dropLast_subset output member)

/-- The string that the server looks for is the whole output exactly when all of it is one line. -/
theorem outputLine_eq_self_iff {output : CString} (short : output.length ≤ rpcPktSize - 2) :
    outputLine output.bytes = output ↔ 10 ∉ output.bytes.dropLast := by
  have fits : output.bytes.length ≤ rpcPktSize - 1 - 1 := short
  rw [← fgetsLine_eq_self_iff fits, outputLine]
  have front := fgetsLine_prefix (rpcPktSize - 1) output.bytes
  have nulFree : 0 ∉ fgetsLine (rpcPktSize - 1) output.bytes := fun member =>
    output.nulFree (front.subset member)
  constructor
  · intro same
    rw [← CString.upToNul_bytes_of_nulFree nulFree, same]
  · intro same
    rw [same, CString.upToNul_bytes]

end Line

/-! ## An output that is no path -/

section Whole

variable {serval : Serval} {world : ExecuteWorld} {files : FileWorld} {rp started : RPCProcedure}
variable {run : ProcessRun} {output : CString}

/-- The execution succeeds and its result is the output. -/
def ReturnsOutput (serval : Serval) (world : ExecuteWorld) (files : FileWorld) (rp : RPCProcedure)
    (output : CString) : Prop :=
  ∃ result request,
    FileStore.rpcServerExcecute serval world files (Block.calloc rpcPktSize 0) rp =
      .ok (some result, request) ∧
    result.returnCode = 1 ∧ CString.read (result.resultPayload.cells.drop 1) = .ok output

theorem excecute_plain (running : startProcess serval world rp = .ok (.running started run))
    (noFile : files.file (outputLine run.output) = none) :
    FileStore.rpcServerExcecute serval world files (Block.calloc rpcPktSize 0) rp =
      .ok (some ⟨if run.exitStatus ≠ 0 then 0 else 1,
        Representation.printedLine run.output (Block.calloc rpcPktSize 0), started⟩, none) := by
  rw [excecute_running running, collect_plain noFile]
  rfl

theorem returnsOutput_iff (running : startProcess serval world rp = .ok (.running started run))
    (succeeded : run.exitStatus = 0) (noFile : files.file (outputLine run.output) = none) :
    ReturnsOutput serval world files rp output ↔ outputLine run.output = output := by
  have read := printedLine_read run.output
  rw [ReturnsOutput, excecute_plain running noFile]
  constructor
  · rintro ⟨result, request, same, _, isOutput⟩
    cases same
    exact Except.ok.inj (read.symm.trans isOutput)
  · rintro rfl
    exact ⟨_, _, rfl, if_neg (not_not.mpr succeeded), read⟩

end Whole

def noFiles : FileWorld := ⟨fun _ => none, .noHandle, fun _ => 0⟩

/-- An output that names no file is returned as a whole, whatever files there are, exactly when no
newline is in it but as its last byte.  Where its first line names no file either, no other output
is. -/
theorem whole_output_iff (serval : Serval) (world : ExecuteWorld) (rp started : RPCProcedure)
    (run : ProcessRun) (output : CString)
    (running : startProcess serval world rp = .ok (.running started run))
    (succeeded : run.exitStatus = 0) (printed : run.output = output.bytes)
    (short : output.length ≤ rpcPktSize - 2) :
    ((∀ files : FileWorld, files.file output = none → ReturnsOutput serval world files rp output) ↔
      10 ∉ output.bytes.dropLast) ∧
    ∀ files : FileWorld, files.file (outputLine output.bytes) = none →
      (ReturnsOutput serval world files rp output ↔ 10 ∉ output.bytes.dropLast) := by
  have returns (files : FileWorld) (noFile : files.file (outputLine output.bytes) = none) :
      ReturnsOutput serval world files rp output ↔ 10 ∉ output.bytes.dropLast := by
    rw [← outputLine_eq_self_iff short, ← printed]
    exact returnsOutput_iff running succeeded (printed ▸ noFile)
  refine ⟨⟨fun always => ?_, fun oneLine files noFile => ?_⟩, returns⟩
  · exact (returns noFiles rfl).mp (always noFiles rfl)
  · refine (returns files ?_).mpr oneLine
    rwa [(outputLine_eq_self_iff short).mpr oneLine]

/-- The line `3`. -/
theorem whole_output_three :
    ReturnsOutput (Serval.executable sidAny) (Delivery.printingWorld [51, 10]) noFiles
      Delivery.addCalled (CString.ofChars ['3', '\n']) :=
  (whole_output_iff _ _ _ _ _ (CString.ofChars ['3', '\n']) (printing_started [51, 10]) rfl
    (by decide) (by decide)).1.mpr (by decide) noFiles rfl

/-- Of the lines `1` and `2` the server returns the first, and reports success. -/
theorem second_line_lost :
    ReturnsOutput (Serval.executable sidAny) (Delivery.printingWorld [49, 10, 50, 10]) noFiles
      Delivery.addCalled (CString.ofChars ['1', '\n']) ∧
    ¬ ReturnsOutput (Serval.executable sidAny) (Delivery.printingWorld [49, 10, 50, 10]) noFiles
      Delivery.addCalled (CString.ofChars ['1', '\n', '2', '\n']) := by
  have returns (output : CString) := @returnsOutput_iff _ _ _ _ _ _ output
    (printing_started [49, 10, 50, 10]) rfl (show noFiles.file _ = none from rfl)
  constructor
  · rw [returns]
    decide
  · rw [returns]
    decide

/-! ## An output that is a path -/

section Path

variable {serval : Serval} {world : ExecuteWorld} {files : FileWorld} {rp started : RPCProcedure}
variable {run : ProcessRun} {path hash : CString} {content : List UInt8} {caller : Sid}

/-- The execution succeeds, the file at this path is added to the store, and the result is its
filehash. -/
def SendsFile (serval : Serval) (world : ExecuteWorld) (files : FileWorld) (rp : RPCProcedure)
    (path : CString) (content : List UInt8) (hash : CString) : Prop :=
  ∃ result request,
    FileStore.rpcServerExcecute serval world files (Block.calloc rpcPktSize 0) rp =
      .ok (some result, some request) ∧
    result.returnCode = 1 ∧ request.filepath = path ∧ request.content = content ∧
    CString.read (result.resultPayload.cells.drop 1) = .ok hash

/-- What is added is the file whose path is the line with its newline. -/
theorem outputLine_of_sendsFile
    (running : startProcess serval world rp = .ok (.running started run))
    (isCaller : rp.callerSid = some caller)
    (sends : SendsFile serval world files rp path content hash) : outputLine run.output = path := by
  obtain ⟨result, request, executed, _, isPath, _⟩ := sends
  cases isFile : files.file (outputLine run.output) with
  | none =>
    rw [excecute_plain running isFile] at executed
    cases executed
  | some found =>
    obtain ⟨added, returned, same⟩ := (excecute_file_iff running isCaller isFile).mp executed
    obtain ⟨_, made⟩ := Prod.mk.inj same
    rw [(add_refines (array_room _) returned).2 request made.symm] at isPath
    exact isPath

/-- A file whose path has no newline is sent for an output of this path, with or without a newline
behind it, exactly when there is none. -/
theorem echoed_file_sent_iff (serval : Serval) (world : ExecuteWorld) (files : FileWorld)
    (rp started : RPCProcedure) (run : ProcessRun) (caller : Sid) (path hash : CString)
    (content : List UInt8) (running : startProcess serval world rp = .ok (.running started run))
    (isCaller : rp.callerSid = some caller) (succeeded : run.exitStatus = 0)
    (isFile : files.file path = some content) (oneLine : 10 ∉ path.bytes)
    (short : path.length ≤ rpcPktSize - 3)
    (printed : run.output = path.bytes ∨ run.output = path.bytes ++ [10])
    (names : Names files.reply hash) :
    SendsFile serval world files rp path content hash ↔ run.output = path.bytes := by
  constructor
  · intro sends
    have isLine := outputLine_of_sendsFile running isCaller sends
    obtain bare | echoed := printed
    · exact bare
    · -- The line ends with the newline, and the path has none.
      have fits : path.bytes.length + 1 ≤ rpcPktSize - 1 - 1 := by
        have room : 3 ≤ rpcPktSize := by decide
        rw [CString.length] at short
        omega
      have nulFree : 0 ∉ path.bytes ++ [10] := by simp [path.nulFree]
      have isOutput := congrArg CString.bytes isLine
      rw [outputLine, echoed, fgetsLine_of_newline oneLine [] fits,
        CString.upToNul_bytes_of_nulFree nulFree] at isOutput
      exact absurd (isOutput ▸ List.mem_append_right _ List.mem_cons_self) oneLine
  · intro bare
    have isLine : outputLine run.output = path := by
      rw [bare]
      refine (outputLine_eq_self_iff (short.trans (by decide))).mpr fun member => oneLine ?_
      exact List.dropLast_subset _ member
    obtain ⟨filehash, returned, texts⟩ := added_of_names serval caller started.name path content
      (array_room files.stack) names
    rw [← isLine] at isFile returned
    obtain ⟨isFront, wide⟩ := replacedBlock_front returned
    have executed := (excecute_file_iff running isCaller isFile).mpr ⟨_, returned, rfl⟩
    exact ⟨_, _, executed, if_neg (not_not.mpr succeeded), isLine, rfl, texts _ isFront wide⟩

end Path

/-- The server's file `a`, and a store that takes it. -/
def oneFile : FileWorld where
  file path := if path = CString.ofChars ['a'] then some [116, 10] else none
  reply := replyOf (Download.hashOf 65)
  stack _ := 0

theorem echoed_file_sent_bare :
    SendsFile (Serval.executable sidAny) (Delivery.printingWorld [97]) oneFile Delivery.addCalled
      (CString.ofChars ['a']) [116, 10] (Download.hashOf 65) :=
  (echoed_file_sent_iff _ _ _ _ _ _ _ (CString.ofChars ['a']) _ _ (printing_started [97]) rfl rfl rfl
    (by decide) (by decide) (.inl rfl) (replyOf_names Download.hashOf_isFilehash)).mpr rfl

/-- Of an echoed path the result is the line itself. -/
theorem echoed_path_returned :
    ReturnsOutput (Serval.executable sidAny) (Delivery.printingWorld [97, 10]) oneFile
      Delivery.addCalled (CString.ofChars ['a', '\n']) ∧
    ¬ SendsFile (Serval.executable sidAny) (Delivery.printingWorld [97, 10]) oneFile
      Delivery.addCalled (CString.ofChars ['a']) [116, 10] (Download.hashOf 65) := by
  have running := printing_started [97, 10]
  constructor
  · refine (returnsOutput_iff running rfl ?_).mpr ?_
    · decide
    · decide
  · intro sends
    have isLine := outputLine_of_sendsFile running rfl sends
    exact absurd isLine (by decide)

end ServalRpc.Verified.ProcessOutput
