import ServalRpc.Model.ExecuteBuffers
import ServalRpc.Verified.Delivery

/-! # The arrays of an execution are one byte too short

The path of the binary and the command line have as many bytes as their arrays, so their NULs are
written behind them, and the last NUL of the packet goes to the index that is the size of the packet.
Everything else fits: the joined parameters fill their block to its last byte.
-/

namespace ServalRpc.Verified.ExecutionBounds

open CLib
open ServalRpc.Verified.Representation (printedLine collectResult_split)

/-- The writes that leave their array. -/
def Leaves (write : Write ExecuteBuffer) : Prop :=
  write.buffer = .bin ∨ write.buffer = .cmd ∨
    write.buffer = .resultPayload ∧ write.start = rpcPktSize

/-- A part of the trace in which just those writes leave their array. -/
def Known (trace : List (Write ExecuteBuffer)) : Prop :=
  ∀ write ∈ trace, (write.Inside ↔ ¬ Leaves write)

theorem known_nil : Known [] := List.forall_mem_nil _

theorem known_append {front back : List (Write ExecuteBuffer)} (first : Known front)
    (second : Known back) : Known (front ++ back) :=
  List.forall_mem_append.mpr ⟨first, second⟩

/-! ## The command line -/

/-- A text in an array of its own length. -/
theorem text_not_inside (buffer : ExecuteBuffer) {size : Nat} {string : CString}
    (exact : size = string.length) : ¬ (Write.text buffer size string).Inside := by
  rw [Write.text_inside_iff, exact]
  exact Nat.lt_irrefl _

/-- A delimiter of one byte for each parameter, as the size of the block has it. -/
theorem flattenWrites_inside {size : Nat} {delim flat : CString} {params : List CString}
    (oneByte : delim.length = 1)
    (room : flat.length + (params.map CString.length).sum + params.length + 1 ≤ size)
    {write : Write ExecuteBuffer} (member : write ∈ flattenWrites size delim flat params) :
    write.Inside ∧ write.buffer = .flatParams := by
  induction params generalizing flat with
  | nil => cases member
  | cons param params inductionHypothesis =>
    simp only [List.map_cons, List.sum_cons, List.length_cons] at room
    simp only [flattenWrites, List.mem_cons] at member
    obtain rfl | rfl | member := member
    · refine ⟨?_, rfl⟩
      simp only [Write.append, Write.Inside, oneByte]
      omega
    · refine ⟨?_, rfl⟩
      simp only [Write.append, Write.Inside, CString.length_append, oneByte]
      omega
    · apply inductionHypothesis _ member
      simp only [CString.length_append, oneByte]
      omega

theorem commandWrites_known (bin : CString) (rp : RPCProcedure) : Known (commandWrites bin rp) := by
  have oneByte : (CString.ofChars [' ']).length = 1 := by decide
  have empty : (CString.ofChars []).length = 0 := rfl
  unfold commandWrites
  dsimp only
  split
  · rename_i params flatParams _ _
    apply known_append
    · intro write member
      obtain ⟨inside, buffer⟩ :=
        flattenWrites_inside oneByte (by rw [empty, flatParamsBlock]; omega) member
      simp [inside, Leaves, buffer]
    · intro write member
      obtain rfl := List.mem_singleton.mp member
      have outside := text_not_inside .cmd (CString.length_append bin flatParams).symm
      simp [outside, Leaves]
  · exact known_nil

theorem fetchWrites_known (serval : Serval) (world : ExecuteWorld) (rp : RPCProcedure) :
    Known (fetchWrites serval world rp) := by
  unfold fetchWrites
  split
  · split
    · split
      · intro write member
        obtain rfl := List.mem_singleton.mp member
        simp [Leaves]
      · exact known_nil
    · exact known_nil
  · exact known_nil

theorem bin_not_inside (sysconfdir rpcName : CString) :
    ¬ (Write.text ExecuteBuffer.bin (sysconfdir.length + binFolder.length + rpcName.length)
      (sysconfdir ++ binFolder ++ rpcName)).Inside := by
  apply text_not_inside
  rw [CString.length_append, CString.length_append]

theorem startWrites_known (serval : Serval) (world : ExecuteWorld) (rp : RPCProcedure) :
    Known (startWrites serval world rp) := by
  have outside := bin_not_inside world.sysconfdir rp.name
  refine List.forall_mem_cons.mpr ⟨?_, ?_⟩
  · simp [outside, Leaves]
  · split
    · exact known_nil
    · apply known_append (fetchWrites_known serval world rp)
      split
      · exact commandWrites_known _ _
      · exact known_nil

/-! ## The packet -/

theorem known_inPacket {start count : Nat} (before : start < rpcPktSize)
    (inside : start + count ≤ rpcPktSize) :
    Known [⟨.resultPayload, rpcPktSize, start, count⟩] := by
  intro write member
  obtain rfl := List.mem_singleton.mp member
  simp [Write.Inside, Leaves, inside, Nat.ne_of_lt before]

theorem known_packetEnd : Known [⟨.resultPayload, rpcPktSize, rpcPktSize, 1⟩] := by
  intro write member
  obtain rfl := List.mem_singleton.mp member
  simp [Write.Inside, Leaves]

/-- `fgets` leaves the last cell to the NUL that is written behind it. -/
theorem lineWrites_known {line : List UInt8} (short : line.length ≤ rpcPktSize - 2) :
    Known (lineWrites rpcPktSize line) := by
  have size : rpcPktSize = 960 := rfl
  apply known_append _ known_packetEnd
  split
  · exact known_nil
  · exact known_inPacket (by omega) (by omega)

/-- Besides those of its last NUL, the writes to the packet stay in it. -/
theorem resultWrites_known (world : ExecuteWorld) (output : List UInt8) {resultPayload : Block UInt8}
    (provided : resultPayload.cells.length = rpcPktSize) :
    Known (resultWrites world output resultPayload) := by
  have size : rpcPktSize = 960 := rfl
  have short : (fgetsLine (rpcPktSize - 1) output).length ≤ rpcPktSize - 2 := List.length_take_le _ _
  unfold resultWrites
  dsimp only
  rw [provided]
  apply known_append (known_append (known_inPacket (by omega) (by omega)) (lineWrites_known short))
  split
  · exact known_nil
  · split
    · exact known_append (known_inPacket (by omega) (by omega)) known_packetEnd
    · exact known_nil

/-! ## The packet of the model -/

/-- What stores at consecutive indices of the packet add to its stray indices. -/
theorem storeFrom_stray_packet {packet : Block UInt8} {size : Nat}
    (provided : packet.cells.length = size) (start : Nat) (values : List UInt8) :
    (packet.storeFrom start values).stray =
      packet.stray ++ (⟨.resultPayload, size, start, values.length⟩ : Write ExecuteBuffer).outside :=
  Write.storeFrom_stray packet values ⟨_, size, start, values.length⟩ provided rfl

theorem store_stray_packet {packet : Block UInt8} {size : Nat}
    (provided : packet.cells.length = size) (start : Nat) (value : UInt8) :
    (packet.store start value).stray =
      packet.stray ++ (⟨.resultPayload, size, start, 1⟩ : Write ExecuteBuffer).outside :=
  storeFrom_stray_packet provided start [value]

theorem lineWrites_stray {typed : Block UInt8} {size : Nat} (provided : typed.cells.length = size)
    (line : List UInt8) :
    ((if line = [] then typed else typed.storeFrom 1 (line ++ [0])).store rpcPktSize 0).stray =
      typed.stray ++ (lineWrites size line).flatMap Write.outside := by
  unfold lineWrites
  split
  · rw [store_stray_packet provided]
    simp
  · rw [store_stray_packet ((Block.storeFrom_length _ _ _).trans provided),
      storeFrom_stray_packet provided, List.length_append, List.length_singleton]
    simp

theorem printedLine_length (output : List UInt8) (resultPayload : Block UInt8) :
    (printedLine output resultPayload).cells.length = resultPayload.cells.length := by
  unfold printedLine
  dsimp only
  split
  · simp
  · simp

theorem printedLine_stray (output : List UInt8) (resultPayload : Block UInt8) :
    (printedLine output resultPayload).stray = resultPayload.stray ++
      (⟨.resultPayload, resultPayload.cells.length, 0, 1⟩ : Write ExecuteBuffer).outside ++
        (lineWrites resultPayload.cells.length (fgetsLine (rpcPktSize - 1) output)).flatMap
          Write.outside := by
  have typed := Block.store_length resultPayload 0 rpcPktCallResponse
  rw [← store_stray_packet rfl]
  exact lineWrites_stray typed _

/-- The writes once the line has been read back from the packet. -/
theorem resultWrites_of_read {world : ExecuteWorld} {output : List UInt8}
    {resultPayload : Block UInt8} {result : CString}
    (read : CString.read ((printedLine output resultPayload).cells.drop 1) = .ok result) :
    resultWrites world output resultPayload =
      [⟨.resultPayload, resultPayload.cells.length, 0, 1⟩] ++
        lineWrites resultPayload.cells.length (fgetsLine (rpcPktSize - 1) output) ++
          if world.resultExists result then
            [⟨.resultPayload, resultPayload.cells.length, 1, rpcPktSize - 1⟩,
              ⟨.resultPayload, resultPayload.cells.length, rpcPktSize, 1⟩]
          else [] := by
  unfold printedLine at read
  unfold resultWrites
  dsimp only at read ⊢
  rw [read]

/-- The indices that the block of the model keeps as stray are those of the trace. -/
theorem collectResult_stray {world : ExecuteWorld} {output : List UInt8}
    {resultPayload collected : Block UInt8}
    (collects : collectResult world output resultPayload = .ok collected) :
    collected.stray =
      resultPayload.stray ++ (resultWrites world output resultPayload).flatMap Write.outside := by
  have printed := printedLine_stray output resultPayload
  have size := printedLine_length output resultPayload
  rw [collectResult_split] at collects
  obtain ⟨result, read, collects⟩ := bind_eq_ok_iff.mp collects
  rw [resultWrites_of_read read]
  split at collects
  · rename_i isFile
    obtain ⟨filehash, loaded, collects⟩ := bind_eq_ok_iff.mp collects
    cases collects
    have length : filehash.length = rpcPktSize - 1 := by
      obtain ⟨inside, rfl⟩ := loadRange_eq_ok_iff.mp loaded
      rw [List.length_take, List.length_drop]
      omega
    rw [store_stray_packet ((Block.storeFrom_length _ _ _).trans size), storeFrom_stray_packet size,
      printed, length, if_pos isFile]
    simp
  · rename_i noFile
    cases collects
    rw [printed, if_neg noFile]
    simp

/-! ## The whole execution -/

/-- No execution stays in its arrays: the path of the binary leaves `bin` by its NUL, and so do the
command line and the packet when it comes to them.  All other writes are inside, and what a process
prints leaves the packet of the model at the indices of the trace. -/
theorem excecute_leaves_arrays (serval : Serval) (world : ExecuteWorld) (rp : RPCProcedure)
    (resultPayload : Block UInt8) (provided : resultPayload.cells.length = rpcPktSize) :
    ¬ Write.AllInside (excecuteWrites serval world resultPayload rp) ∧
      (∀ write ∈ excecuteWrites serval world resultPayload rp, (write.Inside ↔ ¬ Leaves write)) ∧
      ∀ output collected, collectResult world output resultPayload = .ok collected →
        collected.stray = resultPayload.stray ++
          (resultWrites world output resultPayload).flatMap Write.outside := by
  refine ⟨?_, ?_, fun _ _ collects => collectResult_stray collects⟩
  · intro inside
    exact bin_not_inside world.sysconfdir rp.name (inside _ List.mem_cons_self)
  · apply known_append (startWrites_known serval world rp)
    split
    · exact resultWrites_known world _ provided
    · exact known_nil

theorem excecute_leaves_arrays_add :
    ¬ Write.AllInside (excecuteWrites (Serval.executable sidAny) Delivery.runWorld
      (Block.calloc rpcPktSize 0) Delivery.addCalled) :=
  (excecute_leaves_arrays _ Delivery.runWorld Delivery.addCalled (Block.calloc rpcPktSize 0)
    (by simp [Block.calloc])).1

/-- The call `add|1|2`: `/etc/serval/rpc_bin/add` in an array of 23, that path and ` 1 2` in one of
27, and index 960 of the packet.  The block of the parameters is full. -/
theorem add_behind_arrays :
    excecuteWrites (Serval.executable sidAny) Delivery.runWorld (Block.calloc rpcPktSize 0)
        Delivery.addCalled =
      [⟨.bin, 23, 0, 24⟩, ⟨.flatParams, 5, 0, 2⟩, ⟨.flatParams, 5, 1, 2⟩, ⟨.flatParams, 5, 2, 2⟩,
        ⟨.flatParams, 5, 3, 2⟩, ⟨.cmd, 27, 0, 28⟩, ⟨.resultPayload, 960, 0, 1⟩,
        ⟨.resultPayload, 960, 1, 3⟩, ⟨.resultPayload, 960, 960, 1⟩] ∧
    ¬ Write.AllInside (excecuteWrites (Serval.executable sidAny) Delivery.runWorld
      (Block.calloc rpcPktSize 0) Delivery.addCalled) := by
  have trace : excecuteWrites (Serval.executable sidAny) Delivery.runWorld
      (Block.calloc rpcPktSize 0) Delivery.addCalled =
        [⟨.bin, 23, 0, 24⟩, ⟨.flatParams, 5, 0, 2⟩, ⟨.flatParams, 5, 1, 2⟩, ⟨.flatParams, 5, 2, 2⟩,
          ⟨.flatParams, 5, 3, 2⟩, ⟨.cmd, 27, 0, 28⟩, ⟨.resultPayload, 960, 0, 1⟩,
          ⟨.resultPayload, 960, 1, 3⟩, ⟨.resultPayload, 960, 960, 1⟩] := by decide +kernel
  refine ⟨trace, ?_⟩
  intro inside
  rw [trace] at inside
  exact absurd (inside _ List.mem_cons_self) (by decide)

end ServalRpc.Verified.ExecutionBounds
