import ServalRpc.Model.Execute
import ServalRpc.Verified.Offering

/-! # The representation of a parsed call

Execution and cleanup walk over the first `paramc_n` cells of the parameter array.  The parser
fills exactly these cells when the text has as many fields behind the name as the count byte
says.  The first cell is read whatever the count, so an offered call also needs a parameter.
-/

namespace ServalRpc.Verified.Representation

open CLib ParseCall

/-- The parameter array has as many cells as the count says, none of them is null, and nothing
was stored outside it. -/
structure WellFormed (rp : RPCProcedure) : Prop where
  size : rp.params.cells.length = rp.paramc.paramcN.toNat
  inside : rp.params.stray = []
  filled : none ∉ rp.params.cells

/-- What an execution reads besides the procedure: rows with a service and a name, and a filehash
array of the declared size. -/
structure Complete (world : ExecuteWorld) : Prop where
  rows : ∀ store ∈ world.downloads, ∀ rows, store.listing = some rows →
    ∀ row ∈ rows, row.service.isSome ∧ row.name.isSome
  filehash : world.filehash.length = rpcPktSize

/-- Neither execution, on a cleared result packet, nor cleanup of the procedure faults. -/
def Usable (serval : Serval) (rp : RPCProcedure) : Prop :=
  (∀ world caller, Complete world →
    ∃ result, rpcServerExcecute serval world (Block.calloc rpcPktSize 0)
      { rp with callerSid := some caller } = .ok result) ∧
  rpcFreeRp rp = .ok ()

/-! ## Downloads in a complete world -/

section Download

variable (serval : Serval) (rpcName sid : CString)

theorem wantedFile_ok {row : Row} (service : row.service.isSome) (name : row.name.isSome) :
    ∃ found, wantedFile serval rpcName sid row = .ok found := by
  obtain ⟨service, hasService⟩ := Option.isSome_iff_exists.mp service
  obtain ⟨name, hasName⟩ := Option.isSome_iff_exists.mp name
  unfold wantedFile
  rw [hasService, hasName]
  simp only [bind, Except.bind, deref_some]
  cases row.sender with
  | none => exact ⟨none, rfl⟩
  | some sender =>
    dsimp only
    split
    · exact ⟨some sender, rfl⟩
    · exact ⟨none, rfl⟩

theorem downloadLoop_ok (store : StoreWorld) {rows : List Row}
    (complete : ∀ row ∈ rows, row.service.isSome ∧ row.name.isSome) :
    ∃ download, downloadLoop serval store rpcName sid rows = .ok download := by
  induction rows with
  | nil => exact ⟨_, rfl⟩
  | cons row rows inductionHypothesis =>
    obtain ⟨here, later⟩ := List.forall_mem_cons.mp complete
    obtain ⟨found, filter⟩ := wantedFile_ok serval rpcName sid here.1 here.2
    rw [downloadLoop, filter]
    simp only [bind, Except.bind]
    cases found with
    | none => exact inductionHypothesis later
    | some sender =>
      dsimp only
      cases store.decrypted row.id with
      | none => exact ⟨_, rfl⟩
      | some bytes => exact ⟨_, rfl⟩

theorem rpcDownloadFile_ok {store : StoreWorld}
    (complete : ∀ rows, store.listing = some rows →
      ∀ row ∈ rows, row.service.isSome ∧ row.name.isSome) :
    ∃ download, rpcDownloadFile serval store rpcName sid = .ok download := by
  unfold rpcDownloadFile
  cases listed : store.listing with
  | none => exact ⟨_, rfl⟩
  | some rows =>
    dsimp only
    split
    · exact ⟨_, rfl⟩
    · exact downloadLoop_ok serval rpcName sid store (complete rows listed)

theorem awaitDownload_ok {stores : List StoreWorld}
    (complete : ∀ store ∈ stores, ∀ rows, store.listing = some rows →
      ∀ row ∈ rows, row.service.isSome ∧ row.name.isSome) :
    ∃ path, awaitDownload serval rpcName sid stores = .ok path := by
  induction stores with
  | nil => exact ⟨none, rfl⟩
  | cons store stores inductionHypothesis =>
    obtain ⟨here, later⟩ := List.forall_mem_cons.mp complete
    obtain ⟨download, downloaded⟩ := rpcDownloadFile_ok serval rpcName sid here
    rw [awaitDownload, downloaded]
    simp only [bind, Except.bind]
    split
    · exact ⟨_, rfl⟩
    · exact inductionHypothesis later

end Download

/-! ## Execution of a well-formed procedure -/

section Execute

variable (serval : Serval) {world : ExecuteWorld} {rp : RPCProcedure}

/-- The path of a downloaded file takes the place of the first parameter. -/
theorem WellFormed.store_first (wellFormed : WellFormed rp) (nonempty : 0 < rp.paramc.paramcN.toNat)
    (fpath : CString) : WellFormed { rp with params := rp.params.store 0 (some fpath) } := by
  have bound : 0 < rp.params.cells.length := wellFormed.size ▸ nonempty
  refine ⟨?_, ?_, ?_⟩
  · exact (Block.store_length _ _ _).trans wellFormed.size
  · exact ((Block.store_stray_eq_iff _ _ _).mpr bound).trans wellFormed.inside
  · rw [Block.store_of_lt bound]
    intro null
    obtain member | equal := List.mem_or_eq_of_mem_set null
    · exact wellFormed.filled member
    · cases equal

theorem fetchFirstParam_ok (complete : Complete world) (wellFormed : WellFormed rp)
    (nonempty : 0 < rp.paramc.paramcN.toNat) (caller : rp.callerSid.isSome) :
    ∃ fetched, fetchFirstParam serval world rp = .ok fetched ∧
      ∀ next ∈ fetched, WellFormed next := by
  obtain ⟨caller, hasCaller⟩ := Option.isSome_iff_exists.mp caller
  obtain ⟨params, cells⟩ := exists_eq_map_some wellFormed.filled
  have length := wellFormed.size
  rw [cells, List.length_map] at length
  cases params with
  | nil => exact absurd nonempty (by simp [← length])
  | cons first params =>
    have read : derefAt rp.params.cells 0 = .ok first := by
      rw [derefAt_eq_ok_iff, cells]
      rfl
    unfold fetchFirstParam
    rw [read, hasCaller]
    simp only [bind, Except.bind, deref_some]
    split
    · obtain ⟨path, awaited⟩ := awaitDownload_ok serval rp.name (tohexSidT caller) complete.rows
      rw [awaited]
      cases path with
      | none => exact ⟨none, rfl, by simp⟩
      | some fpath =>
        have stored := wellFormed.store_first nonempty fpath
        rw [hasCaller] at stored
        exact ⟨_, rfl, by simpa using stored⟩
    · exact ⟨_, rfl, by simpa using wellFormed⟩

theorem rpcFlattenParams_ok (wellFormed : WellFormed rp) (delim : CString) :
    ∃ flat, rpcFlattenParams rp.paramc.paramcN.toNat rp.params.cells delim = .ok flat := by
  obtain ⟨params, cells⟩ := exists_eq_map_some wellFormed.filled
  have walked : derefRange rp.params.cells rp.paramc.paramcN.toNat = .ok params := by
    rw [derefRange_eq_ok_iff, ← wellFormed.size, List.take_length]
    exact ⟨Nat.le_refl _, cells⟩
  rw [rpcFlattenParams, walked]
  exact ⟨_, rfl⟩

/-- Freeing a procedure only needs as many cells as the count says. -/
theorem rpcFreeRp_of_size (size : rp.params.cells.length = rp.paramc.paramcN.toNat) :
    rpcFreeRp rp = .ok () := by
  have each : ∀ indices : List Nat, (∀ i ∈ indices, i < rp.params.cells.length) →
      forM indices (fun i => do let _ ← load rp.params.cells i) = Except.ok () := by
    intro indices bounds
    induction indices with
    | nil => rfl
    | cons i indices inductionHypothesis =>
      obtain ⟨here, later⟩ := List.forall_mem_cons.mp bounds
      rw [List.forM_cons, load_of_lt here]
      exact inductionHypothesis later
  apply each
  intro i member
  rw [size]
  exact List.mem_range.mp member

theorem rpcFreeRp_ok (wellFormed : WellFormed rp) : rpcFreeRp rp = .ok () :=
  rpcFreeRp_of_size wellFormed.size

/-- The packet is still a string behind its first byte. -/
def HoldsString (resultPayload : Block UInt8) : Prop :=
  resultPayload.cells.length = rpcPktSize ∧ 0 ∈ resultPayload.cells.drop 1

theorem holdsString_calloc : HoldsString (Block.calloc rpcPktSize 0) := by
  refine ⟨List.length_replicate, ?_⟩
  rw [Block.calloc, List.drop_replicate]
  exact List.mem_replicate.mpr ⟨by decide, rfl⟩

theorem HoldsString.store_type {resultPayload : Block UInt8} (holds : HoldsString resultPayload)
    (type : UInt8) : HoldsString (resultPayload.store 0 type) := by
  refine ⟨(Block.store_length _ _ _).trans holds.1, ?_⟩
  rw [Block.store_of_lt (by rw [holds.1]; decide), List.drop_set_of_lt (by decide)]
  exact holds.2

/-- The store behind the packet leaves its cells alone. -/
theorem HoldsString.store_end {resultPayload : Block UInt8} (holds : HoldsString resultPayload)
    (byte : UInt8) : HoldsString (resultPayload.store rpcPktSize byte) := by
  rw [Block.store_of_le (Nat.le_of_eq holds.1)]
  exact holds

theorem HoldsString.storeFrom_line {resultPayload : Block UInt8} (holds : HoldsString resultPayload)
    {line : List UInt8} (short : line.length ≤ rpcPktSize - 2) :
    HoldsString (resultPayload.storeFrom 1 (line ++ [0])) := by
  have room : 1 + (line ++ [0]).length ≤ resultPayload.cells.length := by
    have two : 2 ≤ rpcPktSize := by decide
    rw [holds.1, List.length_append, List.length_singleton]
    omega
  refine ⟨(Block.storeFrom_length _ _ _).trans holds.1, ?_⟩
  have front : (resultPayload.cells.take 1).length = 1 := by
    rw [List.length_take]
    omega
  rw [Block.storeFrom_of_fits room, List.append_assoc, List.drop_left' front]
  simp

/-- The packet with the line that was read. -/
def printedLine (output : List UInt8) (resultPayload : Block UInt8) : Block UInt8 :=
  let typed := resultPayload.store 0 rpcPktCallResponse
  let line := fgetsLine (rpcPktSize - 1) output
  (if line = [] then typed else typed.storeFrom 1 (line ++ [0])).store rpcPktSize 0

/-- A filehash takes the place of a line that names a file. -/
def replaceLine (world : ExecuteWorld) (printed : Block UInt8) : Except Fault (Block UInt8) := do
  let result ← CString.read (printed.cells.drop 1)
  if world.resultExists result then
    let filehash ← loadRange world.filehash 0 (rpcPktSize - 1)
    pure ((printed.storeFrom 1 filehash).store rpcPktSize 0)
  else pure printed

theorem collectResult_split (world : ExecuteWorld) (output : List UInt8) (resultPayload : Block UInt8) :
    collectResult world output resultPayload =
      replaceLine world (printedLine output resultPayload) := rfl

theorem HoldsString.printedLine {resultPayload : Block UInt8} (holds : HoldsString resultPayload)
    (output : List UInt8) : HoldsString (printedLine output resultPayload) := by
  have short : (fgetsLine (rpcPktSize - 1) output).length ≤ rpcPktSize - 2 := List.length_take_le _ _
  have typed := holds.store_type rpcPktCallResponse
  unfold Representation.printedLine
  dsimp only
  split
  · exact typed.store_end 0
  · exact (typed.storeFrom_line short).store_end 0

/-- Whatever the process prints, the result packet is collected. -/
theorem collectResult_ok (complete : Complete world) (output : List UInt8) :
    ∃ resultPayload, collectResult world output (Block.calloc rpcPktSize 0) = .ok resultPayload := by
  have holds := holdsString_calloc.printedLine output
  have filehash : loadRange world.filehash 0 (rpcPktSize - 1) =
      .ok ((world.filehash.drop 0).take (rpcPktSize - 1)) :=
    loadRange_of_le (by rw [complete.filehash]; decide)
  rw [collectResult_split, replaceLine, CString.read_of_mem holds.2, ok_bind]
  split
  · rw [filehash]
    exact ⟨_, rfl⟩
  · exact ⟨_, rfl⟩

theorem rpcServerExcecute_ok (complete : Complete world) (wellFormed : WellFormed rp)
    (nonempty : 0 < rp.paramc.paramcN.toNat) (caller : rp.callerSid.isSome) :
    ∃ result, rpcServerExcecute serval world (Block.calloc rpcPktSize 0) rp = .ok result := by
  obtain ⟨fetched, fetch, next⟩ := fetchFirstParam_ok serval complete wellFormed nonempty caller
  unfold rpcServerExcecute
  simp only [fetch, bind, Except.bind]
  split
  · exact ⟨_, rfl⟩
  · cases fetched with
    | none => exact ⟨none, rfl⟩
    | some rp =>
      obtain ⟨flat, flattened⟩ := rpcFlattenParams_ok (next rp rfl) (CString.ofChars [' '])
      simp only [flattened]
      split
      · exact ⟨_, rfl⟩
      · rename_i run _
        obtain ⟨resultPayload, collected⟩ := collectResult_ok complete run.output
        simp only [collected]
        exact ⟨_, rfl⟩

end Execute

/-! ## The offering check looks at name and count only -/

/-- The server offers a procedure of this name with this parameter count. -/
def Offers (conf : Option (List UInt8)) (name : CString) (count : UInt8) : Prop :=
  ∃ ret, rpcServerOffering conf
    ⟨name, ⟨count, CString.decimal count.toNat⟩, Block.calloc 0 none, none⟩ = .ok ret ∧ ret ≠ 0

theorem offeringLoop_congr {left right : RPCProcedure} (name : left.name = right.name)
    (paramc : left.paramc = right.paramc) (ret : Int) (lines : List (List UInt8)) :
    offeringLoop left ret lines = offeringLoop right ret lines := by
  induction lines generalizing ret with
  | nil => rfl
  | cons line lines inductionHypothesis =>
    simp only [offeringLoop, name, paramc, inductionHypothesis]

theorem offers_iff (conf : Option (List UInt8)) (rp : RPCProcedure)
    (decimal : rp.paramc.paramcS = CString.decimal rp.paramc.paramcN.toNat) :
    Offers conf rp.name rp.paramc.paramcN ↔
      ∃ ret, rpcServerOffering conf rp = .ok ret ∧ ret ≠ 0 := by
  have paramc : (⟨rp.paramc.paramcN, CString.decimal rp.paramc.paramcN.toNat⟩ : ParamRepr) =
      rp.paramc := by
    rw [← decimal]
  have same : rpcServerOffering conf ⟨rp.name, ⟨rp.paramc.paramcN,
      CString.decimal rp.paramc.paramcN.toNat⟩, Block.calloc 0 none, none⟩ =
        rpcServerOffering conf rp := by
    cases conf with
    | none => rfl
    | some content =>
      rw [paramc, rpcServerOffering, rpcServerOffering]
      apply offeringLoop_congr
      · rfl
      · rfl
  rw [Offers, same]

/-! ## The parsed procedure -/

/-- The parser fills the parameter array exactly when there are as many fields as the count says. -/
theorem parsedProcedure_wellFormed_iff (count : UInt8) (name : CString) (params : List CString) :
    WellFormed (parsedProcedure count name params) ↔ params.length = count.toNat := by
  have complete := Block.calloc_storeFrom_full_iff count.toNat params
  constructor
  · intro wellFormed
    exact complete.mp ⟨wellFormed.inside, wellFormed.filled⟩
  · intro length
    obtain ⟨inside, filled⟩ := complete.mpr length
    exact ⟨(Block.storeFrom_length _ _ _).trans List.length_replicate, inside, filled⟩

/-- A world whose store is empty and in which every binary exists. -/
def installedWorld : ExecuteWorld where
  sysconfdir := CString.ofChars []
  binExists _ := true
  downloads := []
  popen _ := none
  resultExists _ := false
  filehash := List.replicate rpcPktSize 0

theorem installedWorld_complete : Complete installedWorld :=
  ⟨by simp [installedWorld], List.length_replicate⟩

/-- Without a parameter the execution reads outside the empty array. -/
theorem not_usable_of_no_params (serval : Serval) {rp : RPCProcedure}
    (empty : rp.params.cells = []) : ¬ Usable serval rp := by
  intro usable
  obtain ⟨result, executed⟩ := usable.1 installedWorld sidAny installedWorld_complete
  have fault : fetchFirstParam serval installedWorld { rp with callerSid := some sidAny } =
      .error .readOutOfBounds := by
    simp only [fetchFirstParam, empty]
    rfl
  simp only [rpcServerExcecute, fault] at executed
  cases executed

/-- For a terminated packet with a name, the procedure is well formed, and usable when its call is
offered, exactly when as many fields follow the name as the count byte says, and the server does
not offer the procedure with a count of zero. -/
theorem representation_iff (serval : Serval) (conf : Option (List UInt8)) (payload : List UInt8)
    (terminated : 0 ∈ payload.drop 6) (name : CString) (params : List CString)
    (named : tokens 124 (callText payload) = name :: params) :
    (∃ rp, rpcServerParseCall payload payload.length = .ok rp ∧ WellFormed rp ∧
      ∀ ret, rpcServerOffering conf rp = .ok ret → ret ≠ 0 → Usable serval rp) ↔
    params.length = (callCount payload).toNat ∧
      (Offers conf name (callCount payload) → callCount payload ≠ 0) := by
  have offers := offers_iff conf (parsedProcedure (callCount payload) name params) rfl
  rw [parse_named terminated named]
  constructor
  · rintro ⟨rp, parsed, wellFormed, usable⟩
    cases parsed
    have length := (parsedProcedure_wellFormed_iff _ _ _).mp wellFormed
    refine ⟨length, fun offered zero => ?_⟩
    obtain ⟨ret, checked, nonzero⟩ := offers.mp offered
    have empty := wellFormed.size
    rw [show (parsedProcedure (callCount payload) name params).paramc.paramcN = 0 from zero] at empty
    exact not_usable_of_no_params serval (List.length_eq_zero_iff.mp empty) (usable ret checked nonzero)
  · rintro ⟨length, positive⟩
    have wellFormed := (parsedProcedure_wellFormed_iff (callCount payload) name params).mpr length
    refine ⟨_, rfl, wellFormed, fun ret checked nonzero => ?_⟩
    have count := positive (offers.mpr ⟨ret, checked, nonzero⟩)
    have nonempty : 0 < (callCount payload).toNat :=
      Nat.pos_of_ne_zero fun zero => count (UInt8.toNat.inj zero)
    refine ⟨fun world caller complete => ?_, rpcFreeRp_ok wellFormed⟩
    have withCaller : WellFormed { parsedProcedure (callCount payload) name params with
        callerSid := some caller } := ⟨wellFormed.size, wellFormed.inside, wellFormed.filled⟩
    exact rpcServerExcecute_ok serval complete withCaller nonempty rfl

/-- The call `add|1|2` with the count byte 2, at a server that declares `add 2 int int`: it is
offered, so the execution has to run without a fault. -/
theorem representation_add :
    ∃ rp, rpcServerParseCall
        ([0, 0, 0, 0, 0, 2] ++ (CString.ofChars ['a', 'd', 'd', '|', '1', '|', '2']).bytes ++ [0]) 14 =
        .ok rp ∧ WellFormed rp ∧
      rpcServerOffering (some Offering.addConf.content) rp = .ok 2 ∧
      Usable (Serval.executable sidAny) rp := by
  have terminated : 0 ∈ ([0, 0, 0, 0, 0, 2] ++
      (CString.ofChars ['a', 'd', 'd', '|', '1', '|', '2']).bytes ++ [0]).drop 6 := by decide
  have named : tokens 124 (callText ([0, 0, 0, 0, 0, 2] ++
      (CString.ofChars ['a', 'd', 'd', '|', '1', '|', '2']).bytes ++ [0])) =
      CString.ofChars ['a', 'd', 'd'] :: [CString.ofChars ['1'], CString.ofChars ['2']] := by decide
  obtain ⟨rp, parsed, wellFormed, usable⟩ := (representation_iff (Serval.executable sidAny)
    (some Offering.addConf.content) _ terminated _ _ named).mpr ⟨by decide, fun _ => by decide⟩
  have offered : rpcServerOffering (some Offering.addConf.content) rp = .ok 2 := by
    cases parsed.symm.trans (parse_named terminated named)
    exact Offering.add_offered rfl rfl
  exact ⟨rp, parsed, wellFormed, offered, usable 2 offered (by decide)⟩

/-- The call `add|1|2` with the count byte 1 stores behind the array, with the count byte 3 it
leaves a null pointer. -/
theorem representation_wrong_count :
    (∃ rp, rpcServerParseCall
        ([0, 0, 0, 0, 0, 1] ++ (CString.ofChars ['a', 'd', 'd', '|', '1', '|', '2']).bytes ++ [0]) 14 =
        .ok rp ∧ rp.params.stray = [1] ∧ ¬ WellFormed rp) ∧
    ∃ rp, rpcServerParseCall
        ([0, 0, 0, 0, 0, 3] ++ (CString.ofChars ['a', 'd', 'd', '|', '1', '|', '2']).bytes ++ [0]) 14 =
        .ok rp ∧ none ∈ rp.params.cells ∧ ¬ WellFormed rp := by
  constructor
  · refine ⟨parsedProcedure 1 (CString.ofChars ['a', 'd', 'd'])
      [CString.ofChars ['1'], CString.ofChars ['2']], parse_named (by decide) (by decide),
      by decide, ?_⟩
    rw [parsedProcedure_wellFormed_iff]
    decide
  · refine ⟨parsedProcedure 3 (CString.ofChars ['a', 'd', 'd'])
      [CString.ofChars ['1'], CString.ofChars ['2']], parse_named (by decide) (by decide),
      by decide, ?_⟩
    rw [parsedProcedure_wellFormed_iff]
    decide

end ServalRpc.Verified.Representation
