import ServalRpc.Verified.CommandLine
import ServalRpc.Verified.ProcessStart
import ServalRpc.Verified.Representation

/-! # Where a result goes

In mode ALL every handler sends the result of a successful execution over one channel.  It looks
at the channel before it sends and not at what became of the result.
-/

namespace ServalRpc.Verified.Delivery

open CLib HandlerSteps

variable {serval : Serval}

/-! ## Result packets -/

/-- A packet of full size that starts with the type of a RESPONSE. -/
structure ResultPacket (resultPayload : Block UInt8) : Prop where
  size : resultPayload.cells.length = rpcPktSize
  type : resultPayload.cells.head? = some rpcPktCallResponse

theorem collectResult_packet {world : ExecuteWorld} {output : List UInt8}
    {resultPayload : Block UInt8}
    (collected : collectResult world output (Block.calloc rpcPktSize 0) = .ok resultPayload) :
    ResultPacket resultPayload := by
  have started : ResultPacket ((Block.calloc rpcPktSize 0).store 0 rpcPktCallResponse) := by
    have inside : 0 < (Block.calloc rpcPktSize (0 : UInt8)).cells.length := by
      rw [Block.calloc, List.length_replicate]
      decide
    refine ⟨(Block.store_length _ _ _).trans List.length_replicate, ?_⟩
    rw [Block.store_of_lt inside]
    rfl
  have stored {block : Block UInt8} (packet : ResultPacket block) {index : Nat}
      (behind : index ≠ 0) (value : UInt8) : ResultPacket (block.store index value) :=
    ⟨(Block.store_length _ _ _).trans packet.size, (Block.store_head? behind _).trans packet.type⟩
  have storedFrom {block : Block UInt8} (packet : ResultPacket block) (values : List UInt8) :
      ResultPacket (block.storeFrom 1 values) :=
    ⟨(Block.storeFrom_length _ _ _).trans packet.size,
      (Block.storeFrom_head? Nat.one_ne_zero _).trans packet.type⟩
  have last : rpcPktSize ≠ 0 := by decide
  have printed : ResultPacket (Representation.printedLine output (Block.calloc rpcPktSize 0)) := by
    unfold Representation.printedLine
    dsimp only
    split
    · exact stored started last 0
    · exact stored (storedFrom started _) last 0
  rw [Representation.collectResult_split] at collected
  obtain ⟨result, _, collected⟩ := bind_eq_ok_iff.mp collected
  split at collected
  · obtain ⟨filehash, _, collected⟩ := bind_eq_ok_iff.mp collected
    cases collected
    exact stored (storedFrom printed filehash) last 0
  · cases collected
    exact printed

/-- The packet of a successful execution is what its process has printed. -/
theorem collected_of_executed {world : ExecuteWorld} {rp : RPCProcedure} {result : ExecuteResult}
    (executed : excecuteCall serval world rp = .ok result) (succeeded : result.returnCode ≠ 0) :
    ∃ line run, world.popen line = some run ∧
      collectResult world run.output (Block.calloc rpcPktSize 0) = .ok result.resultPayload := by
  rw [excecuteCall_ok_iff] at executed
  obtain failed | collected := (ProcessStart.executed_cases executed).2
  · exact absurd failed succeeded
  · exact collected

/-- A successful execution leaves a result packet. -/
theorem resultPacket_of_executed {world : ExecuteWorld} {rp : RPCProcedure}
    {result : ExecuteResult} (executed : excecuteCall serval world rp = .ok result)
    (succeeded : result.returnCode ≠ 0) : ResultPacket result.resultPayload := by
  obtain ⟨_, _, _, collected⟩ := collected_of_executed executed succeeded
  exact collectResult_packet collected

/-! ## Channels -/

/-- The channel has taken the whole result: all its bytes went into the stream of MSP, `mdp_send`
sent it to the caller, or the store took a bundle with it. -/
def Takes (caller : Sid) (resultPayload : List UInt8) : ServerAction → Prop
  | .mspSend payload sent => payload = resultPayload ∧ sent = payload.length
  | .mdpSend remote payload sent => remote = caller ∧ payload = resultPayload ∧ sent = true
  | .publish publication =>
    publication.content = resultPayload.take (rpcPktSize - 1) ∧ publication.accepted = true
  | .mspStop => False
  | .excecute _ => False

def Delivered (caller : Sid) (resultPayload : List UInt8) (actions : List ServerAction) : Prop :=
  ∃ action ∈ actions, Takes caller resultPayload action

theorem delivered_cons_iff {caller : Sid} {resultPayload : List UInt8} {action : ServerAction}
    {actions : List ServerAction} (refused : ¬ Takes caller resultPayload action) :
    Delivered caller resultPayload (action :: actions) ↔
      Delivered caller resultPayload actions := by
  simp [Delivered, refused]

theorem delivered_singleton_iff {caller : Sid} {resultPayload : List UInt8}
    {action : ServerAction} :
    Delivered caller resultPayload [action] ↔ Takes caller resultPayload action := by
  simp [Delivered]

theorem not_takes_excecute {caller : Sid} {resultPayload : List UInt8} (rp : RPCProcedure) :
    ¬ Takes caller resultPayload (.excecute rp) :=
  not_false

section Packet

variable {caller : Sid} {resultPayload : Block UInt8}

/-- An ACK is no result, whatever channel it takes. -/
theorem ack_ne_result (packet : ResultPacket resultPayload) :
    [rpcPktCallAck] ≠ resultPayload.cells := by
  intro same
  have size := packet.size
  rw [← same] at size
  exact absurd size (by decide)

theorem not_takes_mdpAck (packet : ResultPacket resultPayload) (remote : Sid) (sent : Bool) :
    ¬ Takes caller resultPayload.cells (.mdpSend remote [rpcPktCallAck] sent) :=
  fun takes => ack_ne_result packet takes.2.1

theorem not_takes_mspAck (packet : ResultPacket resultPayload) (sent : Int) :
    ¬ Takes caller resultPayload.cells (.mspSend [rpcPktCallAck] sent) :=
  fun takes => ack_ne_result packet takes.1

/-- The bundle of an ACK starts with another type than a result. -/
theorem not_takes_rowAck (packet : ResultPacket resultPayload) (visit : Visit) (recipient : Sid)
    (rpcName : CString) :
    ¬ Takes caller resultPayload.cells (.publish (rowAck serval visit recipient rpcName)) := by
  rintro ⟨content, _⟩
  have first := congrArg List.head? content
  have positive : rpcPktSize - 1 ≠ 0 := by decide
  have one : (rowAck serval visit recipient rpcName).content.head? = some rpcPktCallAck := by
    rw [rowAck, rpcServerRhizomeSendResult, overread_head? _ _ positive]
    rfl
  have two : (resultPayload.cells.take (rpcPktSize - 1)).head? = some rpcPktCallResponse := by
    rw [List.head?_take, if_neg positive, packet.type]
  rw [one, two] at first
  exact absurd first (by decide)

theorem takes_publish_iff (packet : ResultPacket resultPayload) (insertion : Insertion)
    (recipient : Sid) (rpcName : CString) :
    Takes caller resultPayload.cells (.publish (rpcServerRhizomeSendResult serval insertion
      recipient rpcName resultPayload.cells).2) ↔ insertion.accepted = true := by
  have fits : rpcPktSize - 1 ≤ resultPayload.cells.length := by
    rw [packet.size]
    exact Nat.sub_le _ _
  have content := overread_of_le insertion.behind fits
  simp [Takes, rpcServerRhizomeSendResult, content]

end Packet

/-- In mode ALL, the result of a successful execution is delivered, or its call may be executed
again, exactly when the one channel that the handler picks takes it. -/
theorem results_delivered_iff (serval : Serval) :
    (∀ world remote payload rp ret actions result,
      rpcServerMdpHandle serval .all world (some (remote, payload)) = .ok (ret, actions) →
      load payload 0 = .ok rpcPktCall →
      admitCall serval world.conf payload (some (tohexSidT remote)) = .ok (.accepted rp) →
      excecuteCall serval world.execute rp = .ok result → result.returnCode ≠ 0 →
        (Delivered remote result.resultPayload.cells actions ↔
          if world.reachable ≠ 0 then world.resultSent = true
          else world.insertion.accepted = true)) ∧
    (∀ world delivery payload rp ret actions result,
      rpcServerMspHandler serval .all world delivery = .ok (ret, actions) →
      delivery.payload = some payload → load payload 0 = .ok rpcPktCall →
      admitCall serval world.conf payload (some (tohexSidT world.remote)) = .ok (.accepted rp) →
      excecuteCall serval world.execute rp = .ok result → result.returnCode ≠ 0 →
        (Delivered world.remote result.resultPayload.cells actions ↔
          if !world.socketIsNull && world.socketIsData then world.resultSent = rpcPktSize
          else world.insertion.accepted = true)) ∧
    ∀ state visit visits rp caller result next final,
      Eligible serval state.doneCalls visit rp → rp.callerSid = some caller →
      excecuteCall serval visit.world.execute rp = .ok result → result.returnCode ≠ 0 →
      rhizomeRound serval state visit = .ok (next, true) →
      rhizomeLoop serval next visits = .ok final →
        ((Delivered caller result.resultPayload.cells (next.actions.drop state.actions.length) ∨
          visit.row.id ∉ final.doneCalls) ↔ visit.world.resultInsertion.accepted = true) := by
  refine ⟨?_, ?_, ?_⟩
  · intro world remote payload rp ret actions result handled type admitted executed succeeded
    have packet := resultPacket_of_executed executed succeeded
    obtain ⟨other, executed', rfl⟩ := mdp_accepted handled type admitted
    cases executed.symm.trans executed'
    rw [delivered_cons_iff (not_takes_mdpAck packet _ _), delivered_cons_iff (not_takes_excecute _),
      mdpAnswer, if_neg succeeded]
    split
    · rw [delivered_singleton_iff]
      simp [Takes]
    · rw [if_pos rfl, delivered_singleton_iff, takes_publish_iff packet]
  · intro world delivery payload rp ret actions result handled delivered type admitted executed
      succeeded
    have packet := resultPacket_of_executed executed succeeded
    obtain ⟨other, executed', rfl⟩ := msp_accepted handled delivered type admitted
    cases executed.symm.trans executed'
    have stopped (actions : List ServerAction) : Delivered world.remote result.resultPayload.cells
        ((if delivery.closing then [.mspStop] else []) ++ actions) ↔
          Delivered world.remote result.resultPayload.cells actions := by
      split
      · exact delivered_cons_iff fun takes => takes
      · rfl
    rw [stopped, delivered_cons_iff (not_takes_mspAck packet _),
      delivered_cons_iff (not_takes_excecute _), mspAnswer, if_neg succeeded]
    split
    · rw [delivered_singleton_iff]
      simp [Takes, packet.size]
    · rw [if_pos rfl, delivered_singleton_iff, takes_publish_iff packet]
  · intro state visit visits rp caller result next final eligible isCaller executed succeeded round
      looped
    have packet := resultPacket_of_executed executed succeeded
    obtain ⟨caller', result', attempted, _⟩ := round_attempted round eligible
    cases isCaller.symm.trans attempted.isCaller
    cases executed.symm.trans attempted.executed
    -- The id stays recorded until the end of the poll.
    have recorded : visit.row.id ∈ final.doneCalls := by
      apply (loop_doneCalls_kept looped).subset
      rw [attempted.doneCalls, if_neg succeeded]
      exact List.mem_append_right _ (List.mem_singleton.mpr rfl)
    rw [or_iff_left (not_not.mpr recorded), attempted.actions, List.drop_left,
      delivered_cons_iff (not_takes_rowAck packet _ _ _), delivered_cons_iff (not_takes_excecute _),
      if_neg succeeded, delivered_singleton_iff, rowAnswer, takes_publish_iff packet]

/-! ## A result that no channel takes -/

/-- The world of the executable, in which every binary prints this and succeeds. -/
def printingWorld (output : List UInt8) : ExecuteWorld :=
  { CommandLine.addWorld with popen := fun _ => some ⟨output, 0⟩ }

/-- The world of the executable, in which the binary of `add` prints a line and succeeds. -/
def runWorld : ExecuteWorld := { CommandLine.addWorld with popen := fun _ => some ⟨[51, 10], 0⟩ }

def addPayload : List UInt8 := CommandLine.addOf ['1'] ['2']

def addCalled : RPCProcedure := CommandLine.addProcedure ['1'] ['2']

def addConfFile : Option (List UInt8) := some Offering.addConf.content

theorem add_admitted : admitCall (Serval.executable sidAny) addConfFile addPayload
    (some (tohexSidT Download.caller)) = .ok (.accepted addCalled) :=
  CommandLine.addOf_accepted (by decide) (by decide)

theorem add_type : load addPayload 0 = .ok rpcPktCall := rfl

theorem addCalled_freed : rpcFreeRp addCalled = .ok () := rfl

theorem printing_executed (output : List UInt8) : ∃ result,
    excecuteCall (Serval.executable sidAny) (printingWorld output) addCalled = .ok result ∧
      result.returnCode ≠ 0 ∧ result.rp = addCalled := by
  have complete : Representation.Complete (printingWorld output) :=
    ⟨by simp [printingWorld, CommandLine.addWorld], List.length_replicate⟩
  obtain ⟨resultPayload, collected⟩ := Representation.collectResult_ok complete output
  refine ⟨⟨1, resultPayload, addCalled⟩, ?_, Int.one_ne_zero, rfl⟩
  have fetched : fetchFirstParam (Serval.executable sidAny) (printingWorld output) addCalled =
      .ok (some addCalled) := CommandLine.fetchFirstParam_of_noFilehash rfl (by decide)
  rw [excecuteCall_ok_iff, CommandLine.excecute_of_params rfl fetched
    (CommandLine.addProcedure_params ['1'] ['2'])]
  simp only [CommandLine.afterPopen, printingWorld] at collected ⊢
  rw [collected]
  rfl

theorem add_executed : ∃ result,
    excecuteCall (Serval.executable sidAny) runWorld addCalled = .ok result ∧
      result.returnCode ≠ 0 ∧ result.rp = addCalled :=
  printing_executed [51, 10]

def insertionOf (accepted : Bool) : Insertion := ⟨accepted, fun _ => 0⟩

def mdpWorldOf (resultSent : Bool) : MdpWorld where
  conf := addConfFile
  execute := runWorld
  ackSent := true
  reachable := 1
  resultSent := resultSent
  insertion := insertionOf true

/-- A call over MDP whose caller is no longer reachable. -/
def unreachableWorld : MdpWorld := { mdpWorldOf true with reachable := 0 }

def mspWorldOf (resultSent : Int) : MspWorld where
  conf := addConfFile
  execute := runWorld
  remote := Download.caller
  ackSent := 1
  socketIsNull := false
  socketIsData := true
  resultSent := resultSent
  insertion := insertionOf true

def addDelivery : MspDelivery where
  closing := false
  payload := some addPayload
  len := addPayload.length
  complete _ same := by rw [← Option.some.inj same]

def addVisit (accepted : Bool) : Visit where
  row := { ServerRuns.callRow (tohexSidT Download.caller) with filesize := 14 }
  body := some addPayload
  world := ⟨addConfFile, runWorld, insertionOf true, insertionOf accepted⟩

theorem addVisit_execute (accepted : Bool) : (addVisit accepted).world.execute = runWorld := rfl

theorem addVisit_eligible (accepted : Bool) :
    Eligible (Serval.executable sidAny) [] (addVisit accepted) addCalled :=
  ⟨addPayload, ⟨rfl, ⟨addPayload, rfl, rfl⟩, rfl⟩, add_admitted⟩

theorem addVisit_round (accepted : Bool) {result : ExecuteResult}
    (executed : excecuteCall (Serval.executable sidAny) runWorld addCalled = .ok result)
    (freed : rpcFreeRp result.rp = .ok ()) :
    ∃ next, rhizomeRound (Serval.executable sidAny) ⟨0, [], []⟩ (addVisit accepted) =
        .ok (next, true) ∧
      Attempted (Serval.executable sidAny) (addVisit accepted) addCalled Download.caller result
        ⟨0, [], []⟩ next := by
  rw [← addVisit_execute accepted] at executed
  exact round_of_eligible (addVisit_eligible accepted) rfl executed freed

/-- Handlers whose channel takes the result. -/
theorem results_delivered_taken : ∃ mdpActions mspActions next, ∃ result : ExecuteResult,
    rpcServerMdpHandle (Serval.executable sidAny) .all (mdpWorldOf true)
        (some (Download.caller, addPayload)) = .ok (0, mdpActions) ∧
      Delivered Download.caller result.resultPayload.cells mdpActions ∧
    rpcServerMspHandler (Serval.executable sidAny) .all (mspWorldOf rpcPktSize) addDelivery =
        .ok (addPayload.length, mspActions) ∧
      Delivered Download.caller result.resultPayload.cells mspActions ∧
    rhizomeRound (Serval.executable sidAny) ⟨0, [], []⟩ (addVisit true) = .ok (next, true) ∧
      (Delivered Download.caller result.resultPayload.cells (next.actions.drop 0) ∨
        (addVisit true).row.id ∉ next.doneCalls) := by
  obtain ⟨mdp, msp, rhizome⟩ := results_delivered_iff (Serval.executable sidAny)
  obtain ⟨result, executed, succeeded, same⟩ := add_executed
  have freed : rpcFreeRp result.rp = .ok () := by rw [same, addCalled_freed]
  obtain ⟨next, round, _⟩ := addVisit_round true executed freed
  have mdpHandled := @mdpHandle_of_accepted (Serval.executable sidAny) .all (mdpWorldOf true)
    Download.caller addPayload addCalled result add_type add_admitted executed freed
  have mspHandled := @mspHandler_of_accepted (Serval.executable sidAny) .all (mspWorldOf rpcPktSize)
    addDelivery addPayload addCalled result rfl add_type add_admitted executed freed
  refine ⟨_, _, next, result, mdpHandled, ?_, mspHandled, ?_, round, ?_⟩
  · exact (mdp (mdpWorldOf true) Download.caller addPayload addCalled 0 _ result mdpHandled add_type
      add_admitted executed succeeded).mpr (by simp [mdpWorldOf])
  · exact (msp (mspWorldOf rpcPktSize) addDelivery addPayload addCalled _ _ result mspHandled rfl
      add_type add_admitted executed succeeded).mpr (by simp [mspWorldOf])
  · exact (rhizome ⟨0, [], []⟩ (addVisit true) [] addCalled Download.caller result next next
      (addVisit_eligible true) rfl ((addVisit_execute true).symm ▸ executed) succeeded round
      rfl).mpr rfl

/-- Handlers whose channel refuses the result: `mdp_send` fails, `msp_send` takes no byte of it, and
the insertion of the bundle fails although the call is recorded as done. -/
theorem results_dropped : ∃ mdpActions mspActions next, ∃ result : ExecuteResult,
    result.returnCode ≠ 0 ∧
    rpcServerMdpHandle (Serval.executable sidAny) .all (mdpWorldOf false)
        (some (Download.caller, addPayload)) = .ok (0, mdpActions) ∧
      ¬ Delivered Download.caller result.resultPayload.cells mdpActions ∧
    rpcServerMspHandler (Serval.executable sidAny) .all (mspWorldOf 0) addDelivery =
        .ok (addPayload.length, mspActions) ∧
      ¬ Delivered Download.caller result.resultPayload.cells mspActions ∧
    rhizomeRound (Serval.executable sidAny) ⟨0, [], []⟩ (addVisit false) = .ok (next, true) ∧
      ¬ (Delivered Download.caller result.resultPayload.cells (next.actions.drop 0) ∨
        (addVisit false).row.id ∉ next.doneCalls) := by
  obtain ⟨result, executed, succeeded, same⟩ := add_executed
  have freed : rpcFreeRp result.rp = .ok () := by rw [same, addCalled_freed]
  have packet := resultPacket_of_executed executed succeeded
  obtain ⟨next, round, attempted⟩ := addVisit_round false executed freed
  have mdpHandled := @mdpHandle_of_accepted (Serval.executable sidAny) .all (mdpWorldOf false)
    Download.caller addPayload addCalled result add_type add_admitted executed freed
  have mspHandled := @mspHandler_of_accepted (Serval.executable sidAny) .all (mspWorldOf 0)
    addDelivery addPayload addCalled result rfl add_type add_admitted executed freed
  refine ⟨_, _, next, result, succeeded, mdpHandled, ?_, mspHandled, ?_, round, ?_⟩
  · rw [delivered_cons_iff (not_takes_mdpAck packet _ _),
      delivered_cons_iff (not_takes_excecute _), mdpAnswer, if_neg succeeded]
    simp [mdpWorldOf, Delivered, Takes]
  · have unsent : ¬ (0 : Int) = result.resultPayload.cells.length := by
      rw [packet.size]
      decide
    rw [show addDelivery.closing = false from rfl, if_neg Bool.false_ne_true, List.nil_append,
      delivered_cons_iff (not_takes_mspAck packet _), delivered_cons_iff (not_takes_excecute _),
      mspAnswer, if_neg succeeded]
    simp [mspWorldOf, Delivered, Takes, unsent]
  · rw [attempted.doneCalls, attempted.actions, if_neg succeeded, if_neg succeeded]
    simp only [List.nil_append, List.drop_zero]
    rw [delivered_cons_iff (not_takes_rowAck packet _ _ _),
      delivered_cons_iff (not_takes_excecute _), delivered_singleton_iff, rowAnswer,
      takes_publish_iff packet]
    simp [addVisit, insertionOf]

end ServalRpc.Verified.Delivery
