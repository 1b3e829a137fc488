import ServalRpc.Verified.Delivery

/-! # What a bundle of the server holds

`_rpc_server_rhizome_send_result` gets a pointer and writes `RPC_PKT_SIZE - 1` bytes from there on.  Its
callers pass an ACK of one byte and results of `RPC_PKT_SIZE` bytes, so no bundle holds the array that
was passed.
-/

namespace ServalRpc.Verified.PublishedPackets

open CLib HandlerSteps Delivery

variable {serval : Serval}

/-! ## The bundle and the array -/

theorem content_length (insertion : Insertion) (sid : Sid) (rpcName : CString)
    (array : List UInt8) :
    (rpcServerRhizomeSendResult serval insertion sid rpcName array).2.content.length =
      rpcPktSize - 1 := by
  simp [rpcServerRhizomeSendResult, overread]

/-- Only an array of the size that is written comes out as it is. -/
theorem content_eq_iff (insertion : Insertion) (sid : Sid) (rpcName : CString)
    (array : List UInt8) :
    (rpcServerRhizomeSendResult serval insertion sid rpcName array).2.content = array ↔
      array.length = rpcPktSize - 1 := by
  constructor
  · intro same
    rw [← same, content_length]
  · intro size
    rw [rpcServerRhizomeSendResult, ← size]
    exact overread_self array insertion.behind

/-- The arrays that the server passes for a bundle: the one byte of an ACK, or the packet of an
execution that has succeeded. -/
inductive Passed (serval : Serval) : List UInt8 → Publication → Prop where
  | ack (insertion : Insertion) (sid : Sid) (rpcName : CString) :
      Passed serval [rpcPktCallAck]
        (rpcServerRhizomeSendResult serval insertion sid rpcName [rpcPktCallAck]).2
  | result (insertion : Insertion) (sid : Sid) {execute : ExecuteWorld} {rp : RPCProcedure}
      {result : ExecuteResult} (executed : excecuteCall serval execute rp = .ok result)
      (succeeded : result.returnCode ≠ 0) :
      Passed serval result.resultPayload.cells
        (rpcServerRhizomeSendResult serval insertion sid rp.name result.resultPayload.cells).2

/-- The bundle of an ACK goes on with the stack behind its byte, that of a result lacks the last
byte of the packet. -/
theorem Passed.not_exact {array : List UInt8} {publication : Publication}
    (passed : Passed serval array publication) :
    publication.content.length = rpcPktSize - 1 ∧ publication.content ≠ array := by
  cases passed with
  | ack insertion sid rpcName =>
    refine ⟨content_length .., fun same => ?_⟩
    exact absurd ((content_eq_iff ..).mp same) (by decide)
  | result insertion sid executed succeeded =>
    refine ⟨content_length .., fun same => ?_⟩
    have size := (content_eq_iff ..).mp same
    rw [(resultPacket_of_executed executed succeeded).size] at size
    exact absurd size (by decide)

/-- The bytes of an ACK bundle that are none of the packet. -/
theorem ack_content (insertion : Insertion) (sid : Sid) (rpcName : CString) {index : Nat}
    (behind : 1 ≤ index) (inside : index < rpcPktSize - 1) :
    (rpcServerRhizomeSendResult serval insertion sid rpcName [rpcPktCallAck]).2.content[index]? =
      some (insertion.behind index) := by
  have outside : [rpcPktCallAck].length ≤ index := behind
  simp [rpcServerRhizomeSendResult, overread, inside, List.getElem?_eq_none outside]

theorem result_content (insertion : Insertion) (sid : Sid) (rpcName : CString)
    {array : List UInt8} (size : array.length = rpcPktSize) :
    (rpcServerRhizomeSendResult serval insertion sid rpcName array).2.content =
      array.take (rpcPktSize - 1) := by
  apply overread_of_le
  rw [size]
  exact Nat.sub_le _ _

/-- All bytes behind the first one of an ACK bundle are what the stack holds behind the array. -/
def AckBundle (serval : Serval) (publication : Publication) : Prop :=
  ∃ insertion sid rpcName,
    publication = (rpcServerRhizomeSendResult serval insertion sid rpcName [rpcPktCallAck]).2 ∧
    ∀ index, 1 ≤ index → index < rpcPktSize - 1 →
      publication.content[index]? = some (insertion.behind index)

/-- The bundle of a result stays inside its packet, and lacks the last byte. -/
def ResultBundle (serval : Serval) (publication : Publication) : Prop :=
  ∃ insertion sid execute rp result,
    excecuteCall serval execute rp = .ok result ∧ result.returnCode ≠ 0 ∧
    publication =
      (rpcServerRhizomeSendResult serval insertion sid rp.name result.resultPayload.cells).2 ∧
    publication.content = result.resultPayload.cells.take (rpcPktSize - 1)

theorem Passed.bundle {array : List UInt8} {publication : Publication}
    (passed : Passed serval array publication) :
    AckBundle serval publication ∨ ResultBundle serval publication := by
  cases passed with
  | ack insertion sid rpcName =>
    refine .inl ⟨insertion, sid, rpcName, rfl, fun index behind inside => ?_⟩
    exact ack_content insertion sid rpcName behind inside
  | result insertion sid executed succeeded =>
    have size := (resultPacket_of_executed executed succeeded).size
    exact .inr ⟨insertion, sid, _, _, _, executed, succeeded, rfl, result_content _ _ _ size⟩

/-! ## The handlers -/

/-- A bundle of the server is of one of these arrays. -/
def FromArray (serval : Serval) (action : ServerAction) : Prop :=
  ∀ publication, action = .publish publication → ∃ array, Passed serval array publication

theorem fromArray_other {action : ServerAction} (other : ∀ publication, action ≠ .publish publication) :
    FromArray serval action :=
  fun publication same => absurd same (other publication)

/-- The answers of the MDP and the MSP handler take a channel of their own, or a bundle. -/
theorem answer_fromArray {result : ExecuteResult} {direct whole : Prop} [Decidable direct]
    [Decidable whole] {send : ServerAction} {publication : Publication}
    (sends : ∀ publication, send ≠ .publish publication)
    (passed : result.returnCode ≠ 0 → ∃ array, Passed serval array publication) :
    ∀ action ∈ (if result.returnCode = 0 then [] else if direct then [send]
      else if whole then [.publish publication] else []), FromArray serval action := by
  intro action member
  split at member
  · cases member
  · rename_i succeeded
    split at member
    · obtain rfl := List.mem_singleton.mp member
      exact fromArray_other sends
    · split at member
      · obtain rfl := List.mem_singleton.mp member
        intro published same
        obtain rfl := ServerAction.publish.inj same
        exact passed succeeded
      · cases member

theorem mdp_fromArray {serverMode : ServerMode} {world : MdpWorld}
    {received : Option (Sid × List UInt8)} {ret : Int} {actions : List ServerAction}
    (handled : rpcServerMdpHandle serval serverMode world received = .ok (ret, actions)) :
    ∀ action ∈ actions, FromArray serval action := by
  obtain rfl | ⟨remote, rp, result, executed, rfl⟩ := mdp_cases handled
  · simp
  · simp only [List.forall_mem_cons]
    exact ⟨fromArray_other (by simp), fromArray_other (by simp),
      answer_fromArray (by simp) fun succeeded => ⟨_, .result _ _ executed succeeded⟩⟩

theorem msp_fromArray {serverMode : ServerMode} {world : MspWorld} {delivery : MspDelivery}
    {ret : Nat} {actions : List ServerAction}
    (handled : rpcServerMspHandler serval serverMode world delivery = .ok (ret, actions)) :
    ∀ action ∈ actions, FromArray serval action := by
  have stopped : ∀ action ∈ if delivery.closing then [ServerAction.mspStop] else [],
      FromArray serval action := by
    intro action member
    split at member
    · obtain rfl := List.mem_singleton.mp member
      exact fromArray_other (by simp)
    · cases member
  obtain rfl | ⟨rp, result, executed, rfl⟩ := msp_cases handled
  · exact stopped
  · simp only [List.forall_mem_append, List.forall_mem_cons]
    exact ⟨stopped, fromArray_other (by simp), fromArray_other (by simp),
      answer_fromArray (by simp) fun succeeded => ⟨_, .result _ _ executed succeeded⟩⟩

/-! ## A poll -/

theorem round_fromArray {state next : ProcessState} {visit : Visit} {goesOn : Bool}
    (round : rhizomeRound serval state visit = .ok (next, goesOn))
    (before : ∀ action ∈ state.actions, FromArray serval action) :
    ∀ action ∈ next.actions, FromArray serval action := by
  obtain ⟨rp, caller, result, -, attempted, -⟩ | ⟨-, -, same⟩ := round_attempts round
  · rw [attempted.actions]
    simp only [List.forall_mem_append, List.forall_mem_cons]
    refine ⟨before, ?_, fromArray_other (by simp), ?_⟩
    · intro publication same
      obtain rfl := ServerAction.publish.inj same
      exact ⟨_, .ack _ _ _⟩
    · intro action member
      split at member
      · cases member
      · rename_i succeeded
        obtain rfl := List.mem_singleton.mp member
        intro publication same
        obtain rfl := ServerAction.publish.inj same
        exact ⟨_, .result _ _ attempted.executed succeeded⟩
  · rw [same]
    exact before

theorem loop_fromArray {visits : List Visit} {state final : ProcessState}
    (looped : rhizomeLoop serval state visits = .ok final)
    (before : ∀ action ∈ state.actions, FromArray serval action) :
    ∀ action ∈ final.actions, FromArray serval action := by
  induction visits generalizing state with
  | nil =>
    cases looped
    exact before
  | cons visit visits inductionHypothesis =>
    obtain ⟨⟨next, goesOn⟩, round, looped⟩ := bind_eq_ok_iff.mp looped
    have after := round_fromArray round before
    cases goesOn with
    | false =>
      cases looped
      exact after
    | true => exact inductionHypothesis looped after

theorem process_fromArray {doneCalls : List CString} {listing : Option (List Visit)}
    {final : ProcessState}
    (processed : rpcServerRhizomeProcess serval doneCalls listing = .ok final) :
    ∀ action ∈ final.actions, FromArray serval action := by
  cases listing with
  | none =>
    cases processed
    simp
  | some visits =>
    unfold rpcServerRhizomeProcess at processed
    simp only at processed
    split at processed
    · cases processed
      simp
    · exact loop_fromArray processed (by simp)

/-! ## No bundle is right -/

/-- The bundle comes from an array that the server has passed, and whichever array that is, its
content differs; that of an ACK goes on behind its one byte, that of a result is cut. -/
structure NeverExact (serval : Serval) (publication : Publication) : Prop where
  passed : ∃ array, Passed serval array publication
  bundle : AckBundle serval publication ∨ ResultBundle serval publication
  differs : ∀ array, Passed serval array publication →
    publication.content ≠ array ∧ publication.content.length ≠ 1

theorem FromArray.neverExact {publication : Publication}
    (fromArray : FromArray serval (.publish publication)) : NeverExact serval publication := by
  obtain ⟨array, passed⟩ := fromArray publication rfl
  refine ⟨⟨array, passed⟩, passed.bundle, fun array passed => ?_⟩
  obtain ⟨size, differs⟩ := passed.not_exact
  rw [size]
  exact ⟨differs, by decide⟩

/-- No bundle that one of the three handlers publishes holds the array that it was made from. -/
theorem published_never_exact (serval : Serval) (serverMode : ServerMode) :
    (∀ world received ret actions,
      rpcServerMdpHandle serval serverMode world received = .ok (ret, actions) →
      ∀ publication, .publish publication ∈ actions → NeverExact serval publication) ∧
    (∀ world delivery ret actions,
      rpcServerMspHandler serval serverMode world delivery = .ok (ret, actions) →
      ∀ publication, .publish publication ∈ actions → NeverExact serval publication) ∧
    ∀ doneCalls listing final, rpcServerRhizomeProcess serval doneCalls listing = .ok final →
      ∀ publication, .publish publication ∈ final.actions → NeverExact serval publication := by
  refine ⟨?_, ?_, ?_⟩
  · intro world received ret actions handled publication member
    exact (mdp_fromArray handled _ member).neverExact
  · intro world delivery ret actions handled publication member
    exact (msp_fromArray handled _ member).neverExact
  · intro doneCalls listing final processed publication member
    exact (process_fromArray processed _ member).neverExact

/-- A call over MSP whose socket is gone after the execution. -/
def goneWorld : MspWorld := { mspWorldOf 0 with socketIsNull := true }

/-- A poll that finds one bundle, with a call. -/
theorem add_processed {result : ExecuteResult}
    (executed : excecuteCall (Serval.executable sidAny) runWorld addCalled = .ok result)
    (freed : rpcFreeRp result.rp = .ok ()) :
    ∃ final, rpcServerRhizomeProcess (Serval.executable sidAny) [] (some [addVisit true]) =
        .ok final ∧
      .publish (rowAck (Serval.executable sidAny) (addVisit true) Download.caller addCalled.name) ∈
        final.actions := by
  obtain ⟨next, round, attempted⟩ := addVisit_round true executed freed
  refine ⟨next, ?_, ?_⟩
  · rw [rpcServerRhizomeProcess, if_neg (by decide), rhizomeLoop, round]
    rfl
  · rw [attempted.actions]
    simp

theorem published_never_exact_add : ∃ mdpActions mspActions final,
    rpcServerMdpHandle (Serval.executable sidAny) .all unreachableWorld
        (some (Download.caller, addPayload)) = .ok (0, mdpActions) ∧
      (∃ publication, .publish publication ∈ mdpActions ∧
        NeverExact (Serval.executable sidAny) publication) ∧
    rpcServerMspHandler (Serval.executable sidAny) .all goneWorld addDelivery =
        .ok (addPayload.length, mspActions) ∧
      (∃ publication, .publish publication ∈ mspActions ∧
        NeverExact (Serval.executable sidAny) publication) ∧
    rpcServerRhizomeProcess (Serval.executable sidAny) [] (some [addVisit true]) = .ok final ∧
      ∃ publication, .publish publication ∈ final.actions ∧
        NeverExact (Serval.executable sidAny) publication := by
  obtain ⟨mdp, msp, rhizome⟩ := published_never_exact (Serval.executable sidAny) .all
  obtain ⟨result, executed, succeeded, same⟩ := add_executed
  have freed : rpcFreeRp result.rp = .ok () := by rw [same, addCalled_freed]
  obtain ⟨final, processed, acked⟩ := add_processed executed freed
  have mdpHandled := @mdpHandle_of_accepted (Serval.executable sidAny) .all unreachableWorld
    Download.caller addPayload addCalled result add_type add_admitted executed freed
  have mspHandled := @mspHandler_of_accepted (Serval.executable sidAny) .all goneWorld addDelivery
    addPayload addCalled result rfl add_type add_admitted executed freed
  have mdpAnswered : .publish (rpcServerRhizomeSendResult (Serval.executable sidAny)
      unreachableWorld.insertion sidBroadcast addCalled.name result.resultPayload.cells).2 ∈
        mdpAnswer (Serval.executable sidAny) .all unreachableWorld Download.caller addCalled.name
          result := by
    simp [mdpAnswer, succeeded, unreachableWorld]
  have mspAnswered : .publish (rpcServerRhizomeSendResult (Serval.executable sidAny)
      goneWorld.insertion goneWorld.remote addCalled.name result.resultPayload.cells).2 ∈
        mspAnswer (Serval.executable sidAny) .all goneWorld addCalled.name result := by
    simp [mspAnswer, succeeded, goneWorld]
  have mdpPublished := List.mem_cons_of_mem (.mdpSend Download.caller [rpcPktCallAck]
    unreachableWorld.ackSent) (List.mem_cons_of_mem (.excecute addCalled) mdpAnswered)
  have mspPublished := List.mem_cons_of_mem (.mspSend [rpcPktCallAck] goneWorld.ackSent)
    (List.mem_cons_of_mem (.excecute addCalled) mspAnswered)
  exact ⟨_, _, final, mdpHandled, ⟨_, mdpPublished, mdp _ _ _ _ mdpHandled _ mdpPublished⟩,
    mspHandled, ⟨_, mspPublished, msp _ _ _ _ mspHandled _ mspPublished⟩,
    processed, _, acked, rhizome _ _ _ processed _ acked⟩

/-- The ACK of a poll: 959 bytes instead of one. -/
theorem ack_bundle_too_long : ∃ final publication,
    rpcServerRhizomeProcess (Serval.executable sidAny) [] (some [addVisit true]) = .ok final ∧
      .publish publication ∈ final.actions ∧
      Passed (Serval.executable sidAny) [rpcPktCallAck] publication ∧
      publication.content ≠ [rpcPktCallAck] ∧ publication.content.length = 959 := by
  obtain ⟨result, executed, -, same⟩ := add_executed
  obtain ⟨final, processed, acked⟩ := add_processed executed (by rw [same, addCalled_freed])
  have passed : Passed (Serval.executable sidAny) [rpcPktCallAck]
      (rowAck (Serval.executable sidAny) (addVisit true) Download.caller addCalled.name) :=
    .ack _ _ _
  exact ⟨final, _, processed, acked, passed, passed.not_exact.2, passed.not_exact.1⟩

end ServalRpc.Verified.PublishedPackets
