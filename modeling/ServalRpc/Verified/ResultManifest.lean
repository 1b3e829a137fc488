import ServalRpc.Model.Client
import ServalRpc.Model.Daemon
import ServalRpc.Verified.Delivery

/-! # Who accepts a result bundle

The server writes the manifest of a result and the client filters rows by its fields.  The filter
compares the recipient with the client's own id, and the MDP handler names no recipient but the
broadcast id.
-/

namespace ServalRpc.Verified.ResultManifest

open CLib HandlerSteps

/-! ## The filter of the client -/

/-- What the filter of the client looks at. -/
structure Interesting (call : ClientCall) (now : Int) (row : Row) (service name : CString) :
    Prop where
  isService : row.service = some service
  isName : row.name = some name
  serviceIsRpc : serviceIsRpc service = true
  notMyFile : row.recipient = some (tohexSidT call.serval.mySid)
  nameIsRpc : call.rpcName.bytes <+: name.bytes
  notToOld : now - row.inserttime < 600000

theorem interestingRow_iff (call : ClientCall) (now : Int) (row : Row) :
    interestingRow call now row = .ok true ↔
      ∃ service name, Interesting call now row service name := by
  constructor
  · intro interesting
    obtain ⟨service, isService, interesting⟩ := bind_eq_ok_iff.mp interesting
    obtain ⟨name, isName, interesting⟩ := bind_eq_ok_iff.mp interesting
    rw [deref_eq_ok_iff] at isService isName
    have checks := Except.ok.inj interesting
    simp only [Bool.and_eq_true, decide_eq_true_eq, CString.strncmpEq_comm name,
      CString.strncmpEq_length_iff] at checks
    obtain ⟨⟨⟨serviceIsRpc, notMyFile⟩, nameIsRpc⟩, notToOld⟩ := checks
    cases recipient : row.recipient with
    | none =>
      rw [recipient] at notMyFile
      cases notMyFile
    | some text =>
      rw [recipient] at notMyFile
      have mine : row.recipient = some (tohexSidT call.serval.mySid) := by
        rw [recipient, eq_of_beq notMyFile]
      exact ⟨service, name, isService, isName, serviceIsRpc, mine, nameIsRpc, notToOld⟩
  · rintro ⟨service, name, isService, isName, serviceIsRpc, notMyFile, nameIsRpc, notToOld⟩
    have prefixed := (CString.strncmpEq_length_iff call.rpcName name).mpr nameIsRpc
    rw [CString.strncmpEq_comm] at prefixed
    simp only [interestingRow, isService, isName, notMyFile, deref_some, ok_bind, serviceIsRpc,
      prefixed, notToOld, beq_self_eq_true, decide_true, Bool.and_self]
    rfl

/-! ## The manifest of a result -/

theorem tohexSidT_noNewline (sid : Sid) : 10 ∉ (tohexSidT sid).bytes := by
  have digits : ∀ nibble < 16, hexdigitUpper nibble ≠ 10 := by decide
  rw [tohexSidT_bytes]
  simp only [List.mem_flatMap, hexOfByte, List.mem_cons, List.not_mem_nil, or_false, not_exists,
    not_and, not_or]
  intro byte _
  have bound := byte.toNat_lt
  exact ⟨(digits (byte.toNat / 16) (by omega)).symm, (digits (byte.toNat % 16) (by omega)).symm⟩

theorem tohexSidT_injective {left right : Sid} (serval : Serval)
    (same : tohexSidT left = tohexSidT right) : left = right := by
  have parsed := congrArg serval.strToSidT same
  simpa only [serval.strToSidT_tohexSidT, Option.some.injEq] using parsed

def serviceField : ManifestField :=
  ⟨serviceKey, serviceRpc, by decide, by decide, by decide, by decide⟩

def nameField (name : CString) (oneLine : 10 ∉ name.bytes) : ManifestField :=
  ⟨nameKey, name, by decide, by decide, by decide, oneLine⟩

def senderField (sid : Sid) : ManifestField :=
  ⟨senderKey, tohexSidT sid, by decide, by decide, by decide, tohexSidT_noNewline _⟩

def recipientField (sid : Sid) : ManifestField :=
  ⟨recipientKey, tohexSidT sid, by decide, by decide, by decide, tohexSidT_noNewline _⟩

def resultFields (serval : Serval) (sid : Sid) {rpcName : CString} (oneLine : 10 ∉ rpcName.bytes) :
    List ManifestField :=
  [serviceField, nameField rpcName oneLine, senderField serval.mySid, recipientField sid]

theorem resultFields_distinct (serval : Serval) (sid : Sid) {rpcName : CString}
    (oneLine : 10 ∉ rpcName.bytes) :
    ((resultFields serval sid oneLine).map ManifestField.key).Nodup := by
  have keys : [serviceKey, nameKey, senderKey, recipientKey].Nodup := by decide
  exact keys

theorem resultManifest_text (serval : Serval) (sid : Sid) {rpcName : CString}
    (oneLine : 10 ∉ rpcName.bytes) :
    (resultManifest serval sid rpcName).bytes =
      manifestText (resultFields serval sid oneLine) := by
  have service : (CString.ofChars ['s', 'e', 'r', 'v', 'i', 'c', 'e', '=', 'R', 'P', 'C', '\n']).bytes =
      serviceKey.bytes ++ 61 :: serviceRpc.bytes ++ [10] := by decide
  have name : (CString.ofChars ['n', 'a', 'm', 'e', '=']).bytes = nameKey.bytes ++ [61] := by decide
  have sender : (CString.ofChars ['\n', 's', 'e', 'n', 'd', 'e', 'r', '=']).bytes =
      10 :: senderKey.bytes ++ [61] := by decide
  have recipient : (CString.ofChars ['\n', 'r', 'e', 'c', 'i', 'p', 'i', 'e', 'n', 't', '=']).bytes =
      10 :: recipientKey.bytes ++ [61] := by decide
  have newline : (CString.ofChars ['\n']).bytes = [10] := by decide
  simp [resultManifest, manifestText, resultFields, serviceField, nameField, senderField,
    recipientField, ManifestField.text, service, name, sender, recipient, newline]

/-- The client whose call has the name of the bundle takes it exactly when the bundle is for its
node and the name is one line. -/
theorem interestingRow_result_iff {daemon : Daemon} {serval : Serval} {call : ClientCall}
    {row : Row} {now : Int} {recipient : Sid} {content : List UInt8}
    (listed : daemon.Lists row (resultManifest serval recipient call.rpcName) content)
    (notToOld : now - row.inserttime < 600000) :
    interestingRow call now row = .ok true ↔
      recipient = call.serval.mySid ∧ 10 ∉ call.rpcName.bytes := by
  rw [interestingRow_iff]
  constructor
  · rintro ⟨service, name, interesting⟩
    have oneLine : 10 ∉ call.rpcName.bytes := by
      have isName := listed.name.symm.trans interesting.isName
      intro newline
      exact daemon.manifestField_line _ _ _ isName (interesting.nameIsRpc.subset newline)
    refine ⟨tohexSidT_injective call.serval ?_, oneLine⟩
    have isRecipient := listed.recipient.symm.trans interesting.notMyFile
    rw [daemon.manifestField_text _ _ (resultManifest_text serval recipient oneLine)
      (resultFields_distinct _ _ _) _ (by decide)] at isRecipient
    exact Option.some.inj isRecipient
  · rintro ⟨rfl, oneLine⟩
    have field (key : CString) (noEquals : 61 ∉ key.bytes) := daemon.manifestField_text _ _
      (resultManifest_text serval call.serval.mySid oneLine) (resultFields_distinct _ _ _) key noEquals
    refine ⟨serviceRpc, call.rpcName, ?_, ?_, by decide, ?_, List.prefix_refl _, notToOld⟩
    · rw [listed.service, field _ (by decide)]
      rfl
    · rw [listed.name, field _ (by decide)]
      rfl
    · rw [listed.recipient, field _ (by decide)]
      rfl

/-! ## The three handlers -/

inductive Channel where
  | mdp
  | msp
  | rhizome
  deriving DecidableEq

/-- A handler publishes a bundle for an accepted call of this name from this caller. -/
inductive Publishes (serval : Serval) : Channel → Sid → CString → Publication → Prop where
  | mdp {serverMode : ServerMode} {world : MdpWorld} {remote : Sid} {payload : List UInt8}
      {rp : RPCProcedure} {ret : Int} {actions : List ServerAction} {publication : Publication} :
      rpcServerMdpHandle serval serverMode world (some (remote, payload)) = .ok (ret, actions) →
      load payload 0 = .ok rpcPktCall →
      admitCall serval world.conf payload (some (tohexSidT remote)) = .ok (.accepted rp) →
      .publish publication ∈ actions →
      Publishes serval .mdp remote rp.name publication
  | msp {serverMode : ServerMode} {world : MspWorld} {delivery : MspDelivery}
      {payload : List UInt8} {rp : RPCProcedure} {ret : Nat} {actions : List ServerAction}
      {publication : Publication} :
      rpcServerMspHandler serval serverMode world delivery = .ok (ret, actions) →
      delivery.payload = some payload → load payload 0 = .ok rpcPktCall →
      admitCall serval world.conf payload (some (tohexSidT world.remote)) = .ok (.accepted rp) →
      .publish publication ∈ actions →
      Publishes serval .msp world.remote rp.name publication
  | rhizome {state next : ProcessState} {visit : Visit} {goesOn : Bool} {rp : RPCProcedure}
      {caller : Sid} {publication : Publication} :
      rhizomeRound serval state visit = .ok (next, goesOn) →
      Eligible serval state.doneCalls visit rp → rp.callerSid = some caller →
      .publish publication ∈ next.actions.drop state.actions.length →
      Publishes serval .rhizome caller rp.name publication

/-- Whom a handler names as the recipient. -/
def addressee : Channel → Sid → Sid
  | .mdp, _ => sidBroadcast
  | .msp, caller => caller
  | .rhizome, caller => caller

theorem publishes_manifest {serval : Serval} {channel : Channel} {caller : Sid} {rpcName : CString}
    {publication : Publication} (published : Publishes serval channel caller rpcName publication) :
    publication.manifest = resultManifest serval (addressee channel caller) rpcName := by
  cases published with
  | mdp handled type admitted member =>
    obtain ⟨result, _, rfl⟩ := mdp_accepted handled type admitted
    simp only [List.mem_cons, reduceCtorEq, false_or, mdpAnswer] at member
    split_ifs at member
    · cases member
    · simp at member
    · obtain rfl := ServerAction.publish.inj (List.mem_singleton.mp member)
      rfl
    · cases member
  | msp handled delivered type admitted member =>
    obtain ⟨result, _, rfl⟩ := msp_accepted handled delivered type admitted
    obtain stopped | member := List.mem_append.mp member
    · split_ifs at stopped
      · simp at stopped
      · cases stopped
    simp only [List.mem_cons, reduceCtorEq, false_or, mspAnswer] at member
    split_ifs at member
    · cases member
    · simp at member
    · obtain rfl := ServerAction.publish.inj (List.mem_singleton.mp member)
      rfl
    · cases member
  | rhizome round eligible isCaller member =>
    obtain ⟨caller', result, attempted, _⟩ := round_attempted round eligible
    cases isCaller.symm.trans attempted.isCaller
    rw [attempted.actions, List.drop_left] at member
    simp only [List.mem_cons, ServerAction.publish.injEq, reduceCtorEq, false_or] at member
    obtain rfl | member := member
    · -- The ACK has the manifest of a result.
      rfl
    · split_ifs at member
      · cases member
      · obtain rfl := ServerAction.publish.inj (List.mem_singleton.mp member)
        rfl

/-- The bundle that a handler publishes passes the filter of the caller's node exactly when the
handler is not that of MDP and the name of the procedure is one line. -/
theorem result_accepted_iff (serval : Serval) (daemon : Daemon) (channel : Channel)
    (call : ClientCall) (publication : Publication)
    (published : Publishes serval channel call.serval.mySid call.rpcName publication)
    (notBroadcast : call.serval.mySid ≠ sidBroadcast) (row : Row)
    (listed : daemon.Lists row publication.manifest publication.content) (now : Int)
    (notToOld : now - row.inserttime < 600000) :
    interestingRow call now row = .ok true ↔ channel ≠ .mdp ∧ 10 ∉ call.rpcName.bytes := by
  rw [publishes_manifest published] at listed
  rw [interestingRow_result_iff listed notToOld]
  have addressed : addressee channel call.serval.mySid = call.serval.mySid ↔ channel ≠ .mdp := by
    cases channel with
    | mdp => simp [addressee, notBroadcast.symm]
    | msp => simp [addressee]
    | rhizome => simp [addressee]
  rw [addressed]

/-! ## A result that its caller never takes -/

/-- The row of a bundle in the list of the executable daemon. -/
def resultRow (publication : Publication) : Row where
  token := none
  service := readManifest publication.manifest serviceKey
  id := CString.ofChars ['A']
  version := 1
  inserttime := 0
  filesize := valueint publication.content.length
  filehash := CString.ofChars ['B']
  sender := readManifest publication.manifest senderKey
  recipient := readManifest publication.manifest recipientKey
  name := readManifest publication.manifest nameKey

theorem resultRow_listed (publication : Publication) :
    Daemon.executable.Lists (resultRow publication) publication.manifest publication.content :=
  ⟨rfl, rfl, rfl, rfl, rfl⟩

/-- The call of `add` by the node that waits for its result. -/
def waitingCall : ClientCall :=
  ⟨Serval.executable Download.caller, sidAny, CommandLine.addName⟩

def closedWorld : MspWorld := { Delivery.mspWorldOf 0 with socketIsData := false }

/-- The fallback of the MSP handler. -/
theorem result_accepted_msp : ∃ publication,
    Publishes (Serval.executable sidAny) .msp Download.caller CommandLine.addName publication ∧
    interestingRow waitingCall 0 (resultRow publication) = .ok true := by
  obtain ⟨result, executed, succeeded, same⟩ := Delivery.add_executed
  have freed : rpcFreeRp result.rp = .ok () := by rw [same, Delivery.addCalled_freed]
  have handled := @mspHandler_of_accepted (Serval.executable sidAny) .all closedWorld
    Delivery.addDelivery Delivery.addPayload Delivery.addCalled result rfl Delivery.add_type
    Delivery.add_admitted executed freed
  have published : Publishes (Serval.executable sidAny) .msp Download.caller CommandLine.addName
      (rpcServerRhizomeSendResult (Serval.executable sidAny) closedWorld.insertion Download.caller
        CommandLine.addName result.resultPayload.cells).2 := by
    refine .msp handled rfl Delivery.add_type Delivery.add_admitted ?_
    rw [mspAnswer, if_neg succeeded]
    simp [closedWorld, Delivery.mspWorldOf, Delivery.addCalled, CommandLine.addProcedure,
      ParseCall.parsedProcedure]
  refine ⟨_, published, ?_⟩
  exact (result_accepted_iff _ Daemon.executable .msp waitingCall _ published (by decide) _
    (resultRow_listed _) 0 (show (0 : Int) - 0 < 600000 by decide)).mpr ⟨by decide, by decide⟩

/-- The fallback of the MDP handler. -/
theorem result_for_nobody : ∃ publication,
    Publishes (Serval.executable sidAny) .mdp Download.caller CommandLine.addName publication ∧
    publication.accepted = true ∧
    interestingRow waitingCall 0 (resultRow publication) = .ok false := by
  obtain ⟨result, executed, succeeded, same⟩ := Delivery.add_executed
  have freed : rpcFreeRp result.rp = .ok () := by rw [same, Delivery.addCalled_freed]
  have handled := @mdpHandle_of_accepted (Serval.executable sidAny) .all Delivery.unreachableWorld
    Download.caller Delivery.addPayload Delivery.addCalled result Delivery.add_type
    Delivery.add_admitted executed freed
  have published : Publishes (Serval.executable sidAny) .mdp Download.caller CommandLine.addName
      (rpcServerRhizomeSendResult (Serval.executable sidAny) Delivery.unreachableWorld.insertion
        sidBroadcast CommandLine.addName result.resultPayload.cells).2 := by
    refine .mdp handled Delivery.add_type Delivery.add_admitted ?_
    rw [mdpAnswer, if_neg succeeded]
    simp [Delivery.unreachableWorld, Delivery.mdpWorldOf, Delivery.addCalled, CommandLine.addProcedure,
      ParseCall.parsedProcedure]
  refine ⟨_, published, rfl, ?_⟩
  have fields (key : CString) (noEquals : 61 ∉ key.bytes) := readManifest_text _ _
    (resultManifest_text (Serval.executable sidAny) sidBroadcast
      (show 10 ∉ CommandLine.addName.bytes by decide)) key noEquals
  simp only [interestingRow, resultRow, rpcServerRhizomeSendResult, fields serviceKey (by decide),
    fields nameKey (by decide), fields recipientKey (by decide)]
  decide

end ServalRpc.Verified.ResultManifest
