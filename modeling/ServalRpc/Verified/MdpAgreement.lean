import ServalRpc.Verified.CallCodec
import ServalRpc.Verified.MdpCompletion

/-! # What the result table of an MDP call proves

The table names a server only after the server has accepted the call, with its name, its parameters
and its requirements, and holds only what the server has returned for it.
-/

namespace ServalRpc.Verified.MdpAgreement

open CLib HandlerSteps SlotOrigins CallBooks CallCodec MdpProvenance MdpCompletion

variable {system : MdpSystem}

/-! ## The call -/

/-- Strings without the separator come back from a packet. -/
theorem parse_callPacket (serval : Serval) {rpcName : CString} {params : List CString}
    (requirements : UInt32) (few : params.length ≤ 255) (name : Transmissible rpcName)
    (fields : ∀ param ∈ params, Transmissible param) :
    rpcServerParseCall (callPacket serval rpcName params requirements)
        (callPacket serval rpcName params requirements).length =
      .ok (calledProcedure rpcName params) := by
  have split : tokens 124 (ParseCall.callText (callPacket serval rpcName params requirements)) =
      rpcName :: params := by
    rw [callPacket_text]
    exact tokens_intercalate _ (List.cons_ne_nil _ _) (List.forall_mem_cons.mpr ⟨name, fields⟩)
  rw [ParseCall.parse_named (callPacket_terminated serval rpcName params requirements) split,
    callPacket_count, Except.ok.injEq, parsedProcedure_eq_iff few]
  exact ⟨rfl, rfl⟩

/-- What a server accepts of the client's messages is the call that the client has packed. -/
theorem accepted_procedure {attempt : MdpAttempt} {parsed : RPCProcedure}
    (admitted : Admitted system attempt) (ours : attempt.message.source = system.address)
    (packed : rpcServerParseCall system.payload system.payload.length = .ok parsed) :
    attempt.rp = { parsed with callerSid := some system.call.serval.mySid } := by
  obtain ⟨text, callerSid, other, sender, caller, parsed', same⟩ :=
    admitCall_accepted admitted.accepts.2
  rw [admitted.payload ours, packed] at parsed'
  cases parsed'
  rw [ours] at sender
  obtain rfl := Option.some.inj sender
  rw [attempt.server.serval.strToSidT_tohexSidT] at caller
  rw [same, ← caller]
  rfl

/-- The call as a server of the network has accepted it: the message is from the client and is the
packet of the call, and it is parsed to the name and the parameters of the call and, where the server
reads integers like the client, to its requirements. -/
structure AttemptOf (system : MdpSystem) (params : List CString) (requirements : UInt32)
    (server : MdpServer) (attempt : MdpAttempt) : Prop where
  isServer : attempt.server.sid = server.sid
  isClient : attempt.message.source = system.address
  isPacket : attempt.message.payload = system.payload
  procedure : attempt.rp = { calledProcedure system.call.rpcName params with
    callerSid := some system.call.serval.mySid }
  requirements : attempt.server.serval.readUint32 = system.call.serval.readUint32 →
    readRequirements attempt.server.serval attempt.message.payload = .ok requirements

/-- An accepted message of the client is its call. -/
theorem attemptOf_admitted {params : List CString} {requirements : UInt32}
    (packed : system.payload =
      callPacket system.call.serval system.call.rpcName params requirements)
    (few : params.length ≤ 255) (name : Transmissible system.call.rpcName)
    (fields : ∀ param ∈ params, Transmissible param) {attempt : MdpAttempt}
    (admitted : Admitted system attempt) {server : MdpServer}
    (ours : IsOurs system server.sid attempt) :
    AttemptOf system params requirements server attempt := by
  have payload := admitted.payload ours.2
  refine ⟨ours.1, ours.2, payload, accepted_procedure admitted ours.2 ?_, fun same => ?_⟩
  · rw [packed]
    exact parse_callPacket _ requirements few name fields
  · have read := callPacket_requirements system.call.serval system.call.rpcName params requirements
    rw [readRequirements] at read ⊢
    rwa [payload, packed, same]

theorem emptyResult_text {text : CString} (read : CString.read emptyResult.content = .ok text) :
    text = CString.ofChars [] := by
  have blank : CString.read emptyResult.content = .ok (CString.ofChars []) := rfl
  exact Except.ok.inj (read.symm.trans blank)

end ServalRpc.Verified.MdpAgreement
