import ServalRpc.Verified.HandlerAgreement
import ServalRpc.Verified.PacketBounds
import ServalRpc.Verified.ProcessStart
import ServalRpc.Verified.Representation

/-! # What the MSP handler reports as consumed

The handler sets its return value where it handles a call and where the connection is at its end.
A payload of any other type leaves it at 0, so the library keeps the bytes.
-/

namespace ServalRpc.Verified.MspConsumption

open CLib HandlerSteps ParseCall

variable {serval : Serval}

/-! ## Calls that come back -/

/-- The call in the payload is read inside the packet, the offering check gets through `rpc.conf`,
and, if the procedure is offered, its execution comes to an end. -/
def ComesBack (serval : Serval) (world : MspWorld) (payload : List UInt8) : Prop :=
  ∃ rp ret, rpcServerParseCall payload payload.length = .ok rp ∧
    rpcServerOffering world.conf { rp with callerSid := some world.remote } = .ok ret ∧
    (ret ≠ 0 → ∃ result,
      excecuteCall serval world.execute { rp with callerSid := some world.remote } = .ok result)

/-- The payload of the delivery is a CALL packet. -/
def DeliversCall (delivery : MspDelivery) (payload : List UInt8) : Prop :=
  delivery.payload = some payload ∧ load payload 0 = .ok rpcPktCall

/-- The array of a procedure has as many cells as its count says. -/
def Counted (rp : RPCProcedure) : Prop :=
  rp.params.cells.length = rp.paramc.paramcN.toNat

theorem counted_of_parsed {payload : List UInt8} {rp : RPCProcedure}
    (parsing : rpcServerParseCall payload payload.length = .ok rp) (caller : Option Sid) :
    Counted { rp with callerSid := caller } := by
  obtain ⟨name, params, -, rfl⟩ := parsed_tokens parsing
  simp [Counted, parsedProcedure, Block.calloc]

theorem counted_of_fetched {world : ExecuteWorld} {rp fetched : RPCProcedure}
    (counted : Counted rp) (fetch : fetchFirstParam serval world rp = .ok (some fetched)) :
    Counted fetched := by
  obtain rfl | ⟨fpath, rfl⟩ := ProcessStart.fetched_cases fetch
  · exact counted
  · simpa [Counted] using counted

/-- An execution only changes the cells of the array. -/
theorem counted_of_executed {world : ExecuteWorld} {rp : RPCProcedure} {result : ExecuteResult}
    (counted : Counted rp) (executed : excecuteCall serval world rp = .ok result) :
    Counted result.rp := by
  rw [excecuteCall_ok_iff] at executed
  obtain same | fetch := (ProcessStart.executed_cases executed).1
  · rwa [same]
  · exact counted_of_fetched counted fetch

/-- Behind the parser only the offering decides. -/
theorem admitCall_of_parsed {conf : Option (List UInt8)} {payload : List UInt8} {caller : Sid}
    {rp : RPCProcedure} (parsing : rpcServerParseCall payload payload.length = .ok rp) :
    admitCall serval conf payload (some (tohexSidT caller)) = (do
      let ret ← (rpcServerOffering conf { rp with callerSid := some caller }).mapError .conf
      if ret = 0 then pure (.rejected { rp with callerSid := some caller })
      else pure (.accepted { rp with callerSid := some caller })) := by
  have header := header_of_terminated ((PacketBounds.parse_ok_iff payload).mp ⟨rp, parsing⟩).1
  have requirements : readRequirements serval payload =
      .ok (serval.readUint32 ((payload.drop 1).take 4)) := by
    rw [readRequirements, loadRange_of_le (by omega)]
    rfl
  simp only [admitCall, parsing, Except.mapError, ok_bind, deref_some, serval.strToSidT_tohexSidT,
    requirements]
  rfl

/-! ## The return value -/

/-- A call is consumed exactly when the handler comes back from it. -/
theorem handler_call_iff (serverMode : ServerMode) (world : MspWorld) {delivery : MspDelivery}
    {payload : List UInt8} (call : DeliversCall delivery payload) :
    (∃ actions, rpcServerMspHandler serval serverMode world delivery =
        .ok (delivery.len, actions)) ↔
      ComesBack serval world payload := by
  obtain ⟨delivered, type⟩ := call
  unfold rpcServerMspHandler ComesBack
  simp only [delivered, len_ne_zero delivered type, if_false, type, Except.mapError, ok_bind, ne_eq,
    not_true_eq_false]
  cases parsing : rpcServerParseCall payload payload.length with
  | error fault => simp [admitCall, parsing, Except.mapError, bind, Except.bind]
  | ok rp =>
    have freed := Representation.rpcFreeRp_of_size (counted_of_parsed parsing (some world.remote))
    rw [admitCall_of_parsed parsing]
    cases offering : rpcServerOffering world.conf { rp with callerSid := some world.remote } with
    | error fault => simp [offering, Except.mapError, bind, Except.bind]
    | ok ret =>
      by_cases rejected : ret = 0
      · simp [offering, Except.mapError, ok_bind, rejected, freed]
      · cases executed : excecuteCall serval world.execute
            { rp with callerSid := some world.remote } with
        | error stop =>
          simp [offering, Except.mapError, bind, Except.bind, pure, Except.pure, rejected, executed]
        | ok result =>
          have freed := Representation.rpcFreeRp_of_size
            (counted_of_executed (counted_of_parsed parsing _) executed)
          simp [offering, Except.mapError, ok_bind, rejected, executed, freed]

/-- Anything else is consumed at the end of a connection only. -/
theorem handler_of_no_call (serverMode : ServerMode) (world : MspWorld) {delivery : MspDelivery}
    (noCall : ∀ payload, ¬ DeliversCall delivery payload) :
    rpcServerMspHandler serval serverMode world delivery =
      .ok (if delivery.closing then delivery.len else 0,
        if delivery.closing then [.mspStop] else []) := by
  unfold rpcServerMspHandler
  cases delivered : delivery.payload with
  | none => rfl
  | some payload =>
    by_cases nothing : delivery.len = 0
    · simp [nothing, pure, Except.pure]
    · cases payload with
      | nil => exact absurd (delivery.complete [] delivered).symm nothing
      | cons type rest =>
        have other : type ≠ rpcPktCall := by
          rintro rfl
          exact noCall _ ⟨delivered, rfl⟩
        have loaded : load (type :: rest) 0 = .ok type := rfl
        simp only [nothing, if_false, loaded, Except.mapError, ok_bind, ne_eq, other,
          not_false_eq_true, if_true]
        rfl

/-- The handler reports all bytes exactly when it comes back from a call, or when there is no call
and nothing to consume or the connection is at its end. -/
theorem handler_consumes_all_iff (serval : Serval) (serverMode : ServerMode) (world : MspWorld)
    (delivery : MspDelivery) :
    (∃ actions, rpcServerMspHandler serval serverMode world delivery =
        .ok (delivery.len, actions)) ↔
      (delivery.closing = true ∨ delivery.len = 0 ∨ ∃ payload, DeliversCall delivery payload) ∧
        ∀ payload, DeliversCall delivery payload → ComesBack serval world payload := by
  by_cases calls : ∃ payload, DeliversCall delivery payload
  · obtain ⟨payload, call⟩ := calls
    rw [handler_call_iff serverMode world call]
    constructor
    · intro comesBack
      refine ⟨.inr (.inr ⟨payload, call⟩), fun other otherCall => ?_⟩
      obtain rfl := Option.some.inj (call.1.symm.trans otherCall.1)
      exact comesBack
    · rintro ⟨-, each⟩
      exact each payload call
  · have noCall := not_exists.mp calls
    rw [handler_of_no_call serverMode world noCall]
    constructor
    · rintro ⟨actions, same⟩
      refine ⟨?_, fun payload call => absurd call (noCall payload)⟩
      have consumed := congrArg Prod.fst (Except.ok.inj same)
      by_cases closing : delivery.closing = true
      · exact .inl closing
      · simp only [closing, Bool.false_eq_true, if_false] at consumed
        exact .inr (.inl consumed.symm)
    · rintro ⟨closing | nothing | ⟨payload, call⟩, -⟩
      · exact ⟨_, by rw [if_pos closing]⟩
      · exact ⟨_, by rw [nothing, ite_self]⟩
      · exact absurd call (noCall payload)

/-- An ACK, which a server gets only by mistake. -/
def ackToServer : MspDelivery where
  closing := false
  payload := some [rpcPktCallAck]
  len := 1
  complete bytes delivered := by
    cases delivered
    rfl

/-- A packet of another type stays with the library, and is in front of every later call. -/
theorem other_packet_not_consumed :
    rpcServerMspHandler (.executable sidAny) .all (Delivery.mspWorldOf 0) ackToServer = .ok (0, []) ∧
      ¬ ∃ actions, rpcServerMspHandler (.executable sidAny) .all (Delivery.mspWorldOf 0)
        ackToServer = .ok (ackToServer.len, actions) := by
  have noCall : ∀ payload, ¬ DeliversCall ackToServer payload := by
    rintro payload ⟨delivered, type⟩
    cases delivered
    exact absurd type (by decide)
  rw [handler_of_no_call _ _ noCall]
  refine ⟨rfl, ?_⟩
  rintro ⟨actions, same⟩
  have consumed : 0 = 1 := congrArg Prod.fst (Except.ok.inj same)
  cases consumed

end ServalRpc.Verified.MspConsumption
