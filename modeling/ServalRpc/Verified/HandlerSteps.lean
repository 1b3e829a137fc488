import ServalRpc.Verified.ServerRuns

/-! # What one handler does with a call

The three handlers admit and execute a call alike, and differ in how they send its result.  Each
outcome is stated once, so that later proofs never unfold a handler.
-/

namespace ServalRpc.Verified.HandlerSteps

open CLib ParseCall ServerRuns

variable {serval : Serval}

/-! ## Admission and execution -/

theorem admitCall_accepted {conf : Option (List UInt8)} {payload : List UInt8}
    {sender : Option CString} {rp : RPCProcedure}
    (admitted : admitCall serval conf payload sender = .ok (.accepted rp)) :
    ∃ text callerSid parsed, sender = some text ∧ serval.strToSidT text = some callerSid ∧
      rpcServerParseCall payload payload.length = .ok parsed ∧
      rp = { parsed with callerSid := some callerSid } := by
  unfold admitCall at admitted
  obtain ⟨parsed, parsing, sending⟩ := bind_eq_ok_iff.mp admitted
  obtain ⟨text, sent, checking⟩ := bind_eq_ok_iff.mp sending
  rw [mapError_eq_ok_iff] at parsing sent
  obtain rfl := (deref_eq_ok_iff sender text).mp sent
  cases caller : serval.strToSidT text with
  | none =>
    rw [caller] at checking
    cases checking
  | some callerSid =>
    rw [caller] at checking
    obtain ⟨ret, _, accepting⟩ := bind_eq_ok_iff.mp checking
    split at accepting
    · cases accepting
    · obtain ⟨requirements, _, accepted⟩ := bind_eq_ok_iff.mp accepting
      cases accepted
      exact ⟨text, callerSid, parsed, rfl, caller, parsing, rfl⟩

/-- What the parser returns, it has built from the tokens of the text. -/
theorem parsed_tokens {payload : List UInt8} {rp : RPCProcedure}
    (parsed : rpcServerParseCall payload payload.length = .ok rp) :
    ∃ name params, tokens 124 (callText payload) = name :: params ∧
      rp = parsedProcedure (callCount payload) name params := by
  by_cases terminated : 0 ∈ payload.drop 6
  · cases split : tokens 124 (callText payload) with
    | nil =>
      rw [parse_nameless terminated split] at parsed
      cases parsed
    | cons name params =>
      rw [parse_named terminated split] at parsed
      exact ⟨name, params, rfl, (Except.ok.inj parsed).symm⟩
  · rw [parse_unterminated terminated] at parsed
    cases parsed

/-- A call is accepted when its text is terminated and named and the procedure is offered. -/
theorem admitCall_of_offered {conf : Option (List UInt8)} {payload : List UInt8} {name : CString}
    {params : List CString} {ret : Int} (terminated : 0 ∈ payload.drop 6)
    (named : tokens 124 (callText payload) = name :: params) (callerSid : Sid)
    (offered : rpcServerOffering conf { parsedProcedure (callCount payload) name params with
      callerSid := some callerSid } = .ok ret) (nonzero : ret ≠ 0) :
    admitCall serval conf payload (some (tohexSidT callerSid)) =
      .ok (.accepted { parsedProcedure (callCount payload) name params with
        callerSid := some callerSid }) := by
  have complete := header_of_terminated terminated
  have requirements : readRequirements serval payload =
      .ok (serval.readUint32 ((payload.drop 1).take 4)) := by
    rw [readRequirements, loadRange_of_le (by omega)]
    rfl
  rw [admitCall, parse_named terminated named]
  simp only [Except.mapError, ok_bind, deref_some, serval.strToSidT_tohexSidT, offered, nonzero,
    if_false, requirements]
  -- `_rpc_server_accepts` returns 1 for every call.
  rfl

/-- An execution that is over has run on a cleared result packet. -/
theorem excecuteCall_ok_iff {world : ExecuteWorld} {rp : RPCProcedure} {result : ExecuteResult} :
    excecuteCall serval world rp = .ok result ↔
      rpcServerExcecute serval world (Block.calloc rpcPktSize 0) rp = .ok (some result) := by
  unfold excecuteCall
  cases executed : rpcServerExcecute serval world (Block.calloc rpcPktSize 0) rp with
  | error fault => simp [Except.mapError, bind, Except.bind]
  | ok outcome =>
    cases outcome with
    | none => simp [Except.mapError, bind, Except.bind, throw, throwThe, MonadExceptOf.throw]
    | some other => simp [Except.mapError, bind, Except.bind, pure, Except.pure]

/-! ## MDP and MSP -/

theorem mdp_accepted {serverMode : ServerMode} {world : MdpWorld} {remote : Sid}
    {payload : List UInt8} {rp : RPCProcedure} {ret : Int} {actions : List ServerAction}
    (handled : rpcServerMdpHandle serval serverMode world (some (remote, payload)) =
      .ok (ret, actions))
    (type : load payload 0 = .ok rpcPktCall)
    (admitted : admitCall serval world.conf payload (some (tohexSidT remote)) =
      .ok (.accepted rp)) :
    ∃ result, excecuteCall serval world.execute rp = .ok result ∧
      actions = .mdpSend remote [rpcPktCallAck] world.ackSent :: .excecute rp ::
        mdpAnswer serval serverMode world remote rp.name result := by
  unfold rpcServerMdpHandle at handled
  simp only [type, Except.mapError, ok_bind, ne_eq, not_true_eq_false, if_false, admitted] at handled
  obtain ⟨result, executed, handled⟩ := bind_eq_ok_iff.mp handled
  obtain ⟨_, _, handled⟩ := bind_eq_ok_iff.mp handled
  cases handled
  exact ⟨result, executed, rfl⟩

theorem mdpHandle_of_accepted {serverMode : ServerMode} {world : MdpWorld} {remote : Sid}
    {payload : List UInt8} {rp : RPCProcedure} {result : ExecuteResult}
    (type : load payload 0 = .ok rpcPktCall)
    (admitted : admitCall serval world.conf payload (some (tohexSidT remote)) =
      .ok (.accepted rp))
    (executed : excecuteCall serval world.execute rp = .ok result)
    (freed : rpcFreeRp result.rp = .ok ()) :
    rpcServerMdpHandle serval serverMode world (some (remote, payload)) =
      .ok (0, .mdpSend remote [rpcPktCallAck] world.ackSent :: .excecute rp ::
        mdpAnswer serval serverMode world remote rp.name result) := by
  simp only [rpcServerMdpHandle, type, Except.mapError, ok_bind, ne_eq, not_true_eq_false, if_false,
    admitted, executed, freed]
  rfl

/-- The handler does nothing, or it executes an accepted call. -/
theorem mdp_cases {serverMode : ServerMode} {world : MdpWorld}
    {received : Option (Sid × List UInt8)} {ret : Int} {actions : List ServerAction}
    (handled : rpcServerMdpHandle serval serverMode world received = .ok (ret, actions)) :
    actions = [] ∨ ∃ remote rp result, excecuteCall serval world.execute rp = .ok result ∧
      actions = .mdpSend remote [rpcPktCallAck] world.ackSent :: .excecute rp ::
        mdpAnswer serval serverMode world remote rp.name result := by
  cases received with
  | none =>
    cases handled
    exact .inl rfl
  | some packet =>
    obtain ⟨remote, payload⟩ := packet
    have whole := handled
    unfold rpcServerMdpHandle at handled
    obtain ⟨type, loaded, handled⟩ := bind_eq_ok_iff.mp handled
    split at handled
    · cases handled
      exact .inl rfl
    · rename_i isCall
      obtain rfl := not_not.mp isCall
      obtain ⟨admission, admitted, handled⟩ := bind_eq_ok_iff.mp handled
      cases admission with
      | unparsableSender =>
        cases handled
        exact .inl rfl
      | rejected rp =>
        obtain ⟨_, _, handled⟩ := bind_eq_ok_iff.mp handled
        cases handled
        exact .inl rfl
      | accepted rp =>
        obtain ⟨result, executed, same⟩ := mdp_accepted whole (mapError_eq_ok_iff.mp loaded) admitted
        exact .inr ⟨remote, rp, result, executed, same⟩

theorem len_ne_zero {delivery : MspDelivery} {payload : List UInt8}
    (delivered : delivery.payload = some payload) (type : load payload 0 = .ok rpcPktCall) :
    delivery.len ≠ 0 :=
  delivery.complete payload delivered ▸ length_ne_zero_of_load type

theorem msp_accepted {serverMode : ServerMode} {world : MspWorld} {delivery : MspDelivery}
    {payload : List UInt8} {rp : RPCProcedure} {ret : Nat} {actions : List ServerAction}
    (handled : rpcServerMspHandler serval serverMode world delivery = .ok (ret, actions))
    (delivered : delivery.payload = some payload) (type : load payload 0 = .ok rpcPktCall)
    (admitted : admitCall serval world.conf payload (some (tohexSidT world.remote)) =
      .ok (.accepted rp)) :
    ∃ result, excecuteCall serval world.execute rp = .ok result ∧
      actions = (if delivery.closing then [.mspStop] else []) ++
        .mspSend [rpcPktCallAck] world.ackSent :: .excecute rp ::
          mspAnswer serval serverMode world rp.name result := by
  unfold rpcServerMspHandler at handled
  simp only [delivered, len_ne_zero delivered type, if_false, type, Except.mapError, ok_bind, ne_eq,
    not_true_eq_false, admitted] at handled
  obtain ⟨result, executed, handled⟩ := bind_eq_ok_iff.mp handled
  obtain ⟨_, _, handled⟩ := bind_eq_ok_iff.mp handled
  cases handled
  exact ⟨result, executed, rfl⟩

theorem mspHandler_of_accepted {serverMode : ServerMode} {world : MspWorld}
    {delivery : MspDelivery} {payload : List UInt8} {rp : RPCProcedure} {result : ExecuteResult}
    (delivered : delivery.payload = some payload) (type : load payload 0 = .ok rpcPktCall)
    (admitted : admitCall serval world.conf payload (some (tohexSidT world.remote)) =
      .ok (.accepted rp))
    (executed : excecuteCall serval world.execute rp = .ok result)
    (freed : rpcFreeRp result.rp = .ok ()) :
    rpcServerMspHandler serval serverMode world delivery =
      .ok (delivery.len, (if delivery.closing then [.mspStop] else []) ++
        .mspSend [rpcPktCallAck] world.ackSent :: .excecute rp ::
          mspAnswer serval serverMode world rp.name result) := by
  simp only [rpcServerMspHandler, delivered, len_ne_zero delivered type, if_false, type,
    Except.mapError, ok_bind, ne_eq, not_true_eq_false, admitted, executed, freed]
  rfl

/-- The handler only notices the end of the connection, or it executes an accepted call. -/
theorem msp_cases {serverMode : ServerMode} {world : MspWorld} {delivery : MspDelivery}
    {ret : Nat} {actions : List ServerAction}
    (handled : rpcServerMspHandler serval serverMode world delivery = .ok (ret, actions)) :
    actions = (if delivery.closing then [.mspStop] else []) ∨
      ∃ rp result, excecuteCall serval world.execute rp = .ok result ∧
        actions = (if delivery.closing then [.mspStop] else []) ++
          .mspSend [rpcPktCallAck] world.ackSent :: .excecute rp ::
            mspAnswer serval serverMode world rp.name result := by
  have whole := handled
  unfold rpcServerMspHandler at handled
  cases delivered : delivery.payload with
  | none =>
    simp only [delivered] at handled
    cases handled
    exact .inl rfl
  | some payload =>
    simp only [delivered] at handled
    split at handled
    · cases handled
      exact .inl rfl
    · obtain ⟨type, loaded, handled⟩ := bind_eq_ok_iff.mp handled
      split at handled
      · cases handled
        exact .inl rfl
      · rename_i isCall
        obtain rfl := not_not.mp isCall
        obtain ⟨admission, admitted, handled⟩ := bind_eq_ok_iff.mp handled
        cases admission with
        | unparsableSender =>
          cases handled
          exact .inl rfl
        | rejected rp =>
          obtain ⟨_, _, handled⟩ := bind_eq_ok_iff.mp handled
          cases handled
          exact .inl rfl
        | accepted rp =>
          obtain ⟨result, executed, same⟩ :=
            msp_accepted whole delivered (mapError_eq_ok_iff.mp loaded) admitted
          exact .inr ⟨rp, result, executed, same⟩

/-! ## Rhizome -/

/-- What the filter of the poll looks at. -/
theorem wantedRow_iff {doneCalls : List CString} {row : Row} :
    wantedRow serval doneCalls row = .ok true ↔
      ∃ service, row.service = some service ∧ serviceIsRpc service = true ∧
        forNobodyOrMe serval row.recipient = true ∧ row.id ∉ doneCalls ∧
        0 < sizeOfInt row.filesize ∧ sizeOfInt row.filesize ≤ mdpMtu := by
  have done : rpcServerRhizomeDone doneCalls row.id = true ↔ row.id ∈ doneCalls := by
    simp [rpcServerRhizomeDone]
  constructor
  · intro wanted
    obtain ⟨service, isService, wanted⟩ := bind_eq_ok_iff.mp wanted
    have checks := Except.ok.inj wanted
    simp only [Bool.and_eq_true, Bool.not_eq_true', decide_eq_true_eq] at checks
    obtain ⟨⟨⟨isRpc, forUs⟩, notDone⟩, positive, small⟩ := checks
    refine ⟨service, (deref_eq_ok_iff _ _).mp isService, isRpc, forUs, ?_, positive, small⟩
    rw [← done, notDone]
    exact Bool.false_ne_true
  · rintro ⟨service, isService, isRpc, forUs, notDone, positive, small⟩
    rw [← done, Bool.not_eq_true] at notDone
    simp only [wantedRow, isService, deref_some, ok_bind, isRpc, forUs, notDone, positive, small]
    rfl

/-- The poll takes up the row, its payload is a call, and the call is accepted. -/
def Eligible (serval : Serval) (doneCalls : List CString) (visit : Visit) (rp : RPCProcedure) :
    Prop :=
  ∃ payload, CallAt serval doneCalls visit payload ∧
    admitCall serval visit.world.conf payload visit.row.sender = .ok (.accepted rp)

/-- A row whose call has been attempted: it is acknowledged and executed, and a success is
published and recorded. -/
structure Attempted (serval : Serval) (visit : Visit) (rp : RPCProcedure) (caller : Sid)
    (result : ExecuteResult) (state next : ProcessState) : Prop where
  isCaller : rp.callerSid = some caller
  executed : excecuteCall serval visit.world.execute rp = .ok result
  returnCode : next.returnCode = state.returnCode
  doneCalls : next.doneCalls =
    if result.returnCode = 0 then state.doneCalls else state.doneCalls ++ [visit.row.id]
  actions : next.actions = state.actions ++
    .publish (rowAck serval visit caller rp.name) :: .excecute rp ::
      if result.returnCode = 0 then []
      else [.publish (rowAnswer serval visit caller rp.name result)]

/-- A round either attempts the call in its row or leaves the calls that are done and the actions
alone. -/
theorem round_attempts {state next : ProcessState} {visit : Visit} {goesOn : Bool}
    (round : rhizomeRound serval state visit = .ok (next, goesOn)) :
    (∃ rp caller result, Eligible serval state.doneCalls visit rp ∧
        Attempted serval visit rp caller result state next ∧ goesOn = true) ∨
      ((¬ ∃ rp, Eligible serval state.doneCalls visit rp) ∧ next.doneCalls = state.doneCalls ∧
        next.actions = state.actions) := by
  cases rowOutcome_of_round round with
  | skipped noCall =>
    refine .inr ⟨?_, rfl, rfl⟩
    rintro ⟨rp, payload, call, _⟩
    exact noCall payload call
  | unfetched _ missing =>
    refine .inr ⟨?_, rfl, rfl⟩
    rintro ⟨rp, payload, call, _⟩
    obtain ⟨body, fetched, _⟩ := call.copied
    cases missing.symm.trans fetched
  | refused goesOn call admitted refused =>
    refine .inr ⟨?_, rfl, rfl⟩
    rintro ⟨rp, other, otherCall, accepted⟩
    obtain rfl := otherCall.unique call
    exact refused rp (Except.ok.inj (admitted.symm.trans accepted))
  | failed call admitted isCaller executed failed =>
    refine .inl ⟨_, _, _, ⟨_, call, admitted⟩, ⟨isCaller, executed, rfl, ?_, ?_⟩, rfl⟩
    · rw [if_pos failed]
    · rw [if_pos failed]
      rfl
  | succeeded call admitted isCaller executed succeeded =>
    refine .inl ⟨_, _, _, ⟨_, call, admitted⟩, ⟨isCaller, executed, rfl, ?_, ?_⟩, rfl⟩
    · rw [if_neg succeeded]
      rfl
    · rw [if_neg succeeded]
      exact List.append_assoc _ _ _

/-- The call in a row is the only one that may be eligible. -/
theorem Eligible.unique {doneCalls : List CString} {visit : Visit} {left right : RPCProcedure}
    (first : Eligible serval doneCalls visit left) (second : Eligible serval doneCalls visit right) :
    left = right := by
  obtain ⟨payload, call, accepted⟩ := first
  obtain ⟨payload', call', accepted'⟩ := second
  obtain rfl := call.unique call'
  cases accepted.symm.trans accepted'
  rfl

theorem round_attempted {state next : ProcessState} {visit : Visit} {rp : RPCProcedure}
    {goesOn : Bool} (round : rhizomeRound serval state visit = .ok (next, goesOn))
    (eligible : Eligible serval state.doneCalls visit rp) :
    ∃ caller result, Attempted serval visit rp caller result state next ∧ goesOn = true := by
  obtain ⟨other, caller, result, eligible', attempted⟩ | ⟨none, _⟩ := round_attempts round
  · obtain rfl := eligible.unique eligible'
    exact ⟨caller, result, attempted⟩
  · exact absurd ⟨rp, eligible⟩ none

theorem round_of_eligible {state : ProcessState} {visit : Visit} {rp : RPCProcedure} {caller : Sid}
    {result : ExecuteResult} (eligible : Eligible serval state.doneCalls visit rp)
    (isCaller : rp.callerSid = some caller)
    (executed : excecuteCall serval visit.world.execute rp = .ok result)
    (freed : rpcFreeRp result.rp = .ok ()) :
    ∃ next, rhizomeRound serval state visit = .ok (next, true) ∧
      Attempted serval visit rp caller result state next := by
  obtain ⟨payload, ⟨wanted, ⟨body, fetched, copied⟩, type⟩, admitted⟩ := eligible
  have round : ∃ next, rhizomeRound serval state visit = .ok (next, true) := by
    unfold rhizomeRound
    simp only [wanted, fetched, copied, type, admitted, isCaller, executed, freed, Except.mapError,
      ok_bind, deref_some, Bool.not_true, Bool.false_eq_true, if_false, ne_eq, not_true_eq_false]
    split
    · exact ⟨_, rfl⟩
    · exact ⟨_, rfl⟩
  obtain ⟨next, round⟩ := round
  obtain ⟨caller', result', attempted, _⟩ :=
    round_attempted round ⟨payload, ⟨wanted, ⟨body, fetched, copied⟩, type⟩, admitted⟩
  cases isCaller.symm.trans attempted.isCaller
  cases executed.symm.trans attempted.executed
  exact ⟨next, round, attempted⟩

/-- No poll takes an id from the list. -/
theorem round_doneCalls_kept {state next : ProcessState} {visit : Visit} {goesOn : Bool}
    (round : rhizomeRound serval state visit = .ok (next, goesOn)) :
    state.doneCalls <+: next.doneCalls := by
  obtain ⟨_, _, result, _, attempted, _⟩ | ⟨_, same, _⟩ := round_attempts round
  · rw [attempted.doneCalls]
    split
    · exact List.prefix_refl _
    · exact List.prefix_append _ _
  · exact same ▸ List.prefix_refl _

theorem loop_doneCalls_kept {visits : List Visit} {state final : ProcessState}
    (looped : rhizomeLoop serval state visits = .ok final) : state.doneCalls <+: final.doneCalls := by
  induction visits generalizing state with
  | nil =>
    cases looped
    exact List.prefix_refl _
  | cons visit visits inductionHypothesis =>
    obtain ⟨⟨next, goesOn⟩, round, looped⟩ := bind_eq_ok_iff.mp looped
    have first := round_doneCalls_kept round
    cases goesOn with
    | false =>
      cases looped
      exact first
    | true => exact first.trans (inductionHypothesis looped)

end ServalRpc.Verified.HandlerSteps
