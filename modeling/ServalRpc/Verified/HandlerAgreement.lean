import ServalRpc.Verified.Delivery

/-! # The three handlers agree

One description of what a server does with a call holds for all three handlers.  They stop for the
same reasons, execute the same procedure, and send the caller packets of the same types.
-/

namespace ServalRpc.Verified.HandlerAgreement

open CLib HandlerSteps Delivery

variable {serval : Serval}

/-! ## What a server does with a call -/

/-- Whether the call is offered and accepted. -/
def admits (serval : Serval) (conf : Option (List UInt8)) (payload : List UInt8)
    (rp : RPCProcedure) : Except ServerStop Bool := do
  let offering ← (rpcServerOffering conf rp).mapError .conf
  if offering = 0 then pure false
  else
    let requirements ← (readRequirements serval payload).mapError .packet
    pure (rpcServerAccepts rp requirements != 0)

/-- The result of the execution, or `none` for a call that is not executed. -/
def serve (serval : Serval) (conf : Option (List UInt8)) (execute : ExecuteWorld)
    (payload : List UInt8) (rp : RPCProcedure) : Except ServerStop (Option ExecuteResult) := do
  if ← admits serval conf payload rp then
    let result ← excecuteCall serval execute rp
    (rpcFreeRp result.rp).mapError .procedure
    pure (some result)
  else
    (rpcFreeRp rp).mapError .procedure
    pure none

/-- What the caller and the host see of a handler: the procedures that it hands to
`_rpc_server_excecute`, the types of the packets that it sends to the caller, and of the RESPONSEs the
bytes that every channel carries. -/
@[ext] structure Exchange where
  executed : List RPCProcedure
  types : List UInt8
  responses : List (List UInt8)
  deriving DecidableEq

def executedBy : ServerAction → Option RPCProcedure
  | .excecute rp => some rp
  | _ => none

/-- The packet that an action sends to the caller of a procedure.  A socket of MSP is connected to the
caller, and a bundle is for the recipient of its manifest. -/
def sentTo (serval : Serval) (caller : Sid) (rpcName : CString) :
    ServerAction → Option (List UInt8)
  | .mdpSend remote payload _ => if remote = caller then some payload else none
  | .mspSend payload _ => some payload
  | .publish publication =>
    if publication.manifest = resultManifest serval caller rpcName then some publication.content
    else none
  | .mspStop => none
  | .excecute _ => none

def exchange (serval : Serval) (caller : Sid) (rpcName : CString) (actions : List ServerAction) :
    Exchange :=
  let packets := actions.filterMap (sentTo serval caller rpcName)
  { executed := actions.filterMap executedBy
    types := packets.filterMap List.head?
    responses := (packets.filter fun packet => packet.head? == some rpcPktCallResponse).map
      (List.take (rpcPktSize - 1)) }

/-- What is to be seen of a call: an ACK when it is executed, and a RESPONSE when it succeeds. -/
def expected (rp : RPCProcedure) : Option ExecuteResult → Exchange
  | none => ⟨[], [], []⟩
  | some result =>
    if result.returnCode = 0 then ⟨[rp], [rpcPktCallAck], []⟩
    else ⟨[rp], [rpcPktCallAck, rpcPktCallResponse],
      [result.resultPayload.cells.take (rpcPktSize - 1)]⟩

/-! ## Channels that are up -/

structure MdpUp (conf : Option (List UInt8)) (execute : ExecuteWorld) (world : MdpWorld) : Prop where
  conf : world.conf = conf
  execute : world.execute = execute
  reachable : world.reachable ≠ 0

structure MspUp (conf : Option (List UInt8)) (execute : ExecuteWorld) (caller : Sid)
    (payload : List UInt8) (world : MspWorld) (delivery : MspDelivery) : Prop where
  conf : world.conf = conf
  execute : world.execute = execute
  remote : world.remote = caller
  socket : world.socketIsNull = false ∧ world.socketIsData = true
  delivered : delivery.payload = some payload

/-- A bundle of a call that the poll has not done yet, for this server or for nobody. -/
structure RowUp (serval : Serval) (doneCalls : List CString) (conf : Option (List UInt8))
    (execute : ExecuteWorld) (caller : Sid) (payload : List UInt8) (visit : Visit) : Prop where
  conf : visit.world.conf = conf
  execute : visit.world.execute = execute
  service : ∃ service, visit.row.service = some service ∧ serviceIsRpc service = true
  recipient : forNobodyOrMe serval visit.row.recipient = true
  notDone : visit.row.id ∉ doneCalls
  sender : ∃ text, visit.row.sender = some text ∧ serval.strToSidT text = some caller
  body : visit.body = some payload
  filesize : visit.row.filesize = payload.length

/-! ## Each handler serves the call -/

section Serve

variable {conf : Option (List UInt8)} {execute : ExecuteWorld} {caller : Sid}
  {payload : List UInt8} {parsed : RPCProcedure}

theorem admitCall_eq_admits (parsing : rpcServerParseCall payload payload.length = .ok parsed)
    {text : CString} (sender : serval.strToSidT text = some caller) :
    admitCall serval conf payload (some text) =
      (admits serval conf payload { parsed with callerSid := some caller }).map fun accepted =>
        if accepted then .accepted { parsed with callerSid := some caller }
        else .rejected { parsed with callerSid := some caller } := by
  simp only [admitCall, parsing, Except.mapError, ok_bind, deref_some, sender, admits]
  cases rpcServerOffering conf { parsed with callerSid := some caller } with
  | error fault => rfl
  | ok offering =>
    simp only [ok_bind]
    by_cases offered : offering = 0
    · rw [if_pos offered, if_pos offered]
      rfl
    · rw [if_neg offered, if_neg offered]
      cases readRequirements serval payload with
      | error fault => rfl
      | ok requirements => rfl

theorem mdp_serves (serverMode : ServerMode) {world : MdpWorld} (up : MdpUp conf execute world)
    (parsing : rpcServerParseCall payload payload.length = .ok parsed)
    (type : load payload 0 = .ok rpcPktCall) :
    (rpcServerMdpHandle serval serverMode world (some (caller, payload))).map Prod.snd =
      (serve serval conf execute payload { parsed with callerSid := some caller }).map fun
        | none => []
        | some result => .mdpSend caller [rpcPktCallAck] world.ackSent ::
          .excecute { parsed with callerSid := some caller } ::
            mdpAnswer serval serverMode world caller parsed.name result := by
  have admitted := @admitCall_eq_admits serval conf caller payload parsed parsing _
    (serval.strToSidT_tohexSidT caller)
  rw [← up.conf] at admitted ⊢
  rw [← up.execute]
  simp only [rpcServerMdpHandle, type, Except.mapError, ok_bind, ne_eq, not_true_eq_false, if_false,
    admitted, serve]
  cases admits serval world.conf payload { parsed with callerSid := some caller } with
  | error stop => rfl
  | ok accepted =>
    cases accepted with
    | false =>
      simp only [Except.map, ok_bind, Bool.false_eq_true, if_false]
      cases rpcFreeRp { parsed with callerSid := some caller } with
      | error fault => rfl
      | ok _ => rfl
    | true =>
      simp only [Except.map, ok_bind, if_true]
      cases excecuteCall serval world.execute { parsed with callerSid := some caller } with
      | error stop => rfl
      | ok result =>
        simp only [ok_bind]
        cases rpcFreeRp result.rp with
        | error fault => rfl
        | ok _ => rfl

theorem msp_serves (serverMode : ServerMode) {world : MspWorld} {delivery : MspDelivery}
    (up : MspUp conf execute caller payload world delivery)
    (parsing : rpcServerParseCall payload payload.length = .ok parsed)
    (type : load payload 0 = .ok rpcPktCall) :
    (rpcServerMspHandler serval serverMode world delivery).map Prod.snd =
      (serve serval conf execute payload { parsed with callerSid := some caller }).map fun outcome =>
        (if delivery.closing then [.mspStop] else []) ++ match outcome with
        | none => []
        | some result => .mspSend [rpcPktCallAck] world.ackSent ::
          .excecute { parsed with callerSid := some caller } ::
            mspAnswer serval serverMode world parsed.name result := by
  have admitted := @admitCall_eq_admits serval conf caller payload parsed parsing _
    (serval.strToSidT_tohexSidT caller)
  rw [← up.conf] at admitted ⊢
  rw [← up.execute]
  simp only [rpcServerMspHandler, up.delivered, up.remote, len_ne_zero up.delivered type, type,
    Except.mapError, ok_bind, ne_eq, not_true_eq_false, if_false, admitted, serve]
  cases admits serval world.conf payload { parsed with callerSid := some caller } with
  | error stop => rfl
  | ok accepted =>
    cases accepted with
    | false =>
      simp only [Except.map, ok_bind, Bool.false_eq_true, if_false]
      cases rpcFreeRp { parsed with callerSid := some caller } with
      | error fault => rfl
      | ok _ => simp [pure, Except.pure, ok_bind]
    | true =>
      simp only [Except.map, ok_bind, if_true]
      cases excecuteCall serval world.execute { parsed with callerSid := some caller } with
      | error stop => rfl
      | ok result =>
        simp only [ok_bind]
        cases rpcFreeRp result.rp with
        | error fault => rfl
        | ok _ => rw [← up.remote]; rfl

/-- A bundle for this server goes through the filter of the poll. -/
theorem RowUp.wanted {doneCalls : List CString} {visit : Visit}
    (up : RowUp serval doneCalls conf execute caller payload visit)
    (small : payload.length ≤ rpcPktSize) (nonempty : payload ≠ []) :
    wantedRow serval doneCalls visit.row = .ok true ∧
      loadRange payload 0 (sizeOfInt visit.row.filesize) = .ok payload := by
  have limit : rpcPktSize ≤ mdpMtu := by decide
  have bound : mdpMtu < 2 ^ 64 := by decide
  have positive := List.length_pos_iff.mpr nonempty
  have size : sizeOfInt visit.row.filesize = payload.length := by
    rw [up.filesize, sizeOfInt_natCast (by omega)]
  obtain ⟨service, isService, isRpc⟩ := up.service
  constructor
  · exact wantedRow_iff.mpr ⟨service, isService, isRpc, up.recipient, up.notDone, by omega, by omega⟩
  · rw [size, loadRange_of_le (by omega)]
    simp

theorem row_serves {state : ProcessState} {visit : Visit}
    (up : RowUp serval state.doneCalls conf execute caller payload visit)
    (small : payload.length ≤ rpcPktSize)
    (parsing : rpcServerParseCall payload payload.length = .ok parsed)
    (type : load payload 0 = .ok rpcPktCall) :
    (rhizomeRound serval state visit).map (fun round => round.1.actions.drop state.actions.length) =
      (serve serval conf execute payload { parsed with callerSid := some caller }).map fun
        | none => []
        | some result => .publish (rowAck serval visit caller parsed.name) ::
          .excecute { parsed with callerSid := some caller } ::
            if result.returnCode = 0 then []
            else [.publish (rowAnswer serval visit caller parsed.name result)] := by
  have nonempty : payload ≠ [] := by
    rintro rfl
    cases type
  obtain ⟨wanted, copied⟩ := up.wanted small nonempty
  obtain ⟨text, sender, isCaller⟩ := up.sender
  have admitted := @admitCall_eq_admits serval conf caller payload parsed parsing _ isCaller
  rw [← up.conf] at admitted ⊢
  rw [← up.execute]
  simp only [rhizomeRound, wanted, up.body, copied, sender, type, Except.mapError, ok_bind, ne_eq,
    not_true_eq_false, Bool.not_true, Bool.false_eq_true, if_false, admitted, serve]
  cases admits serval visit.world.conf payload { parsed with callerSid := some caller } with
  | error stop => rfl
  | ok accepted =>
    cases accepted with
    | false =>
      simp only [Except.map, ok_bind, Bool.false_eq_true, if_false]
      cases rpcFreeRp { parsed with callerSid := some caller } with
      | error fault => rfl
      | ok _ => simp [pure, Except.pure, ok_bind]
    | true =>
      simp only [Except.map, ok_bind, if_true, deref_some]
      cases excecuteCall serval visit.world.execute { parsed with callerSid := some caller } with
      | error stop => rfl
      | ok result =>
        simp only [ok_bind]
        cases rpcFreeRp result.rp with
        | error fault => rfl
        | ok _ =>
          by_cases failed : result.returnCode = 0
          · simp [failed, pure, Except.pure, ok_bind, rowAck]
          · simp [failed, pure, Except.pure, ok_bind, rowAck, rowAnswer]

end Serve

/-! ## What is seen of it -/

section Exchange

variable {caller : Sid} {rpcName : CString} {actions : List ServerAction}

/-- An ACK, the execution, and for a success one packet that starts like its result. -/
theorem exchange_eq_expected {rp : RPCProcedure} {result : ExecuteResult} {ack : ServerAction}
    {answer : List ServerAction} {ackPacket packet : List UInt8}
    (acks : sentTo serval caller rpcName ack = some ackPacket)
    (notExecuted : executedBy ack = none) (type : ackPacket.head? = some rpcPktCallAck)
    (answers : answer.filterMap (sentTo serval caller rpcName) =
      if result.returnCode = 0 then [] else [packet])
    (answered : answer.filterMap executedBy = [])
    (response : result.returnCode ≠ 0 → packet.head? = some rpcPktCallResponse ∧
      packet.take (rpcPktSize - 1) = result.resultPayload.cells.take (rpcPktSize - 1)) :
    exchange serval caller rpcName (ack :: .excecute rp :: answer) = expected rp (some result) := by
  have other : (some rpcPktCallAck == some rpcPktCallResponse) = false := by decide
  have excecute : sentTo serval caller rpcName (.excecute rp) = none := rfl
  simp only [exchange, List.filterMap_cons, acks, notExecuted, excecute, answers, answered, type,
    List.filter_cons, other, expected]
  by_cases failed : result.returnCode = 0
  · simp only [failed, if_true]
    rfl
  · obtain ⟨head, front⟩ := response failed
    simp [failed, head, front, executedBy]

theorem mdp_exchange {serverMode : ServerMode} {world : MdpWorld} {rp : RPCProcedure}
    {result : ExecuteResult} (reachable : world.reachable ≠ 0)
    (packet : result.returnCode ≠ 0 → ResultPacket result.resultPayload) :
    exchange serval caller rpcName (.mdpSend caller [rpcPktCallAck] world.ackSent ::
      .excecute rp :: mdpAnswer serval serverMode world caller rpcName result) =
        expected rp (some result) := by
  have answer : mdpAnswer serval serverMode world caller rpcName result =
      if result.returnCode = 0 then []
      else [.mdpSend caller result.resultPayload.cells world.resultSent] := by
    rw [mdpAnswer, if_pos reachable]
  refine exchange_eq_expected (if_pos rfl) rfl rfl ?_ ?_
    (fun succeeded => ⟨(packet succeeded).type, rfl⟩)
  · rw [answer]
    split
    · rfl
    · simp [sentTo]
  · rw [answer]
    split
    · rfl
    · rfl

theorem msp_exchange {serverMode : ServerMode} {world : MspWorld} {rp : RPCProcedure}
    {result : ExecuteResult} (socket : world.socketIsNull = false ∧ world.socketIsData = true)
    (packet : result.returnCode ≠ 0 → ResultPacket result.resultPayload) :
    exchange serval caller rpcName (.mspSend [rpcPktCallAck] world.ackSent ::
      .excecute rp :: mspAnswer serval serverMode world rpcName result) =
        expected rp (some result) := by
  have answer : mspAnswer serval serverMode world rpcName result =
      if result.returnCode = 0 then []
      else [.mspSend result.resultPayload.cells world.resultSent] := by
    rw [mspAnswer, socket.1, socket.2]
    rfl
  refine exchange_eq_expected rfl rfl rfl ?_ ?_
    (fun succeeded => ⟨(packet succeeded).type, rfl⟩)
  · rw [answer]
    split
    · rfl
    · rfl
  · rw [answer]
    split
    · rfl
    · rfl

/-- Over Rhizome the last byte of the result stays behind. -/
theorem row_exchange {visit : Visit} {rp : RPCProcedure} {result : ExecuteResult}
    (packet : result.returnCode ≠ 0 → ResultPacket result.resultPayload) :
    exchange serval caller rpcName (.publish (rowAck serval visit caller rpcName) ::
      .excecute rp :: if result.returnCode = 0 then []
        else [.publish (rowAnswer serval visit caller rpcName result)]) =
      expected rp (some result) := by
  have positive : rpcPktSize - 1 ≠ 0 := by decide
  have type : (rowAck serval visit caller rpcName).content.head? = some rpcPktCallAck := by
    rw [rowAck, rpcServerRhizomeSendResult, overread_head? _ _ positive]
    rfl
  have acks : sentTo serval caller rpcName (.publish (rowAck serval visit caller rpcName)) =
      some (rowAck serval visit caller rpcName).content := if_pos rfl
  have sent : sentTo serval caller rpcName (.publish (rowAnswer serval visit caller rpcName result)) =
      some (rowAnswer serval visit caller rpcName result).content := if_pos rfl
  have answers : (if result.returnCode = 0 then []
      else [ServerAction.publish (rowAnswer serval visit caller rpcName result)]).filterMap
        (sentTo serval caller rpcName) =
      if result.returnCode = 0 then [] else [(rowAnswer serval visit caller rpcName result).content] := by
    split
    · rfl
    · rw [List.filterMap_cons, sent, List.filterMap_nil]
  refine exchange_eq_expected acks rfl type answers ?_ (fun succeeded => ?_)
  · split
    · rfl
    · rfl
  · have fits : rpcPktSize - 1 ≤ result.resultPayload.cells.length := by
      rw [(packet succeeded).size]
      exact Nat.sub_le _ _
    have content := overread_of_le visit.world.resultInsertion.behind fits
    rw [rowAnswer, rpcServerRhizomeSendResult, content]
    constructor
    · rw [List.head?_take, if_neg positive, (packet succeeded).type]
    · rw [List.take_take, Nat.min_self]

end Exchange

/-! ## Agreement -/

section Agreement

variable {conf : Option (List UInt8)} {execute : ExecuteWorld} {caller : Sid}
  {payload : List UInt8}

theorem serve_executed {rp : RPCProcedure} {result : ExecuteResult}
    (served : serve serval conf execute payload rp = .ok (some result)) :
    excecuteCall serval execute rp = .ok result := by
  obtain ⟨accepted, _, served⟩ := bind_eq_ok_iff.mp served
  cases accepted with
  | false =>
    obtain ⟨_, _, served⟩ := bind_eq_ok_iff.mp served
    cases served
  | true =>
    obtain ⟨other, executed, served⟩ := bind_eq_ok_iff.mp served
    obtain ⟨_, _, served⟩ := bind_eq_ok_iff.mp served
    cases served
    exact executed

/-- A run that serves the call with some actions shows what is expected, if each of these actions
does. -/
theorem seen_of_served {ρ : Type} {rp : RPCProcedure} {rpcName : CString} {run : Except ServerStop ρ}
    {actionsOf : ρ → List ServerAction} {actions : Option ExecuteResult → List ServerAction}
    (serves : run.map actionsOf = (serve serval conf execute payload rp).map actions)
    (unexecuted : exchange serval caller rpcName (actions none) = expected rp none)
    (executed : ∀ result, (result.returnCode ≠ 0 → ResultPacket result.resultPayload) →
      exchange serval caller rpcName (actions (some result)) = expected rp (some result)) :
    run.map (fun handled => exchange serval caller rpcName (actionsOf handled)) =
      (serve serval conf execute payload rp).map (expected rp) := by
  have seen : run.map (fun handled => exchange serval caller rpcName (actionsOf handled)) =
      (run.map actionsOf).map (exchange serval caller rpcName) := by
    cases run <;> rfl
  rw [seen, serves]
  cases served : serve serval conf execute payload rp with
  | error stop => rfl
  | ok outcome =>
    cases outcome with
    | none => exact congrArg Except.ok unexecuted
    | some result =>
      exact congrArg Except.ok
        (executed result fun succeeded => resultPacket_of_executed (serve_executed served) succeeded)

/-- While the channels are up, the three handlers do alike with a call that parses: they stop for
the same reason, or execute the same procedure for the same caller and send it packets of the same
types, with results that agree in the bytes that every channel carries.  Other packets leave no
trace. -/
theorem handlers_agree (serval : Serval) (serverMode : ServerMode) (conf : Option (List UInt8))
    (execute : ExecuteWorld) (caller : Sid) (payload : List UInt8) (mdp : MdpWorld)
    (msp : MspWorld) (delivery : MspDelivery) (state : ProcessState) (visit : Visit)
    (small : payload.length ≤ rpcPktSize) (mdpUp : MdpUp conf execute mdp)
    (mspUp : MspUp conf execute caller payload msp delivery)
    (rowUp : RowUp serval state.doneCalls conf execute caller payload visit) :
    (∀ parsed, rpcServerParseCall payload payload.length = .ok parsed →
      load payload 0 = .ok rpcPktCall →
      let served := (serve serval conf execute payload
        { parsed with callerSid := some caller }).map
          (expected { parsed with callerSid := some caller })
      (rpcServerMdpHandle serval serverMode mdp (some (caller, payload))).map
          (fun handled => exchange serval caller parsed.name handled.2) = served ∧
        (rpcServerMspHandler serval serverMode msp delivery).map
          (fun handled => exchange serval caller parsed.name handled.2) = served ∧
        (rhizomeRound serval state visit).map (fun round =>
          exchange serval caller parsed.name (round.1.actions.drop state.actions.length)) =
            served) ∧
    ∀ type, load payload 0 = .ok type → type ≠ rpcPktCall →
      rpcServerMdpHandle serval serverMode mdp (some (caller, payload)) = .ok (0, []) ∧
        (rpcServerMspHandler serval serverMode msp delivery).map Prod.snd =
          .ok (if delivery.closing then [.mspStop] else []) ∧
        rhizomeRound serval state visit = .ok (state, true) := by
  constructor
  · intro parsed parsing type served
    refine ⟨?_, ?_, ?_⟩
    · exact seen_of_served (mdp_serves serverMode mdpUp parsing type) rfl
        fun result packet => mdp_exchange mdpUp.reachable packet
    · refine seen_of_served (msp_serves serverMode mspUp parsing type) ?_ fun result packet => ?_
      · cases delivery.closing with
        | false => rfl
        | true => rfl
      · have sent := @msp_exchange serval caller parsed.name serverMode msp
          { parsed with callerSid := some caller } result mspUp.socket packet
        cases delivery.closing with
        | false => exact sent
        | true => exact sent
    · exact seen_of_served (row_serves rowUp small parsing type) rfl
        fun result packet => row_exchange packet
  · intro type first other
    have nonempty : payload ≠ [] := by
      rintro rfl
      cases first
    have received : delivery.len ≠ 0 := by
      rw [← delivery.complete payload mspUp.delivered]
      exact fun empty => nonempty (List.length_eq_zero_iff.mp empty)
    obtain ⟨wanted, copied⟩ := rowUp.wanted small nonempty
    refine ⟨?_, ?_, ?_⟩
    · simp only [rpcServerMdpHandle, first, Except.mapError, ok_bind, ne_eq, other,
        not_false_eq_true, if_true]
      rfl
    · simp only [rpcServerMspHandler, mspUp.delivered, received, if_false, first, Except.mapError,
        ok_bind, ne_eq, other, not_false_eq_true, if_true]
      rfl
    · simp only [rhizomeRound, wanted, rowUp.body, copied, first, Except.mapError, ok_bind,
        Bool.not_true, Bool.false_eq_true, if_false, ne_eq, other, not_false_eq_true, if_true]
      rfl

end Agreement

theorem add_parsed : rpcServerParseCall addPayload addPayload.length =
    .ok { addCalled with callerSid := none } :=
  ParseCall.parse_named (by decide) (by decide)

theorem add_served {result : ExecuteResult}
    (executed : excecuteCall (Serval.executable sidAny) runWorld addCalled = .ok result)
    (freed : rpcFreeRp result.rp = .ok ()) :
    serve (Serval.executable sidAny) addConfFile runWorld addPayload addCalled = .ok (some result) := by
  have offered : rpcServerOffering addConfFile addCalled = .ok 2 := Offering.add_offered rfl rfl
  have admitted : admits (Serval.executable sidAny) addConfFile addPayload addCalled = .ok true := by
    rw [admits, offered]
    rfl
  rw [serve, admitted, ok_bind, if_pos rfl, executed, ok_bind, freed]
  rfl

theorem addVisit_up : RowUp (Serval.executable sidAny) [] addConfFile runWorld Download.caller addPayload
    (addVisit true) where
  conf := rfl
  execute := rfl
  service := ⟨serviceRpc, rfl, rfl⟩
  recipient := rfl
  notDone := List.not_mem_nil
  sender := ⟨_, rfl, Serval.strToSidT_tohexSidT _ _⟩
  body := rfl
  filesize := rfl

/-- The call `add|1|2`, over each channel. -/
theorem handlers_agree_add : ∃ seen,
    seen.executed = [addCalled] ∧ seen.types = [rpcPktCallAck, rpcPktCallResponse] ∧
    (rpcServerMdpHandle (Serval.executable sidAny) .all (mdpWorldOf true)
        (some (Download.caller, addPayload))).map (fun handled =>
          exchange (Serval.executable sidAny) Download.caller addCalled.name handled.2) = .ok seen ∧
      (rpcServerMspHandler (Serval.executable sidAny) .all (mspWorldOf rpcPktSize) addDelivery).map
        (fun handled =>
          exchange (Serval.executable sidAny) Download.caller addCalled.name handled.2) = .ok seen ∧
      (rhizomeRound (Serval.executable sidAny) ⟨0, [], []⟩ (addVisit true)).map (fun round =>
        exchange (Serval.executable sidAny) Download.caller addCalled.name
          (round.1.actions.drop 0)) = .ok seen := by
  obtain ⟨result, executed, succeeded, same⟩ := add_executed
  have freed : rpcFreeRp result.rp = .ok () := by rw [same, addCalled_freed]
  obtain ⟨agree, _⟩ := handlers_agree (Serval.executable sidAny) .all addConfFile runWorld
    Download.caller addPayload (mdpWorldOf true) (mspWorldOf rpcPktSize) addDelivery ⟨0, [], []⟩
    (addVisit true) (by decide) ⟨rfl, rfl, by decide⟩ ⟨rfl, rfl, rfl, ⟨rfl, rfl⟩, rfl⟩ addVisit_up
  obtain ⟨mdp, msp, row⟩ := agree { addCalled with callerSid := none } add_parsed add_type
  have served := congrArg (Except.map (expected addCalled)) (add_served executed freed)
  refine ⟨expected addCalled (some result), ?_, ?_, mdp.trans served, msp.trans served,
    row.trans served⟩
  · rw [expected, if_neg succeeded]
  · rw [expected, if_neg succeeded]

end ServalRpc.Verified.HandlerAgreement
