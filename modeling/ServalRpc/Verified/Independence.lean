import ServalRpc.Verified.Addressee
import ServalRpc.Verified.MspSteps

/-! # What a call finds from the calls before it

`rpc_client_call` and `rpc_client_call_rhizome` reset `received`; `rpc_client_call_mdp` and
`rpc_client_call_msp` do not, and they return before they clear the result table when the server is
not reachable.
-/

namespace ServalRpc.Verified.Independence

open CLib ListenerSteps MspSteps Polling Addressee

/-- The call returns the same code and leaves the same table as in a new process. -/
def AsFirst (api : ApiCall) (memory : ClientMemory) : Prop :=
  (api.run memory).map CallOutcome.visible = (api.run .initial).map CallOutcome.visible

/-- What the call looks at is as in a new process. -/
def Fresh (memory : ClientMemory) : ApiCall → Prop
  | .mdp call world =>
    if mdpRefuses call world.reachable then memory.rpcResult = .empty
    else world.socket = true → world.bound = true → memory.received = 0
  | .msp _ world => if world.reachable = 0 then memory.rpcResult = .empty else memory.received = 0
  | .rhizome _ _ | .transparent _ _ => True

def IsDirect : ApiCall → Prop
  | .mdp _ _ | .msp _ _ => True
  | .rhizome _ _ | .transparent _ _ => False

theorem visible_eq_iff {outcome first : CallOutcome} :
    (Except.ok outcome : Except ClientStop CallOutcome).map CallOutcome.visible =
        (Except.ok first).map CallOutcome.visible ↔
      outcome.code = first.code ∧ outcome.memory.rpcResult = first.memory.rpcResult := by
  simp [Except.map, CallOutcome.visible]

/-! ## MDP -/

section Mdp

variable {call : ClientCall}

theorem callMdp_refused {world : MdpCallWorld}
    (refused : mdpRefuses call world.reachable = true) (memory : ClientMemory) :
    rpcClientCallMdp call world memory = .ok ⟨some (-1), memory⟩ :=
  if_pos refused

theorem mdp_asFirst {world : MdpCallWorld} {memory : ClientMemory}
    (fresh : Fresh memory (.mdp call world)) : AsFirst (.mdp call world) memory := by
  simp only [Fresh] at fresh
  simp only [AsFirst, ApiCall.run]
  cases refused : mdpRefuses call world.reachable with
  | true =>
    rw [if_pos refused] at fresh
    rw [callMdp_refused refused, callMdp_refused refused, visible_eq_iff]
    exact ⟨rfl, fresh⟩
  | false =>
    rw [refused, if_neg Bool.false_ne_true] at fresh
    simp only [rpcClientCallMdp, refused, Bool.false_eq_true, if_false]
    cases socket : world.socket with
    | false => rfl
    | true =>
      cases bound : world.bound with
      | false => rfl
      | true =>
        rw [fresh socket bound]
        rfl

/-- A round that runs into the timeout. -/
def lateMdpInput : MdpInput := ⟨11, true, none⟩

theorem mdpLoop_late {received : Int} (waiting : received = 0 ∨ received = 1) :
    mdpLoop call (.entry received) [lateMdpInput] =
      .ok { MdpState.entry received with returned := some received } := by
  have running : (MdpState.entry received).code = none := mdp_running_iff.mpr ⟨rfl, waiting⟩
  have event : mdpEvent (.entry received) lateMdpInput = .timeout := rfl
  have silent : (isSidTBroadcast call.sid &&
      decide (rpcClientResultGetInsertIndex (MdpState.entry received).rpcResult > 0)) = false :=
    Bool.and_false _
  rw [mdpLoop, running, Option.isSome_none, if_neg Bool.false_ne_true, event, rpcClientCallMdpRound]
  simp only [silent, Bool.false_eq_true, if_false]
  rfl

/-- A stale `received` shows in the call that nothing reaches, or in the one that runs out of time. -/
theorem mdp_fresh_of_asFirst {world : MdpCallWorld} {memory : ClientMemory}
    (asFirst : ∀ inputs, AsFirst (.mdp call { world with inputs }) memory) :
    Fresh memory (.mdp call world) := by
  simp only [AsFirst, ApiCall.run] at asFirst
  simp only [Fresh]
  split
  · rename_i refused
    have same := asFirst []
    rw [@callMdp_refused call { world with inputs := [] } refused,
      @callMdp_refused call { world with inputs := [] } refused, visible_eq_iff] at same
    exact same.2
  · rename_i passes
    rw [Bool.not_eq_true] at passes
    intro socket bound
    have sameCode (inputs : List MdpInput) {state first : MdpState}
        (looped : mdpLoop call (.entry memory.received) inputs = .ok state)
        (loopedFirst : mdpLoop call (.entry 0) inputs = .ok first) : state.code = first.code := by
      have same := asFirst inputs
      rw [@callMdp_of_loop call { world with inputs } memory _ passes socket bound looped,
        @callMdp_of_loop call { world with inputs } .initial _ passes socket bound loopedFirst,
        visible_eq_iff] at same
      exact same.1
    have notOver : (MdpState.entry memory.received).code = none := sameCode [] rfl rfl
    -- Of 0 and 1, the values of a loop that runs, the timeout returns the one that it finds.
    obtain ⟨_, waiting⟩ := mdp_running_iff.mp notOver
    have codes := sameCode [lateMdpInput] (mdpLoop_late waiting) (mdpLoop_late (.inl rfl))
    exact Option.some.inj codes

end Mdp

/-! ## MSP -/

section Msp

variable {call : ClientCall} {world : MspCallWorld} {memory : ClientMemory}

theorem callMsp_refused (refused : world.reachable = 0) (memory : ClientMemory) :
    rpcClientCallMsp call world memory = .ok ⟨some (-1), memory⟩ :=
  if_pos refused

theorem callMsp_passes (passes : world.reachable ≠ 0) (memory : ClientMemory) :
    rpcClientCallMsp call world memory = mspLoop call world ⟨memory.received, .empty⟩ world.rounds :=
  if_neg passes

theorem msp_asFirst (fresh : Fresh memory (.msp call world)) : AsFirst (.msp call world) memory := by
  simp only [Fresh] at fresh
  simp only [AsFirst, ApiCall.run]
  split at fresh
  · rename_i refused
    rw [callMsp_refused refused, callMsp_refused refused, visible_eq_iff]
    exact ⟨rfl, fresh⟩
  · rename_i passes
    rw [callMsp_passes passes, callMsp_passes passes, fresh]
    rfl

/-- The connection is closed before anything has arrived. -/
def closedDelivery : ClientDelivery where
  closed := true
  shutdownRemote := false
  payload := none
  len := 0
  complete _ member := nomatch member
  remote := sidAny
  downloads := []
  pathRest _ := 0

def closedRound : MspRound := ⟨false, true, [closedDelivery]⟩

/-- A stale `received` shows in the call without a round, or in the one whose connection closes. -/
theorem msp_fresh_of_asFirst
    (asFirst : ∀ rounds closing, AsFirst (.msp call { world with rounds, closing }) memory) :
    Fresh memory (.msp call world) := by
  simp only [AsFirst, ApiCall.run] at asFirst
  simp only [Fresh]
  split
  · rename_i refused
    have same := asFirst [] []
    rw [@callMsp_refused call { world with rounds := [], closing := [] } refused,
      @callMsp_refused call { world with rounds := [], closing := [] } refused,
      visible_eq_iff] at same
    exact same.2
  · rename_i passes
    have sameLoop (rounds : List MspRound) :
        (mspLoop call { world with rounds, closing := [] } ⟨memory.received, .empty⟩ rounds).map
            CallOutcome.visible =
          (mspLoop call { world with rounds, closing := [] } ⟨0, .empty⟩ rounds).map
            CallOutcome.visible := by
      have same := asFirst rounds []
      rwa [@callMsp_passes call { world with rounds, closing := [] } passes,
        @callMsp_passes call { world with rounds, closing := [] } passes] at same
    by_cases waiting : memory.received = 0 ∨ memory.received = 1
    · obtain fresh | acked := waiting
      · exact fresh
      · have same := sameLoop [closedRound]
        rw [acked] at same
        cases same
    · have same := sameLoop []
      rw [mspLoop, if_neg waiting] at same
      cases same

end Msp

/-! ## What a call hears -/

/-- The MDP loop reads a packet of this type. -/
inductive MdpHears (call : ClientCall) (pktType : UInt8) : MdpState → List MdpInput → Prop where
  | here {state : MdpState} {input : MdpInput} {inputs : List MdpInput} {packet : Packet} :
      state.code = none → mdpEvent state input = .received packet →
      load packet.recvPayload 0 = .ok pktType → MdpHears call pktType state (input :: inputs)
  | later {state next : MdpState} {input : MdpInput} {inputs : List MdpInput} :
      state.code = none → rpcClientCallMdpRound call state (mdpEvent state input) = .ok next →
      MdpHears call pktType next inputs → MdpHears call pktType state (input :: inputs)

/-- The Rhizome listener reads a packet of this type. -/
inductive ListenHears (call : ClientCall) (pktType : UInt8) :
    RhizomeState → List RhizomeInput → Prop where
  | here {state : RhizomeState} {input : RhizomeInput} {inputs : List RhizomeInput}
      {packet : Packet} :
      state.code = none → state.takes input = true →
      rhizomeEvent call state input = .ok (.received packet) →
      load packet.recvPayload 0 = .ok pktType → ListenHears call pktType state (input :: inputs)
  | later {state next : RhizomeState} {input : RhizomeInput} {inputs : List RhizomeInput}
      {event : RhizomeEvent} :
      state.code = none → state.takes input = true → rhizomeEvent call state input = .ok event →
      rpcClientRhizomeListenRound call state event = .ok next →
      ListenHears call pktType next inputs → ListenHears call pktType state (input :: inputs)
  | passed {state : RhizomeState} {input : RhizomeInput} {inputs : List RhizomeInput} :
      state.code = none → state.takes input = false → ListenHears call pktType state inputs →
      ListenHears call pktType state (input :: inputs)

/-- One of the deliveries has a packet of this type. -/
def Carries (pktType : UInt8) (deliveries : List ClientDelivery) : Prop :=
  ∃ delivery ∈ deliveries, ∃ payload ∈ delivery.payload, load payload 0 = .ok pktType

/-- The MSP loop is handed a packet of this type, or the listener behind it reads one. -/
inductive MspHears (call : ClientCall) (pktType : UInt8) (world : MspCallWorld) :
    ClientMemory → List MspRound → Prop where
  | delivered {memory : ClientMemory} {round : MspRound} {rounds : List MspRound} :
      memory.received = 0 ∨ memory.received = 1 →
      (round.socketIsNull && !round.socketIsData) = false → Carries pktType round.deliveries →
      MspHears call pktType world memory (round :: rounds)
  | later {memory next : ClientMemory} {round : MspRound} {rounds : List MspRound} :
      memory.received = 0 ∨ memory.received = 1 →
      (round.socketIsNull && !round.socketIsData) = false →
      mspDeliver call memory round.deliveries = .ok next →
      MspHears call pktType world next rounds → MspHears call pktType world memory (round :: rounds)
  | finishing {memory : ClientMemory} {rounds : List MspRound} :
      ¬ (memory.received = 0 ∨ memory.received = 1) → Carries pktType world.closing →
      MspHears call pktType world memory rounds
  | closing {memory : ClientMemory} {round : MspRound} {rounds : List MspRound} :
      memory.received = 0 ∨ memory.received = 1 →
      (round.socketIsNull && !round.socketIsData) = true → Carries pktType world.closing →
      MspHears call pktType world memory (round :: rounds)
  | listened {memory next : ClientMemory} {round : MspRound} {rounds : List MspRound} :
      memory.received = 0 ∨ memory.received = 1 →
      (round.socketIsNull && !round.socketIsData) = true →
      mspDeliver call memory world.closing = .ok next → world.listen.curl = true →
      ListenHears ⟨call.serval, world.straySid, world.strayName⟩ pktType
        { RhizomeState.entry with received := next.received, rpcResult := next.rpcResult }
        world.listen.inputs →
      MspHears call pktType world memory (round :: rounds)

/-- A packet of this type arrives during the call. -/
def Hears (pktType : UInt8) (memory : ClientMemory) : ApiCall → Prop
  | .mdp call world => mdpRefuses call world.reachable = false ∧ world.socket = true ∧
    world.bound = true ∧ MdpHears call pktType (.entry memory.received) world.inputs
  | .msp call world => world.reachable ≠ 0 ∧
    MspHears call pktType world ⟨memory.received, .empty⟩ world.rounds
  | .rhizome _ _ | .transparent _ _ => False

/-- The sid that the listener of the call takes for that of the call. -/
def listensFor : ApiCall → Sid
  | .mdp call _ | .rhizome call _ | .transparent call _ => call.sid
  | .msp _ world => world.straySid

/-- In a call to all servers an ACK does not stay without a RESPONSE. -/
def AcksAnswered (memory : ClientMemory) (api : ApiCall) : Prop :=
  listensFor api = sidBroadcast → Hears rpcPktCallAck memory api →
    Hears rpcPktCallResponse memory api

/-- What lets a listener return 2: a RESPONSE, or in a call to all servers a claimed slot. -/
def Answerable (call : ClientCall) (rpcResult : ResultTable) (acked responded : Prop) : Prop :=
  responded ∨ call.sid = sidBroadcast ∧ (0 < rpcClientResultGetInsertIndex rpcResult ∨ acked)

section Listeners

variable {call : ClientCall}

theorem Answerable.mono {rpcResult : ResultTable} {acked acked' responded responded' : Prop}
    (before : Answerable call rpcResult acked responded) (acks : acked → acked')
    (responses : responded → responded') : Answerable call rpcResult acked' responded' :=
  before.imp responses fun counted => ⟨counted.1, counted.2.imp_right acks⟩

/-- An ACK or a RESPONSE counts, and after any other packet the call is as before. -/
theorem Answerable.react {packet : Packet} {rpcResult : ResultTable} {reaction : Reaction}
    {acked responded : Prop} (reacted : reactToPacket call packet rpcResult = .ok reaction)
    (after : Answerable call (reactionTable rpcResult reaction) acked responded)
    (acks : IsAck packet → acked) (responses : IsResponse packet → responded) :
    Answerable call rpcResult acked responded := by
  obtain response | ⟨all, claimed | ack⟩ := after
  · exact .inl response
  · obtain ⟨ack, rfl⟩ | ⟨response, _⟩ | ⟨_, _, rfl⟩ := react_cases reacted
    · exact .inr ⟨all, .inr (acks ack)⟩
    · exact .inl (responses response)
    · exact .inr ⟨all, .inl claimed⟩
  · exact .inr ⟨all, .inr ack⟩

theorem answerable_empty {rpcResult : ResultTable} {acked responded : Prop}
    (empty : rpcResult = .empty) (answerable : Answerable call rpcResult acked responded) :
    responded ∨ call.sid = sidBroadcast ∧ acked := by
  subst empty
  exact answerable.imp_right fun counted => ⟨counted.1, counted.2.resolve_left (by decide)⟩

theorem timeoutCode_two {rpcResult : ResultTable} {silent : Int} (notTwo : silent ≠ 2)
    (two : timeoutCode call rpcResult silent = 2) :
    call.sid = sidBroadcast ∧ 0 < rpcClientResultGetInsertIndex rpcResult := by
  unfold timeoutCode at two
  split at two
  · assumption
  · exact absurd two notTwo

theorem completes_isResponse {packet : Packet} {rpcResult : ResultTable} {reaction : Reaction}
    (reacted : reactToPacket call packet rpcResult = .ok reaction)
    (complete : completes reaction = true) : IsResponse packet := by
  obtain ⟨_, rfl⟩ | ⟨response, _⟩ | ⟨_, _, rfl⟩ := react_cases reacted
  · cases complete
  · exact response
  · cases complete

theorem mdpLoop_two {state final : MdpState} {inputs : List MdpInput} (running : state.code = none)
    (looped : mdpLoop call state inputs = .ok final) (two : final.code = some 2) :
    Answerable call state.rpcResult (MdpHears call rpcPktCallAck state inputs)
      (MdpHears call rpcPktCallResponse state inputs) := by
  induction inputs generalizing state with
  | nil =>
    cases looped
    cases running.symm.trans two
  | cons input inputs inductionHypothesis =>
    obtain ⟨_, waiting⟩ := mdp_running_iff.mp running
    obtain ⟨next, round, outcome, returns, goesOn⟩ := mdpLoop_round running looped two
    have later (returned : next.returned = none) : Answerable call next.rpcResult
        (MdpHears call rpcPktCallAck state (input :: inputs))
        (MdpHears call rpcPktCallResponse state (input :: inputs)) := by
      obtain ⟨stillRunning, looped⟩ := goesOn returned
      exact (inductionHypothesis stillRunning looped).mono (.later running round)
        (.later running round)
    cases event : mdpEvent state input with
    | timeout =>
      rw [event] at outcome
      obtain ⟨all, claimed⟩ := timeoutCode_two (by omega) (returns _ outcome.2).1
      exact .inr ⟨all, .inl claimed⟩
    | sendFailed =>
      rw [event] at outcome
      exact absurd (returns _ outcome.2).1 (by decide)
    | quiet =>
      rw [event] at outcome
      rw [← outcome.1]
      exact later outcome.2.2
    | received packet =>
      rw [event] at outcome
      obtain ⟨reaction, reacted, table, _, returned⟩ := outcome
      cases complete : completes reaction with
      | true => exact .inl (.here running event (completes_isResponse reacted complete))
      | false =>
        rw [complete] at returned
        have after := later returned
        rw [table] at after
        exact after.react reacted (.here running event) (.here running event)

theorem listenLoop_ended {state final : RhizomeState} {code : Int} (ended : state.code = some code)
    {inputs : List RhizomeInput} (looped : listenLoop call state inputs = .ok final) :
    final = state := by
  cases inputs with
  | nil => exact (Except.ok.inj looped).symm
  | cons input inputs =>
    rw [listenLoop, ended, Option.isSome_some, if_pos rfl] at looped
    exact (Except.ok.inj looped).symm

theorem code_of_returned {state : RhizomeState} {code : Int}
    (returned : state.returned = some code) : state.code = some code := by
  rw [RhizomeState.code, returned]

theorem code_of_running {state : RhizomeState} (running : state.returned = none)
    (notTwo : state.returnCode ≠ 2) : state.code ≠ some 2 := by
  intro two
  simp only [RhizomeState.code, running] at two
  split at two
  · exact notTwo (Option.some.inj two)
  · cases two

/-- A round of a listener that comes to return 2 is passed over, or returns it, or goes on. -/
theorem listenLoop_round {state final : RhizomeState} {input : RhizomeInput}
    {inputs : List RhizomeInput} (running : state.returned = none) (notTwo : state.returnCode ≠ 2)
    (looped : listenLoop call state (input :: inputs) = .ok final) (two : final.code = some 2) :
    state.code = none ∧
      ((state.takes input = false ∧ listenLoop call state inputs = .ok final) ∨
      ∃ event next, state.takes input = true ∧ rhizomeEvent call state input = .ok event ∧
        rpcClientRhizomeListenRound call state event = .ok next ∧
        (∀ code, next.returned = some code → code = 2) ∧
        (next.returned = none → next.returnCode ≠ 2 ∧ listenLoop call next inputs = .ok final)) := by
  cases ended : state.code with
  | some code =>
    obtain rfl := listenLoop_ended ended looped
    exact absurd two (code_of_running running notTwo)
  | none =>
    refine ⟨rfl, ?_⟩
    rw [listenLoop, ended, Option.isSome_none, if_neg Bool.false_ne_true] at looped
    split at looped
    · rename_i takes
      obtain ⟨event, isEvent, looped⟩ := bind_eq_ok_iff.mp looped
      obtain ⟨next, round, looped⟩ := bind_eq_ok_iff.mp looped
      refine .inr ⟨event, next, takes, isEvent, round, fun code returned => ?_,
        fun returned => ⟨?_, looped⟩⟩
      · obtain rfl := listenLoop_ended (code_of_returned returned) looped
        exact Option.some.inj ((code_of_returned returned).symm.trans two)
      · obtain ⟨_, _, _, _, rfl⟩ | ⟨_, _, _, code⟩ := listenRound_running round returned
        · exact notTwo
        · omega
    · rename_i notTaken
      exact .inl ⟨Bool.not_eq_true _ ▸ notTaken, looped⟩

theorem listenLoop_two {state final : RhizomeState} {inputs : List RhizomeInput}
    (running : state.returned = none) (notTwo : state.returnCode ≠ 2)
    (looped : listenLoop call state inputs = .ok final) (two : final.code = some 2) :
    Answerable call state.rpcResult (ListenHears call rpcPktCallAck state inputs)
      (ListenHears call rpcPktCallResponse state inputs) := by
  induction inputs generalizing state with
  | nil =>
    cases looped
    exact absurd two (code_of_running running notTwo)
  | cons input inputs inductionHypothesis =>
    obtain ⟨notOver, ⟨notTaken, looped⟩ | ⟨event, next, takes, isEvent, round, returns, goesOn⟩⟩ :=
      listenLoop_round running notTwo looped two
    · exact (inductionHypothesis running notTwo looped).mono (.passed notOver notTaken)
        (.passed notOver notTaken)
    have later (returned : next.returned = none) : Answerable call next.rpcResult
        (ListenHears call rpcPktCallAck state (input :: inputs))
        (ListenHears call rpcPktCallResponse state (input :: inputs)) := by
      obtain ⟨stillNotTwo, looped⟩ := goesOn returned
      exact (inductionHypothesis returned stillNotTwo looped).mono
        (.later notOver takes isEvent round) (.later notOver takes isEvent round)
    have outcome := listenRound_outcome running round
    cases event with
    | timeout =>
      obtain ⟨all, claimed⟩ := timeoutCode_two (by decide) (returns _ outcome.2)
      exact .inr ⟨all, .inl claimed⟩
    | transferFailed => exact absurd (returns _ outcome.2) (by decide)
    | polled rows =>
      rw [← outcome.1]
      exact later outcome.2
    | skipped =>
      rw [← outcome.1]
      exact later outcome.2
    | received packet =>
      obtain ⟨reaction, reacted, table, returned⟩ := outcome
      cases complete : completes reaction with
      | true =>
        exact .inl (.here notOver takes isEvent (completes_isResponse reacted complete))
      | false =>
        rw [complete] at returned
        have after := later returned
        rw [table] at after
        exact after.react reacted (.here notOver takes isEvent) (.here notOver takes isEvent)

end Listeners

section Connection

variable {call : ClientCall}

/-- Only a RESPONSE stores an answer and sets `received` to 2. -/
theorem mspHandler_quiet {memory after : ClientMemory} {delivery : ClientDelivery} {consumed : Nat}
    (handled : rpcClientMspHandler call memory delivery = .ok (consumed, after))
    (quiet : ∀ payload ∈ delivery.payload, load payload 0 ≠ .ok rpcPktCallResponse) :
    after.rpcResult = memory.rpcResult ∧ (after.received = 2 → memory.received = 2) := by
  obtain ⟨_, rfl⟩ | ⟨payload, _, _, delivered, response, _⟩ | ⟨_, _, rfl⟩ := mspHandler_cases handled
  · exact ⟨rfl, fun two => absurd two (show ¬ (1 : Int) = 2 by decide)⟩
  · exact absurd response (quiet payload delivered)
  · exact ⟨rfl, afterFlags_two_iff.mp⟩

theorem mspDeliver_quiet {memory after : ClientMemory} {deliveries : List ClientDelivery}
    (delivered : mspDeliver call memory deliveries = .ok after)
    (quiet : ¬ Carries rpcPktCallResponse deliveries) :
    after.rpcResult = memory.rpcResult ∧ (after.received = 2 → memory.received = 2) := by
  induction deliveries generalizing memory with
  | nil =>
    cases delivered
    exact ⟨rfl, id⟩
  | cons delivery deliveries inductionHypothesis =>
    obtain ⟨⟨consumed, next⟩, handled, delivered⟩ := bind_eq_ok_iff.mp delivered
    rw [Carries, List.exists_mem_cons_iff, not_or] at quiet
    obtain ⟨table, received⟩ := mspHandler_quiet handled fun payload member response =>
      quiet.1 ⟨payload, member, response⟩
    obtain ⟨table', received'⟩ := inductionHypothesis delivered quiet.2
    exact ⟨table'.trans table, fun two => received (received' two)⟩

theorem listen_two {world : ListenWorld} {memory : ClientMemory} {outcome : CallOutcome}
    (listened : rpcClientRhizomeListen call world memory = .ok outcome)
    (two : outcome.code = some 2) :
    world.curl = true ∧ Answerable call memory.rpcResult
      (ListenHears call rpcPktCallAck
        { RhizomeState.entry with received := memory.received, rpcResult := memory.rpcResult }
        world.inputs)
      (ListenHears call rpcPktCallResponse
        { RhizomeState.entry with received := memory.received, rpcResult := memory.rpcResult }
        world.inputs) := by
  unfold rpcClientRhizomeListen at listened
  split at listened
  · cases listened
    cases two
  · rename_i curl
    obtain ⟨state, looped, listened⟩ := bind_eq_ok_iff.mp listened
    cases listened
    have handle : world.curl = true := by simpa using curl
    exact ⟨handle, listenLoop_two rfl (show (-1 : Int) ≠ 2 by decide) looped two⟩

/-- A connection comes to return 2 with a RESPONSE, or with what the listener behind it returns. -/
theorem mspLoop_two {world : MspCallWorld} {memory : ClientMemory} {outcome : CallOutcome}
    {rounds : List MspRound} (notTwo : memory.received ≠ 2) (empty : memory.rpcResult = .empty)
    (looped : mspLoop call world memory rounds = .ok outcome) (two : outcome.code = some 2) :
    MspHears call rpcPktCallResponse world memory rounds ∨
      world.straySid = sidBroadcast ∧ MspHears call rpcPktCallAck world memory rounds := by
  -- `msp_close_all` delivers once more before the return.
  have finishes {memory : ClientMemory} {rounds : List MspRound} (notTwo : memory.received ≠ 2)
      (ended : ¬ (memory.received = 0 ∨ memory.received = 1))
      (finished : mspFinish call world memory = .ok outcome) :
      MspHears call rpcPktCallResponse world memory rounds := by
    obtain ⟨after, delivered, finished⟩ := bind_eq_ok_iff.mp finished
    cases finished
    by_cases responds : Carries rpcPktCallResponse world.closing
    · exact .finishing ended responds
    · exact absurd ((mspDeliver_quiet delivered responds).2 (Option.some.inj two)) notTwo
  induction rounds generalizing memory with
  | nil =>
    rw [mspLoop] at looped
    split at looped
    · cases looped
      cases two
    · rename_i ended
      exact .inl (finishes notTwo ended looped)
  | cons round rounds inductionHypothesis =>
    rw [mspLoop] at looped
    split at looped
    · rename_i waiting
      split at looped
      · -- The socket is closed, so the listener has the last word.
        rename_i closed
        obtain ⟨next, delivered, listened⟩ := bind_eq_ok_iff.mp looped
        by_cases responds : Carries rpcPktCallResponse world.closing
        · exact .inl (.closing waiting closed responds)
        obtain ⟨curl, answerable⟩ := listen_two listened two
        have nothing := (mspDeliver_quiet delivered responds).1.trans empty
        exact (answerable_empty nothing answerable).imp (.listened waiting closed delivered curl)
          fun acked => ⟨acked.1, .listened waiting closed delivered curl acked.2⟩
      · rename_i isOpen
        rw [Bool.not_eq_true] at isOpen
        obtain ⟨next, delivered, looped⟩ := bind_eq_ok_iff.mp looped
        by_cases responds : Carries rpcPktCallResponse round.deliveries
        · exact .inl (.delivered waiting isOpen responds)
        obtain ⟨table, received⟩ := mspDeliver_quiet delivered responds
        exact (inductionHypothesis (fun two => notTwo (received two)) (table.trans empty) looped).imp
          (.later waiting isOpen delivered)
          fun acked => ⟨acked.1, .later waiting isOpen delivered acked.2⟩
    · rename_i ended
      exact .inl (finishes notTwo ended looped)

end Connection

/-- A direct call that does not find a 2 returns 2 for a RESPONSE, or in a call to all servers for an
ACK. -/
theorem direct_two {api : ApiCall} {memory after : ClientMemory} (direct : IsDirect api)
    (fresh : Fresh memory api) (called : api.run memory = .ok ⟨some 2, after⟩) :
    Hears rpcPktCallResponse memory api ∨
      listensFor api = sidBroadcast ∧ Hears rpcPktCallAck memory api := by
  cases api with
  | mdp call world =>
    simp only [Fresh] at fresh
    simp only [ApiCall.run, rpcClientCallMdp] at called
    cases refused : mdpRefuses call world.reachable with
    | true =>
      rw [if_pos refused] at called
      cases called
    | false =>
      rw [refused, if_neg Bool.false_ne_true] at fresh called
      cases socket : world.socket with
      | false =>
        rw [socket] at called
        cases called
      | true =>
        cases bound : world.bound with
        | false =>
          rw [socket, bound] at called
          cases called
        | true =>
          rw [socket, bound] at called
          obtain ⟨state, looped, called⟩ := bind_eq_ok_iff.mp called
          obtain ⟨two, _⟩ := CallOutcome.mk.inj (Except.ok.inj called)
          have running : (MdpState.entry memory.received).code = none :=
            mdp_running_iff.mpr ⟨rfl, .inl (fresh socket bound)⟩
          have heard := answerable_empty rfl (mdpLoop_two running looped two)
          exact heard.imp (fun response => ⟨refused, socket, bound, response⟩)
            fun acked => ⟨acked.1, refused, socket, bound, acked.2⟩
  | msp call world =>
    simp only [Fresh] at fresh
    by_cases refused : world.reachable = 0
    · rw [ApiCall.run, callMsp_refused refused] at called
      cases called
    · rw [if_neg refused] at fresh
      rw [ApiCall.run, callMsp_passes refused] at called
      have notTwo : memory.received ≠ 2 := by omega
      have heard := @mspLoop_two call world ⟨memory.received, .empty⟩ _ _ notTwo rfl called rfl
      exact heard.imp (fun response => ⟨refused, response⟩) fun acked => ⟨acked.1, refused, acked.2⟩
  | rhizome call world => exact direct.elim
  | transparent call world => exact direct.elim

/-! ## Calls of one process -/

theorem asFirst_of_fresh {api : ApiCall} {memory : ClientMemory} (direct : IsDirect api)
    (fresh : Fresh memory api) : AsFirst api memory := by
  cases api with
  | mdp call world => exact mdp_asFirst fresh
  | msp call world => exact msp_asFirst fresh
  | rhizome call world => exact direct.elim
  | transparent call world => exact direct.elim

/-- A direct call is like the first one of its process exactly when it finds `received` at 0, or no
result where it does not clear the table; and then it returns 2 for a RESPONSE exactly when, in a
call to all servers, an ACK has not stayed without one. -/
theorem direct_calls_independent (memory : ClientMemory) :
    (∀ call world, (∀ inputs, AsFirst (.mdp call { world with inputs }) memory) ↔
      Fresh memory (.mdp call world)) ∧
    (∀ call world, (∀ rounds closing, AsFirst (.msp call { world with rounds, closing }) memory) ↔
      Fresh memory (.msp call world)) ∧
    ∀ events,
      GuardedRun ApiStep (fun before event => Fresh before event.api) .initial events memory →
      ∀ event ∈ events, IsDirect event.api →
        (event.api.run .initial).map CallOutcome.visible = .ok (some event.code, event.rpcResult) ∧
        (event.code = 2 →
          (Hears rpcPktCallResponse event.found event.api ↔ AcksAnswered event.found event.api)) := by
  refine ⟨fun call world => ⟨mdp_fresh_of_asFirst, fun fresh inputs => ?_⟩,
    fun call world => ⟨msp_fresh_of_asFirst, fun fresh rounds closing => ?_⟩, ?_⟩
  · exact @mdp_asFirst call { world with inputs } memory fresh
  · exact @msp_asFirst call { world with rounds, closing } memory fresh
  intro events run
  refine @GuardedRun.invariant _ _ _ _ _ (fun events _ => ∀ event ∈ events, IsDirect event.api →
    (event.api.run .initial).map CallOutcome.visible = .ok (some event.code, event.rpcResult) ∧
    (event.code = 2 → (Hears rpcPktCallResponse event.found event.api ↔
      AcksAnswered event.found event.api))) ?_ ?_ _ _ run
  · exact fun _ member => nomatch member
  · rintro past before event after holds fresh ⟨rfl, called, left⟩ other member direct
    obtain old | new := List.mem_append.mp member
    · exact holds other old direct
    obtain rfl := List.mem_singleton.mp new
    refine ⟨?_, fun two => ⟨fun response _ _ => response, fun answered => ?_⟩⟩
    · have same := asFirst_of_fresh direct fresh
      rw [AsFirst, called] at same
      rw [← same, left]
      rfl
    · rw [two] at called
      exact (direct_two direct fresh called).elim id fun counted => answered counted.1 counted.2

/-! ## A call after another -/

theorem call_run {guard : ClientMemory → ApiEvent → Prop} {events : List ApiEvent}
    {before after : ClientMemory} (run : GuardedRun ApiStep guard .initial events before)
    {api : ApiCall} {code : Int} (called : api.run before = .ok ⟨some code, after⟩)
    (guarded : guard before ⟨api, before, code, after.rpcResult⟩) :
    GuardedRun ApiStep guard .initial (events ++ [⟨api, before, code, after.rpcResult⟩]) after :=
  run.tail guarded ⟨rfl, called, rfl⟩

/-- A call that is answered. -/
def answeredCall : ApiCall := .mdp (callServer 1) (responseWorld (ResultSlots.server 1))

theorem answeredCall_called : ∃ rpcResult,
    answeredCall.run .initial = .ok ⟨some 2, 2, rpcResult⟩ :=
  responseWorld_called (by decide) (ResultSlots.server 1)

/-- A Rhizome call that fails, and a call over MDP. -/
theorem direct_calls_independent_after_rhizome : ∃ failing rpcResult memory,
    GuardedRun ApiStep (fun memory event => Fresh memory event.api) .initial
      [failing, ⟨answeredCall, .initial, 2, rpcResult⟩] memory ∧
    (answeredCall.run .initial).map CallOutcome.visible = .ok (some 2, rpcResult) ∧
    Hears rpcPktCallResponse .initial answeredCall := by
  obtain ⟨rpcResult, called⟩ := answeredCall_called
  have failed := @call_run (fun memory event => Fresh memory event.api) [] .initial .initial .refl
    (.rhizome (callServer 1) ⟨false, false, ⟨false, []⟩⟩) (-1) rfl trivial
  have fresh : Fresh .initial answeredCall := fun _ _ => rfl
  have run := call_run failed called fresh
  obtain ⟨same, response⟩ := (direct_calls_independent _).2.2 _ run
    ⟨answeredCall, .initial, 2, rpcResult⟩ (by simp) trivial
  have named : listensFor answeredCall ≠ sidBroadcast := by decide
  exact ⟨_, rpcResult, _, run, same, (response rfl).mpr fun all => absurd all named⟩

/-- The same call once more; nothing arrives before the timeout. -/
def silentCall : ApiCall := .mdp (callServer 1) ⟨1, true, true, [lateMdpInput]⟩

theorem silentCall_called {memory : ClientMemory} {state : MdpState}
    (looped : mdpLoop (callServer 1) (.entry memory.received) [lateMdpInput] = .ok state) :
    silentCall.run memory = .ok ⟨state.code, state.received, state.rpcResult⟩ :=
  callMdp_of_loop (Bool.and_false _) rfl rfl looped

/-- A second call returns 2 without a packet, and as the first one it would have returned 0. -/
theorem stale_answer_returned : ∃ answered found memory,
    GuardedRun ApiStep (fun _ _ => True) .initial [answered, ⟨silentCall, found, 2, .empty⟩] memory ∧
    (silentCall.run .initial).map CallOutcome.visible = .ok (some 0, .empty) ∧
    ¬ Hears rpcPktCallResponse found silentCall := by
  obtain ⟨rpcResult, called⟩ := answeredCall_called
  have first := @call_run (fun _ _ => True) [] .initial _ .refl _ _ called trivial
  have second := call_run first (@silentCall_called ⟨2, rpcResult⟩ (.entry 2) rfl) trivial
  refine ⟨_, _, _, second, ?_, ?_⟩
  · rw [silentCall_called (mdpLoop_late (.inl rfl))]
    rfl
  · rintro ⟨_, _, _, heard⟩
    cases heard with
    | here running => cases running
    | later running => cases running

end ServalRpc.Verified.Independence
