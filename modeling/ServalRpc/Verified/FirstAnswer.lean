import ServalRpc.Verified.Addressee
import ServalRpc.Verified.PlainAnswers

/-! # The first answer wins

A call to one server, or to any, waits for its first RESPONSE.  Each datagram that the loop hears
takes the call to its next stage, and the call ends in the stage that the documentation names by a
return code.
-/

namespace ServalRpc.Verified.FirstAnswer

open CLib ListenerSteps ListenerRounds PlainAnswers Addressee

/-! ## What the loop hears -/

def acks (datagram : Datagram) : Bool := datagram.bytes.head? == some rpcPktCallAck

def responds (datagram : Datagram) : Bool := datagram.bytes.head? == some rpcPktCallResponse

/-- The datagrams that come before the deadline, up to the first RESPONSE; each ACK puts the deadline
off. -/
def heard (waitTime : Int) : List MdpInput → List Datagram
  | [] => []
  | input :: inputs =>
    if input.elapsed > waitTime then []
    else match input.datagram with
      | none => heard waitTime inputs
      | some datagram =>
        if responds datagram then [datagram]
        else datagram :: heard (if acks datagram then waitTime + 20 else waitTime) inputs

/-- The deadline passes without a RESPONSE. -/
def expires (waitTime : Int) : List MdpInput → Bool
  | [] => false
  | input :: inputs =>
    if input.elapsed > waitTime then true
    else match input.datagram with
      | none => expires waitTime inputs
      | some datagram =>
        !responds datagram && expires (if acks datagram then waitTime + 20 else waitTime) inputs

/-- Sending works, no datagram is empty, and a RESPONSE carries a string that is no filehash. -/
structure FairInput (input : MdpInput) : Prop where
  sendOk : input.sendOk = true
  nonempty : ∀ datagram ∈ input.datagram, datagram.bytes ≠ []
  plain : ∀ datagram ∈ input.datagram, responds datagram = true →
    ∃ text, PlainAnswer datagram.bytes text

/-! ## Stages of a call -/

/-- The `received` of a call without a RESPONSE. -/
def ackCode (datagrams : List Datagram) : Int := if datagrams.any acks then 1 else 0

/-- Where a call is after these datagrams. -/
inductive Stage (datagrams : List Datagram) (state : MdpState) : Prop where
  | waiting : state.returned = none → state.rpcResult = .empty →
      datagrams.any responds = false → state.received = ackCode datagrams → Stage datagrams state
  | timedOut : state.returned = some (ackCode datagrams) → datagrams.any responds = false →
      Stage datagrams state
  | answered (datagram : Datagram) (result : RPCResult) : state.returned = some 2 →
      datagrams.find? responds = some datagram →
      Overwritten datagram.sender (datagram.bytes.drop 1) emptyResult result →
      state.rpcResult = answeredTable result → Stage datagrams state

theorem ackCode_waiting (datagrams : List Datagram) :
    ackCode datagrams = 0 ∨ ackCode datagrams = 1 := by
  unfold ackCode
  split
  · exact .inr rfl
  · exact .inl rfl

theorem Stage.running {datagrams : List Datagram} {state : MdpState} (stage : Stage datagrams state)
    (running : state.code = none) :
    state.rpcResult = .empty ∧ datagrams.any responds = false ∧
      state.received = ackCode datagrams := by
  have notReturned := (mdp_running_iff.mp running).1
  cases stage with
  | waiting _ empty silent received => exact ⟨empty, silent, received⟩
  | timedOut returned => cases notReturned.symm.trans returned
  | answered _ _ returned => cases notReturned.symm.trans returned

section Reactions

variable {call : ClientCall} {datagram : Datagram}

theorem load_of_head {byte : UInt8} (first : datagram.bytes.head? = some byte) :
    load datagram.packet.recvPayload 0 = .ok byte := by
  obtain ⟨behind, array⟩ := (receives_datagram datagram).array
  have loaded : load datagram.bytes 0 = .ok byte := by
    cases bytes : datagram.bytes with
    | nil =>
      rw [bytes] at first
      cases first
    | cons head rest =>
      rw [bytes] at first
      exact congrArg Except.ok (Option.some.inj first)
  rw [← array]
  exact load_append loaded behind

theorem react_ack (direct : call.sid ≠ sidBroadcast) (ack : acks datagram = true) :
    reactToPacket call datagram.packet .empty = .ok (.acknowledged .empty) := by
  have loaded := load_of_head (eq_of_beq ack)
  simp only [reactToPacket, loaded, Except.mapError, ok_bind, if_true, reactToAck,
    isSidTBroadcast_of_direct direct, Bool.false_and, Bool.false_eq_true, if_false]
  rfl

theorem react_response (direct : call.sid ≠ sidBroadcast) {text : CString}
    (answer : PlainAnswer datagram.bytes text) :
    ∃ result, Overwritten datagram.sender (datagram.bytes.drop 1) emptyResult result ∧
      reactToPacket call datagram.packet .empty = .ok (.answered (answeredTable result) true) := by
  have selected := selectedSlot_direct direct datagram.sender .empty
  obtain ⟨result, overwritten, reacted⟩ := @react_selected call datagram.packet datagram.bytes text
    .empty answer (receives_datagram datagram) 0 emptyResult selected rfl
  rw [isSidTBroadcast_of_direct direct] at reacted
  exact ⟨result, overwritten, reacted⟩

theorem react_other (nonempty : datagram.bytes ≠ []) (notAck : acks datagram = false)
    (notResponse : responds datagram = false) :
    reactToPacket call datagram.packet .empty = .ok .ignored := by
  obtain ⟨byte, rest, bytes⟩ := List.exists_cons_of_ne_nil nonempty
  have first : datagram.bytes.head? = some byte := by rw [bytes]; rfl
  have loaded := load_of_head first
  simp only [acks, responds, first, beq_eq_false_iff_ne, ne_eq, Option.some_inj] at notAck notResponse
  simp only [reactToPacket, loaded, Except.mapError, ok_bind, notAck, notResponse, if_false]
  rfl

end Reactions

/-! ## One round -/

section Round

variable {call : ClientCall} {datagrams : List Datagram} {state : MdpState} {input : MdpInput}

theorem any_snoc (test : Datagram → Bool) (datagram : Datagram) :
    (datagrams ++ [datagram]).any test = (datagrams.any test || test datagram) := by
  simp

theorem ackCode_snoc (datagram : Datagram) :
    ackCode (datagrams ++ [datagram]) = if acks datagram then 1 else ackCode datagrams := by
  rw [ackCode, any_snoc, ackCode]
  cases datagrams.any acks <;> cases acks datagram <;> rfl

/-- A round in time is that of its datagram. -/
theorem event_of_inTime (fair : FairInput input) (inTime : ¬ input.elapsed > state.waitTime) :
    mdpEvent state input = match input.datagram with
      | none => .quiet
      | some datagram => .received datagram.packet := by
  cases heard : input.datagram with
  | none => simp [mdpEvent, inTime, fair.sendOk, heard]
  | some datagram => simp [mdpEvent, inTime, fair.sendOk, heard]

theorem Stage.round_late (direct : call.sid ≠ sidBroadcast) (stage : Stage datagrams state)
    (running : state.code = none) (late : input.elapsed > state.waitTime) :
    ∃ next, rpcClientCallMdpRound call state (mdpEvent state input) = .ok next ∧
      Stage datagrams next ∧ next.code = some (ackCode datagrams) := by
  obtain ⟨_, silent, received⟩ := stage.running running
  rw [mdpEvent, if_pos late, rpcClientCallMdpRound]
  simp only [isSidTBroadcast_of_direct direct, Bool.false_and, Bool.false_eq_true, if_false]
  exact ⟨_, rfl, .timedOut (congrArg some received) silent, congrArg some received⟩

theorem Stage.round_quiet (stage : Stage datagrams state) (running : state.code = none)
    (fair : FairInput input) (inTime : ¬ input.elapsed > state.waitTime)
    (nothing : input.datagram = none) :
    ∃ next, rpcClientCallMdpRound call state (mdpEvent state input) = .ok next ∧
      Stage datagrams next ∧ next.code = none ∧ next.waitTime = state.waitTime := by
  obtain ⟨empty, silent, received⟩ := stage.running running
  obtain ⟨notReturned, waits⟩ := mdp_running_iff.mp running
  rw [event_of_inTime fair inTime, nothing]
  exact ⟨_, rfl, .waiting notReturned empty silent received,
    mdp_running_iff.mpr ⟨notReturned, waits⟩, rfl⟩

theorem Stage.round_response (direct : call.sid ≠ sidBroadcast) (stage : Stage datagrams state)
    (running : state.code = none) (fair : FairInput input)
    (inTime : ¬ input.elapsed > state.waitTime) {datagram : Datagram}
    (arrived : input.datagram = some datagram) (response : responds datagram = true) :
    ∃ next, rpcClientCallMdpRound call state (mdpEvent state input) = .ok next ∧
      Stage (datagrams ++ [datagram]) next ∧ next.code = some 2 := by
  obtain ⟨empty, silent, _⟩ := stage.running running
  obtain ⟨text, answer⟩ := fair.plain datagram arrived response
  obtain ⟨result, overwritten, reacted⟩ := react_response direct answer
  rw [event_of_inTime fair inTime, arrived, rpcClientCallMdpRound, empty, reacted]
  refine ⟨_, rfl, .answered datagram result rfl ?_ overwritten rfl, rfl⟩
  rw [List.find?_append, List.find?_eq_none.mpr (by simpa using silent)]
  simp [response]

/-- An ACK, or a datagram of another type, lets the call wait on. -/
theorem Stage.round_other (direct : call.sid ≠ sidBroadcast) (stage : Stage datagrams state)
    (running : state.code = none) (fair : FairInput input)
    (inTime : ¬ input.elapsed > state.waitTime) {datagram : Datagram}
    (arrived : input.datagram = some datagram) (notResponse : responds datagram = false) :
    ∃ next, rpcClientCallMdpRound call state (mdpEvent state input) = .ok next ∧
      Stage (datagrams ++ [datagram]) next ∧ next.code = none ∧
      next.waitTime = if acks datagram then state.waitTime + 20 else state.waitTime := by
  obtain ⟨empty, silent, received⟩ := stage.running running
  obtain ⟨notReturned, waits⟩ := mdp_running_iff.mp running
  have silent' : (datagrams ++ [datagram]).any responds = false := by
    rw [any_snoc, silent, notResponse]
    rfl
  have code := @ackCode_snoc datagrams datagram
  rw [event_of_inTime fair inTime, arrived, rpcClientCallMdpRound, empty]
  cases ack : acks datagram with
  | true =>
    rw [ack] at code
    rw [react_ack direct ack]
    exact ⟨_, rfl, .waiting notReturned rfl silent' code.symm,
      mdp_running_iff.mpr ⟨notReturned, .inr rfl⟩, rfl⟩
  | false =>
    rw [ack] at code
    rw [react_other (fair.nonempty datagram arrived) ack notResponse]
    exact ⟨_, rfl, .waiting notReturned rfl silent' (received.trans code.symm),
      mdp_running_iff.mpr ⟨notReturned, waits⟩, rfl⟩

end Round

/-! ## The whole loop -/

section Loop

variable {call : ClientCall} {datagrams : List Datagram} {state : MdpState}

theorem mdpLoop_running {next : MdpState} {input : MdpInput} (inputs : List MdpInput)
    (running : state.code = none)
    (round : rpcClientCallMdpRound call state (mdpEvent state input) = .ok next) :
    mdpLoop call state (input :: inputs) = mdpLoop call next inputs := by
  rw [mdpLoop, running, Option.isSome_none, if_neg Bool.false_ne_true, round]
  rfl

theorem mdpLoop_of_code {inputs : List MdpInput} {code : Int} (ended : state.code = some code) :
    mdpLoop call state inputs = .ok state := by
  cases inputs with
  | nil => rfl
  | cons input inputs => rw [mdpLoop, ended, Option.isSome_some, if_pos rfl]; rfl

/-- The loop never faults, the stage of the call is that of all that it hears, and it goes on as long
as it has heard no RESPONSE and the deadline has not passed. -/
theorem Stage.loop (direct : call.sid ≠ sidBroadcast) {inputs : List MdpInput}
    (stage : Stage datagrams state) (running : state.code = none)
    (fair : ∀ input ∈ inputs, FairInput input) :
    ∃ final, mdpLoop call state inputs = .ok final ∧
      Stage (datagrams ++ heard state.waitTime inputs) final ∧
      (final.code = none ↔ expires state.waitTime inputs = false ∧
        (heard state.waitTime inputs).any responds = false) := by
  induction inputs generalizing datagrams state with
  | nil => exact ⟨state, rfl, by rwa [heard, List.append_nil], iff_of_true running ⟨rfl, rfl⟩⟩
  | cons input inputs inductionHypothesis =>
    obtain ⟨isFair, fair⟩ := List.forall_mem_cons.mp fair
    rw [heard, expires]
    by_cases late : input.elapsed > state.waitTime
    · obtain ⟨next, round, stage, ended⟩ := stage.round_late direct running late
      rw [if_pos late, if_pos late, List.append_nil, mdpLoop_running inputs running round]
      exact ⟨next, mdpLoop_of_code ended, stage, by simp [ended]⟩
    · rw [if_neg late, if_neg late]
      cases arrived : input.datagram with
      | none =>
        obtain ⟨next, round, stage, running', same⟩ :=
          @Stage.round_quiet call _ _ _ stage running isFair late arrived
        rw [mdpLoop_running inputs running round, ← same]
        exact inductionHypothesis stage running' fair
      | some datagram =>
        simp only
        cases response : responds datagram with
        | true =>
          obtain ⟨next, round, stage, ended⟩ :=
            stage.round_response direct running isFair late arrived response
          rw [if_pos rfl, mdpLoop_running inputs running round]
          exact ⟨next, mdpLoop_of_code ended, stage, by simp [ended, response]⟩
        | false =>
          obtain ⟨next, round, stage, running', waitTime⟩ :=
            stage.round_other direct running isFair late arrived response
          obtain ⟨final, looped, ended, goesOn⟩ := inductionHypothesis stage running' fair
          rw [if_neg Bool.false_ne_true, mdpLoop_running inputs running round, ← waitTime]
          refine ⟨final, looped, by rwa [List.append_assoc] at ended, ?_⟩
          rw [goesOn, List.any_cons, response]
          rfl

theorem mdpLoop_append (inputs later : List MdpInput) :
    mdpLoop call state (inputs ++ later) =
      mdpLoop call state inputs >>= fun middle => mdpLoop call middle later := by
  induction inputs generalizing state with
  | nil => rfl
  | cons input inputs inductionHypothesis =>
    rw [List.cons_append, mdpLoop, mdpLoop]
    cases running : state.code with
    | some code =>
      -- A loop that has ended takes none of the later inputs either.
      rw [Option.isSome_some, if_pos rfl, if_pos rfl]
      cases later with
      | nil => rfl
      | cons input later =>
        simp only [pure, Except.pure, ok_bind, mdpLoop, running, Option.isSome_some, if_true]
    | none =>
      rw [Option.isSome_none, if_neg Bool.false_ne_true, if_neg Bool.false_ne_true]
      cases rpcClientCallMdpRound call state (mdpEvent state input) with
      | error stop => rfl
      | ok next => exact inductionHypothesis

/-- A round that starts after an ACK does not send. -/
theorem round_sent {next : MdpState} {event : MdpEvent} (acked : state.received ≠ 0)
    (round : rpcClientCallMdpRound call state event = .ok next) :
    next.sent = state.sent ∧ next.received ≠ 0 := by
  unfold rpcClientCallMdpRound at round
  cases event with
  | timeout =>
    simp only at round
    split at round
    · cases round
      exact ⟨rfl, acked⟩
    · cases round
      exact ⟨rfl, acked⟩
  | sendFailed =>
    cases round
    exact ⟨rfl, acked⟩
  | quiet =>
    cases round
    exact ⟨if_neg acked, acked⟩
  | received packet =>
    obtain ⟨reaction, _, round⟩ := bind_eq_ok_iff.mp round
    cases reaction with
    | ignored =>
      cases round
      exact ⟨if_neg acked, acked⟩
    | acknowledged rpcResult =>
      cases round
      exact ⟨if_neg acked, Int.one_ne_zero⟩
    | answered rpcResult complete =>
      cases complete with
      | false =>
        cases round
        exact ⟨if_neg acked, acked⟩
      | true =>
        cases round
        exact ⟨if_neg acked, show (2 : Int) ≠ 0 by decide⟩

theorem loop_sent {final : MdpState} {inputs : List MdpInput} (acked : state.received ≠ 0)
    (looped : mdpLoop call state inputs = .ok final) : final.sent = state.sent := by
  induction inputs generalizing state with
  | nil =>
    cases looped
    rfl
  | cons input inputs inductionHypothesis =>
    cases running : state.code with
    | some code => rw [mdpLoop_ended running looped]
    | none =>
      rw [mdpLoop, running, Option.isSome_none, if_neg Bool.false_ne_true] at looped
      obtain ⟨next, round, looped⟩ := bind_eq_ok_iff.mp looped
      obtain ⟨same, acked⟩ := round_sent acked round
      exact (inductionHypothesis acked looped).trans same

end Loop

/-! ## What the call returns -/

/-- What the documentation says about a call to one server that has heard these datagrams, and whose
deadline has passed or not. -/
structure Returns (datagrams : List Datagram) (expired : Bool) (code : Option Int)
    (rpcResult : ResultTable) : Prop where
  waits : code = none ↔ expired = false ∧ ¬ ∃ datagram ∈ datagrams, responds datagram = true
  two : code = some 2 ↔ ∃ datagram ∈ datagrams, responds datagram = true
  one : ∀ value, code = some value → (value = 1 ↔
    (∃ datagram ∈ datagrams, acks datagram = true) ∧
      ¬ ∃ datagram ∈ datagrams, responds datagram = true)
  zero : ∀ value, code = some value → (value = 0 ↔
    (¬ ∃ datagram ∈ datagrams, acks datagram = true) ∧
      ¬ ∃ datagram ∈ datagrams, responds datagram = true)
  answer : code = some 2 → ∃ datagram result, datagrams.find? responds = some datagram ∧
    Overwritten datagram.sender (datagram.bytes.drop 1) emptyResult result ∧
      rpcResult = answeredTable result

theorem Stage.returns {datagrams : List Datagram} {state : MdpState}
    (stage : Stage datagrams state) {expired : Bool}
    (goesOn : state.code = none ↔ expired = false ∧ datagrams.any responds = false) :
    Returns datagrams expired state.code state.rpcResult := by
  have waits : state.code = none ↔
      expired = false ∧ ¬ ∃ datagram ∈ datagrams, responds datagram = true := by
    rw [goesOn, ← List.any_eq_true, Bool.not_eq_true]
  have codeOf (silent : datagrams.any responds = false) :
      (∃ datagram ∈ datagrams, responds datagram = true) ↔ False := by
    rw [← List.any_eq_true, silent]
    simp
  have ackOf : (∃ datagram ∈ datagrams, acks datagram = true) ↔ ackCode datagrams = 1 := by
    rw [← List.any_eq_true, ackCode]
    split <;> simp_all
  have ackCodes := ackCode_waiting datagrams
  cases stage with
  | waiting notReturned empty silent received =>
    have running : state.code = none := mdp_running_iff.mpr ⟨notReturned, received ▸ ackCodes⟩
    rw [running] at waits ⊢
    refine ⟨waits, ?_, fun value code => (nomatch code), fun value code => (nomatch code),
      fun two => (nomatch two)⟩
    rw [codeOf silent]
    simp
  | timedOut returned silent =>
    have ended : state.code = some (ackCode datagrams) := by rw [MdpState.code, returned]
    rw [ended] at waits ⊢
    refine ⟨waits, ?_, ?_, ?_, fun two => ?_⟩
    · refine iff_of_false (fun two => ?_) ((codeOf silent).mp)
      have := Option.some.inj two
      omega
    · rintro value code
      cases code
      rw [codeOf silent, ackOf]
      simp
    · rintro value code
      cases code
      rw [codeOf silent, ackOf, not_false_eq_true, and_true]
      omega
    · have := Option.some.inj two
      omega
  | answered datagram result returned first overwritten table =>
    have ended : state.code = some 2 := by rw [MdpState.code, returned]
    have response : ∃ datagram ∈ datagrams, responds datagram = true :=
      ⟨datagram, List.mem_of_find?_eq_some first, List.find?_some first⟩
    rw [ended] at waits ⊢
    refine ⟨waits, iff_of_true rfl response, ?_, ?_,
      fun _ => ⟨datagram, result, first, overwritten, table⟩⟩
    · rintro value code
      cases code
      exact iff_of_false (by decide) fun silent => silent.2 response
    · rintro value code
      cases code
      exact iff_of_false (by decide) fun silent => silent.2 response

/-- A call to one server, or to any, whose channel works returns by the documentation for whatever it
hears, and as soon as it hears a RESPONSE or the deadline passes; it keeps the first RESPONSE, and sends
no more after the first ACK. -/
theorem first_answer_wins (call : ClientCall) (direct : call.sid ≠ sidBroadcast)
    (world : MdpCallWorld) (memory : ClientMemory)
    (passes : mdpRefuses call world.reachable = false) (socket : world.socket = true)
    (bound : world.bound = true) (fresh : memory.received = 0)
    (fair : ∀ input ∈ world.inputs, FairInput input) :
    ∃ state, mdpLoop call (.entry 0) world.inputs = .ok state ∧
      rpcClientCallMdp call world memory = .ok ⟨state.code, state.received, state.rpcResult⟩ ∧
      Returns (heard 10 world.inputs) (expires 10 world.inputs) state.code state.rpcResult ∧
      ∀ inputs later early, world.inputs = inputs ++ later →
        mdpLoop call (.entry 0) inputs = .ok early →
        (∃ datagram ∈ heard 10 inputs, acks datagram = true) → state.sent = early.sent := by
  have start : Stage [] (.entry 0) := .waiting rfl rfl rfl rfl
  obtain ⟨state, looped, stage, goesOn⟩ := start.loop direct rfl fair
  refine ⟨state, looped, ?_, stage.returns goesOn, ?_⟩
  · exact callMdp_of_loop passes socket bound (by rwa [fresh])
  · intro inputs later early split first acked
    obtain ⟨early', looped', stage', _⟩ := @Stage.loop call [] _ direct inputs start rfl
      fun input member => fair input (split ▸ List.mem_append_left _ member)
    cases first.symm.trans looped'
    rw [split, mdpLoop_append, first, ok_bind] at looped
    cases running : early.code with
    | some code => rw [mdpLoop_ended running looped]
    | none =>
      refine loop_sent ?_ looped
      obtain ⟨_, _, received⟩ := stage'.running running
      have acked' : (heard (MdpState.entry 0).waitTime inputs).any acks = true :=
        List.any_eq_true.mpr acked
      rw [received, List.nil_append, ackCode, acked']
      decide

/-- An ACK and a RESPONSE of one server. -/
def answeredWorld : MdpCallWorld where
  reachable := 1
  socket := true
  bound := true
  inputs := [⟨0, true, some (ResultSlots.ackDatagram (ResultSlots.server 1))⟩,
    ⟨1, true, some (plainDatagram (ResultSlots.server 1))⟩]

theorem answeredWorld_fair : ∀ input ∈ answeredWorld.inputs, FairInput input := by
  intro input member
  simp only [answeredWorld, List.mem_cons, List.not_mem_nil, or_false] at member
  obtain rfl | rfl := member
  · refine ⟨rfl, ?_, ?_⟩
    · rintro _ ⟨⟩
      exact List.cons_ne_nil _ _
    · rintro _ ⟨⟩ response
      exact absurd response (by decide)
  · refine ⟨rfl, ?_, ?_⟩
    · rintro _ ⟨⟩
      exact List.cons_ne_nil _ _
    · rintro _ ⟨⟩ _
      exact plainDatagram_answer _

/-- The call returns 2 with its server in the first slot. -/
theorem first_answer_wins_acked : ∃ received rpcResult result,
    rpcClientCallMdp (callServer 1) answeredWorld .initial = .ok ⟨some 2, received, rpcResult⟩ ∧
      Returns (heard 10 answeredWorld.inputs) (expires 10 answeredWorld.inputs) (some 2) rpcResult ∧
      rpcResult = answeredTable result ∧ result.serverSid = ResultSlots.server 1 := by
  obtain ⟨state, _, called, returns, _⟩ := first_answer_wins (callServer 1) (by decide) answeredWorld
    .initial rfl rfl rfl rfl answeredWorld_fair
  have response : ∃ datagram ∈ heard 10 answeredWorld.inputs, responds datagram = true :=
    ⟨plainDatagram (ResultSlots.server 1), List.mem_cons_of_mem _ List.mem_cons_self, rfl⟩
  have code := returns.two.mpr response
  obtain ⟨datagram, result, first, overwritten, table⟩ := returns.answer code
  obtain rfl : plainDatagram (ResultSlots.server 1) = datagram := Option.some.inj first
  rw [code] at called returns
  exact ⟨_, _, result, called, returns, table, overwritten.serverSid⟩

end ServalRpc.Verified.FirstAnswer
