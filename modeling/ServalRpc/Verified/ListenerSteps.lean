import ServalRpc.Model.Client

/-! # What one round of a listener does

Both listeners react to a packet alike, and the table changes by these reactions only.  Every
invariant of a run is derived from the outcome of a round.
-/

namespace ServalRpc.Verified.ListenerSteps

open CLib

/-! ## Reactions -/

def IsAck (packet : Packet) : Prop := load packet.recvPayload 0 = .ok rpcPktCallAck

def IsResponse (packet : Packet) : Prop := load packet.recvPayload 0 = .ok rpcPktCallResponse

instance (packet : Packet) : Decidable (IsAck packet) := inferInstanceAs (Decidable (_ = _))

instance (packet : Packet) : Decidable (IsResponse packet) := inferInstanceAs (Decidable (_ = _))

theorem not_isResponse_of_isAck {packet : Packet} (ack : IsAck packet) : ¬ IsResponse packet := by
  intro response
  exact absurd (Except.ok.inj (ack.symm.trans response)) (by decide)

theorem reactToPacket_of_isResponse {packet : Packet} (response : IsResponse packet)
    (call : ClientCall) (rpcResult : ResultTable) :
    reactToPacket call packet rpcResult = reactToResponse call packet rpcResult := by
  rw [reactToPacket, response]
  rfl

def reactionTable (before : ResultTable) : Reaction → ResultTable
  | .ignored => before
  | .acknowledged rpcResult => rpcResult
  | .answered rpcResult _ => rpcResult

def completes : Reaction → Bool
  | .answered _ complete => complete
  | _ => false

/-- The `received` of the MDP loop after a reaction. -/
def receivedAfter (received : Int) : Reaction → Int
  | .acknowledged _ => 1
  | .answered _ true => 2
  | _ => received

theorem react_cases {call : ClientCall} {packet : Packet} {rpcResult : ResultTable}
    {reaction : Reaction} (reacted : reactToPacket call packet rpcResult = .ok reaction) :
    (IsAck packet ∧ reaction = .acknowledged (reactToAck call packet rpcResult)) ∨
      (IsResponse packet ∧ reactToResponse call packet rpcResult = .ok reaction) ∨
      (¬ IsAck packet ∧ ¬ IsResponse packet ∧ reaction = .ignored) := by
  obtain ⟨pktType, first, reacted⟩ := bind_eq_ok_iff.mp reacted
  rw [mapError_eq_ok_iff] at first
  split at reacted
  · rename_i isAck
    cases reacted
    exact .inl ⟨by rw [IsAck, first, isAck], rfl⟩
  · rename_i notAck
    split at reacted
    · rename_i isResponse
      exact .inr (.inl ⟨by rw [IsResponse, first, isResponse], reacted⟩)
    · rename_i notResponse
      cases reacted
      refine .inr (.inr ⟨fun ack => notAck ?_, fun response => notResponse ?_, rfl⟩)
      · exact Except.ok.inj (first.symm.trans ack)
      · exact Except.ok.inj (first.symm.trans response)

/-! ## Rounds -/

def MdpEvent.packet? : MdpEvent → Option Packet
  | .received packet => some packet
  | _ => none

def RhizomeEvent.packet? : RhizomeEvent → Option Packet
  | .received packet => some packet
  | _ => none

section Rounds

variable {call : ClientCall}

/-- What a timeout returns when no slot counts as an answer. -/
def timeoutCode (call : ClientCall) (rpcResult : ResultTable) (silent : Int) : Int :=
  if call.sid = sidBroadcast ∧ 0 < rpcClientResultGetInsertIndex rpcResult then 2 else silent

/-- One round of the MDP loop, by its event. -/
def MdpOutcome (call : ClientCall) (state next : MdpState) : MdpEvent → Prop
  | .timeout => next.rpcResult = state.rpcResult ∧
      next.returned = some (timeoutCode call state.rpcResult state.received)
  | .sendFailed => next.rpcResult = state.rpcResult ∧ next.returned = some (-1)
  | .quiet => next.rpcResult = state.rpcResult ∧ next.received = state.received ∧
      next.returned = none
  | .received packet => ∃ reaction, reactToPacket call packet state.rpcResult = .ok reaction ∧
      next.rpcResult = reactionTable state.rpcResult reaction ∧
      next.received = receivedAfter state.received reaction ∧
      next.returned = if completes reaction then some 2 else none

theorem mdp_outcome {state next : MdpState} {event : MdpEvent}
    (step : MdpStep call state event next) :
    state.returned = none ∧ MdpOutcome call state next event := by
  obtain ⟨input, running, _, round⟩ := step
  refine ⟨running, ?_⟩
  generalize mdpEvent state input = event at round
  unfold rpcClientCallMdpRound at round
  cases event with
  | timeout =>
    simp only [Bool.and_eq_true, isSidTBroadcast_iff, decide_eq_true_eq] at round
    rw [MdpOutcome, timeoutCode]
    split at round
    · rename_i counted
      cases round
      rw [if_pos counted]
      exact ⟨rfl, rfl⟩
    · rename_i silent
      cases round
      rw [if_neg silent]
      exact ⟨rfl, rfl⟩
  | sendFailed => cases round; exact ⟨rfl, rfl⟩
  | quiet => cases round; exact ⟨rfl, rfl, running⟩
  | received packet =>
    obtain ⟨reaction, reacted, round⟩ := bind_eq_ok_iff.mp round
    refine ⟨reaction, reacted, ?_⟩
    cases reaction with
    | ignored => cases round; exact ⟨rfl, rfl, running⟩
    | acknowledged rpcResult => cases round; exact ⟨rfl, rfl, running⟩
    | answered rpcResult complete =>
      cases complete with
      | false => cases round; exact ⟨rfl, rfl, running⟩
      | true => cases round; exact ⟨rfl, rfl, rfl⟩

@[simp] theorem advance_rpcResult (state : RhizomeState) :
    state.advance.rpcResult = state.rpcResult := by
  unfold RhizomeState.advance
  split <;> rfl

@[simp] theorem advance_returned (state : RhizomeState) :
    state.advance.returned = state.returned := by
  unfold RhizomeState.advance
  split <;> rfl

@[simp] theorem advance_returnCode (state : RhizomeState) :
    state.advance.returnCode = state.returnCode := by
  unfold RhizomeState.advance
  split <;> rfl

/-- One round of the Rhizome listener, by its event. -/
def RhizomeOutcome (call : ClientCall) (state next : RhizomeState) : RhizomeEvent → Prop
  | .timeout => next.rpcResult = state.rpcResult ∧
      next.returned = some (timeoutCode call state.rpcResult (-1))
  | .transferFailed => next.rpcResult = state.rpcResult ∧ next.returned = some (-1)
  | .polled _ | .skipped => next.rpcResult = state.rpcResult ∧ next.returned = none
  | .received packet => ∃ reaction, reactToPacket call packet state.rpcResult = .ok reaction ∧
      next.rpcResult = reactionTable state.rpcResult reaction ∧
      next.returned = if completes reaction then some 2 else none

theorem listenRound_outcome {state next : RhizomeState} {event : RhizomeEvent}
    (running : state.returned = none)
    (round : rpcClientRhizomeListenRound call state event = .ok next) :
    RhizomeOutcome call state next event := by
  have advanced : state.advance.returned = none := (advance_returned state).trans running
  have table := advance_rpcResult state
  unfold rpcClientRhizomeListenRound at round
  cases event with
  | timeout =>
    simp only [Bool.and_eq_true, isSidTBroadcast_iff, decide_eq_true_eq] at round
    rw [RhizomeOutcome, timeoutCode]
    split at round
    · rename_i counted
      cases round
      rw [if_pos counted]
      exact ⟨rfl, rfl⟩
    · rename_i silent
      cases round
      rw [if_neg silent]
      exact ⟨rfl, rfl⟩
  | transferFailed => cases round; exact ⟨rfl, rfl⟩
  | polled rows =>
    obtain ⟨pending, _, round⟩ := bind_eq_ok_iff.mp round
    cases round
    exact ⟨rfl, running⟩
  | skipped => cases round; exact ⟨table, advanced⟩
  | received packet =>
    obtain ⟨reaction, reacted, round⟩ := bind_eq_ok_iff.mp round
    refine ⟨reaction, reacted, ?_⟩
    -- Whatever the reaction, the row is left behind, also when it ends the call.
    cases reaction with
    | ignored => cases round; exact ⟨table, advanced⟩
    | acknowledged rpcResult => cases round; exact ⟨rfl, advanced⟩
    | answered rpcResult complete =>
      cases complete with
      | false => cases round; exact ⟨rfl, advanced⟩
      | true => cases round; exact ⟨rfl, rfl⟩

/-- A round that does not end the listener takes a listing or leaves the row that it is at; the return
code stays, or an ACK sets it to 1. -/
theorem listenRound_running {state next : RhizomeState} {event : RhizomeEvent}
    (round : rpcClientRhizomeListenRound call state event = .ok next) (goesOn : next.returned = none) :
    (∃ rows pending, event = .polled rows ∧ rowsToVisit state.token rows = .ok pending ∧
      next = { state with pending }) ∨
    ((event = .skipped ∨ ∃ packet, event = .received packet) ∧
      next.token = state.advance.token ∧ next.pending = state.advance.pending ∧
      (next.returnCode = state.returnCode ∨ next.returnCode = 1)) := by
  have code := advance_returnCode state
  unfold rpcClientRhizomeListenRound at round
  cases event with
  | timeout =>
    simp only at round
    split at round
    · cases round
      cases goesOn
    · cases round
      cases goesOn
  | transferFailed =>
    cases round
    cases goesOn
  | polled rows =>
    obtain ⟨pending, visiting, round⟩ := bind_eq_ok_iff.mp round
    rw [mapError_eq_ok_iff] at visiting
    cases round
    exact .inl ⟨rows, pending, rfl, visiting, rfl⟩
  | skipped =>
    cases round
    exact .inr ⟨.inl rfl, rfl, rfl, .inl code⟩
  | received packet =>
    obtain ⟨reaction, _, round⟩ := bind_eq_ok_iff.mp round
    cases reaction with
    | ignored =>
      cases round
      exact .inr ⟨.inr ⟨packet, rfl⟩, rfl, rfl, .inl code⟩
    | acknowledged rpcResult =>
      cases round
      exact .inr ⟨.inr ⟨packet, rfl⟩, rfl, rfl, .inr rfl⟩
    | answered rpcResult complete =>
      cases complete with
      | false =>
        cases round
        exact .inr ⟨.inr ⟨packet, rfl⟩, rfl, rfl, .inl code⟩
      | true =>
        cases round
        cases goesOn

theorem rhizome_outcome {state next : RhizomeState} {event : RhizomeEvent}
    (step : RhizomeStep call state event next) :
    state.returned = none ∧ RhizomeOutcome call state next event := by
  cases step with
  | poll _ _ running _ _ _ round => exact ⟨running, listenRound_outcome running round⟩
  | visit _ running _ _ round => exact ⟨running, listenRound_outcome running round⟩

/-- A round of the MDP loop at a packet faults or hangs when the reaction does, and has its table. -/
theorem mdpRound_table (state : MdpState) (packet : Packet) :
    (rpcClientCallMdpRound call state (.received packet)).map MdpState.rpcResult =
      (reactToPacket call packet state.rpcResult).map (reactionTable state.rpcResult) := by
  rw [rpcClientCallMdpRound]
  cases reactToPacket call packet state.rpcResult with
  | error stop => rfl
  | ok reaction =>
    cases reaction with
    | ignored => rfl
    | acknowledged rpcResult => rfl
    | answered rpcResult complete => cases complete <;> rfl

theorem listenRound_table (state : RhizomeState) (packet : Packet) :
    (rpcClientRhizomeListenRound call state (.received packet)).map RhizomeState.rpcResult =
      (reactToPacket call packet state.rpcResult).map (reactionTable state.rpcResult) := by
  rw [rpcClientRhizomeListenRound]
  cases reactToPacket call packet state.rpcResult with
  | error stop => rfl
  | ok reaction =>
    cases reaction with
    | ignored => exact congrArg Except.ok (advance_rpcResult state)
    | acknowledged rpcResult => rfl
    | answered rpcResult complete => cases complete <;> rfl

end Rounds

end ServalRpc.Verified.ListenerSteps
