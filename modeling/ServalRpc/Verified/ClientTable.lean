import ServalRpc.CLib.SlotTable
import ServalRpc.Verified.ListenerSteps

/-! # The result table of a call to all servers

Both listeners change the result table by reacting to packets and in no other way, so a run of
either is a run of the table.  The code looks for the sid of the call where it means the sender,
and never asks whether the table is full: a second ACK of a server claims a second slot, and an
ACK without a free slot is written behind the table.
-/

namespace ServalRpc.Verified.ClientTable

open CLib ListenerSteps

/-! ## Steps of the table -/

/-- One event of a listener, as the table sees it. -/
def TableStep (call : ClientCall) (rpcResult : ResultTable) (event : Option Packet)
    (next : ResultTable) : Prop :=
  match event with
  | none => next = rpcResult
  | some packet => ∃ reaction, reactToPacket call packet rpcResult = .ok reaction ∧
      next = reactionTable rpcResult reaction

theorem mdp_tableStep {call : ClientCall} {state next : MdpState} {event : MdpEvent}
    (step : MdpStep call state event next) :
    TableStep call state.rpcResult (MdpEvent.packet? event) next.rpcResult := by
  obtain ⟨_, outcome⟩ := mdp_outcome step
  cases event with
  | timeout => exact outcome.1
  | sendFailed => exact outcome.1
  | quiet => exact outcome.1
  | received packet =>
    obtain ⟨reaction, reacted, table, _⟩ := outcome
    exact ⟨reaction, reacted, table⟩

theorem rhizome_tableStep {call : ClientCall} {state next : RhizomeState} {event : RhizomeEvent}
    (step : RhizomeStep call state event next) :
    TableStep call state.rpcResult (RhizomeEvent.packet? event) next.rpcResult := by
  obtain ⟨_, outcome⟩ := rhizome_outcome step
  cases event with
  | timeout => exact outcome.1
  | transferFailed => exact outcome.1
  | polled rows => exact outcome.1
  | skipped => exact outcome.1
  | received packet =>
    obtain ⟨reaction, reacted, table, _⟩ := outcome
    exact ⟨reaction, reacted, table⟩

/-! ## Lookups -/

/-- The server sids of the slots. -/
def sids (rpcResult : ResultTable) : List Sid := rpcResult.cells.map RPCResult.serverSid

theorem insertIndex_eq (rpcResult : ResultTable) :
    rpcClientResultGetInsertIndex rpcResult =
      freeIdx RPCResult.serverSid sidAny rpcResult.cells := by
  unfold rpcClientResultGetInsertIndex freeIdx
  congr 1
  funext result
  rw [Bool.eq_iff_iff, isSidTAny_iff, decide_eq_true_iff]

theorem sidIndex_eq (rpcResult : ResultTable) (sid : Sid) :
    rpcClientResultGetSidIndex rpcResult sid =
      keyIdx? RPCResult.serverSid rpcResult.cells sid := rfl

/-- In a call to all servers the lookup before an insertion finds nothing but a slot that holds
`SID_BROADCAST` itself. -/
theorem reactToAck_all {call : ClientCall} (all : call.sid = sidBroadcast) (packet : Packet)
    (rpcResult : ResultTable) :
    reactToAck call packet rpcResult =
      if sidBroadcast ∈ sids rpcResult then rpcResult
      else rpcResult.update (freeIdx RPCResult.serverSid sidAny rpcResult.cells)
        fun result => result.setServerSid packet.sender := by
  have broadcast : isSidTBroadcast call.sid = true := (isSidTBroadcast_iff _).mpr all
  have lookup := keyIdx?_eq_none_iff RPCResult.serverSid rpcResult.cells sidBroadcast
  rw [reactToAck, broadcast, all, sidIndex_eq, insertIndex_eq, Bool.true_and]
  by_cases held : sidBroadcast ∈ sids rpcResult
  · rw [if_pos held, if_neg (by rw [Option.isNone_iff_eq_none, lookup]; exact not_not.mpr held)]
  · rw [if_neg held, if_pos (by rw [Option.isNone_iff_eq_none, lookup]; exact held)]

theorem copyContent_ok {result next : RPCResult} {bytes : List UInt8}
    (copied : result.copyContent bytes = .ok next) :
    next.serverSid = result.serverSid ∧ bytes <+: next.content := by
  unfold RPCResult.copyContent at copied
  split at copied
  · rename_i content stored
    cases copied
    unfold storeRange at stored
    split at stored
    · cases stored
      exact ⟨rfl, by simp⟩
    · cases stored
  · cases copied

theorem copyContent_of_fits (result : RPCResult) {bytes : List UInt8}
    (fits : bytes.length ≤ rpcPktSize) : ∃ next, result.copyContent bytes = .ok next := by
  unfold RPCResult.copyContent
  split
  · exact ⟨_, rfl⟩
  · rename_i fault failed
    have room : 0 + bytes.length ≤ result.content.length := by
      rw [result.size]
      omega
    rw [storeRange, if_pos room] at failed
    cases failed

theorem storeAnswer_of_fits {rpcResult : ResultTable} {position : Nat}
    (inside : position < rpcResult.cells.length) {bytes : List UInt8}
    (fits : bytes.length ≤ rpcPktSize) : ∃ next, storeAnswer rpcResult position bytes = .ok next := by
  obtain ⟨next, copied⟩ := copyContent_of_fits rpcResult.cells[position] fits
  refine ⟨rpcResult.store position next, ?_⟩
  rw [storeAnswer, load_of_lt inside]
  simp only [Except.mapError, ok_bind, copied]
  rfl

/-- An answer in a call to all servers goes to the first slot of its sender. -/
theorem response_all_cases {call : ClientCall} (all : call.sid = sidBroadcast) {packet : Packet}
    {rpcResult : ResultTable} {reaction : Reaction}
    (reacted : reactToResponse call packet rpcResult = .ok reaction) :
    (keyIdx? RPCResult.serverSid rpcResult.cells packet.sender = none ∧ reaction = .ignored) ∨
      ∃ position old new bytes,
        keyIdx? RPCResult.serverSid rpcResult.cells packet.sender = some position ∧
        rpcResult.cells[position]? = some old ∧ answerBytes call packet = .ok bytes ∧
        new.serverSid = old.serverSid ∧ bytes <+: new.content ∧
        reaction = .answered ⟨rpcResult.cells.set position new, rpcResult.stray⟩ (position == 4) := by
  have broadcast : isSidTBroadcast call.sid = true := (isSidTBroadcast_iff _).mpr all
  rw [reactToResponse, if_pos broadcast, sidIndex_eq] at reacted
  cases found : keyIdx? RPCResult.serverSid rpcResult.cells packet.sender with
  | none =>
    rw [found] at reacted
    cases reacted
    exact .inl ⟨rfl, rfl⟩
  | some position =>
    rw [found] at reacted
    obtain ⟨bytes, answer, reacted⟩ := bind_eq_ok_iff.mp reacted
    obtain ⟨table, stored, reacted⟩ := bind_eq_ok_iff.mp reacted
    obtain ⟨old, loaded, stored⟩ := bind_eq_ok_iff.mp stored
    obtain ⟨new, copied, stored⟩ := bind_eq_ok_iff.mp stored
    rw [mapError_eq_ok_iff] at loaded copied
    obtain ⟨slot, at', _⟩ := keyIdx?_eq_some found
    rw [load, at'] at loaded
    cases loaded
    obtain ⟨sameSid, holds⟩ := copyContent_ok copied
    have inside : position < rpcResult.cells.length := (List.getElem?_eq_some_iff.mp at').1
    rw [Block.store_of_lt inside] at stored
    cases stored
    cases reacted
    exact .inr ⟨position, old, new, bytes, rfl, at', answer, sameSid, holds, rfl⟩

/-! ## Slots stay inside the table -/

/-- An ACK meets a free slot, or a slot that holds `SID_BROADCAST` and keeps it from claiming. -/
def HasSlot (rpcResult : ResultTable) (packet : Packet) : Prop :=
  IsAck packet → sidBroadcast ∈ sids rpcResult ∨ sidAny ∈ sids rpcResult

theorem stray_eq_iff {call : ClientCall} (all : call.sid = sidBroadcast) {packet : Packet}
    {rpcResult : ResultTable} {reaction : Reaction}
    (reacted : reactToPacket call packet rpcResult = .ok reaction) :
    (reactionTable rpcResult reaction).stray = rpcResult.stray ↔ HasSlot rpcResult packet := by
  obtain ⟨ack, rfl⟩ | ⟨response, reacted⟩ | ⟨notAck, _, rfl⟩ := react_cases reacted
  · have free := freeIdx_lt_iff RPCResult.serverSid sidAny rpcResult.cells
    simp only [reactionTable, reactToAck_all all, HasSlot, ack, true_implies]
    split
    · rename_i held
      simp [held]
    · rename_i absent
      rw [Block.update_stray_eq_iff, free]
      exact (or_iff_right absent).symm
  · have notAck : ¬ IsAck packet := fun ack => not_isResponse_of_isAck ack response
    obtain ⟨_, rfl⟩ | ⟨_, _, _, _, _, _, _, _, _, rfl⟩ := response_all_cases all reacted
    · simp [reactionTable, HasSlot, notAck]
    · simp [reactionTable, HasSlot, notAck]
  · simp [reactionTable, HasSlot, notAck]

/-! ## Slots stay distinct -/

/-- The slots that are not empty carry pairwise distinct sids. -/
def Distinct (rpcResult : ResultTable) : Prop :=
  (occupied RPCResult.serverSid sidAny rpcResult.cells).Nodup

instance (rpcResult : ResultTable) : Decidable (Distinct rpcResult) :=
  inferInstanceAs (Decidable (List.Nodup _))

/-- An ACK that claims a slot comes from a server that has none. -/
def NewServer (rpcResult : ResultTable) (packet : Packet) : Prop :=
  IsAck packet → sidBroadcast ∉ sids rpcResult → sidAny ∈ sids rpcResult →
    packet.sender = sidAny ∨ packet.sender ∉ sids rpcResult

theorem distinct_congr {before after : ResultTable}
    (same : after.cells.map RPCResult.serverSid = before.cells.map RPCResult.serverSid) :
    Distinct after ↔ Distinct before := by
  rw [Distinct, Distinct, occupied, occupied, same]

theorem distinct_update_iff {rpcResult : ResultTable} (distinct : Distinct rpcResult) {sender : Sid}
    (free : sidAny ∈ sids rpcResult) :
    Distinct (rpcResult.update (freeIdx RPCResult.serverSid sidAny rpcResult.cells)
      fun result => result.setServerSid sender) ↔ sender = sidAny ∨ sender ∉ sids rpcResult := by
  have inside := (freeIdx_lt_iff RPCResult.serverSid sidAny rpcResult.cells).mpr free
  have sets : ∀ result : RPCResult, (result.setServerSid sender).serverSid = sender := fun _ => rfl
  rw [Block.update_of_lt inside]
  -- A slot that is claimed with `SID_ANY` stays free.
  by_cases any : sender = sidAny
  · subst any
    exact iff_of_true ((distinct_congr (map_key_claim_blank RPCResult.serverSid sets _)).mpr distinct)
      (.inl rfl)
  · have joined := occupied_claim RPCResult.serverSid sets any free
    have member : sender ∈ occupied RPCResult.serverSid sidAny rpcResult.cells ↔
        sender ∈ sids rpcResult := by
      simp [occupied, sids, any]
    rw [Distinct, joined.nodup_iff, List.nodup_cons, member]
    constructor
    · rintro ⟨absent, _⟩
      exact .inr absent
    · rintro (isAny | absent)
      · exact absurd isAny any
      · exact ⟨absent, distinct⟩

theorem distinct_iff {call : ClientCall} (all : call.sid = sidBroadcast) {packet : Packet}
    {rpcResult : ResultTable} {reaction : Reaction} (distinct : Distinct rpcResult)
    (reacted : reactToPacket call packet rpcResult = .ok reaction) :
    Distinct (reactionTable rpcResult reaction) ↔ NewServer rpcResult packet := by
  obtain ⟨ack, rfl⟩ | ⟨response, reacted⟩ | ⟨notAck, _, rfl⟩ := react_cases reacted
  · simp only [reactionTable, reactToAck_all all, NewServer, ack, true_implies]
    split
    · rename_i held
      simp [held, distinct]
    · rename_i absent
      by_cases free : sidAny ∈ sids rpcResult
      · rw [distinct_update_iff distinct free]
        simp [absent, free]
      · -- A full table keeps its slots: the sid goes behind it.
        have full := Nat.le_of_not_lt fun inside =>
          free ((freeIdx_lt_iff RPCResult.serverSid sidAny rpcResult.cells).mp inside)
        rw [Block.update_of_le full]
        simp only [free, false_implies, implies_true, iff_true]
        exact distinct
  · have notAck : ¬ IsAck packet := fun ack => not_isResponse_of_isAck ack response
    obtain ⟨_, rfl⟩ | ⟨position, old, new, bytes, _, at', _, sameSid, _, rfl⟩ :=
      response_all_cases all reacted
    · simp [reactionTable, NewServer, notAck, distinct]
    · have same := map_key_set RPCResult.serverSid at' sameSid
      exact iff_of_true ((distinct_congr same).mpr distinct) fun ack => absurd ack notAck
  · simp [reactionTable, NewServer, notAck, distinct]

end ServalRpc.Verified.ClientTable
