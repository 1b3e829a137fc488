import ServalRpc.Verified.PlainAnswers

/-! # An answer touches only its own slot

In a call to all servers an ACK claims the first free slot and an answer leaves every sid alone, so
the slots in use come first.  The search for a server therefore never ends in a free slot.
-/

namespace ServalRpc.Verified.OwnSlot

open CLib ListenerSteps ClientTable PlainAnswers

/-! ## Slots in use -/

/-- The slots in use form a prefix, and the insert index is its length. -/
def UsedFirst (rpcResult : ResultTable) : Prop :=
  ∀ position result, rpcResult.cells[position]? = some result →
    (result.serverSid ≠ sidAny ↔ position < rpcClientResultGetInsertIndex rpcResult)

abbrev PackedTable (rpcResult : ResultTable) : Prop :=
  Packed RPCResult.serverSid sidAny rpcResult.cells

theorem usedFirst_of_packed {rpcResult : ResultTable} (packed : PackedTable rpcResult) :
    UsedFirst rpcResult := by
  intro position result at'
  rw [insertIndex_eq]
  exact packed.used_iff at'

theorem packed_empty : PackedTable .empty := packed_replicate rfl 5

/-- What one packet can do to the sids of the slots: an ACK may claim the first free slot. -/
theorem sids_cases {call : ClientCall} (all : call.sid = sidBroadcast) {packet : Packet}
    {rpcResult : ResultTable} {reaction : Reaction}
    (reacted : reactToPacket call packet rpcResult = .ok reaction) :
    sids (reactionTable rpcResult reaction) = sids rpcResult ∧
        (IsAck packet → sidBroadcast ∈ sids rpcResult ∨ sidAny ∉ sids rpcResult) ∨
      IsAck packet ∧ sidBroadcast ∉ sids rpcResult ∧ sidAny ∈ sids rpcResult ∧
        (reactionTable rpcResult reaction).cells =
          rpcResult.cells.modify (freeIdx RPCResult.serverSid sidAny rpcResult.cells)
            fun result => result.setServerSid packet.sender := by
  obtain ⟨ack, rfl⟩ | ⟨response, reacted⟩ | ⟨notAck, _, rfl⟩ := react_cases reacted
  · have free := freeIdx_lt_iff RPCResult.serverSid sidAny rpcResult.cells
    simp only [reactionTable, reactToAck_all all]
    by_cases held : sidBroadcast ∈ sids rpcResult
    · rw [if_pos held]
      exact .inl ⟨rfl, fun _ => .inl held⟩
    · rw [if_neg held]
      by_cases room : sidAny ∈ sids rpcResult
      · rw [Block.update_of_lt (free.mpr room)]
        exact .inr ⟨ack, held, room, rfl⟩
      · -- The sid of a claim without a free slot goes behind the table.
        rw [Block.update_of_le (Nat.le_of_not_lt fun inside => room (free.mp inside))]
        exact .inl ⟨rfl, fun _ => .inr room⟩
  · have notAck : ¬ IsAck packet := fun ack => not_isResponse_of_isAck ack response
    obtain ⟨_, rfl⟩ | ⟨position, old, new, bytes, _, at', _, sameSid, _, rfl⟩ :=
      response_all_cases all reacted
    · exact .inl ⟨rfl, fun ack => absurd ack notAck⟩
    · exact .inl ⟨map_key_set RPCResult.serverSid at' sameSid, fun ack => absurd ack notAck⟩
  · exact .inl ⟨rfl, fun ack => absurd ack notAck⟩

section Runs

variable {call : ClientCall}

theorem packed_react (all : call.sid = sidBroadcast) {packet : Packet} {rpcResult : ResultTable}
    {reaction : Reaction} (packed : PackedTable rpcResult)
    (reacted : reactToPacket call packet rpcResult = .ok reaction) :
    PackedTable (reactionTable rpcResult reaction) := by
  obtain ⟨same, _⟩ | ⟨_, _, _, claims⟩ := sids_cases all reacted
  · exact (packed_congr same).mpr packed
  · rw [PackedTable, claims]
    exact packed.claim fun _ => rfl

theorem packed_tableStep (all : call.sid = sidBroadcast) {event : Option Packet}
    {rpcResult next : ResultTable} (packed : PackedTable rpcResult)
    (step : TableStep call rpcResult event next) : PackedTable next := by
  cases event with
  | none =>
    obtain rfl : next = rpcResult := step
    exact packed
  | some packet =>
    obtain ⟨reaction, reacted, rfl⟩ := step
    exact packed_react all packed reacted

theorem packed_of_mdp (all : call.sid = sidBroadcast) {guard : MdpState → MdpEvent → Prop}
    {received : Int} {events : List MdpEvent} {state : MdpState}
    (run : GuardedRun (MdpStep call) guard (.entry received) events state) :
    PackedTable state.rpcResult := by
  refine @GuardedRun.invariant _ _ _ _ _ (fun _ state => PackedTable state.rpcResult) ?_ ?_ _ _ run
  · exact packed_empty
  · intro past before event after packed _ step
    exact packed_tableStep all packed (mdp_tableStep step)

theorem packed_of_rhizome (all : call.sid = sidBroadcast)
    {guard : RhizomeState → RhizomeEvent → Prop} {events : List RhizomeEvent} {state : RhizomeState}
    (run : GuardedRun (RhizomeStep call) guard .entry events state) :
    PackedTable state.rpcResult := by
  refine @GuardedRun.invariant _ _ _ _ _ (fun _ state => PackedTable state.rpcResult) ?_ ?_ _ _ run
  · exact packed_empty
  · intro past before event after packed _ step
    exact packed_tableStep all packed (rhizome_tableStep step)

end Runs

/-! ## The slot of an answer -/

/-- An answer changes the content of the first slot of its server, which is one in use, or nothing at
all. -/
structure TouchesOwn (sender : Sid) (before after : ResultTable) : Prop where
  own : (∃ result ∈ before.cells, result.serverSid = sender) →
    ∃ front old new back, before.cells = front ++ old :: back ∧
      (∀ result ∈ front, result.serverSid ≠ sender) ∧ old.serverSid = sender ∧
      new.serverSid = sender ∧ front.length < rpcClientResultGetInsertIndex before ∧
      after = ⟨front ++ new :: back, before.stray⟩
  other : (∀ result ∈ before.cells, result.serverSid ≠ sender) → after = before

theorem touchesOwn_react {call : ClientCall} (all : call.sid = sidBroadcast) {packet : Packet}
    {bytes : List UInt8} {text : CString} {rpcResult : ResultTable} (packed : PackedTable rpcResult)
    (proper : packet.sender ≠ sidAny) (answer : PlainAnswer bytes text)
    (received : Receives packet bytes) :
    ∃ reaction, reactToPacket call packet rpcResult = .ok reaction ∧
      TouchesOwn packet.sender rpcResult (reactionTable rpcResult reaction) := by
  have none := keyIdx?_eq_none_iff RPCResult.serverSid rpcResult.cells packet.sender
  cases found : keyIdx? RPCResult.serverSid rpcResult.cells packet.sender with
  | none =>
    have absent := none.mp found
    refine ⟨.ignored, ?_, ?_, fun _ => rfl⟩
    · rw [reactToPacket_of_isResponse (answer.isResponse received)]
      exact ignored_of_unselected ((selectedSlot_all all _ _).trans found)
    · rintro ⟨result, member, isSender⟩
      exact absurd (List.mem_map.mpr ⟨result, member, isSender⟩) absent
  | some position =>
    obtain ⟨old, at', isSender⟩ := keyIdx?_eq_some found
    obtain ⟨new, overwritten, reacted⟩ := @react_selected call packet bytes text rpcResult answer
      received position old ((selectedSlot_all all _ _).trans found) at'
    obtain ⟨inside, same⟩ := List.getElem?_eq_some_iff.mp at'
    refine ⟨_, reacted, fun _ => ?_, fun absent => ?_⟩
    · refine ⟨rpcResult.cells.take position, old, new, rpcResult.cells.drop (position + 1), ?_, ?_,
        isSender, overwritten.serverSid, ?_, ?_⟩
      · rw [← same, ← List.drop_eq_getElem_cons inside, List.take_append_drop]
      · obtain ⟨_, _, earlier⟩ := List.findIdx?_eq_some_iff_getElem.mp found
        intro result member isSender'
        obtain ⟨index, bound, rfl⟩ := List.mem_take_iff_getElem.mp member
        exact absurd (decide_eq_true isSender'.symm) (earlier index (by omega))
      · rw [List.length_take_of_le (Nat.le_of_lt inside)]
        exact (usedFirst_of_packed packed position old at').mp (isSender ▸ proper)
      · rw [reactionTable, List.set_eq_take_append_cons_drop, if_pos inside]
    · exact absurd isSender (absent old (List.mem_of_getElem? at'))

/-- In every state of a call to all servers that has stored no sid behind the table, the slots in use
form a prefix that the insert index counts, and an answer touches only the first slot of its
server. -/
theorem answer_touches_own_slot (call : ClientCall) (all : call.sid = sidBroadcast) :
    (∀ guard received events (state : MdpState),
      GuardedRun (MdpStep call) guard (.entry received) events state → state.rpcResult.stray = [] →
        UsedFirst state.rpcResult ∧ ∀ (datagram : Datagram) text, datagram.sender ≠ sidAny →
          PlainAnswer datagram.bytes text →
            ∃ next, rpcClientCallMdpRound call state (.received datagram.packet) = .ok next ∧
              TouchesOwn datagram.sender state.rpcResult next.rpcResult) ∧
    ∀ guard events (state : RhizomeState),
      GuardedRun (RhizomeStep call) guard .entry events state → state.rpcResult.stray = [] →
        UsedFirst state.rpcResult ∧ ∀ row input sender body text,
          (rowPacket call row input sender body).sender ≠ sidAny → row.filesize = body.length →
          PlainAnswer body text →
            ∃ next, rpcClientRhizomeListenRound call state
                (.received (rowPacket call row input sender body)) = .ok next ∧
              TouchesOwn (rowPacket call row input sender body).sender state.rpcResult
                next.rpcResult := by
  constructor
  · intro guard received events state run _
    have packed := packed_of_mdp all run
    refine ⟨usedFirst_of_packed packed, fun datagram text proper answer => ?_⟩
    obtain ⟨reaction, reacted, touches⟩ := @touchesOwn_react call all datagram.packet datagram.bytes
      text state.rpcResult packed proper answer (receives_datagram datagram)
    have round := @mdpRound_table call state datagram.packet
    rw [reacted] at round
    obtain ⟨next, rounded, table⟩ := map_eq_ok_iff.mp round
    exact ⟨next, rounded, table ▸ touches⟩
  · intro guard events state run _
    have packed := packed_of_rhizome all run
    refine ⟨usedFirst_of_packed packed, fun row input sender body text proper listed answer => ?_⟩
    have limit : rpcPktSize < 2 ^ 64 := by decide
    have received := @receives_row call row input sender body listed
      (Nat.lt_of_le_of_lt answer.fits limit)
    obtain ⟨reaction, reacted, touches⟩ := touchesOwn_react all packed proper answer received
    have round := @listenRound_table call state (rowPacket call row input sender body)
    rw [reacted] at round
    obtain ⟨next, rounded, table⟩ := map_eq_ok_iff.mp round
    exact ⟨next, rounded, table ▸ touches⟩

/-- Two servers acknowledge, and the second one answers. -/
theorem answer_touches_second_slot : ∃ next,
    rpcClientCallMdpRound ResultSlots.allCall
        (ResultSlots.ackState ResultSlots.allCall [ResultSlots.server 1, ResultSlots.server 2])
        (.received (plainDatagram (ResultSlots.server 2)).packet) = .ok next ∧
      TouchesOwn (ResultSlots.server 2)
        (ResultSlots.ackTable ResultSlots.allCall [ResultSlots.server 1, ResultSlots.server 2])
        next.rpcResult := by
  obtain ⟨text, answer⟩ := plainDatagram_answer (ResultSlots.server 2)
  have run := @ResultSlots.ack_run (fun _ _ => True) (fun _ _ => trivial) ResultSlots.allCall
    [ResultSlots.server 1, ResultSlots.server 2]
  obtain ⟨_, answers⟩ := (answer_touches_own_slot ResultSlots.allCall rfl).1 _ _ _ _ run (by decide)
  exact answers (plainDatagram (ResultSlots.server 2)) text (by decide) answer

end ServalRpc.Verified.OwnSlot
