import ServalRpc.Verified.ListenerRounds

/-! # Where a slot comes from

A slot of the result table names a server because a packet under its sid was an ACK or an answer,
and holds something because such an answer was stored.  This is all that a listener does to the
slots, in a call to any sid.
-/

namespace ServalRpc.Verified.SlotOrigins

open CLib ListenerSteps ClientTable ListenerRounds

/-! ## One reaction -/

/-- What a reaction leaves in a slot. -/
inductive Origin (call : ClientCall) (packet : Packet) (rpcResult : ResultTable)
    (slot : RPCResult) : Prop where
  | kept : slot ∈ rpcResult.cells → Origin call packet rpcResult slot
  | claimed (free : RPCResult) : IsAck packet → free ∈ rpcResult.cells → free.serverSid = sidAny →
      slot = free.setServerSid packet.sender → Origin call packet rpcResult slot
  | filled : AnswerOf call packet slot → Origin call packet rpcResult slot

variable {call : ClientCall} {packet : Packet} {rpcResult : ResultTable} {reaction : Reaction}
  {slot : RPCResult}

theorem mem_modify {α : Type} {cells : List α} {index : Nat} {part : α → α} {cell : α}
    (member : cell ∈ cells.modify index part) :
    cell ∈ cells ∨ ∃ old, cells[index]? = some old ∧ cell = part old := by
  obtain ⟨position, at'⟩ := List.mem_iff_getElem?.mp member
  rw [List.getElem?_modify] at at'
  obtain ⟨old, isOld, rfl⟩ := Option.map_eq_some_iff.mp at'
  split
  · rename_i here
    subst here
    exact .inr ⟨old, isOld, rfl⟩
  · exact .inl (List.mem_of_getElem? isOld)

/-- An ACK claims the first free slot. -/
theorem origin_of_ack (ack : IsAck packet)
    (member : slot ∈ (reactToAck call packet rpcResult).cells) :
    Origin call packet rpcResult slot := by
  unfold reactToAck at member
  split at member
  · rw [insertIndex_eq] at member
    obtain inside | outside :=
      Nat.lt_or_ge (freeIdx RPCResult.serverSid sidAny rpcResult.cells) rpcResult.cells.length
    · rw [Block.update_of_lt inside] at member
      obtain kept | ⟨free, at', claimed⟩ := mem_modify member
      · exact .kept kept
      · have isFree := freeIdx_at ((freeIdx_lt_iff RPCResult.serverSid sidAny _).mp inside)
        rw [List.getElem?_map, at'] at isFree
        exact .claimed free ack (List.mem_of_getElem? at') (Option.some.inj isFree) claimed
    · rw [Block.update_of_le outside] at member
      exact .kept member
  · exact .kept member

/-- An answer fills the slot of its sender, or the first slot. -/
theorem origin_of_response (response : IsResponse packet)
    (reacted : reactToResponse call packet rpcResult = .ok reaction)
    (member : slot ∈ (reactionTable rpcResult reaction).cells) :
    Origin call packet rpcResult slot := by
  by_cases all : call.sid = sidBroadcast
  · obtain ⟨_, rfl⟩ | ⟨position, old, new, bytes, found, at', answer, sameSid, holds, rfl⟩ :=
      response_all_cases all reacted
    · exact .kept member
    · obtain kept | rfl := List.mem_or_eq_of_mem_set member
      · exact .kept kept
      · obtain ⟨cell, at'', isSender⟩ := keyIdx?_eq_some found
        cases at'.symm.trans at''
        exact .filled ⟨response, (sameSid.trans isSender).symm, bytes, answer, holds⟩
  · rw [reactToResponse, isSidTBroadcast_of_direct all, if_neg Bool.false_ne_true] at reacted
    obtain ⟨bytes, answer, reacted⟩ := bind_eq_ok_iff.mp reacted
    obtain ⟨table, stored, reacted⟩ := bind_eq_ok_iff.mp reacted
    obtain ⟨old, loaded, stored⟩ := bind_eq_ok_iff.mp stored
    obtain ⟨new, copied, stored⟩ := bind_eq_ok_iff.mp stored
    rw [mapError_eq_ok_iff] at loaded copied
    have inside : 0 < rpcResult.cells.length := by
      by_contra outside
      rw [load_of_le (Nat.le_of_not_lt outside)] at loaded
      cases loaded
    rw [Block.store_of_lt inside] at stored
    cases stored
    cases reacted
    rw [Block.update_set inside] at member
    obtain kept | rfl := List.mem_or_eq_of_mem_set member
    · exact .kept kept
    · exact .filled ⟨response, rfl, bytes, answer, (copyContent_ok copied).2⟩

theorem origin_of_react (reacted : reactToPacket call packet rpcResult = .ok reaction)
    (member : slot ∈ (reactionTable rpcResult reaction).cells) :
    Origin call packet rpcResult slot := by
  obtain ⟨ack, rfl⟩ | ⟨response, reacted⟩ | ⟨_, _, rfl⟩ := react_cases reacted
  · exact origin_of_ack ack member
  · exact origin_of_response response reacted member
  · exact .kept member

theorem storeAnswer_size {position : Nat} {bytes : List UInt8} {after : ResultTable}
    (stored : storeAnswer rpcResult position bytes = .ok after) :
    after.cells.length = rpcResult.cells.length := by
  obtain ⟨_, _, stored⟩ := bind_eq_ok_iff.mp stored
  obtain ⟨_, _, stored⟩ := bind_eq_ok_iff.mp stored
  cases stored
  exact Block.store_length _ _ _

/-- No reaction changes the number of slots. -/
theorem react_size (reacted : reactToPacket call packet rpcResult = .ok reaction) :
    (reactionTable rpcResult reaction).cells.length = rpcResult.cells.length := by
  obtain ⟨_, rfl⟩ | ⟨_, reacted⟩ | ⟨_, _, rfl⟩ := react_cases reacted
  · simp only [reactionTable, reactToAck]
    split
    · exact Block.update_length _ _ _
    · rfl
  · unfold reactToResponse at reacted
    split at reacted
    · split at reacted
      · cases reacted
        rfl
      · obtain ⟨_, _, reacted⟩ := bind_eq_ok_iff.mp reacted
        obtain ⟨_, stored, reacted⟩ := bind_eq_ok_iff.mp reacted
        cases reacted
        exact storeAnswer_size stored
    · obtain ⟨_, _, reacted⟩ := bind_eq_ok_iff.mp reacted
      obtain ⟨_, stored, reacted⟩ := bind_eq_ok_iff.mp reacted
      cases reacted
      exact (Block.update_length _ _ _).trans (storeAnswer_size stored)
  · rfl

/-! ## Slots with a voucher -/

/-- The slot is free, or its server has vouched for the name in it and for what it holds. -/
inductive Vouched (acked : Sid → Prop) (answered : Sid → List UInt8 → Prop) :
    RPCResult → Prop where
  | free : Vouched acked answered emptyResult
  | claimed {sid : Sid} : sid ≠ sidAny → acked sid →
      Vouched acked answered (emptyResult.setServerSid sid)
  | filled {slot : RPCResult} (bytes : List UInt8) : slot.serverSid ≠ sidAny →
      answered slot.serverSid bytes → bytes <+: slot.content → Vouched acked answered slot

variable {acked : Sid → Prop} {answered : Sid → List UInt8 → Prop}

theorem Vouched.eq_empty (vouched : Vouched acked answered slot) (free : slot.serverSid = sidAny) :
    slot = emptyResult := by
  cases vouched with
  | free => rfl
  | claimed proper _ => exact absurd free proper
  | filled _ proper _ _ => exact absurd free proper

theorem Vouched.mono {acked' : Sid → Prop} {answered' : Sid → List UInt8 → Prop}
    (vouched : Vouched acked answered slot) (acks : ∀ sid, acked sid → acked' sid)
    (answers : ∀ sid bytes, answered sid bytes → answered' sid bytes) :
    Vouched acked' answered' slot := by
  cases vouched with
  | free => exact .free
  | claimed proper ack => exact .claimed proper (acks _ ack)
  | filled bytes proper answer holds => exact .filled bytes proper (answers _ _ answer) holds

theorem vouched_empty : ∀ slot ∈ ResultTable.empty.cells, Vouched acked answered slot := by
  intro slot member
  obtain rfl := List.eq_of_mem_replicate member
  exact .free

/-- A packet whose sender has vouched for it leaves only slots with a voucher. -/
theorem vouched_of_react (reacted : reactToPacket call packet rpcResult = .ok reaction)
    (proper : packet.sender ≠ sidAny) (acks : IsAck packet → acked packet.sender)
    (answers : IsResponse packet → ∀ bytes, answerBytes call packet = .ok bytes →
      answered packet.sender bytes)
    (before : ∀ slot ∈ rpcResult.cells, Vouched acked answered slot) :
    ∀ slot ∈ (reactionTable rpcResult reaction).cells, Vouched acked answered slot := by
  intro slot member
  cases origin_of_react reacted member with
  | kept kept => exact before slot kept
  | claimed free ack inside isFree claimed =>
    rw [(before free inside).eq_empty isFree] at claimed
    subst claimed
    exact .claimed proper (acks ack)
  | filled answer =>
    obtain ⟨response, isSender, bytes, answer, holds⟩ := answer
    refine .filled bytes (isSender ▸ proper) (isSender ▸ answers response bytes answer) holds

end ServalRpc.Verified.SlotOrigins
