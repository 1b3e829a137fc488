import ServalRpc.Verified.OwnSlot
import ServalRpc.Verified.ReturnCodes

/-! # When a call to all servers ends early

Both listeners end a call when an answer goes to the last slot, and look at no other slot then.  The
sids of the slots depend on the packets alone, so it can be said of the packets when the other
slots have their answers.
-/

namespace ServalRpc.Verified.EarlyEnd

open CLib ListenerSteps ClientTable ResultSlots PlainAnswers OwnSlot ReturnCodes

/-! ## The table after some packets -/

def tableAfter (call : ClientCall) (rpcResult : ResultTable) (packet : Packet) : ResultTable :=
  match reactToPacket call packet rpcResult with
  | .ok reaction => reactionTable rpcResult reaction
  | .error _ => rpcResult

def tableOf (call : ClientCall) (packets : List Packet) : ResultTable :=
  packets.foldl (tableAfter call) .empty

/-- No slot will ever be claimed again. -/
def Closed (rpcResult : ResultTable) : Prop :=
  sidBroadcast ∈ sids rpcResult ∨ sidAny ∉ sids rpcResult

section Tables

variable {call : ClientCall}

theorem tableOf_snoc (packets : List Packet) (packet : Packet) :
    tableOf call (packets ++ [packet]) = tableAfter call (tableOf call packets) packet := by
  simp [tableOf]

theorem tableOf_tableStep {packets : List Packet} {event : Option Packet} {next : ResultTable}
    (step : TableStep call (tableOf call packets) event next) :
    next = tableOf call (packets ++ event.toList) := by
  cases event with
  | none => rwa [Option.toList_none, List.append_nil]
  | some packet =>
    obtain ⟨reaction, reacted, rfl⟩ := step
    rw [Option.toList_some, tableOf_snoc, tableAfter, reacted]

theorem tableOf_of_mdp {guard : MdpState → MdpEvent → Prop} {received : Int}
    {events : List MdpEvent} {state : MdpState}
    (run : GuardedRun (MdpStep call) guard (.entry received) events state) :
    state.rpcResult = tableOf call (mdpPackets events) := by
  refine @GuardedRun.invariant _ _ _ _ _ (fun events state =>
    state.rpcResult = tableOf call (mdpPackets events)) ?_ ?_ _ _ run
  · rfl
  · intro past before event after same _ step
    have stepped := mdp_tableStep step
    rw [same] at stepped
    rw [mdpPackets_snoc]
    exact tableOf_tableStep stepped

theorem tableOf_of_rhizome {guard : RhizomeState → RhizomeEvent → Prop}
    {events : List RhizomeEvent} {state : RhizomeState}
    (run : GuardedRun (RhizomeStep call) guard .entry events state) :
    state.rpcResult = tableOf call (rhizomePackets events) := by
  refine @GuardedRun.invariant _ _ _ _ _ (fun events state =>
    state.rpcResult = tableOf call (rhizomePackets events)) ?_ ?_ _ _ run
  · rfl
  · intro past before event after same _ step
    have stepped := rhizome_tableStep step
    rw [same] at stepped
    rw [rhizomePackets_snoc]
    exact tableOf_tableStep stepped

/-- A packet leaves the sids alone, or it is an ACK that claims the first free slot. -/
theorem sids_tableAfter (all : call.sid = sidBroadcast) (rpcResult : ResultTable) (packet : Packet) :
    (sids (tableAfter call rpcResult packet) = sids rpcResult ∧
        (IsAck packet → Closed rpcResult)) ∨
      IsAck packet ∧ ¬ Closed rpcResult ∧ sids (tableAfter call rpcResult packet) =
        (sids rpcResult).set (freeIdx RPCResult.serverSid sidAny rpcResult.cells) packet.sender := by
  unfold tableAfter
  cases reacted : reactToPacket call packet rpcResult with
  | error stop =>
    refine .inl ⟨rfl, fun ack => ?_⟩
    rw [reactToPacket, ack] at reacted
    cases reacted
  | ok reaction =>
    obtain same | ⟨ack, notHeld, room, claims⟩ := sids_cases all reacted
    · exact .inl same
    · refine .inr ⟨ack, fun closed => closed.elim notHeld fun full => full room, ?_⟩
      rw [sids, claims]
      exact @map_key_modify _ _ RPCResult.serverSid packet.sender
        (fun result => result.setServerSid packet.sender) (fun _ => rfl) _ _

theorem packed_tableOf (all : call.sid = sidBroadcast) (packets : List Packet) :
    PackedTable (tableOf call packets) := by
  induction packets using List.reverseRecOn with
  | nil => exact packed_empty
  | append_singleton packets packet inductionHypothesis =>
    rw [tableOf_snoc, tableAfter]
    cases reacted : reactToPacket call packet (tableOf call packets) with
    | error stop => exact inductionHypothesis
    | ok reaction => exact packed_react all inductionHypothesis reacted

theorem length_sids_tableOf (all : call.sid = sidBroadcast) (packets : List Packet) :
    (sids (tableOf call packets)).length = 5 := by
  induction packets using List.reverseRecOn with
  | nil => rfl
  | append_singleton packets packet inductionHypothesis =>
    rw [tableOf_snoc]
    obtain ⟨same, _⟩ | ⟨_, _, claims⟩ := sids_tableAfter all (tableOf call packets) packet
    · rw [same, inductionHypothesis]
    · rw [claims, List.length_set, inductionHypothesis]

theorem keeps_tableAfter (all : call.sid = sidBroadcast) (rpcResult : ResultTable)
    (packet : Packet) : Keeps sidAny (sids rpcResult) (sids (tableAfter call rpcResult packet)) := by
  obtain ⟨same, _⟩ | ⟨_, isOpen, claims⟩ := sids_tableAfter all rpcResult packet
  · rw [same]
    exact keeps_refl _
  · rw [claims]
    have room : sidAny ∈ sids rpcResult := not_not.mp fun full => isOpen (.inr full)
    exact keeps_set (freeIdx_at room) _

theorem keeps_tableOf (all : call.sid = sidBroadcast) (before after : List Packet) :
    Keeps sidAny (sids (tableOf call before)) (sids (tableOf call (before ++ after))) := by
  induction after using List.reverseRecOn with
  | nil =>
    rw [List.append_nil]
    exact keeps_refl _
  | append_singleton after packet inductionHypothesis =>
    rw [← List.append_assoc, tableOf_snoc]
    exact inductionHypothesis.trans (keeps_tableAfter all _ _)

theorem sids_of_closed (all : call.sid = sidBroadcast) {before : List Packet}
    (closed : Closed (tableOf call before)) (after : List Packet) :
    sids (tableOf call (before ++ after)) = sids (tableOf call before) := by
  induction after using List.reverseRecOn with
  | nil => rw [List.append_nil]
  | append_singleton after packet inductionHypothesis =>
    rw [← List.append_assoc, tableOf_snoc]
    obtain ⟨same, _⟩ | ⟨_, isOpen, _⟩ := sids_tableAfter all (tableOf call (before ++ after)) packet
    · rw [same, inductionHypothesis]
    · rw [Closed, inductionHypothesis] at isOpen
      exact absurd closed isOpen

/-- A server in a slot has acknowledged. -/
theorem acked_of_mem (all : call.sid = sidBroadcast) {packets : List Packet} {sid : Sid}
    (proper : sid ≠ sidAny) (held : sid ∈ sids (tableOf call packets)) :
    ∃ ack ∈ packets, IsAck ack ∧ ack.sender = sid := by
  induction packets using List.reverseRecOn with
  | nil =>
    have free : sids (tableOf call []) = List.replicate 5 sidAny := rfl
    rw [free] at held
    exact absurd (List.eq_of_mem_replicate held) proper
  | append_singleton packets packet inductionHypothesis =>
    have earlier (held : sid ∈ sids (tableOf call packets)) :
        ∃ ack ∈ packets ++ [packet], IsAck ack ∧ ack.sender = sid := by
      obtain ⟨ack, member, rest⟩ := inductionHypothesis held
      exact ⟨ack, List.mem_append_left _ member, rest⟩
    rw [tableOf_snoc] at held
    obtain ⟨same, _⟩ | ⟨ack, _, claims⟩ := sids_tableAfter all (tableOf call packets) packet
    · exact earlier (same ▸ held)
    · rw [claims] at held
      obtain old | rfl := List.mem_or_eq_of_mem_set held
      · exact earlier old
      · exact ⟨packet, List.mem_append_right _ (List.mem_singleton.mpr rfl), ack, rfl⟩

/-- A server that has a slot at last got it with its first ACK. -/
theorem mem_of_acked (all : call.sid = sidBroadcast) {before after : List Packet} {ack : Packet}
    (isAck : IsAck ack) (held : ack.sender ∈ sids (tableOf call (before ++ ack :: after))) :
    ack.sender ∈ sids (tableOf call (before ++ [ack])) := by
  by_cases closed : Closed (tableOf call before)
  · rw [sids_of_closed all closed] at held ⊢
    exact held
  · rw [tableOf_snoc]
    obtain ⟨_, closes⟩ | ⟨_, _, claims⟩ := sids_tableAfter all (tableOf call before) ack
    · exact absurd (closes isAck) closed
    · have room : sidAny ∈ sids (tableOf call before) := not_not.mp fun full => closed (.inr full)
      have inside := (freeIdx_lt_iff RPCResult.serverSid sidAny _).mpr room
      rw [claims]
      exact List.mem_set (by rwa [sids, List.length_map]) _

end Tables

/-! ## Answered slots -/

/-- The slot at this position has received the RESPONSE of its server. -/
def SlotAnswered (call : ClientCall) (packets : List Packet) (position : Nat) : Prop :=
  ∃ before response after, packets = before ++ response :: after ∧ IsResponse response ∧
    response.sender ≠ sidAny ∧
      rpcClientResultGetSidIndex (tableOf call before) response.sender = some position

/-- All five slots are occupied, and each has received its RESPONSE. -/
structure Complete (call : ClientCall) (packets : List Packet) (rpcResult : ResultTable) : Prop where
  occupied : ∀ result ∈ rpcResult.cells, result.serverSid ≠ sidAny
  answered : ∀ position < 5, SlotAnswered call packets position

/-- Before the answer that ends the call: it has a proper sender, and the four slots before the last
are those of different servers, each of which has sent a RESPONSE after an ACK. -/
structure LastMissing (rpcResult : ResultTable) (packets : List Packet) (last : Packet) : Prop where
  proper : last.sender ≠ sidAny
  distinct : ((sids rpcResult).take 4).Nodup
  responded : ∀ sid ∈ (sids rpcResult).take 4, ∃ before ack between response after,
    packets = before ++ ack :: (between ++ response :: after) ∧ IsAck ack ∧ ack.sender = sid ∧
      IsResponse response ∧ response.sender = sid

section Complete

variable {call : ClientCall} {packets : List Packet}

theorem firstAt_of_found {rpcResult : ResultTable} {sid : Sid} {position : Nat}
    (found : rpcClientResultGetSidIndex rpcResult sid = some position) :
    FirstAt (sids rpcResult) sid position := by
  rw [sidIndex_eq] at found
  exact keyIdx?_eq_some_iff.mp found

/-- The slot of a server stays its first slot. -/
theorem firstAt_kept (all : call.sid = sidBroadcast) {before : List Packet} {sid : Sid}
    {position : Nat} (proper : sid ≠ sidAny)
    (found : rpcClientResultGetSidIndex (tableOf call before) sid = some position)
    (after : List Packet) : FirstAt (sids (tableOf call (before ++ after))) sid position := by
  have first := firstAt_of_found found
  exact first.keeps proper ((packed_tableOf all before).used_before first.1 proper)
    (keeps_tableOf all before after)

theorem SlotAnswered.firstAt (all : call.sid = sidBroadcast) {position : Nat}
    (answered : SlotAnswered call packets position) :
    ∃ sid, sid ≠ sidAny ∧ FirstAt (sids (tableOf call packets)) sid position := by
  obtain ⟨before, response, after, rfl, _, proper, found⟩ := answered
  exact ⟨response.sender, proper, firstAt_kept all proper found _⟩

/-- A RESPONSE leaves the sids alone. -/
theorem sids_of_response (all : call.sid = sidBroadcast) {response : Packet}
    (isResponse : IsResponse response) :
    sids (tableOf call (packets ++ [response])) = sids (tableOf call packets) := by
  rw [tableOf_snoc]
  obtain ⟨same, _⟩ | ⟨ack, _⟩ := sids_tableAfter all (tableOf call packets) response
  · exact same
  · exact absurd isResponse (not_isResponse_of_isAck ack)

theorem mem_take_iff_getElem? {α : Type} {list : List α} {count : Nat} {value : α} :
    value ∈ list.take count ↔ ∃ position < count, list[position]? = some value := by
  rw [List.mem_iff_getElem?]
  constructor
  · rintro ⟨position, at'⟩
    rw [List.getElem?_take] at at'
    split at at'
    · rename_i less
      exact ⟨position, less, at'⟩
    · cases at'
  · rintro ⟨position, less, at'⟩
    exact ⟨position, by rwa [List.getElem?_take, if_pos less]⟩

/-- The last packet answers the last slot, so the others have been answered before it. -/
theorem SlotAnswered.before_last {last : Packet} {position : Nat}
    (found : rpcClientResultGetSidIndex (tableOf call packets) last.sender = some 4)
    (less : position < 4) (answered : SlotAnswered call (packets ++ [last]) position) :
    SlotAnswered call packets position := by
  obtain ⟨before, response, after, split, isResponse, proper, foundAt⟩ := answered
  obtain rfl | ⟨later, final, rfl⟩ := List.eq_nil_or_concat after
  · obtain ⟨rfl, isLast⟩ := List.append_inj' split rfl
    cases isLast
    cases foundAt.symm.trans found
    omega
  · rw [List.concat_eq_append, ← List.cons_append, ← List.append_assoc] at split
    obtain ⟨earlier, _⟩ := List.append_inj' split rfl
    exact ⟨before, response, later, earlier, isResponse, proper, foundAt⟩

/-- A server that acknowledges and answers finds its slot, if it has one in the end. -/
theorem slot_of_answer (all : call.sid = sidBroadcast) {before between after : List Packet}
    {ack response : Packet} (isAck : IsAck ack) (proper : ack.sender ≠ sidAny)
    (held : ack.sender ∈ sids (tableOf call (before ++ ack :: (between ++ response :: after)))) :
    ∃ position,
      rpcClientResultGetSidIndex (tableOf call (before ++ ack :: between)) ack.sender =
        some position ∧
      FirstAt (sids (tableOf call (before ++ ack :: (between ++ response :: after)))) ack.sender
        position := by
  -- The slot that its first ACK claims is kept until the answer.
  have claimed := mem_of_acked all isAck held
  obtain ⟨index, atIndex⟩ := List.mem_iff_getElem?.mp claimed
  have kept := keeps_tableOf all (before ++ [ack]) between index _ atIndex proper
  have heldThen := List.mem_of_getElem? kept
  rw [List.append_assoc, List.singleton_append] at heldThen
  have hasSlot : rpcClientResultGetSidIndex (tableOf call (before ++ ack :: between))
      ack.sender ≠ none := by
    rw [sidIndex_eq, ne_eq, keyIdx?_eq_none_iff, not_not]
    exact heldThen
  obtain ⟨position, found⟩ := Option.ne_none_iff_exists'.mp hasSlot
  have first := firstAt_kept all proper found (response :: after)
  rw [List.append_assoc, List.cons_append] at first
  exact ⟨position, found, first⟩

theorem LastMissing.of_complete (all : call.sid = sidBroadcast) {last : Packet}
    (response : IsResponse last)
    (found : rpcClientResultGetSidIndex (tableOf call packets) last.sender = some 4)
    (complete : Complete call (packets ++ [last]) (tableOf call (packets ++ [last]))) :
    LastMissing (tableOf call packets) packets last := by
  have same := @sids_of_response call packets all last response
  have lastAt := firstAt_of_found found
  have proper : last.sender ≠ sidAny := by
    have held : last.sender ∈ sids (tableOf call (packets ++ [last])) :=
      same ▸ List.mem_of_getElem? lastAt.1
    obtain ⟨result, member, isLast⟩ := List.mem_map.mp held
    exact isLast ▸ complete.occupied result member
  refine ⟨proper, ?_, ?_⟩
  · -- An answered slot is the first of its server, so no two of them have the same.
    rw [List.nodup_iff_getElem?_ne_getElem?]
    intro left right less inside
    rw [List.length_take] at inside
    rw [List.getElem?_take, if_pos (by omega), List.getElem?_take, if_pos (by omega)]
    obtain ⟨sid, _, first⟩ := (complete.answered right (by omega)).firstAt all
    rw [same] at first
    rw [first.1]
    exact first.2 left less
  · intro sid member
    obtain ⟨position, less, at'⟩ := mem_take_iff_getElem?.mp member
    obtain ⟨before, response, after, rfl, isResponse, properSender, foundAt⟩ :=
      (complete.answered position (by omega)).before_last found less
    have first := firstAt_kept all properSender foundAt (response :: after)
    obtain rfl := Option.some.inj (first.1.symm.trans at')
    have held := List.mem_of_getElem? (firstAt_of_found foundAt).1
    obtain ⟨ack, inBefore, isAck, ackSender⟩ := acked_of_mem all properSender held
    obtain ⟨front, between, rfl⟩ := List.append_of_mem inBefore
    exact ⟨front, ack, between, response, after, by simp, isAck, ackSender, isResponse, rfl⟩

theorem LastMissing.complete (all : call.sid = sidBroadcast) {last : Packet}
    (response : IsResponse last)
    (found : rpcClientResultGetSidIndex (tableOf call packets) last.sender = some 4)
    (missing : LastMissing (tableOf call packets) packets last) :
    Complete call (packets ++ [last]) (tableOf call (packets ++ [last])) := by
  have same := @sids_of_response call packets all last response
  have size := length_sids_tableOf all packets
  have lastAt := firstAt_of_found found
  have used : ∀ earlier < 4, (sids (tableOf call packets))[earlier]? ≠ some sidAny :=
    (packed_tableOf all packets).used_before lastAt.1 missing.proper
  constructor
  · intro result member isAny
    have held : sidAny ∈ sids (tableOf call packets) :=
      same ▸ List.mem_map.mpr ⟨result, member, isAny⟩
    obtain ⟨position, at'⟩ := List.mem_iff_getElem?.mp held
    obtain ⟨inside, _⟩ := List.getElem?_eq_some_iff.mp at'
    by_cases isLast : position = 4
    · rw [isLast] at at'
      exact missing.proper (Option.some.inj (lastAt.1.symm.trans at'))
    · exact used position (by omega) at'
  · intro position less
    by_cases isLast : position = 4
    · exact ⟨packets, last, [], rfl, response, missing.proper, isLast ▸ found⟩
    · have inside : position < (sids (tableOf call packets)).length := by omega
      have at' := List.getElem?_eq_getElem inside
      have member := mem_take_iff_getElem?.mpr ⟨position, (by omega : position < 4), at'⟩
      obtain ⟨before, ack, between, answer, after, rfl, isAck, ackSender, isResponse, sender⟩ :=
        missing.responded _ member
      rw [← ackSender] at at' sender
      have proper : ack.sender ≠ sidAny := fun isAny => used position (by omega) (isAny ▸ at')
      obtain ⟨slot, foundSlot, first⟩ := @slot_of_answer call all before between after ack answer
        isAck proper (List.mem_of_getElem? at')
      have isSlot : slot = position := by
        obtain less' | isSame | more := Nat.lt_trichotomy slot position
        · have different := List.nodup_iff_getElem?_ne_getElem?.mp missing.distinct slot position
            less' (by rw [List.length_take]; omega)
          rw [List.getElem?_take, if_pos (by omega), List.getElem?_take, if_pos (by omega), first.1,
            at'] at different
          exact absurd rfl different
        · exact isSame
        · exact absurd at' (first.2 position more)
      rw [← sender, isSlot] at foundSlot
      exact ⟨before ++ ack :: between, answer, after ++ [last], by simp, isResponse, sender ▸ proper,
        foundSlot⟩

end Complete

/-! ## Listeners that end early -/

section Listeners

variable {call : ClientCall}

/-- What a reaction that ends a call to all servers tells about the packet. -/
theorem last_of_completes (all : call.sid = sidBroadcast) {packet : Packet}
    {rpcResult : ResultTable} {reaction : Reaction}
    (reacted : reactToPacket call packet rpcResult = .ok reaction)
    (complete : completes reaction = true) :
    IsResponse packet ∧ rpcClientResultGetSidIndex rpcResult packet.sender = some 4 := by
  obtain ⟨_, rfl⟩ | ⟨response, reacted⟩ | ⟨_, _, rfl⟩ := react_cases reacted
  · cases complete
  · obtain ⟨_, rfl⟩ | ⟨position, _, _, _, found, _, _, _, _, rfl⟩ := response_all_cases all reacted
    · cases complete
    · obtain rfl : position = 4 := eq_of_beq complete
      exact ⟨response, found⟩
  · cases complete

theorem complete_iff_of_react (all : call.sid = sidBroadcast) {packets : List Packet}
    {packet : Packet} {reaction : Reaction}
    (reacted : reactToPacket call packet (tableOf call packets) = .ok reaction)
    (completes : completes reaction = true) :
    Complete call (packets ++ [packet]) (reactionTable (tableOf call packets) reaction) ↔
      LastMissing (tableOf call packets) packets packet := by
  obtain ⟨response, found⟩ := last_of_completes all reacted completes
  have table : reactionTable (tableOf call packets) reaction =
      tableOf call (packets ++ [packet]) := by rw [tableOf_snoc, tableAfter, reacted]
  rw [table]
  exact ⟨.of_complete all response found, fun missing => missing.complete all response found⟩

end Listeners

/-- A packet that ends a call to all servers before its deadline finds all slots occupied and answered
exactly when only its own answer was missing. -/
theorem early_end_complete_iff (call : ClientCall) (all : call.sid = sidBroadcast) :
    (∀ guard received events (state next : MdpState) packet,
      GuardedRun (MdpStep call) guard (.entry received) events state →
      MdpStep call state (.received packet) next → next.returned ≠ none →
        (Complete call (mdpPackets (events ++ [.received packet])) next.rpcResult ↔
          LastMissing state.rpcResult (mdpPackets events) packet)) ∧
    ∀ guard events (state next : RhizomeState) packet,
      GuardedRun (RhizomeStep call) guard .entry events state →
      RhizomeStep call state (.received packet) next → next.returned ≠ none →
        (Complete call (rhizomePackets (events ++ [.received packet])) next.rpcResult ↔
          LastMissing state.rpcResult (rhizomePackets events) packet) := by
  constructor
  · intro guard received events state next packet run step ended
    obtain ⟨_, reaction, reacted, table, _, returned⟩ := mdp_outcome step
    have complete : completes reaction = true := by
      by_contra goesOn
      exact ended (returned.trans (if_neg goesOn))
    rw [tableOf_of_mdp run] at reacted table ⊢
    rw [table, mdpPackets_snoc]
    exact complete_iff_of_react all reacted complete
  · intro guard events state next packet run step ended
    obtain ⟨_, reaction, reacted, table, returned⟩ := rhizome_outcome step
    have complete : completes reaction = true := by
      by_contra goesOn
      exact ended (returned.trans (if_neg goesOn))
    rw [tableOf_of_rhizome run] at reacted table ⊢
    rw [table, rhizomePackets_snoc]
    exact complete_iff_of_react all reacted complete

/-! ## Five servers -/

def servers : List Sid := [server 1, server 2, server 3, server 4, server 5]

def answerEvents (senders : List Sid) : List MdpEvent :=
  senders.map fun sender => .received (plainDatagram sender).packet

/-- A state between the answers: five slots are claimed, and the deadline is far away. -/
structure Answering (state : MdpState) : Prop where
  returned : state.returned = none
  received : state.received = 1
  waiting : 0 ≤ state.waitTime
  slots : sids state.rpcResult = servers

theorem answering_start : Answering (ackState allCall servers) := ⟨rfl, rfl, by decide, rfl⟩

theorem step_of_round {call : ClientCall} {state next : MdpState} (datagram : Datagram)
    (running : state.returned = none) (waits : state.received = 0 ∨ state.received = 1)
    (waiting : 0 ≤ state.waitTime)
    (round : rpcClientCallMdpRound call state (.received datagram.packet) = .ok next) :
    MdpStep call state (.received datagram.packet) next := by
  have event : mdpEvent state ⟨0, true, some datagram⟩ = .received datagram.packet := by
    have early : ¬ (0 : Int) > state.waitTime := by omega
    simp [mdpEvent, early]
  rw [← event] at round ⊢
  exact .round _ running waits round

theorem answer_step {state : MdpState} (answering : Answering state) {sender : Sid}
    {position : Nat} (first : FirstAt servers sender position) :
    ∃ next, MdpStep allCall state (.received (plainDatagram sender).packet) next ∧
      (position ≠ 4 → Answering next) ∧ (position = 4 → next.returned = some 2) := by
  obtain ⟨returned, received, waiting, slots⟩ := answering
  have found : selectedSlot allCall sender state.rpcResult = some position := by
    rw [← slots] at first
    rw [selectedSlot_all rfl]
    exact keyIdx?_eq_some_iff.mpr first
  obtain ⟨text, answer⟩ := plainDatagram_answer sender
  obtain ⟨old, at', isSender⟩ := keyIdx?_eq_some ((selectedSlot_all rfl _ _).symm.trans found)
  obtain ⟨new, overwritten, reacted⟩ := @react_selected allCall (plainDatagram sender).packet _ text
    state.rpcResult answer (receives_datagram _) position old found at'
  have kept : sids ⟨state.rpcResult.cells.set position new, state.rpcResult.stray⟩ = servers :=
    (map_key_set RPCResult.serverSid at' (overwritten.serverSid.trans isSender.symm)).trans slots
  by_cases last : position = 4
  · have round : rpcClientCallMdpRound allCall state (.received (plainDatagram sender).packet) =
        .ok ⟨2, state.waitTime, if state.received = 0 then state.sent + 1 else state.sent,
          ⟨state.rpcResult.cells.set position new, state.rpcResult.stray⟩, some 2⟩ := by
      rw [rpcClientCallMdpRound, reacted, last]
      rfl
    exact ⟨_, step_of_round _ returned (.inr received) waiting round,
      fun differs => absurd last differs, fun _ => rfl⟩
  · have incomplete : (!isSidTBroadcast allCall.sid || position == 4) = false := by
      rw [show isSidTBroadcast allCall.sid = true from rfl]
      simpa using last
    have round : rpcClientCallMdpRound allCall state (.received (plainDatagram sender).packet) =
        .ok ⟨state.received, state.waitTime,
          if state.received = 0 then state.sent + 1 else state.sent,
          ⟨state.rpcResult.cells.set position new, state.rpcResult.stray⟩, state.returned⟩ := by
      rw [rpcClientCallMdpRound, reacted, incomplete]
      rfl
    exact ⟨_, step_of_round _ returned (.inr received) waiting round,
      fun _ => ⟨returned, received, waiting, kept⟩, fun isLast => absurd isLast last⟩

/-- All servers acknowledge, and some of them answer, but not the last one. -/
theorem answers_run {senders : List Sid}
    (others : ∀ sender ∈ senders, ∃ position, position ≠ 4 ∧ FirstAt servers sender position) :
    ∃ state, GuardedRun (MdpStep allCall) (fun _ _ => True) (.entry 0)
      (ackEvents servers ++ answerEvents senders) state ∧ Answering state := by
  induction senders using List.reverseRecOn with
  | nil =>
    refine ⟨ackState allCall servers, ?_, answering_start⟩
    rw [answerEvents, List.map_nil, List.append_nil]
    exact ack_run (fun _ _ => trivial) allCall servers
  | append_singleton senders sender inductionHypothesis =>
    obtain ⟨state, run, answering⟩ := inductionHypothesis fun other member =>
      others other (List.mem_append_left _ member)
    obtain ⟨position, notLast, first⟩ :=
      others sender (List.mem_append_right _ (List.mem_singleton.mpr rfl))
    obtain ⟨next, step, goesOn, _⟩ := answer_step answering first
    refine ⟨next, ?_, goesOn notLast⟩
    rw [answerEvents, List.map_append, ← List.append_assoc]
    exact run.tail trivial step

theorem mdpPackets_run (senders : List Sid) :
    mdpPackets (ackEvents servers ++ answerEvents senders) =
      servers.map (fun sender => (ackDatagram sender).packet) ++
        senders.map fun sender => (plainDatagram sender).packet := by
  simp [mdpPackets, ackEvents, answerEvents, MdpEvent.packet?, List.filterMap_append,
    List.filterMap_map, Function.comp_def]

instance (keys : List Sid) (wanted : Sid) (index : Nat) : Decidable (FirstAt keys wanted index) :=
  inferInstanceAs (Decidable (_ ∧ _))

/-- All five servers acknowledge, and then answer in turn. -/
theorem early_end_complete_five : ∃ events state next,
    GuardedRun (MdpStep allCall) (fun _ _ => True) (.entry 0) events state ∧
    MdpStep allCall state (.received (plainDatagram (server 5)).packet) next ∧
    next.returned = some 2 ∧
    Complete allCall (mdpPackets (events ++ [.received (plainDatagram (server 5)).packet]))
      next.rpcResult := by
  have others : ∀ sender ∈ servers.take 4,
      ∃ position, position ≠ 4 ∧ FirstAt servers sender position := by
    intro sender member
    simp only [servers, List.take_succ_cons, List.take_zero, List.mem_cons, List.not_mem_nil,
      or_false] at member
    obtain rfl | rfl | rfl | rfl := member
    · exact ⟨0, by decide, by decide⟩
    · exact ⟨1, by decide, by decide⟩
    · exact ⟨2, by decide, by decide⟩
    · exact ⟨3, by decide, by decide⟩
  obtain ⟨state, run, answering⟩ := answers_run others
  have last : FirstAt servers (server 5) 4 := by decide
  obtain ⟨next, step, _, ended⟩ := answer_step answering last
  refine ⟨_, state, next, run, step, ended rfl, ?_⟩
  refine ((early_end_complete_iff allCall rfl).1 _ _ _ _ _ _ run step (by simp [ended rfl])).mpr ?_
  rw [mdpPackets_run]
  refine ⟨by decide, by rw [answering.slots]; decide, fun sid member => ?_⟩
  rw [answering.slots] at member
  have acked := List.mem_map_of_mem (f := fun sender => (ackDatagram sender).packet)
    (List.mem_of_mem_take member)
  have answered := List.mem_map_of_mem (f := fun sender => (plainDatagram sender).packet) member
  obtain ⟨before, between, acks⟩ := List.append_of_mem acked
  obtain ⟨between', after, answers⟩ := List.append_of_mem answered
  obtain ⟨text, answer⟩ := plainDatagram_answer sid
  refine ⟨before, _, between ++ between', _, after, ?_, ackDatagram_isAck sid, rfl,
    answer.isResponse (receives_datagram _), rfl⟩
  rw [acks, answers]
  simp

/-- All five servers acknowledge, and the fifth is the first to answer. -/
theorem early_end_without_answers : ∃ events state next,
    GuardedRun (MdpStep allCall) (fun _ _ => True) (.entry 0) events state ∧
    MdpStep allCall state (.received (plainDatagram (server 5)).packet) next ∧
    next.returned = some 2 ∧
    ¬ Complete allCall (mdpPackets (events ++ [.received (plainDatagram (server 5)).packet]))
      next.rpcResult := by
  have last : FirstAt servers (server 5) 4 := by decide
  have run := @ack_run (fun _ _ => True) (fun _ _ => trivial) allCall servers
  obtain ⟨next, step, _, ended⟩ := answer_step answering_start last
  refine ⟨_, _, next, run, step, ended rfl, fun complete => ?_⟩
  obtain ⟨_, reaction, reacted, table, _, returned⟩ := mdp_outcome step
  have completed : completes reaction = true := by
    by_contra goesOn
    cases (ended rfl).symm.trans (returned.trans (if_neg goesOn))
  rw [tableOf_of_mdp run] at reacted table
  rw [table, mdpPackets_snoc] at complete
  have missing := (complete_iff_of_react rfl reacted completed).mp complete
  rw [← tableOf_of_mdp run] at missing
  have onlyAcks := mdpPackets_run []
  rw [answerEvents, List.map_nil, List.map_nil, List.append_nil, List.append_nil] at onlyAcks
  have first : server 1 ∈ (sids (ackState allCall servers).rpcResult).take 4 := by decide
  obtain ⟨before, ack, between, response, after, split, _, _, isResponse, _⟩ :=
    missing.responded _ first
  have member : response ∈ mdpPackets (ackEvents servers) := by
    rw [split]
    simp
  rw [onlyAcks] at member
  obtain ⟨sender, _, rfl⟩ := List.mem_map.mp member
  exact not_isResponse_of_isAck (ackDatagram_isAck sender) isResponse

end ServalRpc.Verified.EarlyEnd
