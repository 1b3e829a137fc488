import Mathlib.Data.List.Induction
import ServalRpc.Verified.ClientTable

/-! # Slots of the result table over whole runs

A run of a listener keeps the slots distinct as long as every ACK that claims a slot comes from a
server without one, and inside the table as long as every ACK meets a free slot.  Both conditions
are exact: the first packet that breaks one of them breaks the property.
-/

namespace ServalRpc.Verified.ResultSlots

open CLib ListenerSteps ClientTable

/-- Every packet of an event meets a condition on the table before it. -/
def Every (condition : ResultTable → Packet → Prop) (rpcResult : ResultTable)
    (event : Option Packet) : Prop :=
  ∀ packet ∈ event, condition rpcResult packet

/-! ## Runs of the table -/

section Table

variable {call : ClientCall} {events : List (Option Packet)} {rpcResult : ResultTable}

theorem distinct_of_run (all : call.sid = sidBroadcast)
    (run : GuardedRun (TableStep call) (Every NewServer) .empty events rpcResult) :
    Distinct rpcResult := by
  refine @GuardedRun.invariant _ _ _ _ _ (fun _ rpcResult => Distinct rpcResult) ?_ ?_ _ _ run
  · decide
  · intro past before event after distinct meets step
    cases event with
    | none =>
      obtain rfl : after = before := step
      exact distinct
    | some packet =>
      obtain ⟨reaction, reacted, rfl⟩ := step
      exact (distinct_iff all distinct reacted).mpr (meets packet rfl)

theorem stray_of_run (all : call.sid = sidBroadcast)
    (run : GuardedRun (TableStep call) (Every HasSlot) .empty events rpcResult) :
    rpcResult.stray = [] := by
  refine @GuardedRun.invariant _ _ _ _ _ (fun _ rpcResult => rpcResult.stray = []) ?_ ?_ _ _ run
  · rfl
  · intro past before event after inside meets step
    cases event with
    | none =>
      obtain rfl : after = before := step
      exact inside
    | some packet =>
      obtain ⟨reaction, reacted, rfl⟩ := step
      exact ((stray_eq_iff all reacted).mpr (meets packet rfl)).trans inside

end Table

/-! ## Runs of the listeners -/

/-- The condition on the events of the MDP loop. -/
def MdpEvery (condition : ResultTable → Packet → Prop) (state : MdpState) (event : MdpEvent) :
    Prop :=
  Every condition state.rpcResult (MdpEvent.packet? event)

/-- The condition on the events of the Rhizome listener. -/
def RhizomeEvery (condition : ResultTable → Packet → Prop) (state : RhizomeState)
    (event : RhizomeEvent) : Prop :=
  Every condition state.rpcResult (RhizomeEvent.packet? event)

section Listeners

variable {call : ClientCall} {condition : ResultTable → Packet → Prop}

theorem table_of_mdp {received : Int} {events : List MdpEvent} {state : MdpState}
    (run : GuardedRun (MdpStep call) (MdpEvery condition) (.entry received) events state) :
    GuardedRun (TableStep call) (Every condition) .empty (events.map MdpEvent.packet?)
      state.rpcResult :=
  run.map MdpState.rpcResult MdpEvent.packet? (fun _ _ _ step => mdp_tableStep step)
    (fun _ _ meets => meets)

theorem table_of_rhizome {events : List RhizomeEvent} {state : RhizomeState}
    (run : GuardedRun (RhizomeStep call) (RhizomeEvery condition) .entry events state) :
    GuardedRun (TableStep call) (Every condition) .empty (events.map RhizomeEvent.packet?)
      state.rpcResult :=
  run.map RhizomeState.rpcResult RhizomeEvent.packet? (fun _ _ _ step => rhizome_tableStep step)
    (fun _ _ meets => meets)

end Listeners

/-- In a call to all servers the slots stay distinct over every run in which an ACK that claims a
slot comes from a server without one; an ACK that does not makes two slots equal. -/
theorem result_slots_distinct (call : ClientCall) (all : call.sid = sidBroadcast) :
    (∀ received events state,
      GuardedRun (MdpStep call) (MdpEvery NewServer) (.entry received) events state →
        Distinct state.rpcResult) ∧
    (∀ events state, GuardedRun (RhizomeStep call) (RhizomeEvery NewServer) .entry events state →
      Distinct state.rpcResult) ∧
    ∀ rpcResult packet reaction, Distinct rpcResult →
      reactToPacket call packet rpcResult = .ok reaction →
        (Distinct (reactionTable rpcResult reaction) ↔ NewServer rpcResult packet) :=
  ⟨fun _ _ _ run => distinct_of_run all (table_of_mdp run),
    fun _ _ run => distinct_of_run all (table_of_rhizome run),
    fun _ _ _ distinct reacted => distinct_iff all distinct reacted⟩

/-- In a call to all servers every store of a server sid stays inside the table over every run in
which an ACK meets a free slot; an ACK that does not is stored outside. -/
theorem result_slots_inside (call : ClientCall) (all : call.sid = sidBroadcast) :
    (∀ received events state,
      GuardedRun (MdpStep call) (MdpEvery HasSlot) (.entry received) events state →
        state.rpcResult.stray = []) ∧
    (∀ events state, GuardedRun (RhizomeStep call) (RhizomeEvery HasSlot) .entry events state →
      state.rpcResult.stray = []) ∧
    ∀ rpcResult packet reaction, reactToPacket call packet rpcResult = .ok reaction →
      ((reactionTable rpcResult reaction).stray = rpcResult.stray ↔ HasSlot rpcResult packet) :=
  ⟨fun _ _ _ run => stray_of_run all (table_of_mdp run),
    fun _ _ run => stray_of_run all (table_of_rhizome run),
    fun _ _ _ reacted => stray_eq_iff all reacted⟩

/-! ## Runs of ACKs -/

def allCall : ClientCall := ⟨Serval.executable sidAny, sidBroadcast, CString.ofChars ['a', 'd', 'd']⟩

def server (digit : UInt8) : Sid := ⟨List.replicate 32 digit, List.length_replicate⟩

def ackDatagram (sender : Sid) : Datagram where
  sender := sender
  bytes := [rpcPktCallAck]
  size := by decide
  behind _ := 0
  downloads := []
  pathRest _ := 0

theorem ackDatagram_isAck (sender : Sid) : IsAck (ackDatagram sender).packet := by
  rw [IsAck, Datagram.packet, load_overread _ _ (show 0 < rpcPktSize by decide)]
  rfl

/-- The table after ACKs of these servers. -/
def ackTable (call : ClientCall) (senders : List Sid) : ResultTable :=
  senders.foldl (fun rpcResult sender => reactToAck call (ackDatagram sender).packet rpcResult) .empty

/-- The state after ACKs of these servers, all of them received in time. -/
def ackState (call : ClientCall) (senders : List Sid) : MdpState where
  received := if senders = [] then 0 else 1
  waitTime := 10 + 20 * senders.length
  sent := if senders = [] then 0 else 1
  rpcResult := ackTable call senders
  returned := none

def ackEvents (senders : List Sid) : List MdpEvent :=
  senders.map fun sender => .received (ackDatagram sender).packet

theorem ack_step (call : ClientCall) (senders : List Sid) (sender : Sid) :
    MdpStep call (ackState call senders) (.received (ackDatagram sender).packet)
      (ackState call (senders ++ [sender])) := by
  have event : mdpEvent (ackState call senders) ⟨0, true, some (ackDatagram sender)⟩ =
      .received (ackDatagram sender).packet := by
    have early : ¬ (0 : Int) > (ackState call senders).waitTime := by
      simp only [ackState]
      omega
    simp [mdpEvent, early]
  rw [← event]
  refine .round _ rfl ?_ ?_
  · unfold ackState
    split <;> simp
  · have reacted : reactToPacket call (ackDatagram sender).packet (ackState call senders).rpcResult =
        .ok (.acknowledged (reactToAck call (ackDatagram sender).packet (ackTable call senders))) := by
      rw [reactToPacket, ackDatagram_isAck sender]
      rfl
    rw [event, rpcClientCallMdpRound, reacted, ok_bind]
    have waitTime : (10 : Int) + 20 * (senders.length + 1) = 10 + 20 * senders.length + 20 := by omega
    by_cases first : senders = []
    · simp [pure, Except.pure, ackState, ackTable, first]
    · simp [pure, Except.pure, ackState, ackTable, first, waitTime]

/-- What holds at each of some servers, given those before it, holds so at the front ones and the
last. -/
theorem meets_concat {holds : List Sid → Sid → Prop} {senders : List Sid} {sender : Sid}
    (meets : ∀ index other, (senders ++ [sender])[index]? = some other →
      holds ((senders ++ [sender]).take index) other) :
    (∀ index other, senders[index]? = some other → holds (senders.take index) other) ∧
      holds senders sender := by
  constructor
  · intro index other at'
    have inside := (List.getElem?_eq_some_iff.mp at').1
    have earlier := meets index other (by rwa [List.getElem?_append_left inside])
    rwa [List.take_append_of_le_length (Nat.le_of_lt inside)] at earlier
  · have last := meets senders.length sender List.getElem?_concat_length
    rwa [List.take_left] at last

theorem ack_run_of {guard : MdpState → MdpEvent → Prop} (call : ClientCall) (senders : List Sid)
    (meets : ∀ index sender, senders[index]? = some sender →
      guard (ackState call (senders.take index)) (.received (ackDatagram sender).packet)) :
    GuardedRun (MdpStep call) guard (.entry 0) (ackEvents senders) (ackState call senders) := by
  induction senders using List.reverseRecOn with
  | nil => exact .refl
  | append_singleton senders sender inductionHypothesis =>
    obtain ⟨earlier, last⟩ := @meets_concat
      (fun front other => guard (ackState call front) (.received (ackDatagram other).packet)) _ _ meets
    rw [ackEvents, List.map_append]
    exact .tail (inductionHypothesis earlier) last (ack_step call senders sender)

theorem ack_run {guard : MdpState → MdpEvent → Prop}
    (meets : ∀ state packet, guard state (.received packet)) (call : ClientCall)
    (senders : List Sid) :
    GuardedRun (MdpStep call) guard (.entry 0) (ackEvents senders) (ackState call senders) :=
  ack_run_of call senders fun _ _ _ => meets _ _

/-! ## Rows of ACKs -/

/-- A row with an ACK of this server for the client. -/
def ackRow (sender : Sid) : Row where
  token := some (tohexSidT sender)
  service := some serviceRpc
  id := tohexSidT sender
  version := 1
  inserttime := 0
  filesize := 1
  filehash := CString.ofChars []
  sender := some (tohexSidT sender)
  recipient := some (tohexSidT sidAny)
  name := some allCall.rpcName

def ackInput : RowInput := ⟨0, sidAny, some [rpcPktCallAck], fun _ => 0, [], fun _ => 0⟩

def ackRowPacket (sender : Sid) : Packet := ⟨sender, [rpcPktCallAck], 1, [], fun _ => 0⟩

theorem rowPacket_ackRow (sender : Sid) :
    rowPacket allCall (ackRow sender) ackInput (tohexSidT sender) [rpcPktCallAck] =
      ackRowPacket sender := by
  rw [rowPacket, allCall.serval.strToSidT_tohexSidT]
  rfl

/-- The table after rows of ACKs of these servers. -/
def rowAckTable (senders : List Sid) : ResultTable :=
  senders.foldl (fun rpcResult sender => reactToAck allCall (ackRowPacket sender) rpcResult) .empty

/-- The listener after these rows, each of them in a listing of its own. -/
def rowAckState (senders : List Sid) : RhizomeState where
  returnCode := if senders = [] then -1 else 1
  received := 0
  waitTime := if senders = [] then 20 else 120
  token := senders.getLast?.map tohexSidT
  pending := []
  rpcResult := rowAckTable senders
  returned := none

def rowAckEvents (senders : List Sid) : List RhizomeEvent :=
  senders.flatMap fun sender => [.polled [ackRow sender], .received (ackRowPacket sender)]

theorem rowAck_poll (senders : List Sid) (sender : Sid) :
    RhizomeStep allCall (rowAckState senders) (.polled [ackRow sender])
      { rowAckState senders with pending := [ackRow sender] } := by
  have polled : rhizomeEvent allCall (rowAckState senders) (.poll 0 (some [ackRow sender])) =
      .ok (.polled [ackRow sender]) := by
    have early : ¬ (0 : Int) > (rowAckState senders).waitTime := by
      simp only [rowAckState]
      split <;> omega
    simp only [rhizomeEvent, early, if_false]
  refine .poll 0 (some [ackRow sender]) rfl rfl rfl polled ?_
  have listed : rowsToVisit (rowAckState senders).token [ackRow sender] = .ok [ackRow sender] := by
    cases (rowAckState senders).token <;> rfl
  rw [rpcClientRhizomeListenRound, listed]
  rfl

theorem rowAck_visit (senders : List Sid) (sender : Sid) :
    RhizomeStep allCall { rowAckState senders with pending := [ackRow sender] }
      (.received (ackRowPacket sender)) (rowAckState (senders ++ [sender])) := by
  have visited : rhizomeEvent allCall { rowAckState senders with pending := [ackRow sender] }
      (.visit ackInput) = .ok (.received (ackRowPacket sender)) := by
    rw [← rowPacket_ackRow sender]
    rfl
  refine .visit ackInput rfl (List.cons_ne_nil _ _) visited ?_
  have reacted : reactToPacket allCall (ackRowPacket sender) (rowAckTable senders) =
      .ok (.acknowledged (reactToAck allCall (ackRowPacket sender) (rowAckTable senders))) := rfl
  have table : rowAckTable (senders ++ [sender]) =
      reactToAck allCall (ackRowPacket sender) (rowAckTable senders) := by
    rw [rowAckTable, List.foldl_append]
    rfl
  by_cases first : senders = []
  · subst first
    rfl
  · simp [rpcClientRhizomeListenRound, rowAckState, reacted, table, first, RhizomeState.advance,
      ackRow, bind, Except.bind, pure, Except.pure]

theorem rowAck_run {condition : ResultTable → Packet → Prop} (senders : List Sid)
    (meets : ∀ index sender, senders[index]? = some sender →
      condition (rowAckTable (senders.take index)) (ackRowPacket sender)) :
    GuardedRun (RhizomeStep allCall) (RhizomeEvery condition) .entry (rowAckEvents senders)
      (rowAckState senders) := by
  induction senders using List.reverseRecOn with
  | nil => exact .refl
  | append_singleton senders sender inductionHypothesis =>
    obtain ⟨earlier, last⟩ := @meets_concat
      (fun front other => condition (rowAckTable front) (ackRowPacket other)) _ _ meets
    have before := inductionHypothesis earlier
    have atPoll : RhizomeEvery condition (rowAckState senders) (.polled [ackRow sender]) := by
      intro packet member
      cases member
    have atVisit : RhizomeEvery condition { rowAckState senders with pending := [ackRow sender] }
        (.received (ackRowPacket sender)) := by
      intro packet member
      obtain rfl := Option.some.inj member
      exact last
    have visited := (before.tail atPoll (rowAck_poll senders sender)).tail atVisit
      (rowAck_visit senders sender)
    have events : rowAckEvents (senders ++ [sender]) =
        rowAckEvents senders ++ [.polled [ackRow sender]] ++ [.received (ackRowPacket sender)] := by
      simp [rowAckEvents]
    rw [events]
    exact visited

/-! ## Five servers -/

/-- As many servers as there are slots. -/
def fiveServers : List Sid := [server 1, server 2, server 3, server 4, server 5]

/-- What holds at the ACK of each of them holds at any. -/
theorem forall_fiveServers {holds : List Sid → Sid → Prop} (first : holds [] (server 1))
    (second : holds [server 1] (server 2)) (third : holds [server 1, server 2] (server 3))
    (fourth : holds [server 1, server 2, server 3] (server 4))
    (fifth : holds [server 1, server 2, server 3, server 4] (server 5)) (index : Nat) (sender : Sid)
    (at' : fiveServers[index]? = some sender) : holds (fiveServers.take index) sender := by
  match index with
  | 0 => obtain rfl := Option.some.inj at'; exact first
  | 1 => obtain rfl := Option.some.inj at'; exact second
  | 2 => obtain rfl := Option.some.inj at'; exact third
  | 3 => obtain rfl := Option.some.inj at'; exact fourth
  | 4 => obtain rfl := Option.some.inj at'; exact fifth
  | _ + 5 => cases at'

theorem ack_run_five {condition : ResultTable → Packet → Prop}
    (meets : ∀ index sender, fiveServers[index]? = some sender →
      condition (ackTable allCall (fiveServers.take index)) (ackDatagram sender).packet) :
    GuardedRun (MdpStep allCall) (MdpEvery condition) (.entry 0) (ackEvents fiveServers)
      (ackState allCall fiveServers) := by
  refine ack_run_of allCall fiveServers fun index sender at' packet member => ?_
  obtain rfl := Option.some.inj member
  exact meets index sender at'

/-- Five servers claim the five slots, over MDP and over Rhizome. -/
theorem result_slots_distinct_five :
    (Distinct (ackTable allCall fiveServers) ∧ sids (ackTable allCall fiveServers) = fiveServers) ∧
      Distinct (rowAckTable fiveServers) ∧ sids (rowAckTable fiveServers) = fiveServers := by
  obtain ⟨mdp, rhizome, _⟩ := result_slots_distinct allCall rfl
  have mdpRun : GuardedRun (MdpStep allCall) (MdpEvery NewServer) (.entry 0) _ _ :=
    ack_run_five (@forall_fiveServers
      (fun front sender => NewServer (ackTable allCall front) (ackDatagram sender).packet)
      (fun _ _ _ => .inr (by decide)) (fun _ _ _ => .inr (by decide))
      (fun _ _ _ => .inr (by decide)) (fun _ _ _ => .inr (by decide))
      (fun _ _ _ => .inr (by decide)))
  have rhizomeRun : GuardedRun (RhizomeStep allCall) (RhizomeEvery NewServer) .entry _ _ :=
    rowAck_run fiveServers (@forall_fiveServers
      (fun front sender => NewServer (rowAckTable front) (ackRowPacket sender))
      (fun _ _ _ => .inr (by decide)) (fun _ _ _ => .inr (by decide))
      (fun _ _ _ => .inr (by decide)) (fun _ _ _ => .inr (by decide))
      (fun _ _ _ => .inr (by decide)))
  exact ⟨⟨mdp 0 _ _ mdpRun, by decide⟩, rhizome _ _ rhizomeRun, by decide⟩

/-- The ACKs of as many servers as there are slots are all stored inside the table. -/
theorem result_slots_inside_five :
    (ackTable allCall fiveServers).stray = [] ∧ (rowAckTable fiveServers).stray = [] := by
  obtain ⟨mdp, rhizome, _⟩ := result_slots_inside allCall rfl
  have mdpRun : GuardedRun (MdpStep allCall) (MdpEvery HasSlot) (.entry 0) _ _ :=
    ack_run_five (@forall_fiveServers
      (fun front sender => HasSlot (ackTable allCall front) (ackDatagram sender).packet)
      (fun _ => .inr (by decide)) (fun _ => .inr (by decide)) (fun _ => .inr (by decide))
      (fun _ => .inr (by decide)) (fun _ => .inr (by decide)))
  have rhizomeRun : GuardedRun (RhizomeStep allCall) (RhizomeEvery HasSlot) .entry _ _ :=
    rowAck_run fiveServers (@forall_fiveServers
      (fun front sender => HasSlot (rowAckTable front) (ackRowPacket sender))
      (fun _ => .inr (by decide)) (fun _ => .inr (by decide)) (fun _ => .inr (by decide))
      (fun _ => .inr (by decide)) (fun _ => .inr (by decide)))
  exact ⟨mdp 0 _ _ mdpRun, rhizome _ _ rhizomeRun⟩

/-- One server acknowledges twice and holds two slots. -/
theorem slots_of_repeated_ack :
    ∃ state, GuardedRun (MdpStep allCall) (fun _ _ => True) (.entry 0)
      (ackEvents [server 1, server 1]) state ∧ ¬ Distinct state.rpcResult :=
  ⟨_, ack_run (fun _ _ => trivial) allCall _, by decide⟩

/-- The ACK of a sixth server is stored at index 5. -/
theorem slots_of_sixth_ack :
    ∃ state, GuardedRun (MdpStep allCall) (fun _ _ => True) (.entry 0)
      (ackEvents [server 1, server 2, server 3, server 4, server 5, server 6]) state ∧
        state.rpcResult.stray = [5] :=
  ⟨_, ack_run (fun _ _ => trivial) allCall _, by decide⟩

end ServalRpc.Verified.ResultSlots
