import ServalRpc.Verified.MdpCompletion

/-! # How often an MDP call is executed

The client repeats the call until it sees an ACK, and no server remembers the calls that it has
executed: every copy of the call that reaches a server is a call of its own.
-/

namespace ServalRpc.Verified.MdpExecutions

open CLib MdpProvenance MdpCompletion

variable {system : MdpSystem}

instance (sid : Sid) : DecidablePred (IsOurs system sid) :=
  fun _ => inferInstanceAs (Decidable (_ ∧ _))

/-- A copy of the call on its way to the server. -/
def CallTo (system : MdpSystem) (server : MdpServer) (message : MdpMessage) : Prop :=
  message.source = system.address ∧ message.destination = server.address

instance (server : MdpServer) : DecidablePred (CallTo system server) :=
  fun _ => inferInstanceAs (Decidable (_ ∧ _))

/-- How often the server of this sid has accepted the call. -/
def acceptances (system : MdpSystem) (sid : Sid) (parties : MdpParties) : Nat :=
  parties.accepted.countP fun attempt => IsOurs system sid attempt

/-! ## Copies -/

/-- A server sends from its own port. -/
theorem countP_replies (wellFormed : WellFormed system) (server : MdpServer) {other : MdpServer}
    {message : MdpMessage} (addressed : message.destination = other.address)
    (actions : List ServerAction) :
    (other.replies message actions).countP (CallTo system server) = 0 := by
  rw [Multiset.countP_eq_zero]
  intro reply member call
  obtain ⟨remote, payload, _, rfl⟩ := mem_replies_iff.mp member
  have port : message.destination.port = mdpPortRpc := by rw [addressed]; rfl
  exact wellFormed.ephemeral ((congrArg MdpSockaddr.port call.1).symm.trans port)

/-- Servers of different sids get one copy each. -/
theorem countP_copies_le (distinct : (system.servers.map MdpServer.sid).Nodup) (server : MdpServer) :
    system.copies.countP (CallTo system server) ≤ 1 := by
  rw [MdpSystem.copies, Multiset.coe_countP, List.countP_map]
  have sids : ∀ listed : List MdpServer, listed.countP ((fun message =>
      decide (CallTo system server message)) ∘ fun other : MdpServer =>
        (⟨system.address, other.address, system.payload⟩ : MdpMessage)) =
      (listed.map MdpServer.sid).count server.sid := by
    intro listed
    rw [List.count, List.countP_map]
    congr 1
    funext other
    rw [Bool.eq_iff_iff]
    simp [CallTo, MdpServer.address]
  rw [sids]
  exact List.nodup_iff_count_le_one.mp (distinct.sublist (List.filter_sublist.map _)) server.sid

/-! ## What a turn does to the counts -/

section Turn

variable {parties next : MdpParties} {received sent : Multiset MdpMessage}

/-- A server accepts a copy of the call when it takes one from the network. -/
theorem acceptances_of_turn (turn : MdpTurn system parties received sent next)
    {server : MdpServer} :
    acceptances system server.sid next ≤
      acceptances system server.sid parties + received.countP (CallTo system server) := by
  cases turn with
  | accept world message rp _ _ addressed _ =>
    simp only [acceptances, List.countP_append, List.countP_singleton, countP_singleton,
      decide_eq_true_eq]
    split
    · rename_i ours
      have here : CallTo system server message := by
        refine ⟨ours.2, addressed.trans ?_⟩
        rw [MdpServer.address, MdpServer.address, ours.1]
      rw [if_pos here]
    · exact Nat.le_add_right _ _
  | client input _ _ _ _ => exact Nat.le_add_right _ _
  | refuse world message _ _ _ _ => exact Nat.le_add_right _ _
  | finish attempt _ _ => exact Nat.le_add_right _ _
  | fail attempt _ _ => exact Nat.le_add_right _ _

/-- Only the client sends the call, and it counts what it sends. -/
theorem sends_of_turn (wellFormed : WellFormed system)
    (distinct : (system.servers.map MdpServer.sid).Nodup)
    (turn : MdpTurn system parties received sent next) (sound : Sound system parties)
    (server : MdpServer) :
    parties.sends + sent.countP (CallTo system server) ≤ next.sends := by
  cases turn with
  | client input _ _ _ _ =>
    apply Nat.add_le_add_left
    split
    · exact countP_copies_le distinct server
    · exact Nat.le_refl 0
  | refuse world message _ _ _ _ => exact Nat.le_refl _
  | accept world message rp _ _ addressed _ =>
    rw [MdpServer.ack, countP_replies wellFormed server addressed]
    exact Nat.le_refl _
  | finish attempt executing _ =>
    have admitted := sound.books.admitted attempt (sound.phases _ _ executing)
    rw [countP_replies wellFormed server admitted.addressed]
    exact Nat.le_refl _
  | fail attempt _ _ => exact Nat.le_refl _

end Turn

/-! ## A run -/

section Run

variable {guard : Network MdpParties MdpMessage → NetworkEvent MdpMessage → Prop}
  {past : List (NetworkEvent MdpMessage)} {network : Network MdpParties MdpMessage}

/-- The copies of the call that the run has taken from the network bound the acceptances. -/
theorem acceptances_le_taking {start : Network MdpParties MdpMessage}
    (run : system.Run guard start past network) (server : MdpServer) :
    acceptances system server.sid network.parties ≤
      acceptances system server.sid start.parties +
        total (NetworkEvent.taking (CallTo system server)) past := by
  refine NetworkRun.measure_le _ _ (fun _ step => ?_) run
  cases step with
  | turn turn => exact acceptances_of_turn turn
  | lose message => exact Nat.le_refl _
  | duplicate message => exact Nat.le_refl _
  | inject _ => exact Nat.le_refl _

/-- The client has sent every copy of the call that entered the network by a turn. -/
theorem sending_le_sends (wellFormed : WellFormed system)
    (distinct : (system.servers.map MdpServer.sid).Nodup)
    (run : system.Run guard system.start past network) (server : MdpServer) :
    total (NetworkEvent.sending (CallTo system server)) past ≤ network.parties.sends := by
  have counted := NetworkRun.le_measure MdpParties.sends
    (NetworkEvent.sending (CallTo system server)) (fun earlier step => ?_) run
  · rwa [show system.start.parties.sends = 0 from rfl, Nat.zero_add] at counted
  · have sound := (sound_of_run wellFormed earlier).1
    cases step with
    | turn turn => exact sends_of_turn wellFormed distinct turn sound server
    | lose message => exact Nat.le_refl _
    | duplicate message => exact Nat.le_refl _
    | inject _ => exact Nat.le_refl _

/-! ## The end of the sending -/

/-- Once `received` is set it stays set. -/
theorem received_of_round {call : ClientCall} {state next : MdpState} {event : MdpEvent}
    (round : rpcClientCallMdpRound call state event = .ok next) (acknowledged : state.received ≠ 0) :
    next.received ≠ 0 := by
  unfold rpcClientCallMdpRound at round
  cases event with
  | timeout =>
    simp only at round
    split at round
    · cases round
      exact acknowledged
    · cases round
      exact acknowledged
  | sendFailed =>
    cases round
    exact acknowledged
  | quiet =>
    cases round
    exact acknowledged
  | received packet =>
    obtain ⟨reaction, _, round⟩ := bind_eq_ok_iff.mp round
    cases reaction with
    | ignored =>
      cases round
      exact acknowledged
    | acknowledged rpcResult =>
      cases round
      exact Int.one_ne_zero
    | answered rpcResult complete =>
      cases complete with
      | false =>
        cases round
        exact acknowledged
      | true =>
        cases round
        exact (by decide : (2 : Int) ≠ 0)

/-- With `received` set the client does not send. -/
theorem sendsCall_of_acknowledged {state : MdpState} (acknowledged : state.received ≠ 0)
    (input : MdpInput) : sendsCall state input = false := by
  simp [sendsCall, acknowledged]

structure Quits (sends : Nat) (parties : MdpParties) : Prop where
  acknowledged : parties.client.received ≠ 0
  sends : parties.sends = sends

theorem quits_of_turn {parties next : MdpParties} {received sent : Multiset MdpMessage}
    (turn : MdpTurn system parties received sent next) {sends : Nat}
    (quits : Quits sends parties) : Quits sends next := by
  cases turn with
  | client input _ _ _ _ =>
    have silent := sendsCall_of_acknowledged quits.acknowledged input
    refine ⟨?_, by simp [MdpParties.clientRound, silent, quits.sends]⟩
    obtain ⟨client, round, same, _⟩ | ⟨same, _⟩ := clientRound_cases parties system.call input
    · rw [same]
      exact received_of_round round quits.acknowledged
    · rw [same]
      exact quits.acknowledged
  | refuse world message _ _ _ _ => exact ⟨quits.acknowledged, quits.sends⟩
  | accept world message rp _ _ _ _ => exact ⟨quits.acknowledged, quits.sends⟩
  | finish attempt _ _ => exact ⟨quits.acknowledged, quits.sends⟩
  | fail attempt _ _ => exact ⟨quits.acknowledged, quits.sends⟩

theorem quits_of_run {later : List (NetworkEvent MdpMessage)}
    {final : Network MdpParties MdpMessage} (run : system.Run guard network later final)
    (acknowledged : network.parties.client.received ≠ 0) :
    Quits network.parties.sends final.parties := by
  refine @GuardedRun.invariant _ _ _ _ _
    (fun _ final => Quits network.parties.sends final.parties) ⟨acknowledged, rfl⟩ ?_ _ _ run
  intro _ state event next quits _ step
  cases step with
  | turn turn => exact quits_of_turn turn quits
  | lose message => exact quits
  | duplicate message => exact quits
  | inject _ => exact quits

end Run

end ServalRpc.Verified.MdpExecutions
