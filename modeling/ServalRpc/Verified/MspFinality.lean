import ServalRpc.Verified.Independence
import ServalRpc.Verified.PlainAnswers

/-! # When an MSP answer is final

The branches of `_rpc_client_msp_handler` for the end of a connection keep a `received` of 2.  The one
for an ACK, which by its comment just prints, sets it to 1 in any state, and the loop goes on.
-/

namespace ServalRpc.Verified.MspFinality

open CLib Addressee Independence MspSteps PlainAnswers

/-! ## Rounds of a call -/

/-- A round in which the call waits and the library calls the handler. -/
structure MspRoundStep (call : ClientCall) (memory : ClientMemory) (round : MspRound)
    (next : ClientMemory) : Prop where
  waiting : memory.received = 0 ∨ memory.received = 1
  connected : (round.socketIsNull && !round.socketIsData) = false
  delivered : mspDeliver call memory round.deliveries = .ok next

section Rounds

variable {call : ClientCall} {world : MspCallWorld}

theorem mspDeliver_append (memory : ClientMemory) (front later : List ClientDelivery) :
    mspDeliver call memory (front ++ later) =
      mspDeliver call memory front >>= fun middle => mspDeliver call middle later := by
  induction front generalizing memory with
  | nil => rfl
  | cons delivery front inductionHypothesis =>
    rw [List.cons_append, mspDeliver, mspDeliver]
    cases rpcClientMspHandler call memory delivery with
    | error stop => rfl
    | ok handled => exact inductionHypothesis handled.2

theorem mspLoop_connected {memory : ClientMemory} {round : MspRound} (rounds : List MspRound)
    (waiting : memory.received = 0 ∨ memory.received = 1)
    (connected : (round.socketIsNull && !round.socketIsData) = false) :
    mspLoop call world memory (round :: rounds) =
      mspDeliver call memory round.deliveries >>= fun next => mspLoop call world next rounds := by
  rw [mspLoop, if_pos waiting, connected, if_neg Bool.false_ne_true]

theorem mspLoop_over {memory : ClientMemory} (rounds : List MspRound)
    (ended : ¬ (memory.received = 0 ∨ memory.received = 1)) :
    mspLoop call world memory rounds = mspFinish call world memory := by
  cases rounds with
  | nil => rw [mspLoop, if_neg ended]
  | cons round rounds => rw [mspLoop, if_neg ended]

theorem mspLoop_run {guard : ClientMemory → MspRound → Prop} {start current : ClientMemory}
    {past : List MspRound} (run : GuardedRun (MspRoundStep call) guard start past current)
    (rest : List MspRound) :
    mspLoop call world start (past ++ rest) = mspLoop call world current rest := by
  induction run generalizing rest with
  | refl => rfl
  | tail _ _ step inductionHypothesis =>
    rw [List.append_assoc, inductionHypothesis, List.singleton_append,
      mspLoop_connected rest step.waiting step.connected, step.delivered, ok_bind]

/-- After some rounds, a call is where its loop is. -/
theorem callMsp_run {memory current : ClientMemory} {past rest : List MspRound}
    (passes : world.reachable ≠ 0) (rounds : world.rounds = past ++ rest)
    (run : GuardedRun (MspRoundStep call) (fun _ _ => True) ⟨memory.received, .empty⟩ past current) :
    rpcClientCallMsp call world memory = mspLoop call world current rest := by
  rw [callMsp_passes passes, rounds, mspLoop_run run]

end Rounds

/-! ## Deliveries after an answer -/

/-- However many of the deliveries have been made, `received` is 2. -/
def StaysTwo (call : ClientCall) (memory : ClientMemory) (deliveries : List ClientDelivery) : Prop :=
  ∀ front after, front <+: deliveries → mspDeliver call memory front = .ok after →
    after.received = 2

section Deliveries

variable {call : ClientCall} {memory : ClientMemory}

/-- Of all deliveries, only that of an ACK loses a 2. -/
theorem handler_keeps_two_iff {after : ClientMemory} {delivery : ClientDelivery} {consumed : Nat}
    (two : memory.received = 2)
    (handled : rpcClientMspHandler call memory delivery = .ok (consumed, after)) :
    after.received = 2 ↔ ¬ Brings rpcPktCallAck delivery := by
  obtain ⟨ack, rfl⟩ | ⟨payload, _, _, delivered, response, _, _, rfl⟩ | ⟨notAck, _, rfl⟩ :=
    mspHandler_cases handled
  · exact iff_of_false (show ¬ (1 : Int) = 2 by decide) fun notAck => notAck ack
  · refine iff_of_true rfl ?_
    rintro ⟨payload', delivered', ack⟩
    cases delivered.symm.trans delivered'
    exact absurd (Except.ok.inj (response.symm.trans ack)) (by decide)
  · exact iff_of_true (afterFlags_two_iff.mpr two) notAck

theorem mspDeliver_keeps_two {after : ClientMemory} {deliveries : List ClientDelivery}
    (two : memory.received = 2) (quiet : ¬ Carries rpcPktCallAck deliveries)
    (delivered : mspDeliver call memory deliveries = .ok after) : after.received = 2 := by
  induction deliveries generalizing memory with
  | nil =>
    cases delivered
    exact two
  | cons delivery deliveries inductionHypothesis =>
    obtain ⟨⟨consumed, next⟩, handled, delivered⟩ := bind_eq_ok_iff.mp delivered
    rw [Carries, List.exists_mem_cons_iff, not_or] at quiet
    exact inductionHypothesis ((handler_keeps_two_iff two handled).mpr quiet.1) quiet.2 delivered

theorem staysTwo_of_quiet {deliveries : List ClientDelivery} (two : memory.received = 2)
    (quiet : ¬ Carries rpcPktCallAck deliveries) : StaysTwo call memory deliveries := by
  intro front after isPrefix delivered
  refine mspDeliver_keeps_two two (fun carried => quiet ?_) delivered
  obtain ⟨delivery, member, ack⟩ := carried
  exact ⟨delivery, isPrefix.subset member, ack⟩

/-- The delivery of an ACK is one of those after which `received` is looked at. -/
theorem quiet_of_staysTwo {final : ClientMemory} {deliveries : List ClientDelivery}
    (delivered : mspDeliver call memory deliveries = .ok final)
    (stays : StaysTwo call memory deliveries) : ¬ Carries rpcPktCallAck deliveries := by
  rintro ⟨delivery, member, payload, isPayload, ack⟩
  obtain ⟨front, behind, rfl⟩ := List.append_of_mem member
  rw [mspDeliver_append] at delivered
  obtain ⟨middle, before, delivered⟩ := bind_eq_ok_iff.mp delivered
  obtain ⟨⟨consumed, after⟩, handled, _⟩ := bind_eq_ok_iff.mp delivered
  have upToAck : mspDeliver call memory (front ++ [delivery]) = .ok after := by
    rw [mspDeliver_append, before, ok_bind, mspDeliver, handled]
    rfl
  have twoBefore := stays front middle (List.prefix_append _ _) before
  have twoAfter := stays (front ++ [delivery]) after
    ⟨behind, by rw [List.append_assoc, List.singleton_append]⟩ upToAck
  exact (handler_keeps_two_iff twoBefore handled).mp twoAfter ⟨payload, isPayload, ack⟩

end Deliveries

/-! ## The answer of a call -/

/-- `later` are the deliveries still to come when the handler has left `middle`, if the loop ends
after this round; the last component tells whether the Rhizome listener is entered then. -/
inductive Arrives (call : ClientCall) (world : MspCallWorld) (current : ClientMemory)
    (rest : List MspRound) (middle : ClientMemory) : List ClientDelivery → Bool → Prop where
  | inRound {round : MspRound} {rounds : List MspRound} {front behind : List ClientDelivery} :
      current.received = 0 ∨ current.received = 1 → rest = round :: rounds →
      (round.socketIsNull && !round.socketIsData) = false → round.deliveries = front ++ behind →
      mspDeliver call current front = .ok middle →
      Arrives call world current rest middle (behind ++ world.closing) false
  | atEnd {front later : List ClientDelivery} :
      ¬ (current.received = 0 ∨ current.received = 1) → world.closing = front ++ later →
      mspDeliver call current front = .ok middle → Arrives call world current rest middle later false
  | beforeListener {round : MspRound} {rounds : List MspRound} {front later : List ClientDelivery} :
      current.received = 0 ∨ current.received = 1 → rest = round :: rounds →
      (round.socketIsNull && !round.socketIsData) = true → world.closing = front ++ later →
      mspDeliver call current front = .ok middle → Arrives call world current rest middle later true

section Calls

variable {call : ClientCall} {world : MspCallWorld} {current middle : ClientMemory}
  {rest : List MspRound} {later : List ClientDelivery}

/-- The loop is over once the round is, and nothing else happens before the return. -/
theorem Arrives.returns (arrives : Arrives call world current rest middle later false)
    (stays : StaysTwo call middle later) :
    mspLoop call world current rest =
      mspDeliver call middle later >>= fun final => .ok ⟨some final.received, final⟩ := by
  cases arrives with
  | @inRound round rounds front behind waiting isRest connected isRound before =>
    rw [isRest, mspLoop_connected rounds waiting connected, isRound, mspDeliver_append, before,
      ok_bind, mspDeliver_append]
    cases delivered : mspDeliver call middle behind with
    | error stop => rfl
    | ok after =>
      have two := stays behind after (List.prefix_append _ _) delivered
      rw [ok_bind, ok_bind, mspLoop_over rounds (by omega)]
      rfl
  | atEnd ended isClosing before =>
    rw [mspLoop_over rest ended, mspFinish, isClosing, mspDeliver_append, before, ok_bind]
    rfl

theorem Arrives.listens (arrives : Arrives call world current rest middle later true) :
    mspLoop call world current rest = mspDeliver call middle later >>= fun final =>
      rpcClientRhizomeListen ⟨call.serval, world.straySid, world.strayName⟩ world.listen final := by
  cases arrives with
  | @beforeListener round rounds front later waiting isRest closed isClosing before =>
    rw [isRest, mspLoop, if_pos waiting, if_pos closed, isClosing, mspDeliver_append, before, ok_bind]

/-- The listener does not look for an answer that is there. -/
theorem listen_answered {call : ClientCall} {world : ListenWorld} {memory : ClientMemory}
    (answered : memory.received ≠ 0) :
    rpcClientRhizomeListen call world memory = .ok ⟨some (-1), memory⟩ := by
  unfold rpcClientRhizomeListen
  cases world.curl with
  | false => rfl
  | true =>
    have ended : RhizomeState.code
        { RhizomeState.entry with received := memory.received, rpcResult := memory.rpcResult } =
          some (-1) := by
      simp only [RhizomeState.code, RhizomeState.entry, true_and]
      exact if_pos answered
    cases looped : listenLoop call
        { RhizomeState.entry with received := memory.received, rpcResult := memory.rpcResult }
        world.inputs with
    | error stop =>
      cases inputs : world.inputs with
      | nil =>
        rw [inputs] at looped
        cases looped
      | cons input inputs' =>
        rw [inputs, listenLoop, ended, Option.isSome_some, if_pos rfl] at looped
        cases looped
    | ok state =>
      obtain rfl := listenLoop_ended ended looped
      simp only [Bool.not_true, Bool.false_eq_true, if_false, ok_bind, ended]
      rfl

end Calls

/-- An answer is final exactly when no ACK is delivered after it, the handler comes back from what is
delivered, and the listener is not entered behind it. -/
theorem answer_final_iff (call : ClientCall) (world : MspCallWorld) (memory : ClientMemory)
    (passes : world.reachable ≠ 0) {past rest : List MspRound} (rounds : world.rounds = past ++ rest)
    {current : ClientMemory}
    (run : GuardedRun (MspRoundStep call) (fun _ _ => True) ⟨memory.received, .empty⟩ past current)
    {middle : ClientMemory} {later : List ClientDelivery} {listening : Bool}
    (arrives : Arrives call world current rest middle later listening)
    (answered : middle.received = 2) :
    (StaysTwo call middle later ∧
        ∃ final, rpcClientCallMsp call world memory = .ok ⟨some 2, final⟩) ↔
      ¬ Carries rpcPktCallAck later ∧ (∃ final, mspDeliver call middle later = .ok final) ∧
        listening = false := by
  rw [callMsp_run passes rounds run]
  constructor
  · rintro ⟨stays, final, called⟩
    cases listening with
    | false =>
      rw [arrives.returns stays] at called
      obtain ⟨after, delivered, _⟩ := bind_eq_ok_iff.mp called
      exact ⟨quiet_of_staysTwo delivered stays, ⟨after, delivered⟩, rfl⟩
    | true =>
      rw [arrives.listens] at called
      obtain ⟨after, delivered, listened⟩ := bind_eq_ok_iff.mp called
      have two := stays later after List.prefix_rfl delivered
      rw [listen_answered (by omega)] at listened
      cases listened
  · rintro ⟨quiet, ⟨final, delivered⟩, rfl⟩
    have stays := @staysTwo_of_quiet call _ _ answered quiet
    have two := stays later final List.prefix_rfl delivered
    refine ⟨stays, final, ?_⟩
    rw [arrives.returns stays, delivered, ok_bind, two]

/-! ## An ACK behind an answer -/

def ackDelivery : ClientDelivery := messageDelivery (ResultSlots.server 1) [rpcPktCallAck]

def answerDelivery : ClientDelivery :=
  messageDelivery (ResultSlots.server 1) (plainDatagram (ResultSlots.server 1)).bytes

theorem answer_delivered (received : Int) : ∃ rpcResult,
    mspDeliver (callServer 1) ⟨received, .empty⟩ [answerDelivery] = .ok ⟨2, rpcResult⟩ := by
  obtain ⟨text, answer⟩ := plainDatagram_answer (ResultSlots.server 1)
  obtain ⟨new, _, handled⟩ := @mspHandler_plain (callServer 1) ⟨received, .empty⟩ answerDelivery _ _ _
    answer rfl rfl
  refine ⟨⟨ResultTable.empty.cells.set 0 new, ResultTable.empty.stray⟩, ?_⟩
  rw [mspDeliver, handled]
  rfl

/-- The server acknowledges and answers, and its answer comes with what `behind` delivers. -/
def worldWith (behind : ClientDelivery) : MspCallWorld where
  reachable := 1
  rounds := [⟨false, true, [ackDelivery]⟩, ⟨false, true, [answerDelivery, behind]⟩]
  closing := []
  straySid := sidAny
  strayName := (callServer 1).rpcName
  listen := ⟨true, []⟩

theorem acked_run : GuardedRun (MspRoundStep (callServer 1)) (fun _ _ => True) .initial
    [⟨false, true, [ackDelivery]⟩] ⟨1, .empty⟩ :=
  .tail .refl trivial ⟨.inl rfl, rfl, rfl⟩

/-- The connection is closed right behind the answer. -/
theorem answer_final_closed : ∃ middle,
    mspDeliver (callServer 1) ⟨1, .empty⟩ [answerDelivery] = .ok middle ∧
    StaysTwo (callServer 1) middle [closedDelivery] ∧
    ∃ final, rpcClientCallMsp (callServer 1) (worldWith closedDelivery) .initial =
      .ok ⟨some 2, final⟩ := by
  obtain ⟨rpcResult, delivered⟩ := answer_delivered 1
  have arrives : Arrives (callServer 1) (worldWith closedDelivery) ⟨1, .empty⟩
      [⟨false, true, [answerDelivery, closedDelivery]⟩] ⟨2, rpcResult⟩ [closedDelivery] false :=
    @Arrives.inRound _ (worldWith closedDelivery) _ _ _ _ [] [answerDelivery] [closedDelivery]
      (.inr rfl) rfl rfl rfl delivered
  have quiet : ¬ Carries rpcPktCallAck [closedDelivery] := by
    rintro ⟨delivery, member, payload, isPayload, _⟩
    obtain rfl := List.mem_singleton.mp member
    cases isPayload
  have passes : (1 : Int) ≠ 0 := by decide
  have isFinal := answer_final_iff (callServer 1) (worldWith closedDelivery) .initial passes rfl acked_run
    arrives rfl
  exact ⟨⟨2, rpcResult⟩, delivered, isFinal.mpr ⟨quiet, ⟨⟨2, rpcResult⟩, rfl⟩, rfl⟩⟩

/-- With an ACK behind it the answer is lost, and the call waits on. -/
theorem late_ack_reopens : ∃ middle final,
    mspDeliver (callServer 1) ⟨1, .empty⟩ [answerDelivery] = .ok middle ∧ middle.received = 2 ∧
    mspDeliver (callServer 1) middle [ackDelivery] = .ok final ∧ final.received = 1 ∧
    rpcClientCallMsp (callServer 1) (worldWith ackDelivery) .initial = .ok ⟨none, final⟩ := by
  obtain ⟨rpcResult, delivered⟩ := answer_delivered 1
  refine ⟨⟨2, rpcResult⟩, ⟨1, rpcResult⟩, delivered, rfl, rfl, rfl, ?_⟩
  have round : mspDeliver (callServer 1) ⟨1, .empty⟩ [answerDelivery, ackDelivery] =
      .ok ⟨1, rpcResult⟩ := by
    rw [← List.singleton_append, mspDeliver_append, delivered]
    rfl
  have passes : (worldWith ackDelivery).reachable ≠ 0 := Int.one_ne_zero
  rw [callMsp_run passes rfl acked_run, mspLoop_connected [] (.inr rfl) rfl, round]
  rfl

end ServalRpc.Verified.MspFinality
