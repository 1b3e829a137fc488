import ServalRpc.Verified.Polling

/-! # Answers to an earlier call

Nothing in a bundle says which call it answers.  The listener of a call takes every result for its
node whose name starts with that of the procedure, if it is inserted after the bundle of the call.
-/

namespace ServalRpc.Verified.LateAnswers

open CLib ListenerSteps Polling ResultManifest

/-- The visit of the next row stores the content of its bundle in the result table. -/
def Answers (call : ClientCall) (listener : RhizomeState) (input : RowInput) : Prop :=
  ∃ packet rpcResult complete,
    rhizomeEvent call listener (.visit input) = .ok (.received packet) ∧
      reactToPacket call packet listener.rpcResult = .ok (.answered rpcResult complete)

/-- The result bundle for a call of this name, as the daemon lists it. -/
def ResultOf (daemon : Daemon) (rpcName : CString) (row : Row) : Prop :=
  ∃ serval insertion caller payload,
    daemon.Lists row (rpcServerRhizomeSendResult serval insertion caller rpcName payload).2.manifest
      (rpcServerRhizomeSendResult serval insertion caller rpcName payload).2.content

/-- The listener of the second call of a node, whose first call is over; `earlier` is the store before
the bundle of the second call. -/
inductive SecondCall (first second : ClientCall) : List Row → ListenState → Prop where
  | listening {before between : List Row} {firstRow secondRow : Row} {events past : List ListenEvent}
      {ended state : ListenState} :
      first.serval = second.serval →
      Tokened (before ++ [firstRow]) →
      GuardedRun (ListenStep first) DaemonLists (.start (before ++ [firstRow])) events ended →
      ended.listener.returned ≠ none →
      Tokened (ended.store ++ between ++ [secondRow]) →
      GuardedRun (ListenStep second) DaemonLists
        (.start (ended.store ++ between ++ [secondRow])) past state →
      SecondCall first second (ended.store ++ between) state

section Second

variable {first second : ClientCall}

/-- The rows that are still to be visited are newer than the bundle of the call. -/
theorem pending_notMem {earlier : List Row} {callRow : Row}
    (tokened : Tokened (earlier ++ [callRow])) {events : List ListenEvent} {state : ListenState}
    (run : GuardedRun (ListenStep second) DaemonLists (.start (earlier ++ [callRow])) events state)
    (goesOn : state.listener.returned = none) {row : Row} {rows : List Row}
    (pending : state.listener.pending = row :: rows) : row ∉ earlier := by
  have followed := followed_of_run tokened run goesOn
  cases isFirst : state.firstStore with
  | none =>
    obtain ⟨-, -, noRows, -⟩ := followed.unpolled isFirst
    rw [pending] at noRows
    cases noRows
  | some polledStore =>
    obtain ⟨_, split, _⟩ := followed.polled polledStore isFirst
    obtain ⟨rest, isPolled⟩ := (base_of_run run).2 polledStore isFirst
    obtain ⟨later, isStore⟩ := followed.known
    -- The first poll has passed the rows below its newest one, and the later ones go on from there.
    have passed : polledStore.dropLast = earlier ++ (callRow :: rest).dropLast := by
      rw [← isPolled, List.append_assoc, List.singleton_append, List.dropLast_append_of_ne_nil]
      exact List.cons_ne_nil _ _
    have whole : state.store = earlier ++ ((callRow :: rest).dropLast ++ examinedRows events) ++
        row :: (rows ++ later) := by
      rw [← isStore, split, passed, pending]
      simp
    have keyed := followed.tokened.keyed
    rw [whole] at keyed
    intro member
    exact keyed.fresh row (List.mem_append_left _ member) rfl

theorem interesting_of_answers {listener : RhizomeState} {row : Row} {rows : List Row}
    {input : RowInput} (pending : listener.pending = row :: rows)
    (answers : Answers second listener input) :
    interestingRow second input.now row = .ok true := by
  obtain ⟨packet, _, _, isEvent, _⟩ := answers
  obtain ⟨_, skipped⟩ | ⟨interesting, _⟩ := visit_event pending isEvent
  · cases skipped
  · exact interesting

/-- The listed name of a result is that of its call, if it is one line. -/
theorem ResultOf.name {daemon : Daemon} {rpcName : CString} {row : Row}
    (result : ResultOf daemon rpcName row) (oneLine : 10 ∉ rpcName.bytes) :
    row.name = some rpcName := by
  obtain ⟨serval, insertion, caller, payload, listed⟩ := result
  have isName : row.name = daemon.manifestField (resultManifest serval caller rpcName) nameKey :=
    listed.name
  rw [isName, daemon.manifestField_text _ _ (resultManifest_text serval caller oneLine)
    (resultFields_distinct _ _ _) _ (by decide)]
  rfl

end Second

/-- The second call stores no bundle that was there before its own, and none whose name does not
start with that of its procedure; so it stores no result of a first call whose name, of one line,
does not. -/
theorem late_answers_kept_out (daemon : Daemon) {first second : ClientCall} {earlier : List Row}
    {state : ListenState} (calls : SecondCall first second earlier state)
    (goesOn : state.listener.returned = none) {row : Row} {rows : List Row}
    (pending : state.listener.pending = row :: rows) (result : ResultOf daemon first.rpcName row)
    (input : RowInput) :
    (row ∈ earlier ∨ (∀ name, row.name = some name → ¬ second.rpcName.bytes <+: name.bytes) →
      ¬ Answers second state.listener input) ∧
    (10 ∉ first.rpcName.bytes → ¬ second.rpcName.bytes <+: first.rpcName.bytes →
      ¬ Answers second state.listener input) := by
  have foreign : (∀ name, row.name = some name → ¬ second.rpcName.bytes <+: name.bytes) →
      ¬ Answers second state.listener input := by
    intro otherName answers
    obtain ⟨service, name, interesting⟩ :=
      (interestingRow_iff _ _ _).mp (interesting_of_answers pending answers)
    exact otherName name interesting.isName interesting.nameIsRpc
  refine ⟨?_, ?_⟩
  · rintro (old | otherName)
    · cases calls with
      | listening _ _ _ _ tokened run => exact absurd old (pending_notMem tokened run goesOn pending)
    · exact foreign otherName
  · intro oneLine notPrefix
    apply foreign
    intro name isName
    rw [result.name oneLine] at isName
    rwa [← Option.some.inj isName]

/-! ## A late answer -/

/-- A call of the node that waits for the late answer. -/
def nodeCall (sid : Sid) (name : List Char) : ClientCall :=
  ⟨Serval.executable Download.caller, sid, CString.ofChars name⟩

def latePayload : List UInt8 := rpcPktCallResponse :: 51 :: List.replicate (rpcPktSize - 2) 0

/-- The result of a call of `add`. -/
def latePublication : Publication :=
  (rpcServerRhizomeSendResult (Serval.executable (ResultSlots.server 1)) (Delivery.insertionOf true)
    Download.caller (CString.ofChars ['a', 'd', 'd']) latePayload).2

def tokenedRow (publication : Publication) : Row :=
  { resultRow publication with token := some (CString.ofChars ['t']) }

theorem tokenedRow_listed (publication : Publication) :
    Daemon.executable.Lists (tokenedRow publication) publication.manifest publication.content :=
  ⟨rfl, rfl, rfl, rfl, rfl⟩

theorem tokenedRow_resultOf {serval : Serval} {insertion : Insertion} {caller : Sid}
    {rpcName : CString} {payload : List UInt8} :
    ResultOf Daemon.executable rpcName
      (tokenedRow (rpcServerRhizomeSendResult serval insertion caller rpcName payload).2) :=
  ⟨_, _, _, _, tokenedRow_listed _⟩

def lateRow : Row := tokenedRow latePublication

theorem latePublication_content :
    latePublication.content = rpcPktCallResponse :: ([51] ++ 0 :: List.replicate 956 0) := by
  have fits : rpcPktSize - 1 ≤ latePayload.length := by
    rw [latePayload, List.length_cons, List.length_cons, List.length_replicate]
    decide
  rw [latePublication, rpcServerRhizomeSendResult, overread_of_le _ fits, latePayload,
    show rpcPktSize - 1 = 957 + 1 + 1 from rfl, List.take_succ_cons, List.take_succ_cons,
    List.take_replicate]
  rfl

def lateInput : RowInput := ⟨0, sidAny, some latePublication.content, fun _ => 0, [], fun _ => 0⟩

theorem lateRow_listed : Daemon.executable.Lists lateRow
    (resultManifest (Serval.executable (ResultSlots.server 1)) Download.caller
      (CString.ofChars ['a', 'd', 'd'])) latePublication.content := by
  have listed := tokenedRow_listed latePublication
  have manifest : latePublication.manifest = resultManifest
      (Serval.executable (ResultSlots.server 1)) Download.caller (CString.ofChars ['a', 'd', 'd']) := by
    unfold latePublication rpcServerRhizomeSendResult
    rfl
  rwa [manifest] at listed

theorem lateRow_interesting (sid : Sid) :
    interestingRow (nodeCall sid ['a', 'd', 'd']) 0 lateRow = .ok true := by
  have listed : Daemon.executable.Lists lateRow
      (resultManifest (Serval.executable (ResultSlots.server 1)) Download.caller
        (nodeCall sid ['a', 'd', 'd']).rpcName) latePublication.content := lateRow_listed
  unfold lateRow at listed ⊢
  exact (interestingRow_result_iff listed (show (0 : Int) - 0 < 600000 by decide)).mpr
    ⟨rfl, show 10 ∉ (CString.ofChars ['a', 'd', 'd']).bytes by decide⟩

/-- The listener of the second call, when it has the late answer before it. -/
def lateState : ListenState where
  store := [otherRow 'a', otherRow 'b', lateRow]
  listener := { RhizomeState.entry with token := (otherRow 'b').token, pending := [lateRow] }
  firstStore := some [otherRow 'a', otherRow 'b']
  lastStore := [otherRow 'a', otherRow 'b', lateRow]

theorem first_call : ∃ events state,
    GuardedRun (ListenStep (nodeCall sidAny ['a', 'd', 'd'])) DaemonLists (.start [otherRow 'a']) events
      state ∧
    state.store = [otherRow 'a'] ∧ state.listener.returned = some (-1) := by
  have start : GuardedRun (ListenStep (nodeCall sidAny ['a', 'd', 'd'])) DaemonLists
      (.start [otherRow 'a']) [] _ := .refl
  have polled := quiet_run start ⟨rfl, rfl, rfl, by decide⟩ (otherRow 'a') rfl rfl
  exact ⟨_, _, polled.tail (by intro rows isList; cases isList) (.poll 21 none rfl rfl rfl rfl rfl),
    rfl, rfl⟩

theorem late_run {call : ClientCall} (quiet : interestingRow call 0 (otherRow 'b') = .ok false) :
    ∃ events, GuardedRun (ListenStep call) DaemonLists (.start [otherRow 'a', otherRow 'b']) events
        lateState ∧
      ∀ row input, .visit row input ∈ events → row = otherRow 'b' := by
  have start : GuardedRun (ListenStep call) DaemonLists (.start [otherRow 'a', otherRow 'b']) [] _ :=
    .refl
  have polled := quiet_run start ⟨rfl, rfl, rfl, by decide⟩ (otherRow 'b') rfl quiet
  have late := insert_run polled lateRow (by decide) (by decide)
  refine ⟨_, poll_run late ⟨rfl, rfl, rfl, by decide⟩ lateRow rfl, ?_⟩
  intro row input member
  simp at member
  exact member.1

theorem second_call {name : List Char}
    (quiet : interestingRow (nodeCall sidAny name) 0 (otherRow 'b') = .ok false) :
    SecondCall (nodeCall sidAny ['a', 'd', 'd']) (nodeCall sidAny name) [otherRow 'a'] lateState := by
  obtain ⟨events, ⟨_, listener, firstStore, lastStore⟩, first, store, returned⟩ := first_call
  obtain rfl : _ = [otherRow 'a'] := store
  obtain ⟨past, listening, _⟩ := late_run quiet
  have tokened : Tokened [otherRow 'a', otherRow 'b'] := ⟨by decide, by decide⟩
  exact @SecondCall.listening (nodeCall sidAny ['a', 'd', 'd']) (nodeCall sidAny name) [] []
    (otherRow 'a') (otherRow 'b') _ _ _ _ rfl ⟨by decide, by decide⟩ first (by rw [returned]; nofun)
    tokened listening

/-- The late answer to a call of `add`, in a call of another procedure. -/
theorem late_answer_kept_out :
    SecondCall (nodeCall sidAny ['a', 'd', 'd']) (nodeCall sidAny ['m', 'u', 'l']) [otherRow 'a']
      lateState ∧
      ¬ Answers (nodeCall sidAny ['m', 'u', 'l']) lateState.listener lateInput := by
  have calls := @second_call ['m', 'u', 'l'] rfl
  exact ⟨calls, (late_answers_kept_out Daemon.executable calls rfl rfl tokenedRow_resultOf lateInput).2
    (by decide) (by decide)⟩

theorem lateRow_sender : lateRow.sender = some (tohexSidT (ResultSlots.server 1)) := by
  rw [lateRow_listed.sender, Daemon.executable.manifestField_text _ _
    (resultManifest_text _ _ (by decide)) (resultFields_distinct _ _ _) _ (by decide)]
  rfl

/-- What the listener takes the late answer for. -/
def latePacket (sid : Sid) : Packet :=
  rowPacket (nodeCall sid ['a', 'd', 'd']) lateRow lateInput (tohexSidT (ResultSlots.server 1))
    latePublication.content

theorem latePacket_sender (sid : Sid) : (latePacket sid).sender = ResultSlots.server 1 := by
  have parsed : (nodeCall sid ['a', 'd', 'd']).serval.strToSidT (tohexSidT (ResultSlots.server 1)) =
      some (ResultSlots.server 1) := (nodeCall sid ['a', 'd', 'd']).serval.strToSidT_tohexSidT _
  rw [latePacket, rowPacket, parsed]
  rfl

theorem lateRow_received (sid : Sid) :
    rhizomeEvent (nodeCall sid ['a', 'd', 'd']) lateState.listener (.visit lateInput) =
      .ok (.received (latePacket sid)) := by
  have interesting : interestingRow (nodeCall sid ['a', 'd', 'd']) lateInput.now lateRow = .ok true :=
    lateRow_interesting sid
  simp only [rhizomeEvent, lateState, interesting, lateRow_sender]
  rfl

theorem latePacket_answered {sid : Sid} (direct : sid ≠ sidBroadcast) : ∃ rpcResult,
    reactToPacket (nodeCall sid ['a', 'd', 'd']) (latePacket sid) .empty =
      .ok (.answered rpcResult true) := by
  have length : latePublication.content.length = 959 := by
    rw [latePublication_content, List.length_cons, List.length_append, List.length_cons,
      List.length_cons, List.length_nil, List.length_replicate]
  have size : sizeOfInt lateRow.filesize = latePublication.content.length := by
    rw [lateRow_listed.filesize]
    exact sizeOfInt_valueint_of_lt (by omega)
  have payload : (latePacket sid).recvPayload = latePublication.content := by
    simp only [latePacket, rowPacket, size, overread_self]
  have len : (latePacket sid).len = latePublication.content.length := by
    simp only [latePacket, rowPacket, size]
  exact ListenerRounds.direct_answered direct (payload.trans latePublication_content) (by decide)
    (by decide) (by rw [len, payload]) (by rw [len, length]; decide)

theorem late_visit {sid : Sid} (direct : sid ≠ sidBroadcast) : ∃ next result,
    ListenStep (nodeCall sid ['a', 'd', 'd']) lateState (.visit lateRow lateInput) next ∧
      next.listener.returned = some 2 ∧
      next.listener.rpcResult = ListenerRounds.answeredTable result ∧
      result.serverSid = ResultSlots.server 1 := by
  obtain ⟨rpcResult, reacted⟩ := latePacket_answered direct
  obtain ⟨_, _, goesOn⟩ | ⟨result, answer, isAnswer⟩ :=
    ListenerRounds.react_direct_cases direct reacted
  · cases goesOn
  cases isAnswer
  have round : rpcClientRhizomeListenRound (nodeCall sid ['a', 'd', 'd']) lateState.listener
      (.received (latePacket sid)) = .ok { lateState.listener.advance with
        rpcResult := ListenerRounds.answeredTable result
        returnCode := 2
        received := 1
        returned := some 2 } := by
    rw [rpcClientRhizomeListenRound, show lateState.listener.rpcResult = .empty from rfl, reacted]
    rfl
  exact ⟨_, result, .visit lateInput rfl rfl (lateRow_received sid) round, rfl, rfl,
    answer.2.1.symm.trans (latePacket_sender sid)⟩

/-- The late answer to a call, in the next call of the same procedure. -/
theorem late_answer_taken :
    SecondCall (nodeCall sidAny ['a', 'd', 'd']) (nodeCall sidAny ['a', 'd', 'd']) [otherRow 'a']
      lateState ∧
    ResultOf Daemon.executable (CString.ofChars ['a', 'd', 'd']) lateRow ∧
    Answers (nodeCall sidAny ['a', 'd', 'd']) lateState.listener lateInput ∧
    ∃ next, ListenStep (nodeCall sidAny ['a', 'd', 'd']) lateState (.visit lateRow lateInput) next ∧
      next.listener.returned = some 2 := by
  have direct : sidAny ≠ sidBroadcast := by decide
  obtain ⟨rpcResult, reacted⟩ := latePacket_answered direct
  obtain ⟨next, _, step, returned, _⟩ := late_visit direct
  exact ⟨second_call rfl, tokenedRow_resultOf, ⟨_, _, _, lateRow_received sidAny, reacted⟩, next, step,
    returned⟩

end ServalRpc.Verified.LateAnswers
