import ServalRpc.Model.Polling
import ServalRpc.Verified.ReturnCodes
import ServalRpc.Verified.ResultManifest

/-! # What the polls of a listener see

The first poll of `_rpc_client_rhizome_listen` looks at the newest row only, and its token makes the
next polls start behind this row.  From there on the listener is at every row once, in the order of
the insertions.
-/

namespace ServalRpc.Verified.Polling

open CLib ListenerSteps

/-! ## Steps -/

section Steps

variable {call : ClientCall}

/-- Every step is an insertion or a round of the listener. -/
theorem listener_step {state next : ListenState} {event : ListenEvent}
    (step : ListenStep call state event next) :
    next.listener = state.listener ∨
      ∃ round, RhizomeStep call state.listener round next.listener := by
  cases step with
  | insert row => exact .inl rfl
  | poll elapsed listing running noRows notReceived isEvent round =>
    exact .inr ⟨_, .poll elapsed listing running noRows notReceived isEvent round⟩
  | visit input running pending isEvent round =>
    refine .inr ⟨_, .visit input running ?_ isEvent round⟩
    rw [pending]
    exact List.cons_ne_nil _ _

/-- The listener over a growing store runs as the listener alone. -/
theorem rhizomeRun_of_run {guard : ListenState → ListenEvent → Prop} {store : List Row}
    {events : List ListenEvent} {state : ListenState}
    (run : GuardedRun (ListenStep call) guard (.start store) events state) :
    ∃ rounds, GuardedRun (RhizomeStep call) (fun _ _ => True) .entry rounds state.listener := by
  induction run with
  | refl => exact ⟨[], .refl⟩
  | tail _ _ step inductionHypothesis =>
    obtain ⟨rounds, before⟩ := inductionHypothesis
    obtain same | ⟨round, rounded⟩ := listener_step step
    · exact ⟨rounds, same ▸ before⟩
    · exact ⟨rounds ++ [round], before.tail trivial rounded⟩

/-- What a visit turns out to be. -/
theorem visit_event {listener : RhizomeState} {input : RowInput} {row : Row} {rows : List Row}
    {event : RhizomeEvent} (pending : listener.pending = row :: rows)
    (isEvent : rhizomeEvent call listener (.visit input) = .ok event) :
    (interestingRow call input.now row = .ok false ∧ event = .skipped) ∨
      interestingRow call input.now row = .ok true ∧ ∃ sender, row.sender = some sender ∧
        ((input.body = none ∧ event = .transferFailed) ∨
          ∃ body, input.body = some body ∧
            event = .received (rowPacket call row input sender body)) := by
  simp only [rhizomeEvent, pending] at isEvent
  obtain ⟨interesting, filter, isEvent⟩ := bind_eq_ok_iff.mp isEvent
  rw [mapError_eq_ok_iff] at filter
  cases interesting with
  | false =>
    cases isEvent
    exact .inl ⟨filter, rfl⟩
  | true =>
    obtain ⟨sender, isSender, isEvent⟩ := bind_eq_ok_iff.mp isEvent
    rw [mapError_eq_ok_iff, deref_eq_ok_iff] at isSender
    refine .inr ⟨filter, sender, isSender, ?_⟩
    cases body : input.body with
    | none =>
      rw [body] at isEvent
      cases isEvent
      exact .inl ⟨rfl, rfl⟩
    | some bytes =>
      rw [body] at isEvent
      cases isEvent
      exact .inr ⟨bytes, rfl, rfl⟩

theorem poll_event {listener : RhizomeState} {elapsed : Int} {listing : Option (List Row)}
    {event : RhizomeEvent} (isEvent : rhizomeEvent call listener (.poll elapsed listing) = .ok event) :
    event = .timeout ∨ event = .transferFailed ∨
      ∃ rows, listing = some rows ∧ event = .polled rows := by
  simp only [rhizomeEvent] at isEvent
  split at isEvent
  · cases isEvent
    exact .inl rfl
  · cases listing with
    | none =>
      cases isEvent
      exact .inr (.inl rfl)
    | some rows =>
      cases isEvent
      exact .inr (.inr ⟨rows, rfl, rfl⟩)

/-- A poll that does not end the listener gets a list. -/
theorem poll_running {listener next : RhizomeState} {elapsed : Int} {listing : Option (List Row)}
    {event : RhizomeEvent} (isEvent : rhizomeEvent call listener (.poll elapsed listing) = .ok event)
    (round : rpcClientRhizomeListenRound call listener event = .ok next)
    (goesOn : next.returned = none) :
    ∃ rows pending, listing = some rows ∧ rowsToVisit listener.token rows = .ok pending ∧
      next = { listener with pending } := by
  obtain ⟨rows, pending, rfl, visiting, taken⟩ | ⟨leaving, _⟩ := listenRound_running round goesOn
  · obtain timeout | failed | ⟨rows, rfl, same⟩ := poll_event isEvent
    · cases timeout
    · cases failed
    · cases same
      exact ⟨rows, pending, rfl, visiting, taken⟩
  · obtain rfl | rfl | ⟨_, _, rfl⟩ := poll_event isEvent
    all_goals simp at leaving

/-- A visit that does not end the listener leaves the row. -/
theorem visit_running {listener next : RhizomeState} {input : RowInput} {row : Row}
    {rows : List Row} {event : RhizomeEvent} (pending : listener.pending = row :: rows)
    (isEvent : rhizomeEvent call listener (.visit input) = .ok event)
    (round : rpcClientRhizomeListenRound call listener event = .ok next)
    (goesOn : next.returned = none) : next.token = row.token ∧ next.pending = rows := by
  obtain ⟨_, _, rfl, _⟩ | ⟨_, isToken, isPending, _⟩ := listenRound_running round goesOn
  · obtain ⟨_, same⟩ | ⟨_, _, _, ⟨_, same⟩ | ⟨_, _, same⟩⟩ := visit_event pending isEvent
    all_goals cases same
  · rw [isToken, isPending, RhizomeState.advance, pending]
    exact ⟨rfl, rfl⟩

end Steps

/-! ## Following the store -/

structure Tokened (store : List Row) : Prop where
  present : ∀ row ∈ store, row.token ≠ none
  keyed : Keyed Row.token store

/-- The list since the token of a row has the rows behind it. -/
theorem bundleList_split {before after : List Row} {row : Row}
    (tokened : Tokened (before ++ row :: after)) :
    bundleList (before ++ row :: after) row.token = after := by
  have present := tokened.present row (by simp)
  obtain ⟨token, isToken⟩ := Option.ne_none_iff_exists'.mp present
  have behind := @entriesSince_split _ _ Row.token _ _ after _ tokened.keyed.fresh
  rw [isToken] at behind ⊢
  exact behind

/-- A listener has been at the newest row of the first poll and at every row behind it that it knows
of, but for those it is still to visit. -/
structure Followed (examined : List Row) (state : ListenState) : Prop where
  tokened : Tokened state.store
  unpolled : state.firstStore = none → state.lastStore = [] ∧ examined = [] ∧
    state.listener.pending = [] ∧ state.listener.token = none
  known : state.lastStore <+: state.store
  polled : ∀ first, state.firstStore = some first →
    first <+: state.lastStore ∧
    state.lastStore = first.dropLast ++ examined ++ state.listener.pending ∧
    (state.listener.pending = [] → ∃ before row, state.lastStore = before ++ [row] ∧
      state.listener.token = row.token)

section Runs

variable {call : ClientCall}

theorem Followed.insert {examined : List Row} {state : ListenState} {row : Row}
    (followed : Followed examined state) (present : row.token ≠ none)
    (fresh : ∀ old ∈ state.store, old.token ≠ row.token) :
    Followed examined { state with store := state.store ++ [row] } := by
  obtain ⟨tokened, unpolled, known, polled⟩ := followed
  refine ⟨⟨?_, tokened.keyed.snoc fresh⟩, unpolled, known.trans (List.prefix_append _ _), polled⟩
  intro old member
  obtain old | new := List.mem_append.mp member
  · exact tokened.present _ old
  · rwa [List.mem_singleton.mp new]

/-- A poll gives the loop the rows that it has not been at. -/
theorem Followed.poll {examined pending : List Row} {state : ListenState}
    (followed : Followed examined state) (noRows : state.listener.pending = [])
    (visiting : rowsToVisit state.listener.token (bundleList state.store state.listener.token) =
      .ok pending) :
    Followed examined
      { state with
        listener := { state.listener with pending }
        firstStore := some (state.firstStore.getD state.store)
        lastStore := state.store } := by
  obtain ⟨tokened, unpolled, known, polled⟩ := followed
  refine ⟨tokened, (fun isNone => nomatch isNone), List.prefix_refl _, ?_⟩
  intro first isFirst
  cases polledBefore : state.firstStore with
  | none =>
    obtain ⟨-, noneExamined, -, noToken⟩ := unpolled polledBefore
    rw [polledBefore] at isFirst
    cases isFirst
    rw [noToken] at visiting
    obtain ⟨newest, isNewest, visiting⟩ := bind_eq_ok_iff.mp visiting
    rw [deref_eq_ok_iff, bundleList, List.head?_reverse] at isNewest
    cases visiting
    refine ⟨List.prefix_refl _, ?_, fun empty => absurd empty (List.cons_ne_nil _ _)⟩
    rw [noneExamined, List.append_nil]
    exact (List.dropLast_append_getLast? newest isNewest).symm
  | some earlier =>
    rw [polledBefore] at isFirst
    cases isFirst
    -- The token is that of the newest row of the last poll, so the list has the rows since then.
    obtain ⟨isPrefix, split, atToken⟩ := polled earlier polledBefore
    obtain ⟨before, row, isLast, isToken⟩ := atToken noRows
    obtain ⟨new, isStore⟩ := known
    rw [isLast, List.append_assoc, List.singleton_append] at isStore
    have present := tokened.present row (by simp [← isStore])
    obtain ⟨token, someToken⟩ := Option.ne_none_iff_exists'.mp present
    rw [isToken, ← isStore, bundleList_split (isStore ▸ tokened), someToken] at visiting
    cases visiting
    rw [noRows, List.append_nil] at split
    refine ⟨?_, ?_, ?_⟩
    · exact isPrefix.trans ⟨pending, by rw [isLast, ← isStore]; simp⟩
    · have whole : state.store = earlier.dropLast ++ examined ++ pending := by
        rw [← split, isLast, ← isStore]
        simp
      exact whole
    · rintro rfl
      exact ⟨before, row, isStore.symm, isToken⟩

/-- A visit moves its row from those to be visited to those examined. -/
theorem Followed.visit {examined rows : List Row} {state : ListenState} {next : RhizomeState}
    {row : Row} (followed : Followed examined state) (pending : state.listener.pending = row :: rows)
    (isToken : next.token = row.token) (isPending : next.pending = rows) :
    Followed (examined ++ [row]) { state with listener := next } := by
  obtain ⟨tokened, unpolled, known, polled⟩ := followed
  refine ⟨tokened, fun notPolled => ?_, known, fun first isFirst => ?_⟩
  · obtain ⟨-, -, noRows, -⟩ := unpolled notPolled
    rw [pending] at noRows
    cases noRows
  · obtain ⟨isPrefix, split, _⟩ := polled first isFirst
    rw [pending] at split
    refine ⟨isPrefix, ?_, fun empty => ?_⟩
    · rw [isPending, split]
      simp
    · rw [isPending] at empty
      subst empty
      exact ⟨first.dropLast ++ examined, row, split, isToken⟩

theorem Followed.step {examined : List Row} {state next : ListenState} {event : ListenEvent}
    (followed : Followed examined state) (lists : DaemonLists state event)
    (step : ListenStep call state event next) (goesOn : next.listener.returned = none) :
    Followed (examined ++ (visitedRow? event).toList) next := by
  cases step with
  | insert row =>
    obtain ⟨present, fresh⟩ := lists
    simp only [visitedRow?, Option.toList_none, List.append_nil]
    exact followed.insert present fresh
  | poll elapsed listing running noRows notReceived isEvent round =>
    simp only [visitedRow?, Option.toList_none, List.append_nil]
    obtain ⟨rows, pending, rfl, visiting, rfl⟩ := poll_running isEvent round goesOn
    obtain rfl := lists rows rfl
    exact followed.poll noRows visiting
  | visit input running pending isEvent round =>
    simp only [visitedRow?, Option.toList_some]
    obtain ⟨isToken, isPending⟩ := visit_running pending isEvent round goesOn
    exact followed.visit pending isToken isPending

theorem examinedRows_snoc (events : List ListenEvent) (event : ListenEvent) :
    examinedRows (events ++ [event]) = examinedRows events ++ (visitedRow? event).toList := by
  cases event <;> simp [examinedRows, visitedRow?]

theorem returned_of_step {state next : ListenState} {event : ListenEvent}
    (step : ListenStep call state event next) (goesOn : next.listener.returned = none) :
    state.listener.returned = none := by
  cases step with
  | insert row => exact goesOn
  | poll elapsed listing running => exact running
  | visit input running => exact running

theorem followed_of_run {store : List Row} (tokened : Tokened store) {events : List ListenEvent}
    {state : ListenState} (run : GuardedRun (ListenStep call) DaemonLists (.start store) events state)
    (goesOn : state.listener.returned = none) : Followed (examinedRows events) state := by
  induction run with
  | refl =>
    exact ⟨tokened, fun _ => ⟨rfl, rfl, rfl, rfl⟩, List.nil_prefix, fun _ isFirst => nomatch isFirst⟩
  | tail _ lists step inductionHypothesis =>
    rw [examinedRows_snoc]
    exact (inductionHypothesis (returned_of_step step goesOn)).step lists step goesOn

/-- The store only grows, and a poll comes after the bundle of the call. -/
theorem base_of_run {store : List Row} {events : List ListenEvent} {state : ListenState}
    (run : GuardedRun (ListenStep call) DaemonLists (.start store) events state) :
    store <+: state.store ∧ ∀ first, state.firstStore = some first → store <+: first := by
  refine @GuardedRun.invariant _ _ _ _ _ (fun _ state =>
    store <+: state.store ∧ ∀ first, state.firstStore = some first → store <+: first) ?_ ?_ _ _ run
  · exact ⟨List.prefix_refl _, fun _ isFirst => nomatch isFirst⟩
  · rintro past before event after ⟨isBase, firstBase⟩ _ step
    cases step with
    | insert row => exact ⟨isBase.trans (List.prefix_append _ _), firstBase⟩
    | poll =>
      refine ⟨isBase, fun first isFirst => ?_⟩
      obtain rfl := Option.some.inj isFirst
      cases polledBefore : before.firstStore with
      | none => exact isBase
      | some earlier => exact firstBase earlier polledBefore
    | visit => exact ⟨isBase, firstBase⟩

end Runs

/-- As long as the listener runs, a loop over the rows that has ended has been, then or before, at
every bundle that was inserted after that of the call, but for those that the first poll found below
the newest one; and the listener has been at them once each, in the order of the insertions. -/
theorem rows_examined (call : ClientCall) {before : List Row} {callRow : Row}
    (tokened : Tokened (before ++ [callRow])) {events : List ListenEvent} {state : ListenState}
    (run : GuardedRun (ListenStep call) DaemonLists (.start (before ++ [callRow])) events state)
    (goesOn : state.listener.returned = none) (between : state.listener.pending = [])
    (first : List Row) (isFirst : state.firstStore = some first) :
    state.lastStore = first.dropLast ++ examinedRows events ∧
      ∃ inserted, state.lastStore = before ++ callRow :: inserted ∧
        ∀ row ∈ inserted, row ∈ examinedRows events ∨ row ∈ first.dropLast := by
  have followed := followed_of_run tokened run goesOn
  obtain ⟨isPrefix, split, _⟩ := followed.polled first isFirst
  rw [between, List.append_nil] at split
  obtain ⟨_, afterCall⟩ := base_of_run run
  obtain ⟨inserted, isLast⟩ := (afterCall first isFirst).trans isPrefix
  rw [List.append_assoc, List.singleton_append] at isLast
  refine ⟨split, inserted, isLast.symm, fun row member => ?_⟩
  have known : row ∈ state.lastStore := by simp [← isLast, member]
  rw [split] at known
  exact (List.mem_append.mp known).symm

/-! ## A missed answer -/

/-- An input for a row that is of no interest. -/
def quietInput : RowInput := ⟨0, sidAny, none, fun _ => 0, [], fun _ => 0⟩

theorem insert_run {call : ClientCall} {start : ListenState} {events : List ListenEvent}
    {state : ListenState} (run : GuardedRun (ListenStep call) DaemonLists start events state)
    (row : Row) (present : row.token ≠ none) (fresh : ∀ old ∈ state.store, old.token ≠ row.token) :
    GuardedRun (ListenStep call) DaemonLists start (events ++ [.insert row])
      { state with store := state.store ++ [row] } :=
  run.tail ⟨present, fresh⟩ (.insert row)

/-- A poll that makes the loop visit one row. -/
theorem poll_run {call : ClientCall} {start : ListenState} {events : List ListenEvent}
    {state : ListenState} (run : GuardedRun (ListenStep call) DaemonLists start events state)
    (polling : ReturnCodes.Polling state.listener) (row : Row)
    (listed : rowsToVisit state.listener.token (bundleList state.store state.listener.token) =
      .ok [row]) :
    GuardedRun (ListenStep call) DaemonLists start
      (events ++ [.poll 0 (some (bundleList state.store state.listener.token))])
      ⟨state.store, { state.listener with pending := [row] },
        some (state.firstStore.getD state.store), state.store⟩ := by
  obtain ⟨running, noRows, notReceived, waiting⟩ := polling
  have polled : rhizomeEvent call state.listener
      (.poll 0 (some (bundleList state.store state.listener.token))) =
        .ok (.polled (bundleList state.store state.listener.token)) := by
    have early : ¬ (0 : Int) > state.listener.waitTime := by omega
    simp [rhizomeEvent, early]
  have round : rpcClientRhizomeListenRound call state.listener
      (.polled (bundleList state.store state.listener.token)) =
        .ok { state.listener with pending := [row] } := by
    rw [rpcClientRhizomeListenRound, listed]
    rfl
  exact run.tail (by intro rows isList; exact (Option.some.inj isList).symm)
    (.poll 0 _ running noRows notReceived polled round)

/-- A poll for one row that is of no interest, and the visit of the row. -/
theorem quiet_run {call : ClientCall} {start : ListenState} {events : List ListenEvent}
    {state : ListenState} (run : GuardedRun (ListenStep call) DaemonLists start events state)
    (polling : ReturnCodes.Polling state.listener) (row : Row)
    (listed : rowsToVisit state.listener.token (bundleList state.store state.listener.token) =
      .ok [row])
    (quiet : interestingRow call 0 row = .ok false) :
    GuardedRun (ListenStep call) DaemonLists start
      (events ++ [.poll 0 (some (bundleList state.store state.listener.token))] ++
        [.visit row quietInput])
      ⟨state.store, { state.listener with token := row.token, pending := [] },
        some (state.firstStore.getD state.store), state.store⟩ := by
  have skipped : rhizomeEvent call { state.listener with pending := [row] } (.visit quietInput) =
      .ok .skipped := by
    simp only [rhizomeEvent, quietInput, quiet]
    rfl
  exact (poll_run run polling row listed).tail trivial
    (.visit quietInput polling.running rfl skipped rfl)

/-- A bundle of no interest to the client. -/
def otherRow (token : Char) : Row :=
  { ServerRuns.callRow (tohexSidT sidAny) with token := some (CString.ofChars [token]) }

theorem otherRow_quiet (sid : Sid) (token : Char) :
    interestingRow (ReturnCodes.callTo sid) 0 (otherRow token) = .ok false := rfl

/-- A bundle that is inserted between two polls. -/
theorem rows_examined_later : ∃ events state inserted,
    GuardedRun (ListenStep (ReturnCodes.callTo sidAny)) DaemonLists (.start [otherRow 'a']) events
      state ∧
    state.lastStore = otherRow 'a' :: inserted ∧ otherRow 'b' ∈ inserted ∧
    ∀ row ∈ inserted, row ∈ examinedRows events ∨ row ∈ [otherRow 'a'].dropLast := by
  have tokened : Tokened ([] ++ [otherRow 'a']) := ⟨by decide, List.nodup_singleton _⟩
  have start : GuardedRun (ListenStep (ReturnCodes.callTo sidAny)) DaemonLists
      (.start [otherRow 'a']) [] _ := .refl
  have first := quiet_run start ⟨rfl, rfl, rfl, by decide⟩ (otherRow 'a') rfl (otherRow_quiet _ _)
  have inserted := insert_run first (otherRow 'b') (by decide) (by decide)
  have second := quiet_run inserted ⟨rfl, rfl, rfl, by decide⟩ (otherRow 'b') rfl
    (otherRow_quiet _ _)
  obtain ⟨_, rows, isLast, examined⟩ := rows_examined (ReturnCodes.callTo sidAny) tokened second rfl
    rfl [otherRow 'a'] rfl
  refine ⟨_, _, rows, second, isLast, ?_, examined⟩
  cases isLast
  exact List.mem_singleton.mpr rfl

/-- The RESPONSE of a server that is faster than the first poll, below a bundle of no interest. -/
theorem response_missed : ∃ events state,
    GuardedRun (ListenStep (ReturnCodes.callTo sidAny)) DaemonLists (.start [otherRow 'a']) events
      state ∧
    state.listener.returned = none ∧ state.listener.pending = [] ∧
    state.lastStore = [otherRow 'a', ReturnCodes.answerRow ReturnCodes.responseBody, otherRow 'b'] ∧
    interestingRow (ReturnCodes.callTo sidAny) 0 (ReturnCodes.answerRow ReturnCodes.responseBody) =
      .ok true ∧
    ReturnCodes.answerRow ReturnCodes.responseBody ∉ examinedRows events := by
  have start : GuardedRun (ListenStep (ReturnCodes.callTo sidAny)) DaemonLists
      (.start [otherRow 'a']) [] _ := .refl
  have answered := insert_run start (ReturnCodes.answerRow ReturnCodes.responseBody) (by decide)
    (by decide)
  have inserted := insert_run answered (otherRow 'b') (by decide) (by decide)
  have polled := quiet_run inserted ⟨rfl, rfl, rfl, by decide⟩ (otherRow 'b') rfl
    (otherRow_quiet _ _)
  exact ⟨_, _, polled, rfl, rfl, rfl, rfl, by decide⟩

end ServalRpc.Verified.Polling
