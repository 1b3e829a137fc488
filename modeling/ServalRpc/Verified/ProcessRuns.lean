import ServalRpc.Verified.Delivery
import ServalRpc.Verified.ProcessSockets

/-! # What the listeners of one process do

A process serves until its first stop, which is a signal or a poll of the store that returns -1, and
never again: `server_running` stays 1, and every listener that is entered later returns before its
first round.  A listener of one channel answers on no other.
-/

namespace ServalRpc.Verified.ProcessRuns

open CLib HandlerSteps ProcessSockets

variable {serval : Serval}

/-! ## The loops of `ServerStep` -/

def view (process : ServerProcess) : ServerState :=
  ⟨process.serverRunning, process.doneCalls, process.actions⟩

/-- The listeners that `ServerStep` describes. -/
def Polls (function : ServerFunction) : Prop :=
  function = .rpcServerListen ∨ function = .rpcServerListenRhizome

/-- The listener that runs has been entered and has set its mode. -/
def Mode (past : List ProcessEvent) (process : ServerProcess) : Prop :=
  ∀ listener ∈ process.listening, process.serverMode = listener.serverMode ∧
    ∃ function world, .enter function world ∈ past ∧ listener = function.listener

theorem mode_step {past : List ProcessEvent} {process next : ServerProcess} {event : ProcessEvent}
    (mode : Mode past process) (step : ProcessStep serval process event next) :
    Mode (past ++ [event]) next := by
  have kept : ∀ other : ServerProcess, other.listening = process.listening →
      other.serverMode = process.serverMode → Mode (past ++ [event]) other := by
    intro other sameListener sameMode listener member
    obtain ⟨isMode, function, world, entered, rfl⟩ := mode listener (sameListener ▸ member)
    exact ⟨sameMode.trans isMode, function, world, List.mem_append_left _ entered, rfl⟩
  have idle : ∀ other : ServerProcess, other.listening = none → Mode (past ++ [event]) other := by
    intro other stopped listener member
    rw [stopped] at member
    cases member
  cases step with
  | enter function world isIdle =>
    obtain ⟨stopped, _⟩ | ⟨listening, _⟩ := enter_cases function.listener world isIdle
    · exact idle _ stopped
    · intro listener member
      rw [listening] at member
      obtain rfl := Option.some.inj member
      exact ⟨(enter_entered function.listener world process).serverMode, function, world,
        List.mem_append_right past (List.mem_singleton_self _), rfl⟩
  | round _ _ _ round =>
    obtain ⟨_, _, _, _, ⟨_, rfl⟩ | ⟨_, _, _, rfl⟩⟩ := round_cases round
    · exact kept _ rfl rfl
    · exact kept _ rfl rfl
  | leave _ _ _ left =>
    obtain ⟨_, _, rfl⟩ := leave_cases left
    exact idle _ rfl
  | passed _ _ => exact idle _ rfl
  | signal => exact kept _ rfl rfl

theorem mode_of_run {descriptors : Multiset Int} {past : List ProcessEvent} {process : ServerProcess}
    (run : ServerProcess.Run serval (.initial descriptors) past process) : Mode past process := by
  refine run.invariant ?_ fun _ _ _ _ mode _ step => mode_step mode step
  intro listener member
  cases member

theorem listenRound_of_round {process next : ServerProcess} {input : ListenInput}
    (mode : process.serverMode = .all)
    (round : ServalRpc.rpcServerListen.round serval process input = .ok next) :
    rpcServerListenRound serval (view process) input = .ok (view next) := by
  obtain ⟨mspActions, mdpActions, msp, mdp, ⟨serves, _⟩ | ⟨_, processed, polled, rfl⟩⟩ :=
    round_cases round
  · cases serves
  · have msp' : rpcServerMspProcess serval .all input.deliveries = .ok mspActions := by
      rw [← msp, mode]
      rfl
    have mdp' : rpcServerMdpProcess serval .all input.datagram = .ok mdpActions := by
      rw [← mdp, mode]
      rfl
    simp only [rpcServerListenRound, rpcServerListenRhizomeRound, view, msp', mdp', ok_bind, polled]
    rfl

theorem listenRhizomeRound_of_round {process next : ServerProcess} {input : ListenInput}
    (round : ServalRpc.rpcServerListenRhizome.round serval process input = .ok next) :
    rpcServerListenRhizomeRound serval (view process) input.listing = .ok (view next) := by
  obtain ⟨_, _, msp, mdp, ⟨serves, _⟩ | ⟨_, processed, polled, rfl⟩⟩ := round_cases round
  · cases serves
  · obtain rfl := Except.ok.inj msp
    obtain rfl := Except.ok.inj mdp
    simp only [rpcServerListenRhizomeRound, view, polled, ok_bind, List.append_nil]
    rfl

/-- What is proved about the runs of `ServerStep` holds for a process that enters the two listeners
that it describes. -/
theorem refines_listening {descriptors : Multiset Int} {past : List ProcessEvent}
    {process : ServerProcess} (run : ServerProcess.Run serval (.initial descriptors) past process)
    (polling : ∀ function world, .enter function world ∈ past → Polls function) :
    ∃ events, GuardedRun (ServerStep serval) (fun _ _ => True) .initial events (view process) := by
  induction run with
  | refl => exact ⟨[], .refl⟩
  | @tail past process next event run _ step inductionHypothesis =>
    obtain ⟨events, run'⟩ := inductionHypothesis fun function world entered =>
      polling function world (List.mem_append_left _ entered)
    cases step with
    | enter function world idle =>
      have entered := enter_entered function.listener world process
      refine ⟨events, ?_⟩
      rw [view, entered.serverRunning, entered.doneCalls, entered.actions]
      exact run'
    | round listening below notOne round =>
      obtain ⟨isMode, function, world, entered, rfl⟩ := mode_of_run run _ listening
      obtain rfl | rfl := polling function world (List.mem_append_left _ entered)
      · exact ⟨_, .tail run' trivial (.listen below notOne (listenRound_of_round isMode round))⟩
      · exact ⟨_, .tail run' trivial (.listenRhizome below (listenRhizomeRound_of_round round))⟩
    | leave _ _ _ left =>
      obtain ⟨_, _, rfl⟩ := leave_cases left
      exact ⟨events, run'⟩
    | passed _ _ => exact ⟨events, run'⟩
    | signal => exact ⟨_, .tail run' trivial (.signal _)⟩

/-! ## The stop -/

/-- What sets `server_running`: a signal, and a poll that returns -1. -/
def Stops (serval : Serval) (process : ServerProcess) : ProcessEvent → Prop
  | .signal => True
  | .round input => ∃ listener processed, process.listening = some listener ∧
      listener.servesRhizome = true ∧
      rpcServerRhizomeProcess serval process.doneCalls input.listing = .ok processed ∧
      processed.returnCode = -1
  | _ => False

theorem stops_of_step {process next : ServerProcess} {event : ProcessEvent}
    (step : ProcessStep serval process event next) (stops : Stops serval process event) :
    next.serverRunning = 1 := by
  cases step with
  | enter _ _ _ => exact absurd stops id
  | round listening _ _ round =>
    obtain ⟨listener, processed, listening', serves, polled, failed⟩ := stops
    obtain rfl := Option.some.inj (listening.symm.trans listening')
    obtain ⟨_, _, _, _, ⟨other, _⟩ | ⟨_, processed', polled', rfl⟩⟩ := round_cases round
    · cases other.symm.trans serves
    · obtain rfl := Except.ok.inj (polled.symm.trans polled')
      exact if_pos failed
  | leave _ _ _ _ => exact absurd stops id
  | passed _ _ => exact absurd stops id
  | signal => rfl

/-- While nothing stops the process, a listener that has come to its loop stays in it. -/
structure Serving (process : ServerProcess) : Prop where
  running : process.serverRunning = 0
  noReturn : 0 ∉ process.codes
  bound : ∀ listener ∈ process.listening, 0 < listener.bound

theorem Serving.step {process next : ServerProcess} {event : ProcessEvent} (serving : Serving process)
    (goesOn : ¬ Stops serval process event) (step : ProcessStep serval process event next) :
    Serving next := by
  obtain ⟨running, noReturn, bound⟩ := serving
  cases step with
  | enter function world idle =>
    have running' := (enter_entered function.listener world process).serverRunning.trans running
    obtain ⟨stopped, codes, _⟩ | ⟨listening, codes, _⟩ := enter_cases function.listener world idle
    · refine ⟨running', ?_, ?_⟩
      · rw [codes]
        simpa using noReturn
      · intro listener member
        rw [stopped] at member
        cases member
    · refine ⟨running', codes ▸ noReturn, ?_⟩
      intro listener member
      rw [listening] at member
      obtain rfl := Option.some.inj member
      cases function <;> decide
  | round listening _ _ round =>
    obtain ⟨_, _, _, _, ⟨_, rfl⟩ | ⟨serves, processed, polled, rfl⟩⟩ := round_cases round
    · exact ⟨running, noReturn, bound⟩
    · have transferred : processed.returnCode ≠ -1 := fun failed =>
        goesOn ⟨_, processed, listening, serves, polled, failed⟩
      exact ⟨(if_neg transferred).trans running, noReturn, bound⟩
  | leave _ _ one _ =>
    rw [running] at one
    cases one
  | passed listening notBelow =>
    rw [running] at notBelow
    exact absurd (bound _ listening) notBelow
  | signal => exact absurd trivial goesOn

/-- Once `server_running` is 1, nothing is served any more. -/
theorem stopped_step {process next : ServerProcess} {event : ProcessEvent}
    (stopped : process.serverRunning = 1) (step : ProcessStep serval process event next) :
    next.serverRunning = 1 ∧ (∀ input, event ≠ .round input) ∧ next.actions = process.actions ∧
      next.doneCalls = process.doneCalls := by
  cases step with
  | enter function world _ =>
    have entered := enter_entered function.listener world process
    exact ⟨entered.serverRunning.trans stopped, fun _ => nofun, entered.actions, entered.doneCalls⟩
  | round _ _ notOne _ => exact absurd stopped notOne
  | leave _ _ _ left =>
    obtain ⟨_, _, rfl⟩ := leave_cases left
    exact ⟨stopped, fun _ => nofun, rfl, rfl⟩
  | passed _ _ => exact ⟨stopped, fun _ => nofun, rfl, rfl⟩
  | signal => exact ⟨rfl, fun _ => nofun, rfl, rfl⟩

/-- Up to its first stop a process serves: no listener that has come to its loop returns.  From then
on no listener of the process, entered before or later, runs a round again. -/
theorem serves_until_stopped (serval : Serval) {descriptors : Multiset Int}
    {past later : List ProcessEvent} {process next final : ServerProcess} {event : ProcessEvent}
    (run : GuardedRun (ProcessStep serval) (fun process event => ¬ Stops serval process event)
      (.initial descriptors) past process)
    (step : ProcessStep serval process event next) (stops : Stops serval process event)
    (continued : ServerProcess.Run serval next later final) :
    process.serverRunning = 0 ∧ 0 ∉ process.codes ∧
      final.serverRunning = 1 ∧ (∀ input, .round input ∉ later) ∧
      final.actions = next.actions ∧ final.doneCalls = next.doneCalls := by
  have serving : Serving process := by
    refine @GuardedRun.invariant _ _ _ _ _ (fun _ process => Serving process) ?_
      (fun _ _ _ _ serving goesOn step => serving.step goesOn step) _ _ run
    refine ⟨rfl, List.not_mem_nil, ?_⟩
    intro listener member
    cases member
  refine ⟨serving.running, serving.noReturn, ?_⟩
  refine @GuardedRun.invariant _ _ _ _ _ (fun later final => final.serverRunning = 1 ∧
      (∀ input, .round input ∉ later) ∧ final.actions = next.actions ∧
      final.doneCalls = next.doneCalls)
    ⟨stops_of_step step stops, fun _ => List.not_mem_nil, rfl, rfl⟩ ?_ _ _ continued
  rintro past' process' event' next' ⟨stopped, noRound, actions, doneCalls⟩ _ step'
  obtain ⟨stopped', notRound, actions', doneCalls'⟩ := stopped_step stopped step'
  refine ⟨stopped', ?_, actions'.trans actions, doneCalls'.trans doneCalls⟩
  intro input member
  obtain member | same := List.mem_append.mp member
  · exact noRound input member
  · exact notRound input (List.mem_singleton.mp same).symm

/-- The MSP listener is stopped by a signal. -/
theorem serves_until_stopped_signal : ∃ process next final,
    ProcessStep (Serval.executable sidAny) process .signal next ∧
      ServerProcess.Run (Serval.executable sidAny) next [.leave []] final ∧
      process.serverRunning = 0 ∧ final.serverRunning = 1 ∧ final.codes = [0] := by
  let process := ServalRpc.rpcServerListenMsp.enter ⟨3, 4, 0⟩ (.initial 0)
  let next := { process with serverRunning := 1 }
  have run : GuardedRun (ProcessStep (Serval.executable sidAny))
      (fun process event => ¬ Stops (Serval.executable sidAny) process event) (.initial 0)
      [.enter .rpcServerListenMsp ⟨3, 4, 0⟩] process :=
    .tail .refl id (.enter .rpcServerListenMsp ⟨3, 4, 0⟩ rfl)
  have step : ProcessStep (Serval.executable sidAny) process .signal next := .signal process
  obtain ⟨final, left, codes⟩ : ∃ final,
      ServalRpc.rpcServerListenMsp.leave (Serval.executable sidAny) next [] = .ok final ∧
        final.codes = [0] := ⟨_, rfl, rfl⟩
  have continued : ServerProcess.Run (Serval.executable sidAny) next [.leave []] final :=
    .tail .refl trivial (.leave rfl (by decide) rfl left)
  obtain ⟨running, _, stopped, _⟩ := serves_until_stopped _ run step trivial continued
  exact ⟨process, next, final, step, continued, running, stopped, codes⟩

/-! ## Channels -/

/-- An execution is no answer.  It inserts the file whose path it prints into the store, whatever the
mode. -/
def Executes (action : ServerAction) : Prop := ∃ rp, action = .excecute rp

/-- The modes in which an ACK or a result, as a packet or as a bundle, is on a channel that is
served. -/
def Speaks (serverMode : ServerMode) : ServerAction → Prop
  | .mdpSend _ _ _ => serverMode = .mdp ∨ serverMode = .all
  | .mspSend _ _ => serverMode = .msp ∨ serverMode = .all
  | .mspStop => serverMode = .msp ∨ serverMode = .all
  | .publish _ => serverMode = .rhizome ∨ serverMode = .all
  | .excecute _ => False

/-- Every action is an execution or on a channel of this mode. -/
def Keeps (serverMode : ServerMode) (actions : List ServerAction) : Prop :=
  ∀ action ∈ actions, ¬ Executes action → Speaks serverMode action

theorem keeps_nil (serverMode : ServerMode) : Keeps serverMode [] :=
  fun _ member => nomatch member

theorem keeps_append {serverMode : ServerMode} {left right : List ServerAction} :
    Keeps serverMode (left ++ right) ↔ Keeps serverMode left ∧ Keeps serverMode right :=
  List.forall_mem_append

theorem keeps_cons {serverMode : ServerMode} {action : ServerAction} {actions : List ServerAction} :
    Keeps serverMode (action :: actions) ↔
      (¬ Executes action → Speaks serverMode action) ∧ Keeps serverMode actions :=
  List.forall_mem_cons

theorem keeps_singleton {serverMode : ServerMode} {action : ServerAction}
    (speaks : Speaks serverMode action) : Keeps serverMode [action] :=
  keeps_cons.mpr ⟨fun _ => speaks, keeps_nil _⟩

/-- The actions of a handler that executes a call: the ACK, the execution and the answer. -/
theorem keeps_served {serverMode : ServerMode} {ack : ServerAction} {rp : RPCProcedure}
    {answer : List ServerAction} (acks : Speaks serverMode ack) (answers : Keeps serverMode answer) :
    Keeps serverMode (ack :: .excecute rp :: answer) :=
  keeps_cons.mpr ⟨fun _ => acks, keeps_cons.mpr ⟨fun other => absurd ⟨rp, rfl⟩ other, answers⟩⟩

theorem keeps_mspAnswer {serverMode : ServerMode} (served : serverMode = .msp ∨ serverMode = .all)
    (world : MspWorld) (rpcName : CString) (result : ExecuteResult) :
    Keeps serverMode (mspAnswer serval serverMode world rpcName result) := by
  unfold mspAnswer
  split
  · exact keeps_nil _
  · split
    · exact keeps_singleton served
    · split
      · rename_i all
        exact keeps_singleton (.inr all)
      · exact keeps_nil _

theorem keeps_mdpAnswer {serverMode : ServerMode} (served : serverMode = .mdp ∨ serverMode = .all)
    (world : MdpWorld) (remote : Sid) (rpcName : CString) (result : ExecuteResult) :
    Keeps serverMode (mdpAnswer serval serverMode world remote rpcName result) := by
  unfold mdpAnswer
  split
  · exact keeps_nil _
  · split
    · exact keeps_singleton served
    · split
      · rename_i all
        exact keeps_singleton (.inr all)
      · exact keeps_nil _

theorem keeps_mspHandler {serverMode : ServerMode} (served : serverMode = .msp ∨ serverMode = .all)
    {world : MspWorld} {delivery : MspDelivery} {ret : Nat} {actions : List ServerAction}
    (handled : rpcServerMspHandler serval serverMode world delivery = .ok (ret, actions)) :
    Keeps serverMode actions := by
  have stops : Keeps serverMode (if delivery.closing then [ServerAction.mspStop] else []) := by
    split
    · exact keeps_singleton served
    · exact keeps_nil _
  obtain rfl | ⟨rp, result, _, rfl⟩ := msp_cases handled
  · exact stops
  · have answers := @keeps_mspAnswer serval serverMode served world rp.name result
    exact keeps_append.mpr ⟨stops, keeps_served served answers⟩

theorem keeps_mspProcess {serverMode : ServerMode} (served : serverMode = .msp ∨ serverMode = .all)
    {deliveries : List (MspWorld × MspDelivery)} {actions : List ServerAction}
    (processed : rpcServerMspProcess serval serverMode deliveries = .ok actions) :
    Keeps serverMode actions := by
  obtain ⟨handled, handling, returned⟩ := bind_eq_ok_iff.mp processed
  obtain rfl := Except.ok.inj returned
  intro action member
  obtain ⟨⟨ret, done⟩, isHandled, member⟩ := List.mem_flatMap.mp member
  obtain ⟨⟨world, delivery⟩, _, call⟩ := exists_of_mapM_ok handling _ isHandled
  exact keeps_mspHandler served call action member

theorem keeps_mdpProcess {serverMode : ServerMode} (served : serverMode = .mdp ∨ serverMode = .all)
    {datagram : Option (MdpWorld × Option (Sid × List UInt8))} {actions : List ServerAction}
    (processed : rpcServerMdpProcess serval serverMode datagram = .ok actions) :
    Keeps serverMode actions := by
  cases datagram with
  | none =>
    obtain rfl := Except.ok.inj processed
    exact keeps_nil _
  | some input =>
    obtain ⟨⟨ret, handled⟩, handling, returned⟩ := bind_eq_ok_iff.mp processed
    obtain rfl := Except.ok.inj returned
    obtain rfl | ⟨remote, rp, result, _, rfl⟩ := mdp_cases handling
    · exact keeps_nil _
    · exact keeps_served served (keeps_mdpAnswer served _ remote rp.name result)

theorem keeps_rhizomeLoop {serverMode : ServerMode}
    (served : serverMode = .rhizome ∨ serverMode = .all) {visits : List Visit}
    {state final : ProcessState} (looped : rhizomeLoop serval state visits = .ok final)
    (before : Keeps serverMode state.actions) : Keeps serverMode final.actions := by
  induction visits generalizing state with
  | nil =>
    obtain rfl := Except.ok.inj looped
    exact before
  | cons visit visits inductionHypothesis =>
    obtain ⟨⟨next, goesOn⟩, round, looped⟩ := bind_eq_ok_iff.mp looped
    have after : Keeps serverMode next.actions := by
      obtain ⟨rp, caller, result, _, attempted, _⟩ | ⟨_, _, same⟩ := round_attempts round
      · rw [attempted.actions]
        refine keeps_append.mpr ⟨before, keeps_served served ?_⟩
        split
        · exact keeps_nil _
        · exact keeps_singleton served
      · exact same ▸ before
    cases goesOn with
    | false =>
      obtain rfl := Except.ok.inj looped
      exact after
    | true => exact inductionHypothesis looped after

theorem keeps_rhizomeProcess {serverMode : ServerMode}
    (served : serverMode = .rhizome ∨ serverMode = .all) {doneCalls : List CString}
    {listing : Option (List Visit)} {final : ProcessState}
    (processed : rpcServerRhizomeProcess serval doneCalls listing = .ok final) :
    Keeps serverMode final.actions := by
  cases listing with
  | none =>
    obtain rfl := Except.ok.inj processed
    exact keeps_nil _
  | some visits =>
    simp only [rpcServerRhizomeProcess] at processed
    split at processed
    · obtain rfl := Except.ok.inj processed
      exact keeps_nil _
    · exact keeps_rhizomeLoop served processed (keeps_nil _)

/-- The parts of a listener are those of its mode. -/
theorem served_of_part (function : ServerFunction) :
    (function.listener.servesMsp = true → function.listener.serverMode = .msp ∨
        function.listener.serverMode = .all) ∧
      (function.listener.servesMdp = true → function.listener.serverMode = .mdp ∨
        function.listener.serverMode = .all) ∧
      (function.listener.servesRhizome = true → function.listener.serverMode = .rhizome ∨
        function.listener.serverMode = .all) := by
  cases function <;> decide

theorem keeps_processMsp {function : ServerFunction} {serverMode : ServerMode}
    (mode : serverMode = function.listener.serverMode)
    {deliveries : List (MspWorld × MspDelivery)} {actions : List ServerAction}
    (processed : function.listener.processMsp serval serverMode deliveries = .ok actions) :
    Keeps serverMode actions := by
  unfold Listener.processMsp at processed
  split at processed
  · rename_i serves
    exact keeps_mspProcess (mode ▸ (served_of_part function).1 serves) processed
  · obtain rfl := Except.ok.inj processed
    exact keeps_nil _

theorem keeps_processMdp {function : ServerFunction} {serverMode : ServerMode}
    (mode : serverMode = function.listener.serverMode)
    {datagram : Option (MdpWorld × Option (Sid × List UInt8))} {actions : List ServerAction}
    (processed : function.listener.processMdp serval serverMode datagram = .ok actions) :
    Keeps serverMode actions := by
  unfold Listener.processMdp at processed
  split at processed
  · rename_i serves
    exact keeps_mdpProcess (mode ▸ (served_of_part function).2.1 serves) processed
  · obtain rfl := Except.ok.inj processed
    exact keeps_nil _

/-- A round adds answers on the channels of its listener. -/
theorem round_keeps {function : ServerFunction} {process next : ServerProcess} {input : ListenInput}
    (mode : process.serverMode = function.listener.serverMode)
    (round : function.listener.round serval process input = .ok next) :
    next.closingActions = process.closingActions ∧
      ∃ added, next.actions = process.actions ++ added ∧ Keeps process.serverMode added := by
  obtain ⟨mspActions, mdpActions, msp, mdp, served⟩ := round_cases round
  have sockets : Keeps process.serverMode (mspActions ++ mdpActions) :=
    keeps_append.mpr ⟨keeps_processMsp mode msp, keeps_processMdp mode mdp⟩
  obtain ⟨_, rfl⟩ | ⟨serves, processed, polled, rfl⟩ := served
  · exact ⟨rfl, _, List.append_assoc _ _ _, sockets⟩
  · have served := (served_of_part function).2.2 serves
    have polls := keeps_rhizomeProcess (mode ▸ served) polled
    refine ⟨rfl, mspActions ++ mdpActions ++ processed.actions, ?_, keeps_append.mpr ⟨sockets, polls⟩⟩
    simp only [List.append_assoc]

/-- What a step adds to the actions belongs to the channels of the listener that runs. -/
theorem speaks_step {past : List ProcessEvent} {process next : ServerProcess} {event : ProcessEvent}
    (mode : Mode past process) (step : ProcessStep serval process event next) {action : ServerAction}
    (member : action ∈ next.actions ++ next.closingActions) (answer : ¬ Executes action) :
    action ∈ process.actions ++ process.closingActions ∨
      ∃ function world, .enter function world ∈ past ∧
        Speaks function.listener.serverMode action := by
  cases step with
  | enter function world idle =>
    have entered := enter_entered function.listener world process
    rw [entered.actions, entered.closingActions] at member
    exact .inl member
  | round listening _ _ round =>
    obtain ⟨isMode, function, world, entered, rfl⟩ := mode _ listening
    obtain ⟨sameClosing, added, isAdded, keeps⟩ := round_keeps isMode round
    rw [isAdded, sameClosing] at member
    obtain member | member := List.mem_append.mp member
    · obtain earlier | new := List.mem_append.mp member
      · exact .inl (List.mem_append_left _ earlier)
      · exact .inr ⟨function, world, entered, isMode ▸ keeps action new answer⟩
    · exact .inl (List.mem_append_right _ member)
  | leave listening _ _ left =>
    obtain ⟨isMode, function, world, entered, rfl⟩ := mode _ listening
    obtain ⟨closing, processed, rfl⟩ := leave_cases left
    obtain member | member := List.mem_append.mp member
    · exact .inl (List.mem_append_left _ member)
    · obtain member | member := List.mem_append.mp member
      · exact .inl (List.mem_append_right _ member)
      · exact .inr ⟨function, world, entered,
          isMode ▸ keeps_processMsp isMode processed action member answer⟩
  | passed _ _ => exact .inl member
  | signal => exact .inl member

/-- Every ACK and every result of a process, as a packet or as a bundle, is on a channel of a listener
that it has entered: a process that listens over MSP or MDP alone publishes none of them, and the
Rhizome listener sends no packet. -/
theorem channels_kept (serval : Serval) {descriptors : Multiset Int} {past : List ProcessEvent}
    {process : ServerProcess} (run : ServerProcess.Run serval (.initial descriptors) past process) :
    ∀ action ∈ process.actions ++ process.closingActions, ¬ Executes action →
      ∃ function world, .enter function world ∈ past ∧
        Speaks function.listener.serverMode action := by
  induction run with
  | refl => exact fun _ member => nomatch member
  | tail run _ step inductionHypothesis =>
    intro action member answer
    obtain earlier | ⟨function, world, entered, speaks⟩ :=
      speaks_step (mode_of_run run) step member answer
    · obtain ⟨function, world, entered, speaks⟩ := inductionHypothesis action earlier answer
      exact ⟨function, world, List.mem_append_left _ entered, speaks⟩
    · exact ⟨function, world, List.mem_append_left _ entered, speaks⟩

theorem mspRound_of_handled {process : ServerProcess} {world : MspWorld} {delivery : MspDelivery}
    {ret : Nat} {actions : List ServerAction} (mode : process.serverMode = .msp)
    (handled : rpcServerMspHandler serval .msp world delivery = .ok (ret, actions)) :
    ∃ next, ServalRpc.rpcServerListenMsp.round serval process ⟨[(world, delivery)], none, none⟩ =
      .ok next ∧ next.actions = process.actions ++ actions := by
  have processed : rpcServerMspProcess serval process.serverMode [(world, delivery)] =
      .ok actions := by
    simp [rpcServerMspProcess, mode, handled, bind, Except.bind, pure, Except.pure]
  refine ⟨{ process with actions := process.actions ++ actions ++ [] }, ?_, List.append_nil _⟩
  simp only [Listener.round, Listener.processMsp, ServalRpc.rpcServerListenMsp, if_true, processed]
  rfl

/-- The MSP listener acknowledges the call of `add` and sends its result, both over MSP. -/
theorem channels_kept_served : ∃ past process ackSent result,
    ServerProcess.Run (Serval.executable sidAny) (.initial 0) past process ∧
      process.actions = [.mspSend [rpcPktCallAck] ackSent, .excecute Delivery.addCalled,
        .mspSend result rpcPktSize] ∧
      ∃ function world, .enter function world ∈ past ∧
        Speaks function.listener.serverMode (.mspSend result rpcPktSize) := by
  obtain ⟨result, executed, succeeded, same⟩ := Delivery.add_executed
  have freed : rpcFreeRp result.rp = .ok () := by rw [same, Delivery.addCalled_freed]
  have handled := @mspHandler_of_accepted (Serval.executable sidAny) .msp
    (Delivery.mspWorldOf rpcPktSize) Delivery.addDelivery Delivery.addPayload Delivery.addCalled
    result rfl Delivery.add_type Delivery.add_admitted executed freed
  have answer : mspAnswer (Serval.executable sidAny) .msp (Delivery.mspWorldOf rpcPktSize)
      Delivery.addCalled.name result = [.mspSend result.resultPayload.cells rpcPktSize] := by
    rw [mspAnswer, if_neg succeeded]
    rfl
  rw [answer] at handled
  let process := ServalRpc.rpcServerListenMsp.enter ⟨3, 4, 0⟩ (.initial 0)
  let input : ListenInput :=
    ⟨[(Delivery.mspWorldOf rpcPktSize, Delivery.addDelivery)], none, none⟩
  obtain ⟨next, round, actions⟩ : ∃ next,
      ServalRpc.rpcServerListenMsp.round (Serval.executable sidAny) process input = .ok next ∧
        next.actions = [.mspSend [rpcPktCallAck] (Delivery.mspWorldOf rpcPktSize).ackSent,
          .excecute Delivery.addCalled, .mspSend result.resultPayload.cells rpcPktSize] :=
    mspRound_of_handled rfl handled
  have entered : ServerProcess.Run (Serval.executable sidAny) (.initial 0)
      [.enter .rpcServerListenMsp ⟨3, 4, 0⟩] process :=
    .tail .refl trivial (.enter .rpcServerListenMsp ⟨3, 4, 0⟩ rfl)
  have run : ServerProcess.Run (Serval.executable sidAny) (.initial 0)
      [.enter .rpcServerListenMsp ⟨3, 4, 0⟩, .round input] next :=
    .tail entered trivial (.round rfl (by decide) (by decide) round)
  have member : .mspSend result.resultPayload.cells rpcPktSize ∈
      next.actions ++ next.closingActions := by simp [actions]
  have isAnswer : ¬ Executes (.mspSend result.resultPayload.cells rpcPktSize) := by
    rintro ⟨rp, same⟩
    cases same
  exact ⟨_, next, _, result.resultPayload.cells, run, actions,
    channels_kept _ run _ member isAnswer⟩

end ServalRpc.Verified.ProcessRuns
