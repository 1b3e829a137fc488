import Mathlib.Algebra.Order.BigOperators.Group.List
import Mathlib.Data.Multiset.OrderedMonoid
import ServalRpc.Model.ServerProcess

/-! # The sockets of the server

A listener that returns 0 has closed what it opened, and a round finds its sockets open.  What stays
open is what a failed setup had opened: the socket that could not be bound, and in
`rpc_server_listen` the socket of the MSP part, which is set up first.
-/

namespace ServalRpc.Verified.ProcessSockets

open CLib

variable {serval : Serval}

/-! ## Books -/

/-- The descriptors that a listener closes at its end. -/
def held (listener : Listener) (process : ServerProcess) : Multiset Int :=
  (if listener.servesMsp then {process.mdpFdMsp} else 0) +
    (if listener.servesMdp then {process.mdpSock} else 0)

def heldNow (process : ServerProcess) : Multiset Int :=
  process.listening.elim 0 fun listener => held listener process

/-- What a listener leaves open when its setup fails. -/
def leaked (listener : Listener) (world : SetupWorld) : Multiset Int :=
  if listener.servesMsp ∧ world.mspSocket < 0 then 0
  else if listener.servesMdp ∧ (world.mdpSocket < 0 ∨ world.mdpBind < 0) then
    (if listener.servesMsp then {world.mspSocket} else 0) +
      (if 0 ≤ world.mdpSocket then {world.mdpSocket} else 0)
  else 0

def leakedBy : ProcessEvent → Multiset Int
  | .enter function world => leaked function.listener world
  | _ => 0

/-- Between two steps: `server_running` is a flag, a listener with sockets checks it before it
serves them, the polled descriptor is that of the socket, and the books of the descriptors balance. -/
structure Accounted (descriptors : Multiset Int) (past : List ProcessEvent)
    (process : ServerProcess) : Prop where
  running : process.serverRunning ≤ 1
  listener : ∀ listener ∈ process.listening, ∃ function : ServerFunction,
    listener = function.listener
  polled : ∀ listener ∈ process.listening, listener.servesMdp → process.mdpPollFd = process.mdpSock
  balance : process.descriptors = descriptors + heldNow process + (past.map leakedBy).sum

/-! ## Steps -/

theorem cons_eq_add (descriptor : Int) (descriptors : Multiset Int) :
    descriptor ::ₘ descriptors = descriptors + {descriptor} := by
  rw [add_comm, Multiset.singleton_add]

/-- The process when the MSP part is set up. -/
def withMsp (listener : Listener) (world : SetupWorld) (process : ServerProcess) : ServerProcess :=
  { process with
    mdpFdMsp := if listener.servesMsp then world.mspSocket else process.mdpFdMsp
    descriptors := process.descriptors + if listener.servesMsp then {world.mspSocket} else 0 }

theorem setupMsp_cases (listener : Listener) (world : SetupWorld) (process : ServerProcess) :
    listener.setupMsp world process = (-1, { process with mdpFdMsp := world.mspSocket }) ∧
        (listener.servesMsp ∧ world.mspSocket < 0) ∨
      listener.setupMsp world process = (0, withMsp listener world process) ∧
        ¬ (listener.servesMsp ∧ world.mspSocket < 0) := by
  cases serves : listener.servesMsp with
  | false => simp [Listener.setupMsp, withMsp, serves]
  | true =>
    by_cases failed : world.mspSocket < 0
    · simp [Listener.setupMsp, rpcServerMspSetup, serves, failed]
    · simp [Listener.setupMsp, rpcServerMspSetup, withMsp, serves, failed, cons_eq_add]

/-- The process when the MDP part has its socket. -/
def withMdp (listener : Listener) (world : SetupWorld) (process : ServerProcess) : ServerProcess :=
  { process with
    mdpSock := if listener.servesMdp then world.mdpSocket else process.mdpSock
    descriptors := process.descriptors +
      if listener.servesMdp ∧ 0 ≤ world.mdpSocket then {world.mdpSocket} else 0 }

theorem setupMdp_cases (listener : Listener) (world : SetupWorld) (process : ServerProcess) :
    listener.setupMdp world process = (-1, withMdp listener world process) ∧
        (listener.servesMdp ∧ (world.mdpSocket < 0 ∨ world.mdpBind < 0)) ∨
      listener.setupMdp world process = (0, { withMdp listener world process with
          mdpPollFd := if listener.servesMdp then world.mdpSocket else process.mdpPollFd }) ∧
        ¬ (listener.servesMdp ∧ (world.mdpSocket < 0 ∨ world.mdpBind < 0)) := by
  cases serves : listener.servesMdp with
  | false => simp [Listener.setupMdp, withMdp, serves]
  | true =>
    by_cases noSocket : world.mdpSocket < 0
    · simp [Listener.setupMdp, rpcServerMdpSetup, withMdp, serves, noSocket]
    · by_cases unbound : world.mdpBind < 0
      · simp [Listener.setupMdp, rpcServerMdpSetup, withMdp, serves, noSocket, unbound, cons_eq_add]
      · simp [Listener.setupMdp, rpcServerMdpSetup, withMdp, serves, noSocket, unbound, cons_eq_add]

/-- What an entered listener does before its loop, whether its setup succeeds or not. -/
structure Entered (listener : Listener) (process next : ServerProcess) : Prop where
  serverRunning : next.serverRunning = process.serverRunning
  serverMode : next.serverMode = listener.serverMode
  doneCalls : next.doneCalls = process.doneCalls
  actions : next.actions = process.actions
  closingActions : next.closingActions = process.closingActions

theorem enter_entered (listener : Listener) (world : SetupWorld) (process : ServerProcess) :
    Entered listener process (listener.enter world process) := by
  obtain ⟨msp, _⟩ | ⟨msp, _⟩ :=
    setupMsp_cases listener world { process with serverMode := listener.serverMode }
  · rw [Listener.enter, msp, if_pos rfl]
    exact ⟨rfl, rfl, rfl, rfl, rfl⟩
  · obtain ⟨mdp, _⟩ | ⟨mdp, _⟩ := setupMdp_cases listener world
      (withMsp listener world { process with serverMode := listener.serverMode })
    · rw [Listener.enter, msp, if_neg (show ¬ (0 : Int) = -1 by decide), mdp, if_pos rfl]
      exact ⟨rfl, rfl, rfl, rfl, rfl⟩
    · rw [Listener.enter, msp, if_neg (show ¬ (0 : Int) = -1 by decide), mdp,
        if_neg (show ¬ (0 : Int) = -1 by decide)]
      exact ⟨rfl, rfl, rfl, rfl, rfl⟩

/-- A listener that does not come to its loop leaves a descriptor for each part that it had set up;
one that does has one for each part. -/
theorem enter_cases (listener : Listener) (world : SetupWorld) {process : ServerProcess}
    (idle : process.listening = none) :
    let next := listener.enter world process
    next.listening = none ∧ next.codes = process.codes ++ [-1] ∧
        next.descriptors = process.descriptors + leaked listener world ∨
      next.listening = some listener ∧ next.codes = process.codes ∧
        (listener.servesMdp → next.mdpPollFd = next.mdpSock) ∧ leaked listener world = 0 ∧
        next.descriptors = process.descriptors + held listener next := by
  obtain ⟨msp, failed⟩ | ⟨msp, opened⟩ :=
    setupMsp_cases listener world { process with serverMode := listener.serverMode }
  · left
    rw [Listener.enter, msp, if_pos rfl]
    simp [ServerProcess.returns, leaked, failed]
  · obtain ⟨mdp, failed⟩ | ⟨mdp, bound⟩ := setupMdp_cases listener world
      (withMsp listener world { process with serverMode := listener.serverMode })
    · left
      rw [Listener.enter, msp, if_neg (show ¬ (0 : Int) = -1 by decide), mdp, if_pos rfl]
      simp [ServerProcess.returns, withMdp, withMsp, leaked, opened, failed, add_assoc]
    · right
      rw [Listener.enter, msp, if_neg (show ¬ (0 : Int) = -1 by decide), mdp,
        if_neg (show ¬ (0 : Int) = -1 by decide)]
      refine ⟨rfl, rfl, fun serves => ?_, ?_, ?_⟩
      · simp [withMdp, serves]
      · simp [leaked, opened, bound]
      · have opens : listener.servesMdp → 0 ≤ world.mdpSocket := fun serves =>
          not_lt.mp fun noSocket => bound ⟨serves, .inl noSocket⟩
        cases servesMsp : listener.servesMsp <;> cases servesMdp : listener.servesMdp <;>
          simp_all [withMdp, withMsp, held, add_assoc]

/-- A round without the store adds what the handlers of the sockets do. -/
theorem round_cases {listener : Listener} {process next : ServerProcess} {input : ListenInput}
    (round : listener.round serval process input = .ok next) :
    ∃ mspActions mdpActions,
      listener.processMsp serval process.serverMode input.deliveries = .ok mspActions ∧
      listener.processMdp serval process.serverMode input.datagram = .ok mdpActions ∧
      (listener.servesRhizome = false ∧
          next = { process with actions := process.actions ++ mspActions ++ mdpActions } ∨
        listener.servesRhizome = true ∧ ∃ processed,
          rpcServerRhizomeProcess serval process.doneCalls input.listing = .ok processed ∧
          next = { process with
            serverRunning := if processed.returnCode = -1 then 1 else process.serverRunning
            doneCalls := processed.doneCalls
            actions := process.actions ++ mspActions ++ mdpActions ++ processed.actions }) := by
  unfold Listener.round at round
  obtain ⟨mspActions, msp, round⟩ := bind_eq_ok_iff.mp round
  obtain ⟨mdpActions, mdp, round⟩ := bind_eq_ok_iff.mp round
  refine ⟨mspActions, mdpActions, msp, mdp, ?_⟩
  split at round
  · rename_i serves
    obtain ⟨processed, polled, round⟩ := bind_eq_ok_iff.mp round
    exact .inr ⟨serves, processed, polled, (Except.ok.inj round).symm⟩
  · rename_i serves
    exact .inl ⟨Bool.eq_false_iff.mpr serves, (Except.ok.inj round).symm⟩

/-- The end of a listener closes what the listener holds and nothing else. -/
theorem leave_cases {listener : Listener} {process next : ServerProcess}
    {deliveries : List (MspWorld × MspDelivery)}
    (left : listener.leave serval process deliveries = .ok next) :
    ∃ closing, listener.processMsp serval process.serverMode deliveries = .ok closing ∧
      next = { process.returns 0 with
        descriptors := process.descriptors - held listener process
        closingActions := process.closingActions ++ closing } := by
  unfold Listener.leave at left
  obtain ⟨cleaned, msp, left⟩ := bind_eq_ok_iff.mp left
  obtain rfl := Except.ok.inj left
  cases servesMsp : listener.servesMsp with
  | false =>
    rw [Listener.cleanupMsp, servesMsp] at msp
    obtain rfl := Except.ok.inj msp
    refine ⟨[], by rw [Listener.processMsp, servesMsp]; rfl, ?_⟩
    cases servesMdp : listener.servesMdp <;>
      simp [held, servesMsp, servesMdp, Listener.cleanupMdp, rpcServerMdpCleanup,
        ServerProcess.returns]
  | true =>
    rw [Listener.cleanupMsp, servesMsp] at msp
    obtain ⟨closing, processed, cleaned⟩ := bind_eq_ok_iff.mp msp
    obtain rfl := Except.ok.inj cleaned
    refine ⟨closing, by rw [Listener.processMsp, servesMsp]; exact processed, ?_⟩
    cases servesMdp : listener.servesMdp <;>
      simp [held, servesMsp, servesMdp, Listener.cleanupMdp, rpcServerMdpCleanup,
        ServerProcess.returns]

/-! ## Runs -/

theorem accounted_initial (descriptors : Multiset Int) :
    Accounted descriptors [] (.initial descriptors) := by
  refine ⟨Nat.zero_le 1, ?_, ?_, ?_⟩
  · intro listener member
    cases member
  · intro listener member
    cases member
  · simp [ServerProcess.initial, heldNow]

theorem leakedBy_concat (past : List ProcessEvent) (event : ProcessEvent) :
    ((past ++ [event]).map leakedBy).sum = (past.map leakedBy).sum + leakedBy event := by
  rw [List.map_append, List.sum_append, List.map_singleton, List.sum_singleton]

theorem accounted_step {descriptors : Multiset Int} {past : List ProcessEvent}
    {process next : ServerProcess} {event : ProcessEvent}
    (accounted : Accounted descriptors past process) (step : ProcessStep serval process event next) :
    Accounted descriptors (past ++ [event]) next := by
  obtain ⟨running, isListener, polled, balance⟩ := accounted
  cases step with
  | enter function world idle =>
    have entered := enter_entered function.listener world process
    have idleBalance : process.descriptors = descriptors + (past.map leakedBy).sum := by
      rw [balance, heldNow, idle]
      simp
    obtain ⟨stopped, _, opened⟩ | ⟨listening, _, sameSocket, noLeak, opened⟩ :=
      enter_cases function.listener world idle
    · refine ⟨entered.serverRunning ▸ running, ?_, ?_, ?_⟩
      · intro listener member
        rw [stopped] at member
        cases member
      · intro listener member
        rw [stopped] at member
        cases member
      · rw [opened, idleBalance, heldNow, stopped, leakedBy_concat]
        simp [leakedBy, add_assoc]
    · refine ⟨entered.serverRunning ▸ running, ?_, ?_, ?_⟩
      · intro listener member
        rw [listening] at member
        exact ⟨function, (Option.some.inj member).symm⟩
      · intro listener member serves
        rw [listening] at member
        obtain rfl := Option.some.inj member
        exact sameSocket serves
      · rw [opened, idleBalance, heldNow, listening, leakedBy_concat, leakedBy, noLeak, add_zero,
          Option.elim_some, add_right_comm]
  | round listening below notOne round =>
    have quiet : ∀ input, leakedBy (.round input) = 0 := fun _ => rfl
    obtain ⟨_, _, _, _, ⟨_, rfl⟩ | ⟨_, processed, _, rfl⟩⟩ := round_cases round
    · refine ⟨running, isListener, polled, ?_⟩
      rw [leakedBy_concat, quiet, add_zero]
      exact balance
    · refine ⟨?_, isListener, polled, ?_⟩
      · simp only
        split
        · exact Nat.le_refl 1
        · exact running
      · rw [leakedBy_concat, quiet, add_zero]
        exact balance
  | leave listening below one left =>
    obtain ⟨closing, _, rfl⟩ := leave_cases left
    refine ⟨running, ?_, ?_, ?_⟩
    · intro listener member
      cases member
    · intro listener member
      cases member
    · have quiet : ∀ deliveries, leakedBy (.leave deliveries) = 0 := fun _ => rfl
      rw [heldNow, listening, Option.elim_some, add_right_comm] at balance
      rw [leakedBy_concat, quiet, add_zero]
      simp only [balance, heldNow, ServerProcess.returns, Option.elim_none, add_zero,
        Multiset.add_sub_cancel_right]
  | @passed listener listening notBelow =>
    obtain ⟨function, rfl⟩ := isListener listener listening
    -- Only the Rhizome listener passes its loop, and it holds no socket.
    have heldNothing : held function.listener process = 0 := by
      cases function with
      | rpcServerListenRhizome => rfl
      | rpcServerListen => exact absurd (Nat.lt_succ_of_le running) notBelow
      | rpcServerListenMsp => exact absurd (Nat.lt_succ_of_le running) notBelow
      | rpcServerListenMdpBroadcast => exact absurd (Nat.lt_succ_of_le running) notBelow
    refine ⟨running, ?_, ?_, ?_⟩
    · intro listener member
      cases member
    · intro listener member
      cases member
    · rw [heldNow, listening, Option.elim_some, heldNothing] at balance
      have quiet : leakedBy .passed = 0 := rfl
      rw [leakedBy_concat, quiet, add_zero]
      exact balance
  | signal =>
    have quiet : leakedBy .signal = 0 := rfl
    refine ⟨Nat.le_refl 1, isListener, polled, ?_⟩
    rw [leakedBy_concat, quiet, add_zero]
    exact balance

theorem accounted_of_run {descriptors : Multiset Int} {past : List ProcessEvent}
    {process : ServerProcess}
    (run : ServerProcess.Run serval (.initial descriptors) past process) :
    Accounted descriptors past process :=
  run.invariant (accounted_initial descriptors)
    fun _ _ _ _ accounted _ step => accounted_step accounted step

end ServalRpc.Verified.ProcessSockets
