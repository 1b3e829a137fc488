import ServalRpc.Verified.MspFinality

/-! # Losing an MSP connection

`rpc_client_call_msp` means to start the Rhizome listener when its socket is closed.  It asks whether
its own handle is null, and the library, which takes handles by value, does not set it to null when
the connection ends.
-/

namespace ServalRpc.Verified.MspFallback

open CLib Addressee Independence MspFinality

/-- What an iteration of the loop does: it closes the sockets and listens for this call, or it lets
the library call the handler. -/
inductive MspIteration where
  | listens (call : ClientCall)
  | handles (deliveries : List ClientDelivery)

def mspIteration (call : ClientCall) (world : MspCallWorld) (round : MspRound) : MspIteration :=
  if round.socketIsNull && !round.socketIsData then
    .listens ⟨call.serval, world.straySid, world.strayName⟩
  else .handles round.deliveries

/-- The Rhizome listener takes over with the sid and the name of the call. -/
def FallsBack (call : ClientCall) (world : MspCallWorld) (round : MspRound) : Prop :=
  mspIteration call world round = .listens call

/-- All rounds look at the handle that the call has got, and the handler has been set on a socket. -/
structure SeesHandle (sock : MspHandle) (rounds : List MspRound) : Prop where
  copied : ∀ round ∈ rounds, round.socketIsNull = mspSocketIsNull sock
  handled : ∀ round ∈ rounds, round.deliveries ≠ [] → mspSocketIsNull sock = false

/-- The handler has been told that the connection is closed, has failed, or is shut down. -/
def ToldOfEnd (past : List MspRound) : Prop :=
  ∃ round ∈ past, ∃ delivery ∈ round.deliveries,
    delivery.closed = true ∨ delivery.shutdownRemote = true

section Iterations

variable {call : ClientCall} {world : MspCallWorld}

theorem mspLoop_iteration {memory : ClientMemory}
    (waiting : memory.received = 0 ∨ memory.received = 1) (round : MspRound)
    (rounds : List MspRound) :
    mspLoop call world memory (round :: rounds) =
      match mspIteration call world round with
      | .listens listener => mspDeliver call memory world.closing >>= fun next =>
          rpcClientRhizomeListen listener world.listen next
      | .handles deliveries => mspDeliver call memory deliveries >>= fun next =>
          mspLoop call world next rounds := by
  rw [mspLoop, if_pos waiting, mspIteration]
  cases round.socketIsNull && !round.socketIsData with
  | true => rfl
  | false => rfl

theorem mspIteration_connected {round : MspRound} (connected : round.socketIsNull = false) :
    mspIteration call world round = .handles round.deliveries := by
  rw [mspIteration, connected, Bool.false_and, if_neg Bool.false_ne_true]

/-- A handle that has been handled is not null, and no round finds it null. -/
theorem SeesHandle.connected {sock : MspHandle} {past rest : List MspRound}
    (sees : SeesHandle sock (past ++ rest)) (told : ToldOfEnd past) :
    ∀ round ∈ rest, round.socketIsNull = false := by
  obtain ⟨ended, member, delivery, delivered, _⟩ := told
  have set : mspSocketIsNull sock = false :=
    sees.handled ended (List.mem_append_left _ member) (List.ne_nil_of_mem delivered)
  intro round later
  rw [sees.copied round (List.mem_append_right _ later), set]

/-- Nothing but a delivery lets the loop go on from where it is. -/
theorem mspLoop_silent {memory : ClientMemory} {rounds : List MspRound}
    (waiting : memory.received = 0 ∨ memory.received = 1)
    (connected : ∀ round ∈ rounds, round.socketIsNull = false)
    (silent : ∀ round ∈ rounds, round.deliveries = []) :
    mspLoop call world memory rounds = .ok ⟨none, memory⟩ := by
  induction rounds with
  | nil => rw [mspLoop, if_pos waiting]
  | cons round rounds inductionHypothesis =>
    rw [List.forall_mem_cons] at connected silent
    rw [mspLoop_iteration waiting, mspIteration_connected connected.1, silent.1]
    exact inductionHypothesis connected.2 silent.2

end Iterations

/-- No iteration that finds an accepted call after the end of its connection falls back.  It polls
the socket as before, and without deliveries the call does not return. -/
theorem never_falls_back (call : ClientCall) (world : MspCallWorld) (memory : ClientMemory)
    (passes : world.reachable ≠ 0) {sock : MspHandle} (sees : SeesHandle sock world.rounds)
    {past rounds : List MspRound} {round : MspRound} (isRound : world.rounds = past ++ round :: rounds)
    {current : ClientMemory}
    (run : GuardedRun (MspRoundStep call) (fun _ _ => True) ⟨memory.received, .empty⟩ past current)
    (acked : current.received = 1) (told : ToldOfEnd past) :
    ¬ FallsBack call world round ∧
    rpcClientCallMsp call world memory =
      mspDeliver call current round.deliveries >>= (fun next => mspLoop call world next rounds) ∧
    ((∀ later ∈ round :: rounds, later.deliveries = []) →
      rpcClientCallMsp call world memory = .ok ⟨none, current⟩) := by
  rw [isRound] at sees
  have connected := sees.connected told
  have iteration : mspIteration call world round = .handles round.deliveries :=
    mspIteration_connected (connected round List.mem_cons_self)
  have waiting : current.received = 0 ∨ current.received = 1 := .inr acked
  rw [callMsp_run passes isRound run]
  refine ⟨?_, ?_, mspLoop_silent waiting connected⟩
  · rw [FallsBack, iteration]
    exact MspIteration.noConfusion
  · rw [mspLoop_iteration waiting, iteration]

/-! ## A connection that closes after the ACK -/

def openSocket : MspHandle := ⟨some 4096, 1⟩

/-- The server acknowledges, and the connection is closed; then nothing happens. -/
def lostRounds : List MspRound :=
  [⟨false, true, [ackDelivery]⟩, ⟨false, false, [closedDelivery]⟩, ⟨false, false, []⟩]

def lostWorld : MspCallWorld := { worldWith closedDelivery with rounds := lostRounds }

theorem lostRounds_run : GuardedRun (MspRoundStep (callServer 1)) (fun _ _ => True) .initial
    [⟨false, true, [ackDelivery]⟩, ⟨false, false, [closedDelivery]⟩] ⟨1, .empty⟩ :=
  acked_run.tail trivial ⟨.inr rfl, rfl, rfl⟩

theorem lostRounds_sees : SeesHandle openSocket lostRounds := by
  refine ⟨fun round member => ?_, fun _ _ _ => rfl⟩
  simp only [lostRounds, List.mem_cons, List.not_mem_nil, or_false] at member
  obtain rfl | rfl | rfl := member <;> rfl

theorem lostRounds_told :
    ToldOfEnd [⟨false, true, [ackDelivery]⟩, ⟨false, false, [closedDelivery]⟩] :=
  ⟨_, List.mem_cons_of_mem _ List.mem_cons_self, closedDelivery, List.mem_cons_self, .inl rfl⟩

theorem never_falls_back_lost : ¬ FallsBack (callServer 1) lostWorld ⟨false, false, []⟩ ∧
    rpcClientCallMsp (callServer 1) lostWorld .initial = .ok ⟨none, 1, .empty⟩ := by
  have passes : lostWorld.reachable ≠ 0 := Int.one_ne_zero
  obtain ⟨polls, _, waits⟩ :=
    never_falls_back (callServer 1) lostWorld .initial passes lostRounds_sees rfl
    lostRounds_run rfl lostRounds_told
  exact ⟨polls, waits fun later member => by rw [List.mem_singleton.mp member]⟩

/-- After the lost connection the loop runs on with the call acknowledged. -/
theorem lost_connection_waits :
    SeesHandle openSocket lostWorld.rounds ∧
    lostWorld.rounds = lostRounds.take 2 ++ [⟨false, false, []⟩] ∧
    GuardedRun (MspRoundStep (callServer 1)) (fun _ _ => True) .initial (lostRounds.take 2) ⟨1, .empty⟩ ∧
    ToldOfEnd (lostRounds.take 2) ∧
    ¬ FallsBack (callServer 1) lostWorld ⟨false, false, []⟩ ∧
    rpcClientCallMsp (callServer 1) lostWorld .initial = .ok ⟨none, 1, .empty⟩ := by
  refine ⟨lostRounds_sees, rfl, lostRounds_run, lostRounds_told, fun falls => ?_, rfl⟩
  cases falls

end ServalRpc.Verified.MspFallback
