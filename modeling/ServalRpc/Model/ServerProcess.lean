import Mathlib.Data.Multiset.AddSub
import ServalRpc.Model.Listen
import ServalRpc.Model.Main

/-! # The server process

The four listeners of `rpc_server.c` with the sockets that they set up and close.  They share the
globals of one process: `server_running`, which nothing takes back to 0, `server_mode`, which the
handlers read, and the descriptors of the two MDP sockets.
-/

namespace ServalRpc

open CLib

/-- A listening function: the mode that it sets, the parts that it sets up, serves and cleans up,
and the bound of `server_running` at the head of its loop. -/
structure Listener where
  serverMode : ServerMode
  servesMsp : Bool
  servesMdp : Bool
  servesRhizome : Bool
  bound : Nat
  deriving DecidableEq

def rpcServerListen : Listener := ⟨.all, true, true, true, 2⟩

def rpcServerListenMsp : Listener := ⟨.msp, true, false, false, 2⟩

/-- It holds no socket, and its loop has no branch that cleans up. -/
def rpcServerListenRhizome : Listener := ⟨.rhizome, false, false, true, 1⟩

def rpcServerListenMdpBroadcast : Listener := ⟨.mdp, false, true, false, 2⟩

def ServerFunction.listener : ServerFunction → Listener
  | .rpcServerListenMsp => ServalRpc.rpcServerListenMsp
  | .rpcServerListenMdpBroadcast => ServalRpc.rpcServerListenMdpBroadcast
  | .rpcServerListenRhizome => ServalRpc.rpcServerListenRhizome
  | .rpcServerListen => ServalRpc.rpcServerListen

/-- What `mdp_socket` returns to the two parts, and `mdp_bind` to the MDP part. -/
structure SetupWorld where
  mspSocket : Int
  mdpSocket : Int
  mdpBind : Int
  deriving DecidableEq

/-- The globals of the process and its open descriptors.  `actions` is what the handlers did in the
rounds of the loops, `closingActions` what they did for the sockets that were being closed, and
`codes` what the listeners returned. -/
structure ServerProcess where
  serverRunning : Nat
  serverMode : ServerMode
  mdpSock : Int
  mdpPollFd : Int
  mdpFdMsp : Int
  descriptors : Multiset Int
  doneCalls : List CString
  actions : List ServerAction
  closingActions : List ServerAction
  listening : Option Listener
  codes : List Int

/-- The globals are zero, and zero is `RPC_SERVER_MODE_MSP`. -/
def ServerProcess.initial (descriptors : Multiset Int) : ServerProcess where
  serverRunning := 0
  serverMode := .msp
  mdpSock := 0
  mdpPollFd := 0
  mdpFdMsp := 0
  descriptors := descriptors
  doneCalls := []
  actions := []
  closingActions := []
  listening := none
  codes := []

/-! ## Setup -/

/-- `_rpc_server_msp_setup`. -/
def rpcServerMspSetup (world : SetupWorld) (process : ServerProcess) : Int × ServerProcess :=
  let process := { process with mdpFdMsp := world.mspSocket }
  if world.mspSocket < 0 then (-1, process)
  else (0, { process with descriptors := world.mspSocket ::ₘ process.descriptors })

/-- `_rpc_server_mdp_setup`; a socket that cannot be bound stays open. -/
def rpcServerMdpSetup (world : SetupWorld) (process : ServerProcess) : Int × ServerProcess :=
  let process := { process with mdpSock := world.mdpSocket }
  if world.mdpSocket < 0 then (-1, process)
  else
    let process := { process with descriptors := world.mdpSocket ::ₘ process.descriptors }
    if world.mdpBind < 0 then (-1, process)
    else (0, { process with mdpPollFd := world.mdpSocket })

def Listener.setupMsp (listener : Listener) (world : SetupWorld) (process : ServerProcess) :
    Int × ServerProcess :=
  if listener.servesMsp then rpcServerMspSetup world process else (0, process)

def Listener.setupMdp (listener : Listener) (world : SetupWorld) (process : ServerProcess) :
    Int × ServerProcess :=
  if listener.servesMdp then rpcServerMdpSetup world process else (0, process)

def ServerProcess.returns (process : ServerProcess) (code : Int) : ServerProcess :=
  { process with listening := none, codes := process.codes ++ [code] }

/-- A listening function up to its loop. -/
def Listener.enter (listener : Listener) (world : SetupWorld) (process : ServerProcess) :
    ServerProcess :=
  let msp := listener.setupMsp world { process with serverMode := listener.serverMode }
  -- A listener that returns here leaves open what it has opened so far.
  if msp.1 = -1 then msp.2.returns (-1)
  else
    let mdp := listener.setupMdp world msp.2
    if mdp.1 = -1 then mdp.2.returns (-1) else { mdp.2 with listening := some listener }

/-! ## The loop -/

def Listener.processMsp (serval : Serval) (listener : Listener) (serverMode : ServerMode)
    (deliveries : List (MspWorld × MspDelivery)) : Except ServerStop (List ServerAction) :=
  if listener.servesMsp then rpcServerMspProcess serval serverMode deliveries else .ok []

def Listener.processMdp (serval : Serval) (listener : Listener) (serverMode : ServerMode)
    (datagram : Option (MdpWorld × Option (Sid × List UInt8))) :
    Except ServerStop (List ServerAction) :=
  if listener.servesMdp then rpcServerMdpProcess serval serverMode datagram else .ok []

/-- A round of the loop of a listening function. -/
def Listener.round (serval : Serval) (listener : Listener) (process : ServerProcess)
    (input : ListenInput) : Except ServerStop ServerProcess := do
  let mspActions ← listener.processMsp serval process.serverMode input.deliveries
  let mdpActions ← listener.processMdp serval process.serverMode input.datagram
  let process := { process with actions := process.actions ++ mspActions ++ mdpActions }
  if listener.servesRhizome then
    let processed ← rpcServerRhizomeProcess serval process.doneCalls input.listing
    pure { process with
      serverRunning := if processed.returnCode = -1 then 1 else process.serverRunning
      doneCalls := processed.doneCalls
      actions := process.actions ++ processed.actions }
  else pure process

/-! ## Cleanup -/

/-- `_rpc_server_msp_cleanup`; the deliveries are those that closing the MSP sockets makes. -/
def rpcServerMspCleanup (serval : Serval) (deliveries : List (MspWorld × MspDelivery))
    (process : ServerProcess) : Except ServerStop ServerProcess := do
  let actions ← rpcServerMspProcess serval process.serverMode deliveries
  pure { process with
    descriptors := process.descriptors.erase process.mdpFdMsp
    closingActions := process.closingActions ++ actions }

/-- `_rpc_server_mdp_cleanup`. -/
def rpcServerMdpCleanup (process : ServerProcess) : ServerProcess :=
  { process with descriptors := process.descriptors.erase process.mdpSock }

def Listener.cleanupMsp (serval : Serval) (listener : Listener)
    (deliveries : List (MspWorld × MspDelivery)) (process : ServerProcess) :
    Except ServerStop ServerProcess :=
  if listener.servesMsp then rpcServerMspCleanup serval deliveries process else .ok process

def Listener.cleanupMdp (listener : Listener) (process : ServerProcess) : ServerProcess :=
  if listener.servesMdp then rpcServerMdpCleanup process else process

/-- The end of a listening function that finds `server_running` at 1. -/
def Listener.leave (serval : Serval) (listener : Listener) (process : ServerProcess)
    (deliveries : List (MspWorld × MspDelivery)) : Except ServerStop ServerProcess := do
  let process ← listener.cleanupMsp serval deliveries process
  pure ((listener.cleanupMdp process).returns 0)

/-! ## Runs -/

inductive ProcessEvent where
  | enter (function : ServerFunction) (world : SetupWorld)
  | round (input : ListenInput)
  | leave (deliveries : List (MspWorld × MspDelivery))
  | passed
  | signal

/-- The steps of a process that calls listening functions one after the other.  As in `ServerStep`
the signal handler may run at any time. -/
inductive ProcessStep (serval : Serval) : ServerProcess → ProcessEvent → ServerProcess → Prop where
  | enter {process : ServerProcess} (function : ServerFunction) (world : SetupWorld) :
      process.listening = none →
      ProcessStep serval process (.enter function world) (function.listener.enter world process)
  | round {process next : ServerProcess} {listener : Listener} {input : ListenInput} :
      process.listening = some listener → process.serverRunning < listener.bound →
      process.serverRunning ≠ 1 → listener.round serval process input = .ok next →
      ProcessStep serval process (.round input) next
  | leave {process next : ServerProcess} {listener : Listener}
      {deliveries : List (MspWorld × MspDelivery)} :
      process.listening = some listener → process.serverRunning < listener.bound →
      process.serverRunning = 1 → listener.leave serval process deliveries = .ok next →
      ProcessStep serval process (.leave deliveries) next
  | passed {process : ServerProcess} {listener : Listener} :
      process.listening = some listener → ¬ process.serverRunning < listener.bound →
      ProcessStep serval process .passed (process.returns 0)
  | signal (process : ServerProcess) :
      ProcessStep serval process .signal { process with serverRunning := 1 }

abbrev ServerProcess.Run (serval : Serval) (start : ServerProcess) :=
  GuardedRun (ProcessStep serval) (fun _ _ => True) start

end ServalRpc
