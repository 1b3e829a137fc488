import ServalRpc.CLib.Run
import ServalRpc.Model.Server

/-! # The listening loops

`rpc_server_listen` serves all channels, `rpc_server_listen_rhizome` only the store.  A run of
the server is any sequence of rounds of the two loops and of signals.
-/

namespace ServalRpc

open CLib

structure ServerState where
  serverRunning : Nat
  doneCalls : List CString
  actions : List ServerAction

def ServerState.initial : ServerState := ⟨0, [], []⟩

/-- What one round of `rpc_server_listen` meets: the deliveries of `msp_recv`, a datagram if the
socket is readable, and the store. -/
structure ListenInput where
  deliveries : List (MspWorld × MspDelivery)
  datagram : Option (MdpWorld × Option (Sid × List UInt8))
  listing : Option (List Visit)

/-- The body of the loop of `rpc_server_listen_rhizome`, and the end of that of
`rpc_server_listen`. -/
def rpcServerListenRhizomeRound (serval : Serval) (state : ServerState)
    (listing : Option (List Visit)) : Except ServerStop ServerState := do
  let processed ← rpcServerRhizomeProcess serval state.doneCalls listing
  -- A rejected call and a failed transfer return the same code.
  pure {
    serverRunning := if processed.returnCode = -1 then 1 else state.serverRunning
    doneCalls := processed.doneCalls
    actions := state.actions ++ processed.actions }

/-- `_rpc_server_msp_process`, with the deliveries that `msp_processing` and `msp_recv` make. -/
def rpcServerMspProcess (serval : Serval) (serverMode : ServerMode)
    (deliveries : List (MspWorld × MspDelivery)) : Except ServerStop (List ServerAction) := do
  let handled ← deliveries.mapM fun (world, delivery) =>
    rpcServerMspHandler serval serverMode world delivery
  pure (handled.flatMap Prod.snd)

/-- `_rpc_server_mdp_process`. -/
def rpcServerMdpProcess (serval : Serval) (serverMode : ServerMode)
    (datagram : Option (MdpWorld × Option (Sid × List UInt8))) :
    Except ServerStop (List ServerAction) :=
  match datagram with
  | none => .ok []
  | some (world, received) => do
    let (_, actions) ← rpcServerMdpHandle serval serverMode world received
    pure actions

/-- The body of the loop of `rpc_server_listen`. -/
def rpcServerListenRound (serval : Serval) (state : ServerState) (input : ListenInput) :
    Except ServerStop ServerState := do
  let mspActions ← rpcServerMspProcess serval .all input.deliveries
  let mdpActions ← rpcServerMdpProcess serval .all input.datagram
  rpcServerListenRhizomeRound serval
    { state with actions := state.actions ++ mspActions ++ mdpActions } input.listing

inductive ServerEvent where
  | signal
  | listenRound (input : ListenInput)
  | listenRhizomeRound (listing : Option (List Visit))

/-- The steps of a server.  The signal handler may run at any time; it commutes with the rest of
a round, which reads `server_running` at the head of the loop only. -/
inductive ServerStep (serval : Serval) : ServerState → ServerEvent → ServerState → Prop where
  | signal (state : ServerState) :
      ServerStep serval state .signal { state with serverRunning := 1 }
  | listen {state next : ServerState} {input : ListenInput} :
      state.serverRunning < 2 → state.serverRunning ≠ 1 →
      rpcServerListenRound serval state input = .ok next →
      ServerStep serval state (.listenRound input) next
  | listenRhizome {state next : ServerState} {listing : Option (List Visit)} :
      state.serverRunning < 1 →
      rpcServerListenRhizomeRound serval state listing = .ok next →
      ServerStep serval state (.listenRhizomeRound listing) next

end ServalRpc
