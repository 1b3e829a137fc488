import ServalRpc.CLib.Network
import ServalRpc.Model.Client
import ServalRpc.Model.Server

/-! # A call over MDP

One call of `rpc_client_call_mdp`, the servers in its network, and the messages between them.  A
server acknowledges a call before it executes it, so the handler takes two turns; in between the
client and the other servers go on.
-/

namespace ServalRpc

open CLib

/-- `struct mdp_sockaddr`. -/
structure MdpSockaddr where
  sid : Sid
  port : Nat
  deriving DecidableEq

def mdpPortRpc : Nat := 18

structure MdpMessage where
  source : MdpSockaddr
  destination : MdpSockaddr
  payload : List UInt8
  deriving DecidableEq

/-! ## Parties -/

structure MdpServer where
  serval : Serval
  mode : ServerMode

def MdpServer.sid (server : MdpServer) : Sid := server.serval.mySid

/-- The address that `_rpc_server_mdp_setup` binds. -/
def MdpServer.address (server : MdpServer) : MdpSockaddr := ⟨server.sid, mdpPortRpc⟩

/-- A call that a server has accepted, and what the handler meets. -/
structure MdpAttempt where
  server : MdpServer
  message : MdpMessage
  rp : RPCProcedure
  world : MdpWorld

def MdpAttempt.served (attempt : MdpAttempt) : ServedCall :=
  ⟨attempt.server.serval, attempt.message.payload, attempt.rp, attempt.world.execute⟩

inductive MdpServerPhase where
  | listening
  | executing (attempt : MdpAttempt)
  | halted

/-- The call, the port of its socket, the packet, the value of `received` that it starts with, and
the servers of the network. -/
structure MdpSystem where
  call : ClientCall
  port : Nat
  payload : List UInt8
  received : Int
  servers : List MdpServer

def MdpSystem.address (system : MdpSystem) : MdpSockaddr := ⟨system.call.serval.mySid, system.port⟩

structure MdpParties where
  client : MdpState
  /-- Why the client is not in its loop: a fault, or a download without an end. -/
  stopped : Option ClientStop
  /-- How many times `mdp_send` has taken the call. -/
  sends : Nat
  phase : Sid → MdpServerPhase
  accepted : List MdpAttempt
  executed : List MdpAttempt

def MdpSystem.start (system : MdpSystem) : Network MdpParties MdpMessage :=
  ⟨⟨.entry system.received, none, 0, fun _ => .listening, [], []⟩, 0⟩

/-! ## The client -/

/-- The copies of the call that one `mdp_send` puts into the network; SID_ANY is sent to BIND_ALL,
which is SID_BROADCAST. -/
def MdpSystem.copies (system : MdpSystem) : Multiset MdpMessage :=
  let addressed := system.servers.filter fun server =>
    isSidTAny system.call.sid || isSidTBroadcast system.call.sid || server.sid == system.call.sid
  (addressed.map fun server => ⟨system.address, server.address, system.payload⟩ : List MdpMessage)

def sendsCall (state : MdpState) (input : MdpInput) : Bool :=
  !decide (input.elapsed > state.waitTime) && decide (state.received = 0) && input.sendOk

/-- The parties after a round of the client. -/
def MdpParties.clientRound (parties : MdpParties) (call : ClientCall) (input : MdpInput) :
    MdpParties :=
  let round := rpcClientCallMdpRound call parties.client (mdpEvent parties.client input)
  { parties with
    client := match round with
      | .ok client => client
      | .error _ => parties.client
    stopped := match round with
      | .ok _ => parties.stopped
      | .error stop => some stop
    sends := parties.sends + if sendsCall parties.client input then 1 else 0 }

/-- What the socket hands over: a message from the network, or nothing. -/
inductive Arrives (address : MdpSockaddr) : Multiset MdpMessage → Option Datagram → Prop where
  | nothing : Arrives address 0 none
  | message (message : MdpMessage) (datagram : Datagram) :
      message.destination = address → datagram.sender = message.source.sid →
      datagram.bytes = message.payload → Arrives address {message} (some datagram)

/-! ## The servers -/

/-- The handler of the server on a message. -/
def MdpServer.handle (server : MdpServer) (world : MdpWorld) (message : MdpMessage) :
    Except ServerStop (Int × List ServerAction) :=
  rpcServerMdpHandle server.serval server.mode world (some (message.source.sid, message.payload))

/-- The handler gets as far as the ACK. -/
def MdpServer.Accepts (server : MdpServer) (world : MdpWorld) (message : MdpMessage)
    (rp : RPCProcedure) : Prop :=
  load message.payload 0 = .ok rpcPktCall ∧
    admitCall server.serval world.conf message.payload (some (tohexSidT message.source.sid)) =
      .ok (.accepted rp)

/-- An answer goes back in the header of the call. -/
def MdpServer.reply? (server : MdpServer) (message : MdpMessage) : ServerAction → Option MdpMessage
  | .mdpSend remote payload true =>
    some ⟨⟨server.sid, message.destination.port⟩, ⟨remote, message.source.port⟩, payload⟩
  | _ => none

def MdpServer.replies (server : MdpServer) (message : MdpMessage) (actions : List ServerAction) :
    Multiset MdpMessage :=
  (actions.filterMap (server.reply? message) : List MdpMessage)

def MdpServer.ack (server : MdpServer) (world : MdpWorld) (message : MdpMessage) :
    Multiset MdpMessage :=
  server.replies message [.mdpSend message.source.sid [rpcPktCallAck] world.ackSent]

def MdpParties.enter (parties : MdpParties) (sid : Sid) (phase : MdpServerPhase) : MdpParties :=
  { parties with phase := Function.update parties.phase sid phase }

def phaseAfter {α : Type} : Except ServerStop α → MdpServerPhase
  | .ok _ => .listening
  | .error _ => .halted

/-! ## Turns -/

inductive MdpTurn (system : MdpSystem) :
    MdpParties → Multiset MdpMessage → Multiset MdpMessage → MdpParties → Prop where
  | client {parties : MdpParties} {arrived : Multiset MdpMessage} (input : MdpInput) :
      parties.stopped = none → parties.client.returned = none →
      parties.client.received = 0 ∨ parties.client.received = 1 →
      Arrives system.address arrived input.datagram →
      MdpTurn system parties arrived
        (if sendsCall parties.client input then system.copies else 0)
        (parties.clientRound system.call input)
  -- The handler gives the call up before it has done anything.
  | refuse {parties : MdpParties} {server : MdpServer} (world : MdpWorld) (message : MdpMessage) :
      server ∈ system.servers → parties.phase server.sid = .listening →
      message.destination = server.address → (¬ ∃ rp, server.Accepts world message rp) →
      MdpTurn system parties {message} 0
        (parties.enter server.sid (phaseAfter (server.handle world message)))
  | accept {parties : MdpParties} {server : MdpServer} (world : MdpWorld) (message : MdpMessage)
      (rp : RPCProcedure) :
      server ∈ system.servers → parties.phase server.sid = .listening →
      message.destination = server.address → server.Accepts world message rp →
      MdpTurn system parties {message} (server.ack world message)
        { parties.enter server.sid (.executing ⟨server, message, rp, world⟩) with
          accepted := parties.accepted ++ [⟨server, message, rp, world⟩] }
  | finish {parties : MdpParties} (attempt : MdpAttempt) {ret : Int} {actions : List ServerAction} :
      parties.phase attempt.server.sid = .executing attempt →
      attempt.server.handle attempt.world attempt.message = .ok (ret, actions) →
      MdpTurn system parties 0 (attempt.server.replies attempt.message (actions.drop 1))
        { parties.enter attempt.server.sid .listening with
          executed := parties.executed ++ [attempt] }
  | fail {parties : MdpParties} (attempt : MdpAttempt) {stop : ServerStop} :
      parties.phase attempt.server.sid = .executing attempt →
      attempt.server.handle attempt.world attempt.message = .error stop →
      MdpTurn system parties 0 0 (parties.enter attempt.server.sid .halted)

/-- Whoever else sends, it does not use the client's socket, and sends to it under a sid that is
neither that of one of the servers nor SID_ANY. -/
def MdpSystem.Foreign (system : MdpSystem) (message : MdpMessage) : Prop :=
  message.source ≠ system.address ∧
    (message.destination = system.address →
      message.source.sid ≠ sidAny ∧ ∀ server ∈ system.servers, message.source.sid ≠ server.sid)

abbrev MdpSystem.Run (system : MdpSystem)
    (guard : Network MdpParties MdpMessage → NetworkEvent MdpMessage → Prop) :=
  NetworkRun (MdpTurn system) system.Foreign guard

end ServalRpc
