import Mathlib.Logic.Function.Basic
import ServalRpc.CLib.Network
import ServalRpc.Model.Client
import ServalRpc.Model.Daemon
import ServalRpc.Model.Manifest

/-! # A call over Rhizome

One call of `rpc_client_call_rhizome`, the servers that poll their stores, and the bundles that the
stores exchange.  A bundle stays once it is published, and every node lists some of the bundles
that there are, in any order and as late as it likes.
-/

namespace ServalRpc

open CLib

structure Bundle where
  id : CString
  manifest : CString
  content : List UInt8
  deriving DecidableEq

/-- The daemon lists this bundle in this row. -/
structure Daemon.ListsBundle (daemon : Daemon) (row : Row) (bundle : Bundle) : Prop where
  id : row.id = bundle.id
  lists : daemon.Lists row bundle.manifest bundle.content

/-- What an insertion adds to the stores: a bundle with an id of its own, or nothing. -/
inductive Publication.Adds (publication : Publication) : Multiset Bundle → Prop where
  | accepted (id : CString) : publication.accepted = true →
      Adds publication {⟨id, publication.manifest, publication.content⟩}
  | refused : publication.accepted = false → Adds publication 0

/-! ## Parties -/

/-- A row whose call has been accepted, and the state of the poll then. -/
structure RowAttempt where
  server : Serval
  process : ProcessState
  visit : Visit
  packet : List UInt8
  rp : RPCProcedure

def RowAttempt.served (attempt : RowAttempt) : ServedCall :=
  ⟨attempt.server, attempt.packet, attempt.rp, attempt.visit.world.execute⟩

/-- Between two polls, at the rows of a listing, or in the execution of the call in a row. -/
inductive RhizomeServerPhase where
  | idle
  | visiting (rows : List Row)
  | executing (attempt : RowAttempt) (rows : List Row)

structure RhizomeServerState where
  process : ProcessState
  phase : RhizomeServerPhase

def RhizomeServerState.initial : RhizomeServerState := ⟨⟨0, [], []⟩, .idle⟩

/-- The call, its packet, all packets that the node of the client sends, and the servers. -/
structure RhizomeSystem where
  daemon : Daemon
  call : ClientCall
  payload : List UInt8
  packets : List (List UInt8)
  servers : List Serval

structure RhizomeParties where
  client : RhizomeState
  /-- Why the client is not in its loops: a fault, or a download without an end. -/
  stopped : Option ClientStop
  server : Sid → RhizomeServerState
  accepted : List ServedCall
  executed : List ServedCall

/-- The client has inserted its call and starts to listen. -/
def RhizomeSystem.start (system : RhizomeSystem) (id : CString) : Network RhizomeParties Bundle :=
  ⟨⟨.entry, none, fun _ => .initial, [], []⟩,
    {⟨id, callManifest system.call.serval system.call.sid system.call.rpcName, system.payload⟩}⟩

/-! ## The client -/

/-- The parties after a round of the client. -/
def RhizomeParties.clientRound (parties : RhizomeParties) (call : ClientCall)
    (input : RhizomeInput) : RhizomeParties :=
  let round := do
    let event ← rhizomeEvent call parties.client input
    rpcClientRhizomeListenRound call parties.client event
  { parties with
    client := match round with
      | .ok client => client
      | .error _ => parties.client
    stopped := match round with
      | .ok _ => parties.stopped
      | .error stop => some stop }

/-! ## The servers -/

/-- The loop of `_rpc_server_rhizome_process` gets as far as the ACK. -/
structure Visit.Accepts (serval : Serval) (doneCalls : List CString) (visit : Visit)
    (packet : List UInt8) (rp : RPCProcedure) : Prop where
  wanted : wantedRow serval doneCalls visit.row = .ok true
  copied : ∃ body, visit.body = some body ∧
    loadRange body 0 (sizeOfInt visit.row.filesize) = .ok packet
  type : load packet 0 = .ok rpcPktCall
  admitted : admitCall serval visit.world.conf packet visit.row.sender = .ok (.accepted rp)

/-- A visit to a row of this bundle gets the content of the bundle, or none. -/
structure RhizomeSystem.Visits (system : RhizomeSystem) (row : Row) (body : Option (List UInt8))
    (bundle : Bundle) : Prop where
  listed : system.daemon.ListsBundle row bundle
  body : ∀ bytes ∈ body, bytes = bundle.content

def RhizomeParties.enter (parties : RhizomeParties) (sid : Sid) (state : RhizomeServerState) :
    RhizomeParties :=
  { parties with server := Function.update parties.server sid state }

/-- The publications among some actions, in the store one after the other. -/
inductive Published : List ServerAction → Multiset Bundle → Prop where
  | nil : Published [] 0
  | publish {publication : Publication} {actions : List ServerAction} {added rest : Multiset Bundle} :
      publication.Adds added → Published actions rest →
      Published (.publish publication :: actions) (added + rest)
  | other {action : ServerAction} {actions : List ServerAction} {rest : Multiset Bundle} :
      (∀ publication, action ≠ .publish publication) → Published actions rest →
      Published (action :: actions) rest

/-! ## Turns -/

/-- A server that has stopped takes no more turns. -/
inductive RhizomeTurn (system : RhizomeSystem) :
    RhizomeParties → Multiset Bundle → Multiset Bundle → RhizomeParties → Prop where
  | clientPoll {parties : RhizomeParties} {seen : Multiset Bundle} (elapsed : Int)
      (listing : Option (List Row)) :
      parties.stopped = none → parties.client.returned = none → parties.client.pending = [] →
      parties.client.received = 0 →
      (∀ rows ∈ listing, ∀ row ∈ rows, ∃ bundle ∈ seen, system.daemon.ListsBundle row bundle) →
      RhizomeTurn system parties seen 0 (parties.clientRound system.call (.poll elapsed listing))
  | clientVisit {parties : RhizomeParties} {row : Row} {rows : List Row} (bundle : Bundle)
      (input : RowInput) :
      parties.stopped = none → parties.client.returned = none →
      parties.client.pending = row :: rows → system.Visits row input.body bundle →
      RhizomeTurn system parties {bundle} 0 (parties.clientRound system.call (.visit input))
  | poll {parties : RhizomeParties} {server : Serval} {seen : Multiset Bundle} (rows : List Row) :
      server ∈ system.servers → (parties.server server.mySid).phase = .idle →
      (∀ row ∈ rows, ∃ bundle ∈ seen, system.daemon.ListsBundle row bundle) →
      RhizomeTurn system parties seen 0
        (parties.enter server.mySid
          ⟨⟨0, (parties.server server.mySid).process.doneCalls, []⟩, .visiting rows⟩)
  -- The row is left without an attempt; a failed transfer ends the poll.
  | pass {parties : RhizomeParties} {server : Serval} {rows : List Row} {next : ProcessState}
      {goesOn : Bool} (visit : Visit) (bundle : Bundle) :
      server ∈ system.servers →
      (parties.server server.mySid).phase = .visiting (visit.row :: rows) →
      system.Visits visit.row visit.body bundle →
      (¬ ∃ packet rp, visit.Accepts server (parties.server server.mySid).process.doneCalls packet rp) →
      rhizomeRound server (parties.server server.mySid).process visit = .ok (next, goesOn) →
      RhizomeTurn system parties {bundle} 0
        (parties.enter server.mySid ⟨next, .visiting (if goesOn then rows else [])⟩)
  | accept {parties : RhizomeParties} {server : Serval} {rows : List Row} {packet : List UInt8}
      {rp : RPCProcedure} {caller : Sid} {sent : Multiset Bundle} (visit : Visit) (bundle : Bundle) :
      server ∈ system.servers →
      (parties.server server.mySid).phase = .visiting (visit.row :: rows) →
      system.Visits visit.row visit.body bundle →
      visit.Accepts server (parties.server server.mySid).process.doneCalls packet rp →
      rp.callerSid = some caller →
      (rpcServerRhizomeSendResult server visit.world.ackInsertion caller rp.name
        [rpcPktCallAck]).2.Adds sent →
      RhizomeTurn system parties {bundle} sent
        { parties.enter server.mySid ⟨(parties.server server.mySid).process,
            .executing ⟨server, (parties.server server.mySid).process, visit, packet, rp⟩ rows⟩ with
          accepted := parties.accepted ++ [⟨server, packet, rp, visit.world.execute⟩] }
  -- What the round has published behind its ACK.
  | finish {parties : RhizomeParties} {rows : List Row} {next : ProcessState} {goesOn : Bool}
      {sent : Multiset Bundle} (attempt : RowAttempt) :
      (parties.server attempt.server.mySid).phase = .executing attempt rows →
      rhizomeRound attempt.server attempt.process attempt.visit = .ok (next, goesOn) →
      Published (next.actions.drop (attempt.process.actions.length + 1)) sent →
      RhizomeTurn system parties 0 sent
        { parties.enter attempt.server.mySid ⟨next, .visiting rows⟩ with
          executed := parties.executed ++ [attempt.served] }
  | leave {parties : RhizomeParties} {server : Serval} :
      server ∈ system.servers → (parties.server server.mySid).phase = .visiting [] →
      (parties.server server.mySid).process.returnCode ≠ -1 →
      RhizomeTurn system parties 0 0
        (parties.enter server.mySid ⟨(parties.server server.mySid).process, .idle⟩)
  -- A call over MSP, whose result may go into the store; MSP tells the server who has called.
  | serveMsp {parties : RhizomeParties} {server : Serval} {packet : List UInt8} {rp : RPCProcedure}
      {ret : Nat} {actions : List ServerAction} {sent : Multiset Bundle} (world : MspWorld)
      (delivery : MspDelivery) :
      server ∈ system.servers → (parties.server server.mySid).phase = .idle →
      delivery.payload = some packet → load packet 0 = .ok rpcPktCall →
      admitCall server world.conf packet (some (tohexSidT world.remote)) = .ok (.accepted rp) →
      (world.remote = system.call.serval.mySid → packet ∈ system.packets) →
      rpcServerMspHandler server .all world delivery = .ok (ret, actions) →
      Published actions sent →
      RhizomeTurn system parties 0 sent
        { parties with
          accepted := parties.accepted ++ [⟨server, packet, rp, world.execute⟩]
          executed := parties.executed ++ [⟨server, packet, rp, world.execute⟩] }
  | serveMdp {parties : RhizomeParties} {server : Serval} {packet : List UInt8} {rp : RPCProcedure}
      {remote : Sid} {ret : Int} {actions : List ServerAction} {sent : Multiset Bundle}
      (world : MdpWorld) :
      server ∈ system.servers → (parties.server server.mySid).phase = .idle →
      load packet 0 = .ok rpcPktCall →
      admitCall server world.conf packet (some (tohexSidT remote)) = .ok (.accepted rp) →
      (remote = system.call.serval.mySid → packet ∈ system.packets) →
      rpcServerMdpHandle server .all world (some (remote, packet)) = .ok (ret, actions) →
      Published actions sent →
      RhizomeTurn system parties 0 sent
        { parties with
          accepted := parties.accepted ++ [⟨server, packet, rp, world.execute⟩]
          executed := parties.executed ++ [⟨server, packet, rp, world.execute⟩] }
  -- The file that a call has printed the path of.
  | upload {parties : RhizomeParties} {caller : Sid} {sent : Multiset Bundle} (served : ServedCall)
      (accepted : Bool) (content : List UInt8) :
      served ∈ parties.accepted → served.rp.callerSid = some caller →
      (rpcAddFileToStore served.server accepted caller served.rp.name content).2.Adds sent →
      RhizomeTurn system parties 0 sent parties

/-! ## The outside -/

/-- The client would take a bundle with this manifest for an answer. -/
def RhizomeSystem.Interests (system : RhizomeSystem) (bundle : Bundle) : Prop :=
  system.daemon.manifestField bundle.manifest recipientKey =
      some (tohexSidT system.call.serval.mySid) ∧
    ∃ name, system.daemon.manifestField bundle.manifest nameKey = some name ∧
      system.call.rpcName.bytes <+: name.bytes

/-- The sender of a bundle, as the nodes parse it. -/
def RhizomeSystem.Sender (system : RhizomeSystem) (bundle : Bundle) (sid : Sid) : Prop :=
  ∃ text, system.daemon.manifestField bundle.manifest senderKey = some text ∧
    system.call.serval.strToSidT text = some sid

/-- Whoever else publishes, what the client would take is under a sid that parses and is neither that
of one of the servers nor SID_ANY, and under the client's own sid there is only what its node has
sent. -/
structure RhizomeSystem.Foreign (system : RhizomeSystem) (bundle : Bundle) : Prop where
  answers : system.Interests bundle → ∃ sid, system.Sender bundle sid ∧ sid ≠ sidAny ∧
    ∀ server ∈ system.servers, sid ≠ server.mySid
  calls : system.Sender bundle system.call.serval.mySid → bundle.content ∈ system.packets

abbrev RhizomeSystem.Run (system : RhizomeSystem)
    (guard : Network RhizomeParties Bundle → NetworkEvent Bundle → Prop) :=
  BoardRun (RhizomeTurn system) system.Foreign guard

end ServalRpc
