import ServalRpc.Model.RhizomeSystem
import ServalRpc.Verified.CallBooks
import ServalRpc.Verified.Manifests

/-! # What the parties of a Rhizome call know

A bundle says who has published it, and nobody checks that.  What a server publishes under its own
sid tells a client that the server has accepted a call of the client's node, or what the execution
of such a call has returned.
-/

namespace ServalRpc.Verified.RhizomeBundles

open CLib HandlerSteps ListenerSteps ClientTable Delivery ResultManifest Manifests CallBooks

variable {system : RhizomeSystem}

/-! ## The manifests -/

section Fields

variable {builder : ManifestBuilder} {serval : Serval} {sid : Sid} {rpcName : CString}
  (oneLine : 10 ∉ (bundleName builder rpcName).bytes) (daemon : Daemon)

theorem fieldsOf_distinct :
    ((fieldsOf builder serval sid oneLine).map ManifestField.key).Nodup := by
  unfold fieldsOf
  split
  · exact show [serviceKey, nameKey, senderKey, recipientKey].Nodup by decide
  · exact show [serviceKey, nameKey, senderKey].Nodup by decide

include oneLine

theorem manifestField_name :
    daemon.manifestField (builder.text serval sid rpcName) nameKey =
      some (bundleName builder rpcName) := by
  rw [daemon.manifestField_text _ _ (manifestText_fieldsOf oneLine) (fieldsOf_distinct oneLine) _
    (by decide)]
  rfl

theorem manifestField_sender :
    daemon.manifestField (builder.text serval sid rpcName) senderKey =
      some (tohexSidT serval.mySid) := by
  rw [daemon.manifestField_text _ _ (manifestText_fieldsOf oneLine) (fieldsOf_distinct oneLine) _
    (by decide)]
  rfl

theorem manifestField_recipient :
    daemon.manifestField (builder.text serval sid rpcName) recipientKey =
      if namesRecipient builder sid then some (tohexSidT sid) else none := by
  rw [daemon.manifestField_text _ _ (manifestText_fieldsOf oneLine) (fieldsOf_distinct oneLine) _
    (by decide), fieldsOf]
  split
  · rfl
  · rfl

end Fields

/-! ## What a server has done -/

/-- No server has the sid that marks a free slot or runs on the node of the client, the nodes parse
sids alike, and the name of the procedure is not taken for that of a file. -/
structure WellFormed (system : RhizomeSystem) : Prop where
  named : ∀ server ∈ system.servers, server.mySid ≠ sidAny
  elsewhere : ∀ server ∈ system.servers, server.mySid ≠ system.call.serval.mySid
  parses : ∀ server ∈ system.servers, server.strToSidT = system.call.serval.strToSidT
  proper : system.call.serval.mySid ≠ sidAny
  notBroadcast : system.call.serval.mySid ≠ sidBroadcast
  payload : system.payload ∈ system.packets
  oneLine : 10 ∉ system.call.rpcName.bytes
  noFile : ∀ name : CString, ¬ system.call.rpcName.bytes <+: (Upload.filePrefix ++ name).bytes

/-- A call by the client's node of a procedure whose name starts with that of the client's call, at
the server of this sid. -/
structure IsOurs (system : RhizomeSystem) (sid : Sid) (served : ServedCall) : Prop where
  isServer : served.server.mySid = sid
  isCaller : served.rp.callerSid = some system.call.serval.mySid
  isName : system.call.rpcName.bytes <+: served.rp.name.bytes
  sent : served.packet ∈ system.packets

structure Admitted (system : RhizomeSystem) (served : ServedCall) : Prop where
  isServer : served.server ∈ system.servers
  admitted : ∃ conf sender, admitCall served.server conf served.packet sender =
    .ok (.accepted served.rp)
  sent : served.rp.callerSid = some system.call.serval.mySid → served.packet ∈ system.packets

/-- A bundle holds the front of a packet, or more than the one byte of an ACK. -/
def carrier (system : RhizomeSystem) : Carrier ServedCall where
  isServer sid := ∃ server ∈ system.servers, server.mySid = sid
  admitted := Admitted system
  isOurs := IsOurs system
  isAck content := ∃ behind, content = overread [rpcPktCallAck] behind (rpcPktSize - 1)
  isResult served content := ∃ payload, Returned served payload ∧
    content = payload.take (rpcPktSize - 1)
  answers served bytes := ∃ (packet : Packet) (payload : List UInt8), Returned served payload ∧
    packet.recvPayload = payload.take (rpcPktSize - 1) ∧ packet.len = rpcPktSize - 1 ∧
    answerBytes system.call packet = .ok bytes

def booksOf (parties : RhizomeParties) : Books ServedCall := ⟨parties.accepted, parties.executed⟩

/-- What the client would take for an answer is under a sid of its own, and if that is the sid of a
server, the server has published it; what is under the sid of the client, its node has sent. -/
structure Authentic (system : RhizomeSystem) (parties : RhizomeParties) (bundle : Bundle) :
    Prop where
  answers : system.Interests bundle → ∃ sid, system.Sender bundle sid ∧ sid ≠ sidAny ∧
    ∀ server ∈ system.servers, sid = server.mySid →
      Reply (carrier system) (booksOf parties) sid bundle.content
  calls : system.Sender bundle system.call.serval.mySid → bundle.content ∈ system.packets

/-- A server at work has accepted the call, and the books are sound. -/
structure Sound (system : RhizomeSystem) (parties : RhizomeParties) : Prop where
  attempts : ∀ sid attempt rows, (parties.server sid).phase = .executing attempt rows →
    attempt.served ∈ parties.accepted ∧ attempt.visit.Accepts attempt.server
      attempt.process.doneCalls attempt.packet attempt.rp
  books : CallBooks.Sound (carrier system) (booksOf parties) parties.client.rpcResult

/-- Every call that was accepted has a name of one line, so that the manifests of its bundles say
what they are meant to say. -/
def OneLine (parties : RhizomeParties) : Prop :=
  ∀ served ∈ parties.accepted, 10 ∉ served.rp.name.bytes

/-! ## Nothing is taken back -/

variable {parties next : RhizomeParties} {seen sent : Multiset Bundle}

theorem grows_of_turn (turn : RhizomeTurn system parties seen sent next) :
    (booksOf parties).Grows (booksOf next) := by
  cases turn with
  | clientPoll _ _ _ _ _ _ _ => exact Books.grows_refl _
  | clientVisit _ _ _ _ _ _ => exact Books.grows_refl _
  | poll _ _ _ _ => exact Books.grows_refl _
  | pass _ _ _ _ _ _ _ => exact Books.grows_refl _
  | accept _ _ _ _ _ _ _ _ => exact Books.grows_accept _ _
  | finish _ _ _ _ => exact Books.grows_execute _ _
  | leave _ _ _ => exact Books.grows_refl _
  | serveMsp _ _ _ _ _ _ _ _ _ _ => exact (Books.grows_accept _ _).trans (Books.grows_execute _ _)
  | serveMdp _ _ _ _ _ _ _ _ => exact (Books.grows_accept _ _).trans (Books.grows_execute _ _)
  | upload _ _ _ _ _ _ => exact Books.grows_refl _

theorem OneLine.of_grows (oneLine : OneLine next) (grows : (booksOf parties).Grows (booksOf next)) :
    OneLine parties :=
  fun served member => oneLine served (grows.accepted member)

theorem reply_size {sid : Sid} {content : List UInt8}
    (reply : Reply (carrier system) (booksOf parties) sid content) :
    content.length = rpcPktSize - 1 := by
  cases reply with
  | ack isAck _ _ =>
    obtain ⟨behind, same⟩ := isAck
    rw [same, overread_length]
  | result _ _ isResult =>
    obtain ⟨payload, returned, rfl⟩ := isResult
    rw [List.length_take, returned.length]
    exact Nat.min_eq_left (Nat.sub_le _ _)

theorem Authentic.mono {bundle : Bundle} (authentic : Authentic system parties bundle)
    (grows : (booksOf parties).Grows (booksOf next)) : Authentic system next bundle := by
  refine ⟨fun interests => ?_, authentic.calls⟩
  obtain ⟨sid, isSender, proper, isServer⟩ := authentic.answers interests
  exact ⟨sid, isSender, proper, fun server member same => (isServer server member same).mono grows⟩

/-! ## Sound parties -/

theorem enter_executing {sid other : Sid} {state : RhizomeServerState} {attempt : RowAttempt}
    {rows : List Row}
    (executing : ((parties.enter sid state).server other).phase = .executing attempt rows) :
    state.phase = .executing attempt rows ∨
      (parties.server other).phase = .executing attempt rows := by
  simp only [RhizomeParties.enter, Function.update_apply] at executing
  split at executing
  · exact .inl executing
  · exact .inr executing

/-- A server that does not start an execution leaves the soundness as it is. -/
theorem Sound.enter {sid : Sid} {state : RhizomeServerState} (sound : Sound system parties)
    (other : ∀ attempt rows, state.phase ≠ .executing attempt rows) :
    Sound system (parties.enter sid state) := by
  refine ⟨fun at' attempt rows executing => ?_, sound.books⟩
  obtain entered | before := enter_executing executing
  · exact absurd entered (other attempt rows)
  · exact sound.attempts at' attempt rows before

/-- A call that is served at once is accepted and executed. -/
theorem Sound.serve {served : ServedCall} (sound : Sound system parties)
    (admitted : Admitted system served) :
    Sound system { parties with
      accepted := parties.accepted ++ [served], executed := parties.executed ++ [served] } := by
  refine ⟨fun sid attempt rows executing => ?_,
    (sound.books.accept admitted).execute (Books.mem_accept (booksOf parties) served)⟩
  obtain ⟨accepted, accepts⟩ := sound.attempts sid attempt rows executing
  exact ⟨List.mem_append_left _ accepted, accepts⟩

/-! ## What a server publishes -/

theorem mem_of_adds {publication : Publication} {bundle : Bundle} (adds : publication.Adds sent)
    (member : bundle ∈ sent) :
    bundle.manifest = publication.manifest ∧ bundle.content = publication.content := by
  cases adds with
  | accepted id _ =>
    obtain rfl := Multiset.mem_singleton.mp member
    exact ⟨rfl, rfl⟩
  | refused _ => cases member

theorem mem_of_published {actions : List ServerAction} {bundle : Bundle}
    (published : Published actions sent) (member : bundle ∈ sent) :
    ∃ publication, .publish publication ∈ actions ∧ bundle.manifest = publication.manifest ∧
      bundle.content = publication.content := by
  induction published with
  | nil => cases member
  | publish adds _ inductionHypothesis =>
    obtain added | later := Multiset.mem_add.mp member
    · exact ⟨_, List.mem_cons_self, mem_of_adds adds added⟩
    · obtain ⟨publication, published, same⟩ := inductionHypothesis later
      exact ⟨publication, List.mem_cons_of_mem _ published, same⟩
  | other _ _ inductionHypothesis =>
    obtain ⟨publication, published, same⟩ := inductionHypothesis member
    exact ⟨publication, List.mem_cons_of_mem _ published, same⟩

/-- The bundles of a server are under its own sid, and the client takes those for answers that are
for its node and have a name that starts with that of its call. -/
theorem authentic_of_text (wellFormed : WellFormed system) {server : Serval}
    (isServer : server ∈ system.servers) (builder : ManifestBuilder) {recipient : Sid}
    {rpcName : CString} (oneLine : 10 ∉ (bundleName builder rpcName).bytes) {bundle : Bundle}
    (manifest : bundle.manifest = builder.text server recipient rpcName)
    (answers : recipient = system.call.serval.mySid →
      system.call.rpcName.bytes <+: (bundleName builder rpcName).bytes →
      Reply (carrier system) (booksOf parties) server.mySid bundle.content) :
    Authentic system parties bundle := by
  have sender := @manifestField_sender builder server recipient rpcName oneLine system.daemon
  have own : system.Sender bundle server.mySid := by
    refine ⟨tohexSidT server.mySid, ?_, system.call.serval.strToSidT_tohexSidT _⟩
    rw [manifest, sender]
  refine ⟨fun ⟨isRecipient, name, isName, prefixed⟩ => ?_, fun ⟨text, isSender, parsed⟩ => ?_⟩
  · rw [manifest, manifestField_name oneLine system.daemon] at isName
    rw [manifest, manifestField_recipient oneLine system.daemon] at isRecipient
    split at isRecipient
    · have forClient := tohexSidT_injective system.call.serval (Option.some.inj isRecipient)
      rw [← Option.some.inj isName] at prefixed
      exact ⟨_, own, wellFormed.named server isServer, fun _ _ _ => answers forClient prefixed⟩
    · cases isRecipient
  · rw [manifest, sender] at isSender
    rw [← Option.some.inj isSender, system.call.serval.strToSidT_tohexSidT] at parsed
    exact absurd (Option.some.inj parsed) (wellFormed.elsewhere server isServer)

theorem sendResult_content (serval : Serval) (insertion : Insertion) (sid : Sid) (rpcName : CString)
    (payload : List UInt8) :
    (rpcServerRhizomeSendResult serval insertion sid rpcName payload).2.content =
      overread payload insertion.behind (rpcPktSize - 1) := by
  rw [rpcServerRhizomeSendResult]

section Sent

variable (wellFormed : WellFormed system) {served : ServedCall} (admitted : Admitted system served)
  (oneLine : 10 ∉ served.rp.name.bytes) {recipient : Sid} {bundle : Bundle} {insertion : Insertion}

include wellFormed admitted oneLine

theorem authentic_of_ack (accepted : served ∈ parties.accepted)
    (isCaller : served.rp.callerSid = some recipient)
    (adds : (rpcServerRhizomeSendResult served.server insertion recipient served.rp.name
      [rpcPktCallAck]).2.Adds sent) (member : bundle ∈ sent) : Authentic system parties bundle := by
  obtain ⟨manifest, content⟩ := mem_of_adds adds member
  rw [sendResult_content] at content
  refine authentic_of_text wellFormed admitted.isServer .result oneLine manifest ?_
  rintro rfl prefixed
  exact .ack ⟨insertion.behind, content⟩ accepted ⟨rfl, isCaller, prefixed, admitted.sent isCaller⟩

/-- A result is for the caller, or for nobody that the client could be. -/
theorem authentic_of_result (executed : served ∈ parties.executed)
    (isCaller : recipient = system.call.serval.mySid → served.rp.callerSid = some recipient)
    {result : ExecuteResult}
    (returned : excecuteCall served.server served.execute served.rp = .ok result)
    (succeeded : result.returnCode ≠ 0)
    (manifest : bundle.manifest = (rpcServerRhizomeSendResult served.server insertion recipient
      served.rp.name result.resultPayload.cells).2.manifest)
    (content : bundle.content = (rpcServerRhizomeSendResult served.server insertion recipient
      served.rp.name result.resultPayload.cells).2.content) :
    Authentic system parties bundle := by
  rw [sendResult_content] at content
  refine authentic_of_text wellFormed admitted.isServer .result oneLine manifest ?_
  rintro rfl prefixed
  have isCaller := isCaller rfl
  have size := (resultPacket_of_executed returned succeeded).size
  have inside : rpcPktSize - 1 ≤ result.resultPayload.cells.length := by
    rw [size]
    exact Nat.sub_le _ _
  rw [overread_of_le _ inside] at content
  exact .result executed ⟨rfl, isCaller, prefixed, admitted.sent isCaller⟩
    ⟨_, ⟨result, returned, succeeded, rfl⟩, content⟩

/-- A file is not taken for an answer. -/
theorem authentic_of_upload {accepted : Bool} {content : List UInt8}
    (adds : (rpcAddFileToStore served.server accepted recipient served.rp.name content).2.Adds sent)
    (member : bundle ∈ sent) : Authentic system parties bundle := by
  obtain ⟨manifest, _⟩ := mem_of_adds adds member
  have prefixed : 10 ∉ (bundleName .file served.rp.name).bytes := by
    have letters : 10 ∉ Upload.filePrefix.bytes := by decide
    simp [bundleName, letters, oneLine]
  refine authentic_of_text wellFormed admitted.isServer .file prefixed manifest fun _ isName => ?_
  exact absurd isName (wellFormed.noFile served.rp.name)

end Sent

end ServalRpc.Verified.RhizomeBundles
