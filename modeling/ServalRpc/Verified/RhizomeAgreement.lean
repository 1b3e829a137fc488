import ServalRpc.Verified.MdpCompletion
import ServalRpc.Verified.RhizomeCompletion

/-! # What a client knows from a Rhizome call

The slots of the table name servers that have accepted a call of the client's node and hold results
of such calls.  The bundles do not say which call they answer: it may be any call of a procedure
whose name starts with that of the client's.
-/

namespace ServalRpc.Verified.RhizomeAgreement

open CLib HandlerSteps Delivery PlainAnswers CallBooks RhizomeBundles RhizomeProvenance
  RhizomeCompletion

variable {system : RhizomeSystem}

/-- The server has parsed a packet of the client's node as a call by this node of a procedure whose
name starts with that of the client's call. -/
structure NodeCall (system : RhizomeSystem) (server : Serval) (served : ServedCall) : Prop where
  isOurs : IsOurs system server.mySid served
  parsed : ∃ rp, rpcServerParseCall served.packet served.packet.length = .ok rp ∧
    served.rp = { rp with callerSid := some system.call.serval.mySid }

theorem nodeCall_of_ours {server : Serval} {served : ServedCall}
    (ours : IsOurs system server.mySid served) (admitted : Admitted system served) :
    NodeCall system server served := by
  obtain ⟨conf, sender, admits⟩ := admitted.admitted
  obtain ⟨_, callerSid, rp, _, _, parsed, isRp⟩ := admitCall_accepted admits
  refine ⟨ours, rp, parsed, ?_⟩
  have isCaller := ours.isCaller
  rw [isRp] at isCaller
  rw [isRp, Option.some.inj isCaller]

/-- A slot that names a server of the network: the server has accepted a call of the node, and what
the slot holds is nothing or what the client makes of the result of such a call, short of the last
byte of its packet. -/
theorem rhizome_table_tells_truth (wellFormed : WellFormed system) {id : CString}
    {guard : Network RhizomeParties Bundle → NetworkEvent Bundle → Prop}
    {past : List (NetworkEvent Bundle)} {board : Network RhizomeParties Bundle}
    (run : system.Run guard (system.start id) past board) (oneLine : OneLine board.parties)
    {slot : RPCResult} (member : slot ∈ board.parties.client.rpcResult.cells) {server : Serval}
    (isServer : server ∈ system.servers) (named : slot.serverSid = server.mySid) :
    (∃ served ∈ board.parties.accepted, NodeCall system server served) ∧
    (slot.content = emptyResult.content ∨
      ∃ served ∈ board.parties.executed, NodeCall system server served ∧
        ∃ (packet : Packet) (payload bytes : List UInt8), Returned served payload ∧
          packet.recvPayload = payload.take (rpcPktSize - 1) ∧
          answerBytes system.call packet = .ok bytes ∧ bytes <+: slot.content) := by
  have sound := ((sound_of_run wellFormed run).1 oneLine).books
  have ofNode {served : ServedCall} (accepted : served ∈ board.parties.accepted)
      (ours : IsOurs system slot.serverSid served) : NodeCall system server served :=
    nodeCall_of_ours (named ▸ ours) (sound.admitted served accepted)
  have proper : slot.serverSid ≠ sidAny := named ▸ wellFormed.named server isServer
  obtain ⟨⟨served, accepted, ours⟩, empty | ⟨done, executed, oursDone, bytes, answers, holds⟩⟩ :=
    sound.tells member proper ⟨server, isServer, named.symm⟩
  · exact ⟨⟨served, accepted, ofNode accepted ours⟩, .inl empty⟩
  · obtain ⟨packet, payload, returned, array, _, answer⟩ := answers
    exact ⟨⟨served, accepted, ofNode accepted ours⟩,
      .inr ⟨done, executed, ofNode (sound.executed executed) oursDone, packet, payload, bytes,
        returned, array, answer, holds⟩⟩

/-! ## A call that completes -/

/-- The call of `add` to a server that prints its result. -/
def addSystem : RhizomeSystem where
  daemon := Daemon.executable
  call := ⟨Serval.executable Download.caller, MdpCompletion.addServer.sid, CommandLine.addName⟩
  payload := addPayload
  packets := [addPayload]
  servers := [MdpCompletion.addServer.serval]

def addRowWorld : RhizomeWorld := ⟨addConfFile, runWorld, insertionOf true, insertionOf true⟩

theorem addSystem_wellFormed : WellFormed addSystem where
  named server member := by
    obtain rfl := List.mem_singleton.mp member
    decide
  elsewhere server member := by
    obtain rfl := List.mem_singleton.mp member
    decide
  parses server member := by
    obtain rfl := List.mem_singleton.mp member
    rfl
  proper := by decide
  notBroadcast := by decide
  payload := List.mem_singleton_self _
  oneLine := by decide
  noFile name isPrefix := by
    obtain ⟨rest, same⟩ := isPrefix
    have letters : some (97 : UInt8) = some 102 := congrArg List.head? same
    exact absurd letters (by decide)

theorem add_available : ∃ result, Available addSystem MdpCompletion.addServer.serval addRowWorld
    addCalled result (PlainStrings.outputLine [51, 10]) := by
  have complete : Representation.Complete runWorld :=
    ⟨by simp [runWorld, CommandLine.addWorld], List.length_replicate⟩
  obtain ⟨resultPayload, collected⟩ := Representation.collectResult_ok complete [51, 10]
  have cells := PlainStrings.collected_cells collected rfl
  have fetched : fetchFirstParam MdpCompletion.addServer.serval runWorld addCalled =
      .ok (some addCalled) := CommandLine.fetchFirstParam_of_noFilehash rfl (by decide)
  have executed : excecuteCall MdpCompletion.addServer.serval runWorld addCalled =
      .ok ⟨1, resultPayload, addCalled⟩ := by
    rw [excecuteCall_ok_iff, CommandLine.excecute_of_params rfl fetched
      (CommandLine.addProcedure_params ['1'] ['2'])]
    simp only [CommandLine.afterPopen, runWorld] at collected ⊢
    rw [collected]
    rfl
  have admitted : admitCall MdpCompletion.addServer.serval addConfFile addPayload
      (some (tohexSidT Download.caller)) = .ok (.accepted addCalled) :=
    admitCall_of_offered (by decide) (by decide) Download.caller
      (Offering.add_offered rfl rfl) (show (2 : Int) ≠ 0 by decide)
  have terminated : 0 ∈ ((PlainStrings.printedPacket [51, 10]).take (rpcPktSize - 1)).drop 1 := by
    decide
  refine ⟨⟨1, resultPayload, addCalled⟩, List.mem_singleton_self _, .inr rfl, by decide, by decide,
    rfl, admitted, rfl, executed, Int.one_ne_zero, rfl, rfl, ?_⟩
  rw [cells]
  exact ⟨rfl, PlainStrings.bundle_read rfl terminated, by decide,
    Nat.le_trans (List.length_take_le _ _) (Nat.sub_le _ _)⟩

def addStart : Network RhizomeParties Bundle := addSystem.start (CString.ofChars ['c'])

/-- The slot that names the server afterwards tells the truth. -/
theorem rhizome_table_tells_truth_add : ∃ later final slot,
    addSystem.Run LeftAlone addStart later final ∧ slot ∈ final.parties.client.rpcResult.cells ∧
      slot.serverSid = MdpCompletion.addServer.sid ∧
      ∃ served ∈ final.parties.accepted,
        NodeCall addSystem MdpCompletion.addServer.serval served := by
  obtain ⟨result, available⟩ := add_available
  obtain ⟨later, final, run, accepted, _, slot, at', isServer, _⟩ :=
    @completes_of_available addSystem MdpCompletion.addServer.serval addRowWorld addCalled result _
      (CString.ofChars ['c']) (by decide) (by decide) available addStart
      (Multiset.mem_singleton_self _) ⟨List.length_replicate, fun _ => rfl⟩ rfl rfl rfl rfl
      List.not_mem_nil
  have oneLine : OneLine final.parties := by
    intro served member
    rw [accepted] at member
    obtain rfl := List.mem_singleton.mp member
    decide
  have inTable := List.mem_of_getElem? at'
  exact ⟨later, final, slot, run, inTable, isServer,
    (rhizome_table_tells_truth addSystem_wellFormed run oneLine inTable (List.mem_singleton_self _)
      isServer).1⟩

end ServalRpc.Verified.RhizomeAgreement
