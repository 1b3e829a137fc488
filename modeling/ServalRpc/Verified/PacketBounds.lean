import ServalRpc.Model.Server
import ServalRpc.Verified.ParseCall

/-! # Which call packets are read within their bounds

The parser checks nothing, and the handlers check the first byte and, over Rhizome, the size in
the listing.  So a call is read within its bounds exactly when the parser gets through it: the
text behind the header ends with a NUL and has a byte other than the delimiter.
-/

namespace ServalRpc.Verified.PacketBounds

open CLib ParseCall

/-- Behind the six header bytes there is a NUL, and before it a byte other than `|`. -/
def Parseable (payload : List UInt8) : Prop :=
  0 ∈ payload.drop 6 ∧ ∃ byte ∈ callText payload, byte ≠ 124

instance (payload : List UInt8) : Decidable (Parseable payload) :=
  inferInstanceAs (Decidable (_ ∧ _))

theorem parse_ok_iff (payload : List UInt8) :
    (∃ rp, rpcServerParseCall payload payload.length = .ok rp) ↔ Parseable payload := by
  by_cases terminated : 0 ∈ payload.drop 6
  · have named := @tokens_eq_nil_iff 124 (callText payload)
    cases split : tokens 124 (callText payload) with
    | nil =>
      rw [parse_nameless terminated split]
      have delimiters := named.mp split
      simp only [reduceCtorEq, exists_false, Parseable, terminated, true_and, false_iff]
      rintro ⟨byte, member, differs⟩
      exact differs (delimiters byte member)
    | cons name params =>
      rw [parse_named terminated split]
      rw [split] at named
      simpa [Parseable, terminated] using named
  · rw [parse_unterminated terminated]
    simp [Parseable, terminated]

/-! ## Runs without a fault of the packet -/

section PacketSafe

variable {α β : Type}

/-- The handler reads no byte of the packet that was not received. -/
def PacketSafe (run : Except ServerStop α) : Prop :=
  ∀ fault, run ≠ .error (.packet fault)

theorem packetSafe_pure (value : α) : PacketSafe (pure value) := by
  intro fault equal
  cases equal

theorem packetSafe_bind_iff {first : Except ServerStop α} {next : α → Except ServerStop β} :
    PacketSafe (first >>= next) ↔
      PacketSafe first ∧ ∀ value, first = .ok value → PacketSafe (next value) := by
  cases first with
  | error stop => simp [PacketSafe, bind, Except.bind]
  | ok value => simp [PacketSafe, bind, Except.bind]

theorem packetSafe_packet_iff {read : Except Fault α} :
    PacketSafe (read.mapError .packet) ↔ ∃ value, read = .ok value := by
  cases read with
  | error fault => simp [PacketSafe, Except.mapError]
  | ok value => simp [PacketSafe, Except.mapError]

/-- A fault in anything but the packet is none of the packet. -/
theorem packetSafe_mapError {cause : Fault → ServerStop}
    (other : ∀ fault reason, cause fault ≠ .packet reason) (read : Except Fault α) :
    PacketSafe (read.mapError cause) := by
  cases read with
  | error fault =>
    intro reason equal
    exact other fault reason (Except.error.inj equal)
  | ok value => exact packetSafe_pure value

theorem packetSafe_procedure (read : Except Fault α) : PacketSafe (read.mapError .procedure) :=
  packetSafe_mapError (by simp) read

end PacketSafe

/-! ## The parts of a handler -/

theorem packetSafe_excecuteCall (serval : Serval) (world : ExecuteWorld) (rp : RPCProcedure) :
    PacketSafe (excecuteCall serval world rp) := by
  unfold excecuteCall
  refine packetSafe_bind_iff.mpr ⟨packetSafe_procedure _, fun executed _ => ?_⟩
  cases executed with
  | none =>
    intro fault equal
    cases equal
  | some result => exact packetSafe_pure result

/-- Once the parser is through, the requirements are inside the packet. -/
theorem packetSafe_admitCall_iff (serval : Serval) (conf : Option (List UInt8))
    (payload : List UInt8) (sender : Option CString) :
    PacketSafe (admitCall serval conf payload sender) ↔ Parseable payload := by
  unfold admitCall
  rw [packetSafe_bind_iff, packetSafe_packet_iff, parse_ok_iff]
  refine and_iff_left_of_imp fun parseable rp _ => ?_
  refine packetSafe_bind_iff.mpr ⟨packetSafe_mapError (by simp) _, fun sender _ => ?_⟩
  cases serval.strToSidT sender with
  | none => exact packetSafe_pure _
  | some callerSid =>
    refine packetSafe_bind_iff.mpr ⟨packetSafe_mapError (by simp) _, fun offering _ => ?_⟩
    split
    · exact packetSafe_pure _
    · have header := header_of_terminated parseable.1
      have requirements : ∃ value, readRequirements serval payload = .ok value := by
        rw [readRequirements, loadRange_of_le (by omega)]
        exact ⟨_, rfl⟩
      refine packetSafe_bind_iff.mpr ⟨packetSafe_packet_iff.mpr requirements, fun value _ => ?_⟩
      split
      · exact packetSafe_pure _
      · exact packetSafe_pure _

theorem load_type (payload : List UInt8) (cause : Fault → ServerStop) :
    (load (rpcPktCall :: payload) 0).mapError cause = .ok rpcPktCall := rfl

/-! ## The handlers -/

variable (serval : Serval)

theorem packetSafe_mdp_iff (serverMode : ServerMode) (world : MdpWorld) (remote : Sid)
    (rest : List UInt8) :
    PacketSafe (rpcServerMdpHandle serval serverMode world (some (remote, rpcPktCall :: rest))) ↔
      Parseable (rpcPktCall :: rest) := by
  unfold rpcServerMdpHandle
  simp only [load_type, ok_bind, ne_eq, not_true_eq_false, if_false]
  rw [← packetSafe_admitCall_iff serval world.conf _ (some (tohexSidT remote))]
  refine packetSafe_bind_iff.trans (and_iff_left_of_imp fun _ admission _ => ?_)
  cases admission with
  | unparsableSender => exact packetSafe_pure _
  | rejected rp =>
    exact packetSafe_bind_iff.mpr ⟨packetSafe_procedure _, fun _ _ => packetSafe_pure _⟩
  | accepted rp =>
    refine packetSafe_bind_iff.mpr ⟨packetSafe_excecuteCall _ _ _, fun result _ => ?_⟩
    exact packetSafe_bind_iff.mpr ⟨packetSafe_procedure _, fun _ _ => packetSafe_pure _⟩

theorem packetSafe_msp_iff (serverMode : ServerMode) (world : MspWorld) (delivery : MspDelivery)
    (rest : List UInt8) (delivered : delivery.payload = some (rpcPktCall :: rest)) :
    PacketSafe (rpcServerMspHandler serval serverMode world delivery) ↔
      Parseable (rpcPktCall :: rest) := by
  have len : delivery.len ≠ 0 := by
    rw [← delivery.complete _ delivered]
    simp
  unfold rpcServerMspHandler
  simp only [delivered, load_type, ok_bind, if_neg len, ne_eq, not_true_eq_false, if_false]
  rw [← packetSafe_admitCall_iff serval world.conf _ (some (tohexSidT world.remote))]
  refine packetSafe_bind_iff.trans (and_iff_left_of_imp fun _ admission _ => ?_)
  cases admission with
  | unparsableSender => exact packetSafe_pure _
  | rejected rp =>
    exact packetSafe_bind_iff.mpr ⟨packetSafe_procedure _, fun _ _ => packetSafe_pure _⟩
  | accepted rp =>
    refine packetSafe_bind_iff.mpr ⟨packetSafe_excecuteCall _ _ _, fun result _ => ?_⟩
    exact packetSafe_bind_iff.mpr ⟨packetSafe_procedure _, fun _ _ => packetSafe_pure _⟩

theorem wantedRow_size {doneCalls : List CString} {row : Row}
    (wanted : wantedRow serval doneCalls row = .ok true) : 0 < sizeOfInt row.filesize := by
  obtain ⟨service, _, decided⟩ := bind_eq_ok_iff.mp wanted
  have all := Except.ok.inj decided
  simp only [Bool.and_eq_true, decide_eq_true_eq] at all
  exact all.2.1

theorem packetSafe_round_iff (state : ProcessState) (visit : Visit) (rest : List UInt8)
    (wanted : wantedRow serval state.doneCalls visit.row = .ok true)
    (fetched : visit.body = some (rpcPktCall :: rest)) :
    PacketSafe (rhizomeRound serval state visit) ↔
      sizeOfInt visit.row.filesize ≤ (rpcPktCall :: rest).length ∧
        Parseable ((rpcPktCall :: rest).take (sizeOfInt visit.row.filesize)) := by
  have size := wantedRow_size serval wanted
  have wanted' : (wantedRow serval state.doneCalls visit.row).mapError ServerStop.listing =
      .ok true := mapError_eq_ok_iff.mpr wanted
  unfold rhizomeRound
  simp only [wanted', fetched, ok_bind, Bool.not_true, Bool.false_eq_true, if_false]
  rw [packetSafe_bind_iff, packetSafe_packet_iff]
  by_cases complete : sizeOfInt visit.row.filesize ≤ (rpcPktCall :: rest).length
  · have copied : loadRange (rpcPktCall :: rest) 0 (sizeOfInt visit.row.filesize) =
        .ok ((rpcPktCall :: rest).take (sizeOfInt visit.row.filesize)) :=
      loadRange_of_le (by rwa [Nat.zero_add])
    obtain ⟨count, succ⟩ := Nat.exists_eq_succ_of_ne_zero (Nat.ne_of_gt size)
    have type : (load ((rpcPktCall :: rest).take (sizeOfInt visit.row.filesize)) 0).mapError
        ServerStop.packet = .ok rpcPktCall := by
      rw [succ]
      rfl
    simp only [copied, mapError_eq_ok_iff, Except.ok.injEq, forall_eq', exists_eq', true_and,
      complete, type, ok_bind, ne_eq, not_true_eq_false, if_false]
    rw [← packetSafe_admitCall_iff serval visit.world.conf _ visit.row.sender]
    refine packetSafe_bind_iff.trans (and_iff_left_of_imp fun _ admission _ => ?_)
    cases admission with
    | unparsableSender => exact packetSafe_pure _
    | rejected rp =>
      exact packetSafe_bind_iff.mpr ⟨packetSafe_procedure _, fun _ _ => packetSafe_pure _⟩
    | accepted rp =>
      refine packetSafe_bind_iff.mpr ⟨packetSafe_procedure _, fun caller _ => ?_⟩
      refine packetSafe_bind_iff.mpr ⟨packetSafe_excecuteCall _ _ _, fun result _ => ?_⟩
      refine packetSafe_bind_iff.mpr ⟨packetSafe_procedure _, fun _ _ => ?_⟩
      split
      · exact packetSafe_pure _
      · exact packetSafe_pure _
  · have copied : loadRange (rpcPktCall :: rest) 0 (sizeOfInt visit.row.filesize) =
        .error .readOutOfBounds := by
      rw [loadRange, if_neg (by rwa [Nat.zero_add])]
    simp only [copied, complete, reduceCtorEq, exists_false, false_and]

/-- After a first byte `RPC_PKT_CALL` each handler, and the parser it calls, reads received bytes
only exactly when the packet is parseable; for a bundle the body must also have the size that the
listing says. -/
theorem call_reads_received_iff (rest : List UInt8) :
    (∀ serverMode world remote,
      PacketSafe (rpcServerMdpHandle serval serverMode world (some (remote, rpcPktCall :: rest))) ↔
        Parseable (rpcPktCall :: rest)) ∧
    (∀ serverMode world delivery, delivery.payload = some (rpcPktCall :: rest) →
      (PacketSafe (rpcServerMspHandler serval serverMode world delivery) ↔
        Parseable (rpcPktCall :: rest))) ∧
    ∀ state visit, wantedRow serval state.doneCalls visit.row = .ok true →
      visit.body = some (rpcPktCall :: rest) →
        (PacketSafe (rhizomeRound serval state visit) ↔
          sizeOfInt visit.row.filesize ≤ (rpcPktCall :: rest).length ∧
            Parseable ((rpcPktCall :: rest).take (sizeOfInt visit.row.filesize))) :=
  ⟨fun serverMode world remote => packetSafe_mdp_iff serval serverMode world remote rest,
    fun serverMode world delivery => packetSafe_msp_iff serval serverMode world delivery rest,
    fun state visit => packetSafe_round_iff serval state visit rest⟩

/-- The packet of the call `add|1|2`. -/
def addPacket : List UInt8 :=
  rpcPktCall :: ([0, 0, 0, 0, 2] ++ (CString.ofChars ['a', 'd', 'd', '|', '1', '|', '2']).bytes ++ [0])

/-- The row of a bundle for everybody that holds `addPacket`. -/
def addRow : Row where
  token := none
  service := some serviceRpc
  id := CString.ofChars ['A']
  version := 1
  inserttime := 1
  filesize := 14
  filehash := CString.ofChars ['B']
  sender := some (tohexSidT sidBroadcast)
  recipient := none
  name := some (CString.ofChars ['a', 'd', 'd'])

theorem call_reads_received_add :
    (∀ world, PacketSafe (rpcServerMdpHandle (Serval.executable sidAny) .all world
      (some (sidAny, addPacket)))) ∧
    (∀ world, PacketSafe (rpcServerMspHandler (Serval.executable sidAny) .all world
      ⟨false, some addPacket, 14, by decide⟩)) ∧
    ∀ world, PacketSafe (rhizomeRound (Serval.executable sidAny) ⟨0, [], []⟩
      ⟨addRow, some addPacket, world⟩) := by
  obtain ⟨mdp, msp, rhizome⟩ := call_reads_received_iff (Serval.executable sidAny)
    ([0, 0, 0, 0, 2] ++ (CString.ofChars ['a', 'd', 'd', '|', '1', '|', '2']).bytes ++ [0])
  refine ⟨fun world => (mdp _ world _).mpr (by decide), fun world => ?_, fun world => ?_⟩
  · exact (msp _ world ⟨false, some addPacket, 14, by decide⟩ rfl).mpr (by decide)
  · exact (rhizome ⟨0, [], []⟩ ⟨addRow, some addPacket, world⟩ rfl rfl).mpr
      (show sizeOfInt 14 ≤ 14 ∧ Parseable (addPacket.take (sizeOfInt 14)) by decide)

/-- A packet of one byte, a body without a NUL and a body of delimiters over MDP, and a body that
is shorter than its row says over Rhizome. -/
theorem call_reads_unreceived :
    (∀ world, rpcServerMdpHandle (Serval.executable sidAny) .all world (some (sidAny, [0])) =
      .error (.packet .readOutOfBounds)) ∧
    (∀ world, rpcServerMdpHandle (Serval.executable sidAny) .all world
      (some (sidAny, [0, 0, 0, 0, 0, 1, 97])) = .error (.packet .readOutOfBounds)) ∧
    (∀ world, rpcServerMdpHandle (Serval.executable sidAny) .all world
      (some (sidAny, [0, 0, 0, 0, 0, 1, 124, 0])) = .error (.packet .nullPointer)) ∧
    ∀ world, rhizomeRound (Serval.executable sidAny) ⟨0, [], []⟩
      ⟨addRow, some [0, 0, 0, 0, 0, 0, 97, 0], world⟩ = .error (.packet .readOutOfBounds) :=
  ⟨fun _ => rfl, fun _ => rfl, fun _ => rfl, fun _ => rfl⟩

end ServalRpc.Verified.PacketBounds
