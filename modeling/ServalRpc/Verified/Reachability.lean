import ServalRpc.Model.ClientCalls
import ServalRpc.Model.Reachable
import ServalRpc.Verified.Delivery

/-! # A matching route was seen

The lookup answers 1 when it has come to a record of the server with one of four statuses, 0 when the
datagrams are over without one, and -1 when it cannot ask.  Its callers take every answer but 0 for
a route.
-/

namespace ServalRpc.Verified.Reachability

open CLib HandlerSteps Delivery

/-! ## Records -/

/-- A record of the route table; the identity is there when the lowest flag is set. -/
structure RouteRecord where
  sid : Sid
  idFlags : UInt8
  identity : List UInt8
  reachable : UInt8
  sized : identity.length = if idFlags &&& 1 ≠ 0 then identitySize else 0

def RouteRecord.bytes (record : RouteRecord) : List UInt8 :=
  record.sid.binary ++ record.idFlags :: (record.identity ++ [record.reachable])

/-- The datagram consists of records, up to one that may be cut off, and this is one of them. -/
def Contains (datagram : List UInt8) (record : RouteRecord) : Prop :=
  ∃ (earlier : List RouteRecord) (rest : List UInt8),
    datagram = earlier.flatMap RouteRecord.bytes ++ (record.bytes ++ rest)

/-- The record says that there is a route to this server. -/
def RouteTo (sid : Sid) (record : RouteRecord) : Prop :=
  record.sid = sid ∧
    record.reachable ∈ [reachableSelf, reachableBroadcast, reachableUnicast, reachableIndirect]

section Records

variable {first record : RouteRecord} {rest rest' : List UInt8}

theorem bytes_append (record : RouteRecord) (rest : List UInt8) :
    record.bytes ++ rest =
      record.sid.binary ++ record.idFlags :: (record.identity ++ record.reachable :: rest) := by
  simp [RouteRecord.bytes]

/-- No record is the start of another one. -/
theorem bytes_append_inj (same : first.bytes ++ rest = record.bytes ++ rest') :
    first = record ∧ rest = rest' := by
  obtain ⟨sid, idFlags, identity, reachable, sized⟩ := first
  obtain ⟨sid', idFlags', identity', reachable', sized'⟩ := record
  rw [bytes_append, bytes_append] at same
  obtain ⟨sids, same⟩ := List.append_inj same (sid.size.trans sid'.size.symm)
  obtain ⟨rfl, same⟩ := List.cons.inj same
  obtain ⟨rfl, same⟩ := List.append_inj same (sized.trans sized'.symm)
  obtain ⟨rfl, rfl⟩ := List.cons.inj same
  obtain rfl := Sid.ext sids
  exact ⟨rfl, rfl⟩

theorem contains_cons_iff :
    Contains (first.bytes ++ rest) record ↔ record = first ∨ Contains rest record := by
  constructor
  · rintro ⟨earlier, later, whole⟩
    cases earlier with
    | nil => exact .inl (bytes_append_inj whole).1.symm
    | cons other earlier =>
      rw [List.flatMap_cons, List.append_assoc] at whole
      obtain ⟨rfl, rfl⟩ := bytes_append_inj whole
      exact .inr ⟨earlier, later, rfl⟩
  · rintro (rfl | ⟨earlier, later, rfl⟩)
    · exact ⟨[], rest, rfl⟩
    · exact ⟨first :: earlier, later, by rw [List.flatMap_cons, List.append_assoc]⟩

theorem Contains.starts {datagram : List UInt8} (contains : Contains datagram record) :
    ∃ (first : RouteRecord) (rest : List UInt8), datagram = first.bytes ++ rest := by
  obtain ⟨earlier, rest, rfl⟩ := contains
  cases earlier with
  | nil => exact ⟨record, rest, rfl⟩
  | cons first earlier => exact ⟨first, _, by rw [List.flatMap_cons, List.append_assoc]⟩

theorem routeTo_iff (sid : Sid) (record : RouteRecord) :
    (countsAsReachable record.reachable && record.sid.binary == sid.binary) = true ↔
      RouteTo sid record := by
  have sids : record.sid.binary = sid.binary ↔ record.sid = sid :=
    ⟨Sid.ext, congrArg Sid.binary⟩
  simp only [countsAsReachable, RouteTo, Bool.and_eq_true, Bool.or_eq_true, beq_iff_eq, sids,
    List.mem_cons, List.not_mem_nil, or_false]
  tauto

end Records

/-! ## One datagram -/

section Scan

variable {σ : Type} {ob : Reader UInt8 σ} {sid : Sid} {buff : σ} {datagram : List UInt8}

/-- What starts with a record has at least the bytes of its parts. -/
theorem record_parts {record : RouteRecord} {rest : List UInt8}
    (whole : datagram = record.bytes ++ rest) :
    sidSize < datagram.length ∧ ∃ tail, datagram.drop sidSize = record.idFlags :: tail ∧
      (if record.idFlags &&& 1 ≠ 0 then identitySize else 0) < tail.length := by
  rw [bytes_append] at whole
  have size : record.sid.binary.length = sidSize := record.sid.size
  refine ⟨?_, record.identity ++ record.reachable :: rest, ?_, ?_⟩
  · rw [whole, List.length_append, size, List.length_cons]
    omega
  · rw [whole, List.drop_left' size]
  · rw [← record.sized, List.length_append, List.length_cons]
    omega

/-- A round reads a complete record and compares it, or ends the scan where there is none. -/
theorem scanRecord_cases (sid : Sid) (left : ob.Left buff datagram) :
    (∃ (record : RouteRecord) (rest : List UInt8) (next : σ),
        datagram = record.bytes ++ rest ∧ ob.Left next rest ∧
        scanRecord ob sid buff =
          if countsAsReachable record.reachable && record.sid.binary == sid.binary then .found
          else .next next) ∨
      ((∀ (record : RouteRecord) (rest : List UInt8), datagram ≠ record.bytes ++ rest) ∧
        scanRecord ob sid buff = .ended) := by
  have remaining := ob.remaining_left left
  unfold scanRecord
  by_cases nonempty : 0 < ob.remaining buff
  · rw [if_pos nonempty]
    obtain ⟨short, _, read⟩ | ⟨sidFits, _, read, left⟩ := ob.getBytes_cases left sidSize
    · refine .inr ⟨fun record rest whole => ?_, by rw [read]⟩
      have long := (record_parts whole).1
      omega
    · rw [read]
      dsimp only
      obtain ⟨atEnd, _, read⟩ | ⟨idFlags, tail, _, afterSid, read, left⟩ := ob.get_cases left
      · refine .inr ⟨fun record rest whole => ?_, by rw [read]⟩
        obtain ⟨_, tail, behind, _⟩ := record_parts whole
        cases atEnd.symm.trans behind
      · rw [read]
        dsimp only
        obtain ⟨overrun, short⟩ | ⟨inside, fits, left⟩ :=
          ob.skip_cases left identitySize (idFlags &&& 1 ≠ 0)
        · refine .inr ⟨fun record rest whole => ?_, by rw [if_pos overrun]⟩
          obtain ⟨_, tail, behind, long⟩ := record_parts whole
          obtain ⟨rfl, rfl⟩ := List.cons.inj (afterSid.symm.trans behind)
          omega
        · rw [inside, if_neg Bool.false_ne_true]
          obtain ⟨atEnd, _, read⟩ | ⟨reachable, rest, next, afterIdentity, read, left⟩ :=
            ob.get_cases left
          · refine .inr ⟨fun record rest whole => ?_, by rw [read]⟩
            obtain ⟨_, tail, behind, long⟩ := record_parts whole
            obtain ⟨rfl, rfl⟩ := List.cons.inj (afterSid.symm.trans behind)
            have short := congrArg List.length atEnd
            rw [List.length_drop, List.length_nil] at short
            omega
          · rw [read]
            refine .inl ⟨⟨⟨datagram.take sidSize, ?_⟩, idFlags,
              tail.take (if idFlags &&& 1 ≠ 0 then identitySize else 0), reachable, ?_⟩, rest, next,
              ?_, left, rfl⟩
            · exact List.length_take_of_le sidFits
            · exact List.length_take_of_le fits
            · rw [bytes_append, ← afterIdentity, List.take_append_drop, ← afterSid,
                List.take_append_drop]
  · rw [if_neg nonempty]
    refine .inr ⟨fun record rest whole => ?_, rfl⟩
    have long := (record_parts whole).1
    omega

/-- The scan of a datagram ends after as many rounds as it has bytes. -/
theorem scan_datagram_ends {rounds : Nat} (left : ob.Left buff datagram)
    (enough : datagram.length < rounds) :
    ∃ found, scan (scanRecord ob sid) rounds buff = some found := by
  refine scan_ends ob (fun buff datagram next left goesOn => ?_) left enough
  obtain ⟨record, rest, after, rfl, after_left, outcome⟩ | ⟨_, outcome⟩ :=
    scanRecord_cases sid left
  · rw [outcome] at goesOn
    split at goesOn
    · cases goesOn
    · cases goesOn
      refine ⟨rest, after_left, ?_⟩
      simp only [RouteRecord.bytes, List.length_append, List.length_cons]
      omega
  · cases outcome.symm.trans goesOn

/-- What the scan finds is a record of the datagram with a route to the server. -/
theorem scan_found_iff {rounds : Nat} {found : Bool} (left : ob.Left buff datagram)
    (scanned : scan (scanRecord ob sid) rounds buff = some found) :
    found = true ↔ ∃ record, Contains datagram record ∧ RouteTo sid record := by
  induction rounds generalizing buff datagram with
  | zero => cases scanned
  | succ rounds inductionHypothesis =>
    rw [scan] at scanned
    obtain ⟨first, rest, next, rfl, next_left, outcome⟩ | ⟨none, outcome⟩ :=
      scanRecord_cases sid left
    · simp only [contains_cons_iff, or_and_right, exists_or, exists_eq_left]
      rw [← routeTo_iff]
      rw [outcome] at scanned
      split at scanned
      · rename_i last
        split at last
        · cases last
        · cases last
      · rename_i isFound
        cases scanned
        split at isFound
        · rename_i matched
          simp [matched]
        · cases isFound
      · rename_i isNext
        split at isNext
        · cases isNext
        · rename_i unmatched
          cases isNext
          rw [inductionHypothesis next_left scanned]
          simp [unmatched]
    · rw [outcome] at scanned
      cases scanned
      refine iff_of_false Bool.false_ne_true ?_
      rintro ⟨record, contains, _⟩
      obtain ⟨first, rest, starts⟩ := contains.starts
      exact none first rest starts

end Scan

/-! ## The lookup -/

/-- What the lookup receives before it times out or fails to receive. -/
def received (recvs : List PollRecv) : List PollRecv :=
  recvs.takeWhile fun recv => recv.recvLen ≠ 0 ∧ recv.recvLen ≠ -1

/-- The lookup has a socket, and a datagram that it receives contains a route to the server. -/
def RouteSeen (sid : Sid) (lookup : Option (List PollRecv)) : Prop :=
  ∃ recvs, lookup = some recvs ∧ ∃ recv ∈ received recvs, ∃ record,
    Contains recv.payload record ∧ RouteTo sid record

section Lookup

variable {σ : Type} {ob : Reader UInt8 σ} {sid : Sid} {rounds : Nat}

theorem received_cons {recv : PollRecv} {later : List PollRecv} (zero : recv.recvLen ≠ 0)
    (failed : recv.recvLen ≠ -1) : received (recv :: later) = recv :: received later :=
  List.takeWhile_cons_of_pos (decide_eq_true ⟨zero, failed⟩)

/-- Nothing is received with a negative length. -/
theorem positive_of_contains {recv : PollRecv} {record : RouteRecord}
    (contains : Contains recv.payload record) : recv.recvLen > 0 := by
  obtain ⟨first, rest, starts⟩ := contains.starts
  have complete := recv.complete
  rw [starts] at complete
  simp only [RouteRecord.bytes, List.length_append, List.length_cons] at complete
  omega

theorem lookupLoop_spec {recvs : List PollRecv} {code : Int}
    (looked : lookupLoop ob rounds sid recvs = some code) :
    (code = 1 ∧ RouteSeen sid (some recvs)) ∨ (code = 0 ∧ ¬ RouteSeen sid (some recvs)) := by
  have seen_iff (recvs : List PollRecv) : RouteSeen sid (some recvs) ↔ ∃ recv ∈ received recvs,
      ∃ record, Contains recv.payload record ∧ RouteTo sid record := by
    simp [RouteSeen]
  simp only [seen_iff]
  induction recvs with
  | nil => cases looked
  | cons recv later inductionHypothesis =>
    rw [lookupLoop] at looked
    split at looked
    · rename_i zero
      cases looked
      simp [received, zero]
    · rename_i zero
      split at looked
      · rename_i failed
        cases looked
        simp [received, failed]
      · rename_i failed
        rw [received_cons zero failed]
        simp only [List.exists_mem_cons_iff]
        split at looked
        · have found {found : Bool}
              (scanned : scan (scanRecord ob sid) rounds (ob.start recv.payload) = some found) :=
            scan_found_iff (ob.left_start recv.payload) scanned
          split at looked
          · cases looked
          · rename_i scanned
            cases looked
            exact .inl ⟨rfl, .inl ((found scanned).mp rfl)⟩
          · rename_i scanned
            have unseen : ¬ ∃ record, Contains recv.payload record ∧ RouteTo sid record :=
              fun seen => Bool.false_ne_true ((found scanned).mpr seen)
            simpa only [unseen, false_or] using inductionHypothesis looked
        · rename_i negative
          have unseen : ¬ ∃ record, Contains recv.payload record ∧ RouteTo sid record :=
            fun ⟨_, contains, _⟩ => negative (positive_of_contains contains)
          simpa only [unseen, false_or] using inductionHypothesis looked

/-- The three answers of the lookup. -/
theorem reachable_spec {lookup : Option (List PollRecv)} {code : Int}
    (looked : rpcSidIsReachable ob rounds sid lookup = some code) :
    (lookup = none ∧ code = -1 ∧ ¬ RouteSeen sid lookup) ∨
      (lookup ≠ none ∧ code = 1 ∧ RouteSeen sid lookup) ∨
      (lookup ≠ none ∧ code = 0 ∧ ¬ RouteSeen sid lookup) := by
  cases lookup with
  | none =>
    cases looked
    refine .inl ⟨rfl, rfl, ?_⟩
    rintro ⟨recvs, isLookup, _⟩
    cases isLookup
  | some recvs =>
    obtain seen | unseen := lookupLoop_spec looked
    · exact .inr (.inl ⟨Option.some_ne_none recvs, seen⟩)
    · exact .inr (.inr ⟨Option.some_ne_none recvs, unseen⟩)

/-- A caller that goes on unless the answer is 0 goes on only with a route when the lookup can ask. -/
theorem only_if_seen_iff {lookup : Option (List PollRecv)} {code : Int} {goesOn : Prop}
    (looked : rpcSidIsReachable ob rounds sid lookup = some code) (asks : goesOn ↔ code ≠ 0) :
    (goesOn → RouteSeen sid lookup) ↔ lookup ≠ none := by
  rw [asks]
  obtain ⟨rfl, rfl, unseen⟩ | ⟨opened, rfl, seen⟩ | ⟨opened, rfl, unseen⟩ := reachable_spec looked
  · simp [unseen]
  · simp [seen, opened]
  · simp [opened]

end Lookup

/-! ## The callers -/

/-- With this answer of the lookup, `rpc_client_call_msp` returns -1 and does nothing else. -/
def MspRefuses (call : ClientCall) (code : Int) : Prop :=
  ∀ (world : MspCallWorld) (memory : ClientMemory), world.reachable = code →
    rpcClientCallMsp call world memory = .ok ⟨some (-1), memory⟩

/-- With this answer of the lookup, `rpc_client_call_mdp` returns -1 and does nothing else. -/
def MdpRefuses (call : ClientCall) (code : Int) : Prop :=
  ∀ (world : MdpCallWorld) (memory : ClientMemory), world.reachable = code →
    rpcClientCallMdp call world memory = .ok ⟨some (-1), memory⟩

section Callers

variable {call : ClientCall} {code : Int}

theorem mspRefuses_iff : MspRefuses call code ↔ code = 0 := by
  constructor
  · intro refuses
    by_contra goesOn
    have returned := refuses ⟨code, [], [], sidAny, CString.ofChars [], ⟨false, []⟩⟩ .initial rfl
    rw [rpcClientCallMsp, if_neg goesOn] at returned
    cases returned
  · rintro rfl world memory unreachable
    rw [rpcClientCallMsp, if_pos unreachable]
    rfl

theorem mdpRefuses_iff (notAny : call.sid ≠ sidAny) (direct : call.sid ≠ sidBroadcast) :
    MdpRefuses call code ↔ code = 0 := by
  have refused (reachable : Int) : mdpRefuses call reachable = true ↔ reachable = 0 := by
    have any : isSidTAny call.sid = false := by
      rw [Bool.eq_false_iff, ne_eq, isSidTAny_iff]
      exact notAny
    have broadcast : isSidTBroadcast call.sid = false := by
      rw [Bool.eq_false_iff, ne_eq, isSidTBroadcast_iff]
      exact direct
    simp [mdpRefuses, any, broadcast]
  constructor
  · intro refuses
    by_contra goesOn
    have returned := refuses ⟨code, true, true, []⟩ .initial rfl
    rw [rpcClientCallMdp, if_neg (mt (refused code).mp goesOn)] at returned
    cases returned
  · rintro rfl world memory unreachable
    rw [rpcClientCallMdp, if_pos ((refused _).mpr unreachable)]
    rfl

/-- The server sends a result over MDP, and not over Rhizome, on every answer but 0. -/
theorem mdpSend_mem_iff {serval : Serval} {serverMode : ServerMode} {world : MdpWorld} {remote : Sid}
    {payload : List UInt8} {rp : RPCProcedure} {result : ExecuteResult} {ret : Int}
    {actions : List ServerAction}
    (handled : rpcServerMdpHandle serval serverMode world (some (remote, payload)) =
      .ok (ret, actions))
    (type : load payload 0 = .ok rpcPktCall)
    (admitted : admitCall serval world.conf payload (some (tohexSidT remote)) = .ok (.accepted rp))
    (executed : excecuteCall serval world.execute rp = .ok result)
    (succeeded : result.returnCode ≠ 0) :
    .mdpSend remote result.resultPayload.cells world.resultSent ∈ actions ↔ world.reachable ≠ 0 := by
  have notAck := ack_ne_result (resultPacket_of_executed executed succeeded)
  obtain ⟨other, executed', rfl⟩ := mdp_accepted handled type admitted
  cases executed.symm.trans executed'
  rw [mdpAnswer, if_neg succeeded]
  split
  · rename_i goesOn
    simp [goesOn]
  · rename_i unreachable
    split
    · simp [unreachable, notAck.symm]
    · simp [unreachable, notAck.symm]

end Callers

/-- The scan of every datagram ends.  The two client functions go past their check, and the server
prefers MDP for a result, only after a matching route was seen exactly when the lookup has its
socket. -/
theorem reachable_only_if_seen_iff {σ : Type} (ob : Reader UInt8 σ) (rounds : Nat)
    (enough : mdpMtu < rounds) (sid : Sid) (lookup : Option (List PollRecv)) (code : Int)
    (looked : rpcSidIsReachable ob rounds sid lookup = some code) :
    (∀ recv : PollRecv, ∃ found,
      scan (scanRecord ob sid) rounds (ob.start recv.payload) = some found) ∧
    (∀ call : ClientCall, call.sid = sid →
      ((¬ MspRefuses call code → RouteSeen sid lookup) ↔ lookup ≠ none)) ∧
    (∀ call : ClientCall, call.sid = sid → sid ≠ sidAny → sid ≠ sidBroadcast →
      ((¬ MdpRefuses call code → RouteSeen sid lookup) ↔ lookup ≠ none)) ∧
    ∀ serval serverMode world payload rp result ret actions,
      rpcServerMdpHandle serval serverMode world (some (sid, payload)) = .ok (ret, actions) →
      load payload 0 = .ok rpcPktCall →
      admitCall serval world.conf payload (some (tohexSidT sid)) = .ok (.accepted rp) →
      excecuteCall serval world.execute rp = .ok result → result.returnCode ≠ 0 →
      world.reachable = code →
        ((.mdpSend sid result.resultPayload.cells world.resultSent ∈ actions →
          RouteSeen sid lookup) ↔ lookup ≠ none) := by
  refine ⟨fun recv => ?_, ?_, ?_, ?_⟩
  · exact scan_datagram_ends (ob.left_start recv.payload) (Nat.lt_of_le_of_lt recv.fits enough)
  · rintro call rfl
    exact only_if_seen_iff looked (not_congr mspRefuses_iff)
  · rintro call rfl notAny direct
    exact only_if_seen_iff looked (not_congr (mdpRefuses_iff notAny direct))
  · rintro serval serverMode world payload rp result ret actions handled type admitted executed
      succeeded rfl
    exact only_if_seen_iff looked (mdpSend_mem_iff handled type admitted executed succeeded)

/-- A datagram with a record of another server and an indirect route to the caller. -/
def routeTable : PollRecv where
  recvLen := 100
  payload := sidBroadcast.binary ++ [0, 16] ++
    (Download.caller.binary ++ 1 :: (List.replicate 32 7 ++ [reachableIndirect]))
  complete := rfl
  fits := by decide

def callToCaller : ClientCall := ⟨Serval.executable sidAny, Download.caller, CommandLine.addName⟩

/-- The call of `add` that the server has executed for the caller, after this answer of the lookup. -/
theorem add_answered (code : Int) : ∃ result ret actions,
    rpcServerMdpHandle (Serval.executable sidAny) .all { mdpWorldOf true with reachable := code }
      (some (Download.caller, addPayload)) = .ok (ret, actions) ∧
    excecuteCall (Serval.executable sidAny) runWorld addCalled = .ok result ∧
    result.returnCode ≠ 0 := by
  obtain ⟨result, executed, succeeded, freed⟩ := add_executed
  have free : rpcFreeRp result.rp = .ok () := freed ▸ addCalled_freed
  have handled := @mdpHandle_of_accepted (Serval.executable sidAny) .all
    { mdpWorldOf true with reachable := code } _ _ _ _ add_type add_admitted executed free
  exact ⟨result, _, _, handled, executed, succeeded⟩

theorem reachable_only_if_seen_indirect : RouteSeen Download.caller (some [routeTable]) ∧
    ¬ MspRefuses callToCaller 1 ∧ ¬ MdpRefuses callToCaller 1 ∧
    ∃ (result : ExecuteResult) (ret : Int) (actions : List ServerAction),
      rpcServerMdpHandle (Serval.executable sidAny) .all { mdpWorldOf true with reachable := 1 }
        (some (Download.caller, addPayload)) = .ok (ret, actions) ∧
      .mdpSend Download.caller result.resultPayload.cells true ∈ actions := by
  have looked : rpcSidIsReachable (Reader.cursor UInt8) 1161 Download.caller (some [routeTable]) =
      some 1 := by decide
  have notAny : Download.caller ≠ sidAny := by decide
  have direct : Download.caller ≠ sidBroadcast := by decide
  obtain ⟨_, msp, _, _⟩ := reachable_only_if_seen_iff (Reader.cursor UInt8) 1161 (by decide)
    Download.caller (some [routeTable]) 1 looked
  have mspGoesOn : ¬ MspRefuses callToCaller 1 := mt mspRefuses_iff.mp Int.one_ne_zero
  obtain ⟨result, ret, actions, handled, executed, succeeded⟩ := add_answered 1
  refine ⟨(msp callToCaller rfl).mpr (Option.some_ne_none _) mspGoesOn, mspGoesOn,
    mt (mdpRefuses_iff notAny direct).mp Int.one_ne_zero, result, ret, actions, handled, ?_⟩
  exact (mdpSend_mem_iff handled add_type add_admitted executed succeeded).mpr Int.one_ne_zero

/-- Without a socket for the lookup, all three callers go on although no route was seen. -/
theorem failed_lookup_goes_on : ∃ code : Int,
    rpcSidIsReachable (Reader.cursor UInt8) 1161 Download.caller none = some code ∧
    ¬ RouteSeen Download.caller none ∧
    ¬ MspRefuses callToCaller code ∧ ¬ MdpRefuses callToCaller code ∧
    ∃ (result : ExecuteResult) (ret : Int) (actions : List ServerAction),
      rpcServerMdpHandle (Serval.executable sidAny) .all { mdpWorldOf true with reachable := code }
        (some (Download.caller, addPayload)) = .ok (ret, actions) ∧
      .mdpSend Download.caller result.resultPayload.cells true ∈ actions := by
  have nonzero : (-1 : Int) ≠ 0 := by decide
  have notAny : Download.caller ≠ sidAny := by decide
  have direct : Download.caller ≠ sidBroadcast := by decide
  obtain ⟨result, ret, actions, handled, executed, succeeded⟩ := add_answered (-1)
  refine ⟨-1, rfl, ?_, mt mspRefuses_iff.mp nonzero, mt (mdpRefuses_iff notAny direct).mp nonzero,
    result, ret, actions, handled, ?_⟩
  · rintro ⟨_, opened, _⟩
    cases opened
  · exact (mdpSend_mem_iff handled add_type add_admitted executed succeeded).mpr nonzero

end ServalRpc.Verified.Reachability
