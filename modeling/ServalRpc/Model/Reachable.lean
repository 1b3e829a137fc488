import ServalRpc.CLib.Reader
import ServalRpc.Model.Serval

/-! # The lookup of a route

`_rpc_sid_is_reachable` asks the daemon for its route table and walks over the records of each
datagram that it gets.  The buffer functions of Serval are a parameter, a sequential reader.
-/

namespace ServalRpc

open CLib

def sidSize : Nat := 32

def identitySize : Nat := 32

def reachableSelf : UInt8 := 1

def reachableBroadcast : UInt8 := 2

def reachableUnicast : UInt8 := 4

def reachableIndirect : UInt8 := 8

/-- The four statuses that `_rpc_sid_is_reachable` compares a record with. -/
def countsAsReachable (reachable : UInt8) : Bool :=
  reachable == reachableIndirect || reachable == reachableUnicast ||
    reachable == reachableBroadcast || reachable == reachableSelf

/-- One round of the loop over the records of a datagram. -/
def scanRecord {σ : Type} (ob : Reader UInt8 σ) (sid : Sid) (buff : σ) : ScanRound σ :=
  if 0 < ob.remaining buff then
    match ob.getBytes sidSize buff with
    | (none, _) => .ended
    | (some localSid, buff) =>
      match ob.get buff with
      | (none, _) => .ended
      | (some idFlags, buff) =>
        let buff := if idFlags &&& 1 ≠ 0 then ob.skip identitySize buff else buff
        if ob.overrun buff then .ended
        else match ob.get buff with
          | (none, _) => .ended
          | (some reachable, buff) =>
            if countsAsReachable reachable && localSid == sid.binary then .found else .next buff
  else .ended

/-- What `mdp_poll_recv` returns, and the bytes that it has put into the buffer. -/
structure PollRecv where
  recvLen : Int
  payload : List UInt8
  complete : payload.length = recvLen.toNat
  fits : payload.length ≤ mdpMtu

/-- The loop over the datagrams; `none` when neither they nor `rounds` rounds of a scan end it. -/
def lookupLoop {σ : Type} (ob : Reader UInt8 σ) (rounds : Nat) (sid : Sid) :
    List PollRecv → Option Int
  | [] => none
  | recv :: later =>
    if recv.recvLen = 0 then some 0
    else if recv.recvLen = -1 then some 0
    else if recv.recvLen > 0 then
      match scan (scanRecord ob sid) rounds (ob.start recv.payload) with
      | none => none
      | some true => some 1
      | some false => lookupLoop ob rounds sid later
    else lookupLoop ob rounds sid later

/-- `_rpc_sid_is_reachable`; `lookup` is `none` when `mdp_socket` fails. -/
def rpcSidIsReachable {σ : Type} (ob : Reader UInt8 σ) (rounds : Nat) (sid : Sid)
    (lookup : Option (List PollRecv)) : Option Int :=
  match lookup with
  | none => some (-1)
  | some recvs => lookupLoop ob rounds sid recvs

end ServalRpc
