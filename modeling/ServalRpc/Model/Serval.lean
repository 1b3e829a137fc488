import ServalRpc.CLib.CString

/-! # What the program takes from Serval

Subscriber ids, the packet constants, and the parts of Serval that are only declared in
`includes/serval`: they form the structure `Serval`, whose fields are the functions the
program calls and the laws it relies on.
-/

namespace ServalRpc

open CLib

/-! ## Packet constants -/

def rpcPktCall : UInt8 := 0

def rpcPktCallAck : UInt8 := 1

def rpcPktCallResponse : UInt8 := 2

def mdpOverlayMtu : Nat := 1200

def mdpMtu : Nat := mdpOverlayMtu - 40

def rpcPktSize : Nat := mdpMtu - 200

def mspMessageSize : Nat := 1024

/-! ## Subscriber ids -/

structure Sid where
  binary : List UInt8
  size : binary.length = 32
  deriving DecidableEq

def sidAny : Sid := ⟨List.replicate 32 0, List.length_replicate⟩

def sidBroadcast : Sid := ⟨List.replicate 32 255, List.length_replicate⟩

def isSidTAny (sid : Sid) : Bool := sid.binary.all (· == 0)

def isSidTBroadcast (sid : Sid) : Bool := sid.binary.all (· == 255)

theorem Sid.ext {left right : Sid} (equal : left.binary = right.binary) : left = right := by
  cases left
  cases right
  simpa using equal

theorem Sid.all_eq_iff (sid : Sid) (byte : UInt8) :
    sid.binary.all (· == byte) = true ↔ sid.binary = List.replicate 32 byte := by
  rw [List.eq_replicate_iff]
  simp [sid.size]

@[simp] theorem isSidTAny_iff (sid : Sid) : isSidTAny sid = true ↔ sid = sidAny :=
  (sid.all_eq_iff 0).trans ⟨fun equal => Sid.ext equal, congrArg Sid.binary⟩

@[simp] theorem isSidTBroadcast_iff (sid : Sid) : isSidTBroadcast sid = true ↔ sid = sidBroadcast :=
  (sid.all_eq_iff 255).trans ⟨fun equal => Sid.ext equal, congrArg Sid.binary⟩

theorem sidBroadcast_ne_sidAny : sidBroadcast ≠ sidAny := by decide

/-! ## Hexadecimal text -/

/-- `hexdigit_upper[nibble]`. -/
def hexdigitUpper (nibble : Nat) : UInt8 :=
  UInt8.ofNat (if nibble < 10 then 48 + nibble else 55 + nibble)

def hexOfByte (byte : UInt8) : List UInt8 :=
  [hexdigitUpper (byte.toNat / 16), hexdigitUpper (byte.toNat % 16)]

/-- `alloca_tohex_sid_t`: the 64 upper-case digits of a subscriber id. -/
def tohexSidT (sid : Sid) : CString :=
  CString.upToNul (sid.binary.flatMap hexOfByte)

/-- `hexvalue`, which takes digits of either case. -/
def hexvalue (digit : UInt8) : Option Nat :=
  if 48 ≤ digit ∧ digit ≤ 57 then some (digit.toNat - 48)
  else if 65 ≤ digit ∧ digit ≤ 70 then some (digit.toNat - 55)
  else if 97 ≤ digit ∧ digit ≤ 102 then some (digit.toNat - 87)
  else none

def fromhex : List UInt8 → Option (List UInt8)
  | [] => some []
  | [_] => none
  | high :: low :: digits => do
    let high ← hexvalue high
    let low ← hexvalue low
    let bytes ← fromhex digits
    pure (UInt8.ofNat (16 * high + low) :: bytes)

theorem hexdigitUpper_spec : ∀ nibble < 16,
    hexdigitUpper nibble ≠ 0 ∧ hexvalue (hexdigitUpper nibble) = some nibble := by
  decide

theorem fromhex_hexOfByte (bytes : List UInt8) : fromhex (bytes.flatMap hexOfByte) = some bytes := by
  induction bytes with
  | nil => rfl
  | cons byte bytes inductionHypothesis =>
    have bound := byte.toNat_lt
    have high := (hexdigitUpper_spec (byte.toNat / 16) (by omega)).2
    have low := (hexdigitUpper_spec (byte.toNat % 16) (by omega)).2
    have value : 16 * (byte.toNat / 16) + byte.toNat % 16 = byte.toNat := by omega
    rw [List.flatMap_cons, hexOfByte, List.cons_append, List.cons_append, List.nil_append, fromhex,
      high, low, inductionHypothesis]
    simp only [Option.bind_eq_bind, Option.bind_some, Option.pure_def, value, UInt8.ofNat_toNat]

theorem zero_not_mem_hexOfByte (bytes : List UInt8) : 0 ∉ bytes.flatMap hexOfByte := by
  simp only [List.mem_flatMap, hexOfByte, List.mem_cons, List.not_mem_nil, or_false, not_exists,
    not_and, not_or]
  intro byte _
  have bound := byte.toNat_lt
  exact ⟨(hexdigitUpper_spec (byte.toNat / 16) (by omega)).1.symm,
    (hexdigitUpper_spec (byte.toNat % 16) (by omega)).1.symm⟩

theorem tohexSidT_bytes (sid : Sid) : (tohexSidT sid).bytes = sid.binary.flatMap hexOfByte :=
  CString.upToNul_bytes_of_nulFree (zero_not_mem_hexOfByte sid.binary)

theorem tohexSidT_length (sid : Sid) : (tohexSidT sid).bytes.length = 64 := by
  simp [tohexSidT_bytes, List.length_flatMap, hexOfByte, sid.size]

/-! ## The interface -/

/-- The functions of Serval that the program links against, with the laws it relies on. -/
structure Serval where
  writeUint32 : UInt32 → List UInt8
  readUint32 : List UInt8 → UInt32
  /-- `str_to_sid_t`; `none` is the return value -1. -/
  strToSidT : CString → Option Sid
  /-- `get_my_subscriber(0)->sid`. -/
  mySid : Sid
  writeUint32_length : ∀ value, (writeUint32 value).length = 4
  readUint32_writeUint32 : ∀ value, readUint32 (writeUint32 value) = value
  strToSidT_tohexSidT : ∀ sid, strToSidT (tohexSidT sid) = some sid

/-- An executable Serval: little-endian integers, and subscriber ids in hexadecimal or by the
name `broadcast`. -/
def Serval.executable (mySid : Sid) : Serval where
  writeUint32 value := (List.range 4).map fun index => UInt8.ofNat (value.toNat / 256 ^ index)
  readUint32 bytes := UInt32.ofNat (bytes.foldr (fun byte value => byte.toNat + 256 * value) 0)
  strToSidT text :=
    if text.bytes = (CString.ofChars ['b', 'r', 'o', 'a', 'd', 'c', 'a', 's', 't']).bytes then
      some sidBroadcast
    else (fromhex text.bytes).bind fun binary =>
      if size : binary.length = 32 then some ⟨binary, size⟩ else none
  mySid := mySid
  writeUint32_length _ := by simp
  readUint32_writeUint32 value := by
    have bound := value.toNat_lt
    apply UInt32.toNat.inj
    simp [List.range_succ]
    omega
  strToSidT_tohexSidT sid := by
    have digits := tohexSidT_length sid
    rw [if_neg (fun equal => by rw [equal] at digits; exact absurd digits (by decide)),
      tohexSidT_bytes, fromhex_hexOfByte]
    simp [sid.size]

end ServalRpc
