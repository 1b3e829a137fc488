import Mathlib.Data.Option.Basic
import ServalRpc.Verified.ParseCall

/-! # Round trip of call packets

The packet of a call is the header, the name and parameters joined by the delimiter, and a
NUL.  The server gets the call back exactly when every string of it is non-empty and free
of the delimiter: every token has these two properties, so nothing else can come back.
-/

namespace ServalRpc.Verified.CallCodec

open CLib ParseCall

/-- A string that the server can get back from a packet. -/
def Transmissible (string : CString) : Prop :=
  string.bytes ≠ [] ∧ 124 ∉ string.bytes

instance (string : CString) : Decidable (Transmissible string) :=
  inferInstanceAs (Decidable (string.bytes ≠ [] ∧ 124 ∉ string.bytes))

/-! ## The packet of a call -/

def flatParams (delim : CString) (params : List CString) : CString :=
  params.foldl (fun flat param => flat ++ delim ++ param) (CString.ofChars [])

theorem flatten_of_walked {pointers : List (Option CString)} {paramc : Nat} {params : List CString}
    (walked : derefRange pointers paramc = .ok params) (delim : CString) :
    rpcFlattenParams paramc pointers delim = .ok (flatParams delim params) := by
  rw [rpcFlattenParams, walked]
  rfl

theorem flatten_of_strings (params : List CString) (delim : CString) :
    rpcFlattenParams params.length (params.map some) delim = .ok (flatParams delim params) := by
  apply flatten_of_walked
  rw [derefRange_eq_ok_iff, ← List.length_map (f := some), List.take_length]
  exact ⟨Nat.le_refl _, rfl⟩

theorem foldl_append_bytes (delim : CString) (params : List CString) (flat : CString) :
    (params.foldl (fun flat param => flat ++ delim ++ param) flat).bytes =
      flat.bytes ++ params.flatMap fun param => delim.bytes ++ param.bytes := by
  induction params generalizing flat with
  | nil => simp
  | cons param params inductionHypothesis =>
    simp [inductionHypothesis]

theorem flatParams_bytes (delim : CString) (params : List CString) :
    (flatParams delim params).bytes = params.flatMap fun param => delim.bytes ++ param.bytes := by
  rw [flatParams, foldl_append_bytes]
  rfl

/-- A delimiter before each parameter is a delimiter between all strings of the call. -/
theorem name_flatParams (name : CString) (params : List CString) :
    name.bytes ++ (flatParams callDelimiter params).bytes =
      [124].intercalate ((name :: params).map CString.bytes) := by
  rw [flatParams_bytes]
  induction params generalizing name with
  | nil => simp
  | cons param params inductionHypothesis =>
    have delimiter : callDelimiter.bytes = [124] := rfl
    rw [List.map_cons, List.map_cons, List.intercalate_cons_cons, ← List.map_cons,
      ← inductionHypothesis]
    simp [delimiter]

/-- The bytes of a packet with these flat parameters and this count. -/
def packedCall (serval : Serval) (rpcName : CString) (paramc : Nat) (flat : CString)
    (requirements : UInt32) : List UInt8 :=
  [rpcPktCall] ++ serval.writeUint32 requirements ++ [UInt8.ofNat paramc] ++ rpcName.bytes ++
    flat.bytes ++ [0]

/-- In an array of the declared size every copy of the client extends what it wrote before, and
the terminator goes into the last byte. -/
theorem prepare_packed (serval : Serval) (rpcName : CString) (paramc : Nat) (flat : CString)
    (requirements : UInt32) {array : List UInt8}
    (declared : array.length = callPayloadSize rpcName flat) :
    rpcClientPrepareCallPayload serval array paramc rpcName flat requirements =
      .ok (packedCall serval rpcName paramc flat requirements) := by
  have word := serval.writeUint32_length requirements
  have size : array.length = 1 + 4 + 1 + rpcName.bytes.length + flat.bytes.length + 1 := declared
  have type := storeRange_at_end [] array [rpcPktCall] 0 rfl (by simp; omega)
  have requirementsAt := storeRange_at_end [rpcPktCall] (array.drop 1)
    (serval.writeUint32 requirements) 1 rfl (by simp; omega)
  have countAt := storeRange_at_end ([rpcPktCall] ++ serval.writeUint32 requirements)
    (array.drop 5) [UInt8.ofNat paramc] 5 (by simp [word]) (by simp; omega)
  have nameAt := storeRange_at_end ([rpcPktCall] ++ serval.writeUint32 requirements ++
    [UInt8.ofNat paramc]) (array.drop 6) rpcName.bytes 6 (by simp [word]) (by simp; omega)
  have paramsAt := storeRange_at_end ([rpcPktCall] ++ serval.writeUint32 requirements ++
    [UInt8.ofNat paramc] ++ rpcName.bytes) (array.drop (6 + rpcName.length)) flat.bytes
    (6 + rpcName.length) (by simp [word, CString.length]; omega) (by simp [CString.length]; omega)
  have terminatorAt := storeRange_at_end ([rpcPktCall] ++ serval.writeUint32 requirements ++
    [UInt8.ofNat paramc] ++ rpcName.bytes ++ flat.bytes)
    (array.drop (6 + rpcName.length + flat.length)) [0] (6 + rpcName.length + flat.length)
    (by simp [word, CString.length]; omega) (by simp [CString.length]; omega)
  have full : array.drop (6 + rpcName.length + flat.length + 1) = [] :=
    List.drop_of_length_le (by simp only [CString.length]; omega)
  simp only [List.nil_append] at type
  simp only [List.drop_drop, List.length_singleton, word, Nat.reduceAdd, full, List.append_nil]
    at type requirementsAt countAt nameAt paramsAt terminatorAt
  exact bind_eq_ok_iff.mpr ⟨_, type, bind_eq_ok_iff.mpr ⟨_, requirementsAt,
    bind_eq_ok_iff.mpr ⟨_, countAt, bind_eq_ok_iff.mpr ⟨_, nameAt,
      bind_eq_ok_iff.mpr ⟨_, paramsAt, terminatorAt⟩⟩⟩⟩⟩

theorem packedCall_count (serval : Serval) (rpcName : CString) (paramc : Nat) (flat : CString)
    (requirements : UInt32) :
    callCount (packedCall serval rpcName paramc flat requirements) = UInt8.ofNat paramc := by
  have word := serval.writeUint32_length requirements
  simp [callCount, packedCall, word]

/-- The bytes of a call packet. -/
def callPacket (serval : Serval) (rpcName : CString) (params : List CString)
    (requirements : UInt32) : List UInt8 :=
  packedCall serval rpcName params.length (flatParams callDelimiter params) requirements

theorem prepare_eq (serval : Serval) (rpcName : CString) (params : List CString)
    (requirements : UInt32) {array : List UInt8}
    (declared : array.length = callPayloadSize rpcName (flatParams callDelimiter params)) :
    rpcClientPrepareCallPayload serval array params.length rpcName
      (flatParams callDelimiter params) requirements =
        .ok (callPacket serval rpcName params requirements) :=
  prepare_packed serval rpcName params.length (flatParams callDelimiter params) requirements declared

/-! ## Reading the packet back -/

section Packet

variable (serval : Serval) (rpcName : CString) (params : List CString) (requirements : UInt32)

theorem callPacket_drop : (callPacket serval rpcName params requirements).drop 6 =
    rpcName.bytes ++ (flatParams callDelimiter params).bytes ++ [0] := by
  have header : ([rpcPktCall] ++ serval.writeUint32 requirements ++
      [UInt8.ofNat params.length]).length = 6 := by
    simp [serval.writeUint32_length]
  rw [callPacket, packedCall, List.append_assoc, List.append_assoc,
    ← List.append_assoc rpcName.bytes]
  exact List.drop_left' header

theorem callPacket_text : callText (callPacket serval rpcName params requirements) =
    [124].intercalate ((rpcName :: params).map CString.bytes) := by
  have nulFree : 0 ∉ rpcName.bytes ++ (flatParams callDelimiter params).bytes :=
    (rpcName ++ flatParams callDelimiter params).nulFree
  rw [callText, callPacket_drop, CString.upToNul_append nulFree, name_flatParams]

theorem callPacket_terminated : 0 ∈ (callPacket serval rpcName params requirements).drop 6 := by
  simp [callPacket_drop]

theorem callPacket_count :
    callCount (callPacket serval rpcName params requirements) = UInt8.ofNat params.length :=
  packedCall_count serval rpcName params.length (flatParams callDelimiter params) requirements

theorem callPacket_requirements :
    readRequirements serval (callPacket serval rpcName params requirements) = .ok requirements := by
  have word := serval.writeUint32_length requirements
  have bytes : loadRange (callPacket serval rpcName params requirements) 1 4 =
      .ok (serval.writeUint32 requirements) := by
    rw [loadRange_of_le (by simp [callPacket, packedCall, word])]
    simp [callPacket, packedCall, ← word]
  rw [readRequirements, bytes]
  exact congrArg Except.ok (serval.readUint32_writeUint32 requirements)

end Packet

/-! ## The round trip -/

/-- What the server should get back from a call. -/
def calledProcedure (rpcName : CString) (params : List CString) : RPCProcedure :=
  ⟨rpcName, ⟨UInt8.ofNat params.length, CString.decimal params.length⟩,
    ⟨params.map some, []⟩, none⟩

/-- The parser builds the called procedure from its own name and parameters only: another list
of parameters leaves a null pointer, strays from the array, or differs in a string. -/
theorem parsedProcedure_eq_iff {params : List CString} (few : params.length ≤ 255)
    (rpcName name : CString) (fields : List CString) :
    parsedProcedure (UInt8.ofNat params.length) name fields = calledProcedure rpcName params ↔
      name = rpcName ∧ fields = params := by
  have count : (UInt8.ofNat params.length).toNat = params.length :=
    UInt8.toNat_ofNat_of_lt' (Nat.lt_succ_of_le few)
  simp only [parsedProcedure, calledProcedure, count, RPCProcedure.mk.injEq, and_true, true_and]
  constructor
  · rintro ⟨sameName, sameParams⟩
    have complete := (Block.calloc_storeFrom_full_iff params.length fields).mp
      (by rw [sameParams]; simp)
    rw [Block.calloc_storeFrom_of_length complete, Block.mk.injEq] at sameParams
    exact ⟨sameName, List.map_injective_iff.mpr (Option.some_injective _) sameParams.1⟩
  · rintro ⟨rfl, rfl⟩
    exact ⟨rfl, Block.calloc_storeFrom_of_length rfl⟩

/-- Whatever name the server reads and whatever parameters, they are transmissible. -/
theorem transmissible_of_tokens {text : List UInt8} (nulFree : 0 ∉ text) {name : CString}
    {params : List CString} (split : tokens 124 text = name :: params) :
    Transmissible name ∧ ∀ param ∈ params, Transmissible param := by
  have each : ∀ string ∈ name :: params, Transmissible string :=
    fun string member => mem_tokens nulFree (split ▸ member)
  exact ⟨each name List.mem_cons_self, fun param member => each param (List.mem_cons_of_mem _ member)⟩

/-- The call that the client packs comes back, without a fault or a store outside the parameter
array, exactly when every string of it is non-empty and free of the delimiter. -/
theorem call_round_trip (serval : Serval) (rpcName : CString) (params : List CString)
    (requirements : UInt32) (few : params.length ≤ 255) :
    ∃ flat payload,
      rpcFlattenParams params.length (params.map some) callDelimiter = .ok flat ∧
      (∀ array : List UInt8, array.length = callPayloadSize rpcName flat →
        rpcClientPrepareCallPayload serval array params.length rpcName flat requirements =
          .ok payload) ∧
      ((rpcServerParseCall payload payload.length = .ok (calledProcedure rpcName params) ∧
          readRequirements serval payload = .ok requirements) ↔
        Transmissible rpcName ∧ ∀ param ∈ params, Transmissible param) := by
  refine ⟨_, callPacket serval rpcName params requirements, flatten_of_strings params callDelimiter,
    fun array declared => prepare_eq serval rpcName params requirements declared, ?_⟩
  have terminated := callPacket_terminated serval rpcName params requirements
  have text := callPacket_text serval rpcName params requirements
  have count := callPacket_count serval rpcName params requirements
  constructor
  · rintro ⟨parsed, -⟩
    cases split : tokens 124 (callText (callPacket serval rpcName params requirements)) with
    | nil => simp [parse_nameless terminated split] at parsed
    | cons name fields =>
      rw [parse_named terminated split, count, Except.ok.injEq, parsedProcedure_eq_iff few] at parsed
      obtain ⟨rfl, rfl⟩ := parsed
      exact transmissible_of_tokens (CString.nulFree _) split
  · rintro ⟨name, fields⟩
    refine ⟨?_, callPacket_requirements serval rpcName params requirements⟩
    have split : tokens 124 (callText (callPacket serval rpcName params requirements)) =
        rpcName :: params := by
      rw [text]
      exact tokens_intercalate _ (List.cons_ne_nil _ _) (List.forall_mem_cons.mpr ⟨name, fields⟩)
    rw [parse_named terminated split, count, Except.ok.injEq, parsedProcedure_eq_iff few]
    exact ⟨rfl, rfl⟩

theorem call_round_trip_add :
    ∃ flat payload,
      (∀ array : List UInt8, array.length = callPayloadSize (CString.ofChars ['a', 'd', 'd']) flat →
        rpcClientPrepareCallPayload (Serval.executable sidAny) array 2
          (CString.ofChars ['a', 'd', 'd']) flat 7 = .ok payload) ∧
      rpcServerParseCall payload payload.length =
        .ok (calledProcedure (CString.ofChars ['a', 'd', 'd'])
          [CString.ofChars ['1'], CString.ofChars ['2', '2']]) ∧
      readRequirements (Serval.executable sidAny) payload = .ok 7 := by
  obtain ⟨flat, payload, _, built, returned⟩ := call_round_trip (Serval.executable sidAny)
    (CString.ofChars ['a', 'd', 'd']) [CString.ofChars ['1'], CString.ofChars ['2', '2']] 7
    (by decide)
  exact ⟨flat, payload, built, returned.mpr (by decide)⟩

end ServalRpc.Verified.CallCodec
