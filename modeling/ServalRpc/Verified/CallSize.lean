import ServalRpc.Verified.CallCodec
import ServalRpc.Verified.HandlerSteps
import ServalRpc.Verified.Upload

/-! # The size of a call

The client adds up the lengths of the parameters and compares the sum with nothing: not with the array
that it copies them to, nor with what a server receives.  The count is cut to one byte.
-/

namespace ServalRpc.Verified.CallSize

open CLib ParseCall CallCodec

/-- The parameters fit the client's array, and the server can receive the packet with its count. -/
structure ReceivedWhole (paramc : Nat) (flat : CString) (payload : List UInt8) : Prop where
  flatParams : flat.terminated.length ≤ flatParamsSize
  count : (callCount payload).toNat = paramc
  size : payload.length ≤ rpcPktSize

/-- The parameters that are sent: the filehash takes the place of a path. -/
def sentParams (world : UploadWorld) : List (Option CString) → List (Option CString)
  | some first :: rest =>
    (if (world.file first).isSome then some world.filehash else some first) :: rest
  | params => params

/-- The length of the parameters with a delimiter before each. -/
def flatLength (params : List (Option CString)) : Nat :=
  (params.map fun param => (param.elim 0 CString.length) + 1).sum

theorem flatParams_length (params : List CString) :
    (flatParams callDelimiter params).length = flatLength (params.map some) := by
  -- The delimiter is one byte, so the two sums have the same terms.
  rw [CString.length, flatParams_bytes, List.length_flatMap, flatLength, List.map_map]
  rfl

theorem flatten_length {paramc : Nat} {params : List (Option CString)} {flat : CString}
    (flattened : rpcFlattenParams paramc params callDelimiter = .ok flat) :
    flat.length = flatLength (params.take paramc) := by
  obtain ⟨strings, walked, flattened⟩ := bind_eq_ok_iff.mp flattened
  cases flattened
  rw [(derefRange_eq_ok_iff.mp walked).2]
  exact flatParams_length strings

theorem replaced_length {serval : Serval} {world : UploadWorld} {rpcName flat : CString}
    {params : List (Option CString)} {paramc : Nat} {publication : Option Publication}
    (replaced : rpcClientReplaceIfPath serval world rpcName params paramc = .ok (flat, publication)) :
    flat.length = flatLength ((sentParams world params).take paramc) := by
  obtain ⟨first, isFirst, replaced⟩ := bind_eq_ok_iff.mp replaced
  obtain ⟨rest, rfl⟩ : ∃ rest, params = some first :: rest := by
    rw [derefAt_eq_ok_iff] at isFirst
    cases params with
    | nil => cases isFirst
    | cons param rest => exact ⟨rest, by rw [Option.some.inj isFirst]⟩
  rw [sentParams]
  cases file : world.file first with
  | some content =>
    simp only [file] at replaced
    obtain ⟨flat', flattened, replaced⟩ := bind_eq_ok_iff.mp replaced
    cases replaced
    exact flatten_length flattened
  | none =>
    simp only [file] at replaced
    obtain ⟨flat', flattened, replaced⟩ := bind_eq_ok_iff.mp replaced
    cases replaced
    exact flatten_length flattened

theorem packedCall_length (serval : Serval) (rpcName : CString) (paramc : Nat) (flat : CString)
    (requirements : UInt32) :
    (packedCall serval rpcName paramc flat requirements).length =
      callPayloadSize rpcName flat := by
  simp [packedCall, callPayloadSize, serval.writeUint32_length, CString.length]
  omega

/-- What a call is prepared to, whatever the array of the packet held. -/
theorem prepareCall_cases {serval : Serval} {world : UploadWorld} {stack : Nat → UInt8}
    {rpcName flat : CString} {params : List (Option CString)} {paramc : Nat} {requirements : UInt32}
    {payload : List UInt8}
    (prepared : prepareCall serval world stack rpcName params paramc requirements =
      .ok (flat, payload)) :
    (∃ publication, rpcClientReplaceIfPath serval world rpcName params paramc =
        .ok (flat, publication)) ∧
      payload = packedCall serval rpcName paramc flat requirements := by
  obtain ⟨⟨flat', publication⟩, replaced, prepared⟩ := bind_eq_ok_iff.mp prepared
  obtain ⟨payload', packed, prepared⟩ := bind_eq_ok_iff.mp prepared
  cases prepared
  rw [prepare_packed _ _ _ _ _ (by simp)] at packed
  exact ⟨⟨publication, replaced⟩, (Except.ok.inj packed).symm⟩

theorem receivedWhole_packed_iff (serval : Serval) (rpcName : CString) (paramc : Nat) (flat : CString)
    (requirements : UInt32) :
    ReceivedWhole paramc flat (packedCall serval rpcName paramc flat requirements) ↔
      flat.length < flatParamsSize ∧ paramc < 256 ∧
        7 + rpcName.length + flat.length ≤ rpcPktSize := by
  have size := packedCall_length serval rpcName paramc flat requirements
  have count := packedCall_count serval rpcName paramc flat requirements
  have terminated : flat.terminated.length = flat.length + 1 := by
    simp [CString.terminated, CString.length]
  rw [callPayloadSize] at size
  constructor
  · rintro ⟨flatFits, counted, sizeFits⟩
    rw [count] at counted
    have byte := (UInt8.ofNat paramc).toNat_lt
    exact ⟨by omega, by omega, by omega⟩
  · rintro ⟨flatFits, few, sizeFits⟩
    refine ⟨by omega, ?_, by omega⟩
    rw [count]
    exact UInt8.toNat_ofNat_of_lt' few

/-- A call that the client prepares can be received whole exactly when the parameters that are sent
take at most 511 bytes, there are at most 255 of them, and they fit a packet with the name; it then
passes the size filter of the server. -/
theorem call_received_whole_iff (serval : Serval) (world : UploadWorld) (stack : Nat → UInt8)
    (rpcName flat : CString) (params : List (Option CString)) (paramc : Nat) (requirements : UInt32)
    (payload : List UInt8)
    (prepared : prepareCall serval world stack rpcName params paramc requirements =
      .ok (flat, payload)) :
    (ReceivedWhole paramc flat payload ↔
      flatLength ((sentParams world params).take paramc) < flatParamsSize ∧ paramc < 256 ∧
        7 + rpcName.length + flatLength ((sentParams world params).take paramc) ≤ rpcPktSize) ∧
    (payload.length ≤ rpcPktSize → 0 < sizeOfInt payload.length ∧
      sizeOfInt payload.length ≤ mdpMtu) := by
  obtain ⟨⟨publication, replaced⟩, rfl⟩ := prepareCall_cases prepared
  constructor
  · rw [← replaced_length replaced]
    exact receivedWhole_packed_iff serval rpcName paramc flat requirements
  · intro fits
    have size := packedCall_length serval rpcName paramc flat requirements
    have limit : rpcPktSize ≤ mdpMtu := by decide
    have small : mdpMtu < 2 ^ 64 := by decide
    rw [callPayloadSize] at size
    rw [sizeOfInt_natCast (by omega)]
    omega

def sumParams : List (Option CString) := [some (CString.ofChars ['1']), some (CString.ofChars ['2'])]

/-- No file has the name of a parameter. -/
def plainUpload : UploadWorld := ⟨fun _ => none, true, CString.ofChars []⟩

theorem call_received_whole_sum :
    ∃ flat payload,
      prepareCall (Serval.executable sidAny) plainUpload (fun _ => 0)
        (CString.ofChars ['s', 'u', 'm']) sumParams 2 0 = .ok (flat, payload) ∧
      ReceivedWhole 2 flat payload := by
  have prepared : prepareCall (Serval.executable sidAny) plainUpload (fun _ => 0)
      (CString.ofChars ['s', 'u', 'm']) sumParams 2 0 =
        .ok (CString.ofChars ['|', '1', '|', '2'],
          packedCall (Serval.executable sidAny) (CString.ofChars ['s', 'u', 'm']) 2
            (CString.ofChars ['|', '1', '|', '2']) 0) := by
    decide
  exact ⟨_, _, prepared,
    (call_received_whole_iff _ _ _ _ _ _ _ _ _ prepared).1.mpr (by decide)⟩

/-! ## Calls that are too long -/

def letters (count : Nat) : CString := CString.ofLetter count 97 CString.letter_visible

theorem prepareCall_of_strings (serval : Serval) (world : UploadWorld) (stack : Nat → UInt8)
    (rpcName first : CString) (rest : List CString) (requirements : UInt32)
    (noFile : world.file first = none) :
    prepareCall serval world stack rpcName ((first :: rest).map some) (first :: rest).length
        requirements =
      .ok (flatParams callDelimiter (first :: rest),
        callPacket serval rpcName (first :: rest) requirements) := by
  have declared : ((List.range (callPayloadSize rpcName
      (flatParams callDelimiter (first :: rest)))).map stack).length =
        callPayloadSize rpcName (flatParams callDelimiter (first :: rest)) := by simp
  have packed := prepare_eq serval rpcName (first :: rest) requirements declared
  have replaced : rpcClientReplaceIfPath serval world rpcName ((first :: rest).map some)
      (first :: rest).length = .ok (flatParams callDelimiter (first :: rest), none) := by
    refine bind_eq_ok_iff.mpr ⟨first, rfl, ?_⟩
    simp only [noFile]
    exact bind_eq_ok_iff.mpr ⟨_, flatten_of_strings (first :: rest) callDelimiter, rfl⟩
  exact bind_eq_ok_iff.mpr ⟨_, replaced, bind_eq_ok_iff.mpr ⟨_, packed, rfl⟩⟩

/-- A parameter of 512 bytes is more than `flat_params` holds, the byte of the count is 0 for 256
parameters, and a server has no room for the packet of a name of 960 bytes. -/
theorem calls_not_received_whole :
    (∃ flat payload,
      prepareCall (Serval.executable sidAny) plainUpload (fun _ => 0)
        (CString.ofChars ['s', 'u', 'm']) [some (letters 512)] 1 0 = .ok (flat, payload) ∧
      flatParamsSize < flat.terminated.length) ∧
    (∃ flat payload,
      prepareCall (Serval.executable sidAny) plainUpload (fun _ => 0)
        (CString.ofChars ['s', 'u', 'm']) (List.replicate 256 (some (CString.ofChars ['1']))) 256 0 =
          .ok (flat, payload) ∧
      callCount payload = 0) ∧
    ∃ flat payload,
      prepareCall (Serval.executable sidAny) plainUpload (fun _ => 0) (letters 960)
        [some (CString.ofChars ['1'])] 1 0 = .ok (flat, payload) ∧
      rpcPktSize < payload.length := by
  refine ⟨⟨_, _, prepareCall_of_strings _ _ _ _ (letters 512) [] _ rfl, ?_⟩, ?_,
    ⟨_, _, prepareCall_of_strings _ _ _ _ (CString.ofChars ['1']) [] _ rfl, ?_⟩⟩
  · have size := flatParams_length [letters 512]
    rw [CString.length] at size
    simp only [CString.terminated, List.length_append, size]
    simp [flatLength, letters, CString.length_ofLetter, flatParamsSize]
  · have prepared := prepareCall_of_strings (Serval.executable sidAny) plainUpload (fun _ => 0)
      (CString.ofChars ['s', 'u', 'm']) (CString.ofChars ['1'])
      (List.replicate 255 (CString.ofChars ['1'])) 0 rfl
    rw [← List.replicate_succ, List.map_replicate, List.length_replicate] at prepared
    refine ⟨_, _, prepared, ?_⟩
    rw [callPacket_count, List.length_replicate]
    decide
  · have name : (letters 960).length = 960 := CString.length_ofLetter 960 CString.letter_visible
    have size := packedCall_length (Serval.executable sidAny) (letters 960) 1
      (flatParams callDelimiter [CString.ofChars ['1']]) 0
    have limit : rpcPktSize = 960 := rfl
    rw [callPayloadSize, name] at size
    exact Nat.lt_of_lt_of_eq (by omega : rpcPktSize < _) size.symm

end ServalRpc.Verified.CallSize
