import ServalRpc.Model.Manifest
import ServalRpc.Verified.Upload

/-! # Manifests and what was meant

The size of `manifest_str` is the length of the text without its NUL, in all five formats, so the NUL
of every manifest is written behind the array.  The text that is published says what was meant when
the name is one line and the builder names a recipient for the right ids.
-/

namespace ServalRpc.Verified.Manifests

open CLib ResultManifest Upload

/-! ## What was meant -/

/-- The bundle is meant for one node. -/
def AddressedToOne (sid : Sid) : Prop := sid ≠ sidBroadcast ∧ sid ≠ sidAny

instance (sid : Sid) : Decidable (AddressedToOne sid) :=
  inferInstanceAs (Decidable (_ ∧ _))

theorem addressedToOne_iff (sid : Sid) : AddressedToOne sid ↔ ¬ (sid = sidBroadcast ∨ sid = sidAny) :=
  not_or.symm

/-- The name of the bundle: that of the procedure, behind `f_` for a file. -/
def bundleName : ManifestBuilder → CString → CString
  | .call, rpcName => rpcName
  | .file, rpcName => filePrefix ++ rpcName
  | .result, rpcName => rpcName

/-- The lines of a manifest with or without a recipient. -/
def linesOf (builder : ManifestBuilder) (serval : Serval) (sid : Sid) (rpcName : CString)
    (named : Bool) : List (CString × CString) :=
  [(serviceKey, serviceRpc), (nameKey, bundleName builder rpcName),
    (senderKey, tohexSidT serval.mySid)] ++
    if named then [(recipientKey, tohexSidT sid)] else []

/-- Read line by line, the manifest has exactly the fields that were meant. -/
def ReadsAsMeant (builder : ManifestBuilder) (serval : Serval) (sid : Sid) (rpcName : CString) :
    Prop :=
  readLines (builder.text serval sid rpcName) =
    (linesOf builder serval sid rpcName (decide (AddressedToOne sid))).map some

/-- The manifest fits its array with its NUL and has the fields that were meant. -/
structure SaysWhatWasMeant (builder : ManifestBuilder) (serval : Serval) (sid : Sid)
    (rpcName : CString) : Prop where
  fits : (builder.write serval sid rpcName).Inside
  reads : ReadsAsMeant builder serval sid rpcName

/-! ## The texts -/

/-- Whether the builder writes a recipient. -/
def namesRecipient : ManifestBuilder → Sid → Bool
  | .call, sid => decide (AddressedToOne sid)
  | .file, sid => decide (sid ≠ sidBroadcast)
  | .result, _ => true

/-- A line for each of the fields that the builder writes. -/
theorem text_bytes (builder : ManifestBuilder) (serval : Serval) (sid : Sid) (rpcName : CString) :
    (builder.text serval sid rpcName).bytes =
      (linesOf builder serval sid rpcName (namesRecipient builder sid)).flatMap fun field =>
        field.1.bytes ++ 61 :: field.2.bytes ++ [10] := by
  have service : (CString.ofChars ['s', 'e', 'r', 'v', 'i', 'c', 'e', '=', 'R', 'P', 'C', '\n']).bytes =
      serviceKey.bytes ++ 61 :: serviceRpc.bytes ++ [10] := by decide
  have name : (CString.ofChars ['n', 'a', 'm', 'e', '=']).bytes = nameKey.bytes ++ [61] := by decide
  have fileName : (CString.ofChars ['n', 'a', 'm', 'e', '=', 'f', '_']).bytes =
      nameKey.bytes ++ 61 :: filePrefix.bytes := by decide
  have sender : (CString.ofChars ['\n', 's', 'e', 'n', 'd', 'e', 'r', '=']).bytes =
      10 :: senderKey.bytes ++ [61] := by decide
  have recipient : (CString.ofChars ['\n', 'r', 'e', 'c', 'i', 'p', 'i', 'e', 'n', 't', '=']).bytes =
      10 :: recipientKey.bytes ++ [61] := by decide
  have newline : (CString.ofChars ['\n']).bytes = [10] := by decide
  cases builder with
  | call =>
    by_cases everybody : sid = sidBroadcast ∨ sid = sidAny
    · simp [ManifestBuilder.text, callManifest, namesRecipient, linesOf, bundleName,
        addressedToOne_iff, everybody, service, name, sender, newline]
    · simp [ManifestBuilder.text, callManifest, namesRecipient, linesOf, bundleName,
        addressedToOne_iff, everybody, service, name, sender, recipient, newline]
  | file =>
    by_cases everybody : sid = sidBroadcast
    · simp [ManifestBuilder.text, fileManifest, namesRecipient, linesOf, bundleName, everybody,
        service, fileName, sender, newline]
    · simp [ManifestBuilder.text, fileManifest, namesRecipient, linesOf, bundleName, everybody,
        service, fileName, sender, recipient, newline]
  | result =>
    simp [ManifestBuilder.text, resultManifest, namesRecipient, linesOf, bundleName, service, name,
      sender, recipient, newline]

/-- The lines but for the name have 90 bytes, that of the recipient 75 more. -/
theorem text_length (builder : ManifestBuilder) (serval : Serval) (sid : Sid) (rpcName : CString) :
    (builder.text serval sid rpcName).length =
      90 + (bundleName builder rpcName).length + if namesRecipient builder sid then 75 else 0 := by
  have own := tohexSidT_length serval.mySid
  have target := tohexSidT_length sid
  have keys : serviceKey.bytes.length = 7 ∧ serviceRpc.bytes.length = 3 ∧ nameKey.bytes.length = 4 ∧
      senderKey.bytes.length = 6 ∧ recipientKey.bytes.length = 9 := by decide
  rw [CString.length, CString.length, text_bytes]
  cases namesRecipient builder sid with
  | true =>
    simp only [linesOf, if_true, List.flatMap_append, List.flatMap_cons, List.flatMap_nil,
      List.length_append, List.length_cons, List.length_nil, own, target, keys]
    omega
  | false =>
    simp only [linesOf, Bool.false_eq_true, if_false, List.append_nil, List.flatMap_cons,
      List.flatMap_nil, List.length_append, List.length_cons, List.length_nil, own, keys]
    omega

theorem sizeForAll_eq (front : CString) (sid : Sid) (rpcName : CString) :
    ManifestBuilder.sizeForAll front sid rpcName = front.length + 73 + rpcName.length := by
  have target := tohexSidT_length sid
  have sender : ManifestBuilder.senderText.bytes.length = 9 := by decide
  simp only [ManifestBuilder.sizeForAll, CString.length, CString.append_bytes, List.length_append,
    target, sender]
  omega

theorem sizeForOne_eq (front : CString) (sid : Sid) (rpcName : CString) :
    ManifestBuilder.sizeForOne front sid rpcName = front.length + 148 + rpcName.length := by
  have target := tohexSidT_length sid
  have sender : ManifestBuilder.senderText.bytes.length = 9 := by decide
  have recipient : ManifestBuilder.recipientText.bytes.length = 11 := by decide
  simp only [ManifestBuilder.sizeForOne, CString.length, CString.append_bytes, List.length_append,
    target, sender, recipient]
  omega

/-- The sizes are those of the lines, in every format. -/
theorem manifestSize_eq (builder : ManifestBuilder) (sid : Sid) (rpcName : CString) :
    builder.manifestSize sid rpcName =
      90 + (bundleName builder rpcName).length + if namesRecipient builder sid then 75 else 0 := by
  have front : ManifestBuilder.frontText.length = 17 := by decide
  have fileFront : ManifestBuilder.fileFrontText.length = 19 := by decide
  have misspelt : ManifestBuilder.misspeltFrontText.length = 19 := by decide
  have prefixed : (filePrefix ++ rpcName).length = 2 + rpcName.length :=
    CString.length_append filePrefix rpcName
  cases builder with
  | call =>
    by_cases everybody : sid = sidBroadcast ∨ sid = sidAny
    · simp [ManifestBuilder.manifestSize, namesRecipient, bundleName, addressedToOne_iff,
        everybody, sizeForAll_eq, front]
    · simp [ManifestBuilder.manifestSize, namesRecipient, bundleName, addressedToOne_iff,
        everybody, sizeForOne_eq, front]
      omega
  | file =>
    by_cases everybody : sid = sidBroadcast
    · simp [ManifestBuilder.manifestSize, namesRecipient, bundleName, everybody, sizeForAll_eq,
        fileFront, prefixed]
      omega
    · simp [ManifestBuilder.manifestSize, namesRecipient, bundleName, everybody, sizeForOne_eq,
        misspelt, prefixed]
      omega
  | result =>
    simp [ManifestBuilder.manifestSize, namesRecipient, bundleName, sizeForOne_eq, front]
    omega

/-- The array is as long as the text, without room for its NUL. -/
theorem manifestSize_eq_length (builder : ManifestBuilder) (serval : Serval) (sid : Sid)
    (rpcName : CString) :
    builder.manifestSize sid rpcName = (builder.text serval sid rpcName).length :=
  (manifestSize_eq builder sid rpcName).trans (text_length builder serval sid rpcName).symm

theorem write_not_inside (builder : ManifestBuilder) (serval : Serval) (sid : Sid)
    (rpcName : CString) : ¬ (builder.write serval sid rpcName).Inside := by
  rw [ManifestBuilder.write, Write.text_inside_iff, manifestSize_eq_length builder serval]
  exact Nat.lt_irrefl _

/-! ## The lines -/

theorem keyValue_text (field : ManifestField) :
    keyValue (CString.upToNul field.text) = some (field.key, field.value) := by
  have bytes := CString.upToNul_bytes_of_nulFree field.text_nulFree
  have skipped : ∀ byte ∈ field.key.bytes, (byte != 61) = true := by
    intro byte member
    simpa using fun equals : byte = 61 => field.keyNoEquals (equals ▸ member)
  have front : field.text.takeWhile (· != 61) = field.key.bytes :=
    takeWhile_key field.keyNoEquals _
  have back : field.text.dropWhile (· != 61) = 61 :: field.value.bytes := by
    rw [ManifestField.text, List.dropWhile_append_of_pos skipped]
    simp
  rw [keyValue, bytes, if_pos (by simp [ManifestField.text]), front, back, CString.upToNul_bytes]
  simp [CString.upToNul_bytes]

/-- The lines of a text of fields are its fields. -/
theorem readLines_manifestText {manifest : CString} {fields : List ManifestField}
    (text : manifest.bytes = manifestText fields) :
    readLines manifest = fields.map fun field => some (field.key, field.value) := by
  rw [readLines, text, tokens_manifestText, List.map_map]
  apply List.map_congr_left
  intro field _
  exact keyValue_text field

theorem newline_not_mem_value {manifest key value : CString}
    (line : some (key, value) ∈ readLines manifest) : 10 ∉ value.bytes := by
  obtain ⟨text, member, read⟩ := List.mem_map.mp line
  unfold keyValue at read
  split at read
  · cases read
    intro newline
    have inLine := (List.dropWhile_sublist _).subset
      (List.mem_of_mem_drop ((List.takeWhile_sublist _).subset newline))
    exact (mem_tokens manifest.nulFree member).2 inLine
  · cases read

/-- The fields that the builder writes for a name of one line. -/
def fieldsOf (builder : ManifestBuilder) (serval : Serval) (sid : Sid) {rpcName : CString}
    (oneLine : 10 ∉ (bundleName builder rpcName).bytes) : List ManifestField :=
  [serviceField, nameField (bundleName builder rpcName) oneLine, senderField serval.mySid] ++
    if namesRecipient builder sid then [recipientField sid] else []

theorem manifestText_fieldsOf {builder : ManifestBuilder} {serval : Serval} {sid : Sid}
    {rpcName : CString} (oneLine : 10 ∉ (bundleName builder rpcName).bytes) :
    (builder.text serval sid rpcName).bytes =
      manifestText (fieldsOf builder serval sid oneLine) := by
  rw [text_bytes, linesOf, fieldsOf]
  cases namesRecipient builder sid <;> rfl

theorem bundleName_oneLine_iff (builder : ManifestBuilder) (rpcName : CString) :
    10 ∉ (bundleName builder rpcName).bytes ↔ 10 ∉ rpcName.bytes := by
  have letters : 10 ∉ filePrefix.bytes := by decide
  cases builder with
  | call => rfl
  | file => simp [bundleName, letters]
  | result => rfl

theorem readLines_of_oneLine (builder : ManifestBuilder) (serval : Serval) (sid : Sid)
    {rpcName : CString} (oneLine : 10 ∉ rpcName.bytes) :
    readLines (builder.text serval sid rpcName) =
      (linesOf builder serval sid rpcName (namesRecipient builder sid)).map some := by
  have named := (bundleName_oneLine_iff builder rpcName).mpr oneLine
  rw [readLines_manifestText (manifestText_fieldsOf named), linesOf, fieldsOf]
  cases namesRecipient builder sid <;> rfl

/-- A builder says what was meant exactly for a name of one line and an id that it treats as what it
is. -/
theorem readsAsMeant_iff (builder : ManifestBuilder) (serval : Serval) (sid : Sid)
    (rpcName : CString) :
    ReadsAsMeant builder serval sid rpcName ↔
      10 ∉ rpcName.bytes ∧ namesRecipient builder sid = decide (AddressedToOne sid) := by
  constructor
  · intro reads
    have oneLine : 10 ∉ rpcName.bytes := by
      apply (bundleName_oneLine_iff builder rpcName).mp
      apply @newline_not_mem_value (builder.text serval sid rpcName) nameKey
      rw [reads]
      simp [linesOf]
    refine ⟨oneLine, ?_⟩
    rw [ReadsAsMeant, readLines_of_oneLine builder serval sid oneLine] at reads
    have lengths := congrArg List.length reads
    revert lengths
    cases namesRecipient builder sid <;> cases decide (AddressedToOne sid) <;> simp [linesOf]
  · rintro ⟨oneLine, same⟩
    rw [ReadsAsMeant, readLines_of_oneLine builder serval sid oneLine, same]

/-- No manifest fits its array: all of them have as many bytes without their NUL.  The published text
says what was meant exactly for a name of one line, and for an id that the builder treats as what it
is. -/
theorem manifest_never_fits (builder : ManifestBuilder) (serval : Serval) (sid : Sid)
    (rpcName : CString) :
    ¬ SaysWhatWasMeant builder serval sid rpcName ∧
      builder.manifestSize sid rpcName = (builder.text serval sid rpcName).length ∧
      (ReadsAsMeant builder serval sid rpcName ↔
        10 ∉ rpcName.bytes ∧ namesRecipient builder sid = decide (AddressedToOne sid)) :=
  ⟨fun meant => write_not_inside builder serval sid rpcName meant.fits,
    manifestSize_eq_length builder serval sid rpcName, readsAsMeant_iff builder serval sid rpcName⟩

/-- The call of `add` by a node, for another one: 168 bytes in an array of 168. -/
theorem manifest_behind_array :
    (ManifestBuilder.call.write (Serval.executable sidAny) Download.caller
      CommandLine.addName) = ⟨(), 168, 0, 169⟩ ∧
    ¬ SaysWhatWasMeant .call (Serval.executable sidAny) Download.caller CommandLine.addName := by
  refine ⟨by decide +kernel, ?_⟩
  intro meant
  exact absurd meant.fits (by decide +kernel)

end ServalRpc.Verified.Manifests
