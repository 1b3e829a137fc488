import ServalRpc.Model.Upload
import ServalRpc.Verified.ResultManifest

/-! # Files that are taken for calls

The bundle of an uploaded file has the service of a call and only its name tells it apart.  The
server does not look at the name, so that a small file whose first byte is the type of a call is a
call.
-/

namespace ServalRpc.Verified.Upload

open CLib HandlerSteps ServerRuns ResultManifest

/-- Some poll of some node takes the payload of the bundle for a call. -/
def TakenAsCall (row : Row) (content : List UInt8) : Prop :=
  ∃ serval doneCalls visit payload, visit.row = row ∧ (∀ body ∈ visit.body, body = content) ∧
    CallAt serval doneCalls visit payload

/-- The row is one of the service and for some node. -/
def Addressed (row : Row) : Prop :=
  ∃ service, row.service = some service ∧ serviceIsRpc service = true ∧
    (row.recipient = none ∨ ∃ sid, row.recipient = some (tohexSidT sid))

theorem addressed_iff {row : Row} : Addressed row ↔ ∃ service serval, row.service = some service ∧
    serviceIsRpc service = true ∧ forNobodyOrMe serval row.recipient = true := by
  constructor
  · rintro ⟨service, isService, isRpc, nobody | ⟨sid, mine⟩⟩
    · exact ⟨service, Serval.executable sidAny, isService, isRpc, by rw [nobody]; rfl⟩
    · refine ⟨service, Serval.executable sid, isService, isRpc, ?_⟩
      rw [mine]
      exact beq_self_eq_true _
  · rintro ⟨service, serval, isService, isRpc, forUs⟩
    refine ⟨service, isService, isRpc, ?_⟩
    cases recipient : row.recipient with
    | none => exact .inl rfl
    | some text =>
      rw [recipient] at forUs
      exact .inr ⟨serval.mySid, congrArg some (eq_of_beq forUs)⟩

/-- The size filter and the first byte decide. -/
theorem takenAsCall_iff {row : Row} {content : List UInt8}
    (filesize : row.filesize = valueint content.length) :
    TakenAsCall row content ↔
      Addressed row ∧ content.length ≤ mdpMtu ∧ content.head? = some rpcPktCall := by
  have limit : mdpMtu < 2 ^ 31 := by decide
  constructor
  · rintro ⟨serval, doneCalls, visit, payload, rfl, transferred, wanted, ⟨body, fetched, copied⟩, type⟩
    obtain rfl := transferred body fetched
    obtain ⟨service, isService, isRpc, forUs, _, size⟩ := wantedRow_iff.mp wanted
    rw [filesize, sizeOfInt_valueint limit] at size
    rw [filesize, sizeOfInt_valueint_of_lt (by omega), loadRange_of_le (by omega), List.drop_zero,
      List.take_length] at copied
    cases copied
    refine ⟨addressed_iff.mpr ⟨service, serval, isService, isRpc, forUs⟩, size.2, ?_⟩
    cases payload with
    | nil => cases type
    | cons first rest => exact congrArg some (Except.ok.inj type)
  · rintro ⟨addressed, small, first⟩
    obtain ⟨service, serval, isService, isRpc, forUs⟩ := addressed_iff.mp addressed
    have nonempty : 0 < content.length := by
      cases content with
      | nil => cases first
      | cons first rest => exact Nat.succ_pos _
    have size := (sizeOfInt_valueint limit).mpr ⟨nonempty, small⟩
    refine ⟨serval, [], ⟨row, some content, undeclaredWorld⟩, content, rfl,
      fun body same => (Option.some.inj same).symm, ?_, ⟨content, rfl, ?_⟩, ?_⟩
    · refine wantedRow_iff.mpr ⟨service, isService, isRpc, forUs, List.not_mem_nil, ?_⟩
      rwa [filesize]
    · rw [filesize, sizeOfInt_valueint_of_lt (by omega), loadRange_of_le (by omega), List.drop_zero,
        List.take_length]
    · cases content with
      | nil => cases first
      | cons byte rest => exact congrArg Except.ok (Option.some.inj first)

/-! ## The bundle of a file -/

def filePrefix : CString := CString.ofChars ['f', '_']

def fileFields (serval : Serval) {rpcName : CString} (oneLine : 10 ∉ (filePrefix ++ rpcName).bytes) :
    List ManifestField :=
  [serviceField, nameField (filePrefix ++ rpcName) oneLine, senderField serval.mySid]

theorem fileFields_distinct (serval : Serval) {rpcName : CString}
    (oneLine : 10 ∉ (filePrefix ++ rpcName).bytes) :
    ((fileFields serval oneLine).map ManifestField.key).Nodup := by
  have keys : [serviceKey, nameKey, senderKey].Nodup := by decide
  exact keys

theorem fileManifest_text (serval : Serval) {rpcName : CString}
    (oneLine : 10 ∉ (filePrefix ++ rpcName).bytes) :
    (fileManifest serval sidBroadcast rpcName).bytes = manifestText (fileFields serval oneLine) := by
  have service : (CString.ofChars ['s', 'e', 'r', 'v', 'i', 'c', 'e', '=', 'R', 'P', 'C', '\n']).bytes =
      serviceKey.bytes ++ 61 :: serviceRpc.bytes ++ [10] := by decide
  have name : (CString.ofChars ['n', 'a', 'm', 'e', '=', 'f', '_']).bytes =
      nameKey.bytes ++ 61 :: filePrefix.bytes := by decide
  have sender : (CString.ofChars ['\n', 's', 'e', 'n', 'd', 'e', 'r', '=']).bytes =
      10 :: senderKey.bytes ++ [61] := by decide
  have newline : (CString.ofChars ['\n']).bytes = [10] := by decide
  have broadcast : isSidTBroadcast sidBroadcast = true := by decide
  simp [fileManifest, broadcast, manifestText, fileFields, serviceField, nameField, senderField,
    ManifestField.text, service, name, sender, newline]

/-- A name of one line leaves the bundle without a recipient. -/
theorem addressed_of_oneLine {daemon : Daemon} {serval : Serval} {rpcName : CString} {row : Row}
    {content : List UInt8}
    (listed : daemon.Lists row (fileManifest serval sidBroadcast rpcName) content)
    (oneLine : 10 ∉ rpcName.bytes) : Addressed row := by
  have prefixed : 10 ∉ (filePrefix ++ rpcName).bytes := by
    have letters : 10 ∉ filePrefix.bytes := by decide
    simp [letters, oneLine]
  have field (key : CString) (noEquals : 61 ∉ key.bytes) := daemon.manifestField_text _ _
    (fileManifest_text serval prefixed) (fileFields_distinct _ _) key noEquals
  refine ⟨serviceRpc, ?_, by decide, .inl ?_⟩
  · rw [listed.service, field _ (by decide)]
    rfl
  · rw [listed.recipient, field _ (by decide)]
    rfl

theorem publication_of_replaced {serval : Serval} {world : UploadWorld} {rpcName flat : CString}
    {params : List (Option CString)} {paramc : Nat} {publication : Publication}
    (uploaded : rpcClientReplaceIfPath serval world rpcName params paramc =
      .ok (flat, some publication)) :
    publication.manifest = fileManifest serval sidBroadcast rpcName := by
  obtain ⟨first, _, uploaded⟩ := bind_eq_ok_iff.mp uploaded
  split at uploaded
  · obtain ⟨_, _, uploaded⟩ := bind_eq_ok_iff.mp uploaded
    cases uploaded
    rfl
  · obtain ⟨_, _, uploaded⟩ := bind_eq_ok_iff.mp uploaded
    cases uploaded

/-- No node takes an uploaded file for a call exactly when the file is too big, does not start with
the type of a call, or its row is not one of the service for a node; a name of one line leaves the
row one of the service for every node. -/
theorem upload_no_call_iff (client : Serval) (world : UploadWorld) (rpcName : CString)
    (params : List (Option CString)) (paramc : Nat) (flat : CString) (publication : Publication)
    (uploaded : rpcClientReplaceIfPath client world rpcName params paramc =
      .ok (flat, some publication))
    (daemon : Daemon) (row : Row)
    (listed : daemon.Lists row publication.manifest publication.content) :
    (¬ TakenAsCall row publication.content ↔
      mdpMtu < publication.content.length ∨ publication.content.head? ≠ some rpcPktCall ∨
        ¬ Addressed row) ∧
    (10 ∉ rpcName.bytes → Addressed row) := by
  constructor
  · rw [takenAsCall_iff listed.filesize, not_and_or, not_and_or, Nat.not_le]
    constructor
    · rintro (unaddressed | big | other)
      · exact .inr (.inr unaddressed)
      · exact .inl big
      · exact .inr (.inl other)
    · rintro (big | other | unaddressed)
      · exact .inr (.inl big)
      · exact .inr (.inr other)
      · exact .inl unaddressed
  · intro oneLine
    rw [publication_of_replaced uploaded] at listed
    exact addressed_of_oneLine listed oneLine

/-! ## A file that is a call -/

/-- The client's file `a`. -/
def fileWorld (content : List UInt8) : UploadWorld where
  file _ := some content
  accepted := true
  filehash := Download.hashOf 65

def filePublication (content : List UInt8) : Publication :=
  (rpcAddFileToStore (Serval.executable Download.caller) true sidBroadcast CommandLine.addName
    content).2

theorem file_uploaded (content : List UInt8) : ∃ flat,
    rpcClientReplaceIfPath (Serval.executable Download.caller) (fileWorld content)
      CommandLine.addName [some (CString.ofChars ['a'])] 1 =
        .ok (flat, some (filePublication content)) :=
  ⟨_, rfl⟩

/-- A file with a line of text. -/
theorem text_no_call :
    ¬ TakenAsCall (resultRow (filePublication [116, 10])) (filePublication [116, 10]).content := by
  obtain ⟨flat, uploaded⟩ := file_uploaded [116, 10]
  exact (upload_no_call_iff _ _ _ _ _ flat _ uploaded Daemon.executable _
    (resultRow_listed _)).1.mpr (.inr (.inl (by decide)))

/-- A file that holds the call `add|1|2` is a call for every node. -/
theorem file_taken_as_call :
    (∃ flat, rpcClientReplaceIfPath (Serval.executable Download.caller)
      (fileWorld Delivery.addPayload) CommandLine.addName [some (CString.ofChars ['a'])] 1 =
        .ok (flat, some (filePublication Delivery.addPayload))) ∧
    TakenAsCall (resultRow (filePublication Delivery.addPayload)) Delivery.addPayload := by
  refine ⟨file_uploaded _, (takenAsCall_iff rfl).mpr ⟨?_, by decide, by decide⟩⟩
  exact addressed_of_oneLine (resultRow_listed (filePublication Delivery.addPayload)) (by decide)

end ServalRpc.Verified.Upload
