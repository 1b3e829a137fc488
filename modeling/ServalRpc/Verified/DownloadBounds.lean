import ServalRpc.Model.DownloadBuffers
import ServalRpc.Verified.Download

/-! # The arrays of a download are too short

The name of the downloaded file is measured with the size of a number and of a pointer instead of
the digits of the number and the 64 digits of the sender, and its path without a NUL.  Both are
written past their arrays for every row that the filter takes; the array of the callers has room.
-/

namespace ServalRpc.Verified.DownloadBounds

open CLib
open ServalRpc.Verified.Download (FirstWanted Wanted not_firstWanted_nil firstWanted_cons_iff
  download_file_iff file_of_returnCode)

/-! ## Lengths -/

theorem length_ofChars_le (chars : List Char) : (CString.ofChars chars).length ≤ chars.length := by
  unfold CString.ofChars CString.upToNul CString.length
  have front := (List.takeWhile_sublist (· != 0)
    (l := chars.map fun char => UInt8.ofNat char.toNat)).length_le
  rwa [List.length_map] at front

/-- A sign and at most 19 digits. -/
theorem length_decimalInt_le {number : Int} (bounded : -2 ^ 63 ≤ number ∧ number < 2 ^ 63) :
    (decimalInt number).length ≤ 20 := by
  have digits : (CString.decimal number.natAbs).length ≤ 19 := by
    apply Nat.le_trans (length_ofChars_le _)
    apply (Nat.length_toDigits_le_iff (by decide) (by decide)).mpr
    omega
  unfold decimalInt
  split
  · have sign := length_ofChars_le ['-']
    rw [CString.length_append]
    simp only [List.length_cons, List.length_nil] at sign
    omega
  · omega

theorem rpcDownName_length (rpcName : CString) (version : Int) (sender : CString) :
    (rpcDownName rpcName version sender).length =
      4 + rpcName.length + (decimalInt version).length + sender.length := by
  have letters : (CString.ofChars ['f', '_']).length = 2 := by decide
  have underscore : (CString.ofChars ['_']).length = 1 := by decide
  simp only [rpcDownName, CString.length_append, letters, underscore]
  omega

theorem urlDecrypt_length (bid : CString) : (urlDecrypt bid).length = 52 + bid.length := by
  have front : (CString.ofChars
      ['h', 't', 't', 'p', ':', '/', '/', 'l', 'o', 'c', 'a', 'l', 'h', 'o', 's', 't']).length = 16 := by
    decide
  have port : (CString.ofChars
      [':', '4', '1', '1', '0', '/', 'r', 'e', 's', 't', 'f', 'u', 'l', '/']).length = 14 := by decide
  have folder : (CString.ofChars ['r', 'h', 'i', 'z', 'o', 'm', 'e', '/']).length = 8 := by decide
  have back : (CString.ofChars
      ['/', 'd', 'e', 'c', 'r', 'y', 'p', 't', 'e', 'd', '.', 'b', 'i', 'n']).length = 14 := by decide
  simp only [urlDecrypt, CString.length_append, front, port, folder, back]
  omega

/-! ## One listing -/

/-- Which arrays are left: two of the download, and `content` by long names. -/
def Leaves (rpcName : CString) (buffer : DownloadBuffer) : Prop :=
  buffer = .rpcDownName ∨ buffer = .filepath ∨ buffer = .content ∧ 829 < rpcName.length

section Listing

variable {serval : Serval} {store : StoreWorld} {rpcName sid : CString}

/-- What the claim says of a matching row: ids of 64 digits and a number of 64 bits. -/
structure RegularRow (row : Row) (sender : CString) : Prop where
  sender : sender.length = 64
  bid : row.id.length = 64
  version : -2 ^ 63 ≤ row.version ∧ row.version < 2 ^ 63

variable (serval rpcName sid) in
/-- The rows that the filter takes are regular. -/
def Regular (rows : List Row) : Prop :=
  ∀ row ∈ rows, ∀ sender, wantedFile serval rpcName sid row = .ok (some sender) →
    RegularRow row sender

theorem rpcCmpName_inside (rpcName : CString) :
    (Write.text DownloadBuffer.rpcCmpName (4 + rpcName.length) (rpcCmpName rpcName)).Inside := by
  have letters : (CString.ofChars ['f', '_']).length = 2 := by decide
  rw [Write.text_inside_iff, rpcCmpName, CString.length_append, letters]
  omega

theorem wantedFileWrites_inside_iff {row : Row} {sender : CString} (regular : RegularRow row sender)
    {write : Write DownloadBuffer} (member : write ∈ wantedFileWrites store rpcName row sender) :
    write.Inside ↔ ¬ Leaves rpcName write.buffer := by
  have folder : rpcTmpFolder.length = 13 := by decide
  have name := rpcDownName_length rpcName row.version sender
  have number := length_decimalInt_le regular.version
  have ids := regular.sender
  have bid := regular.bid
  obtain member | copied := List.mem_append.mp member
  · simp only [List.mem_cons, List.not_mem_nil, or_false] at member
    obtain rfl | rfl | rfl := member
    · -- The 64 digits of the sender alone are more than the array has behind the name.
      rw [Write.text_inside_iff, name, ids]
      simp only [Write.text_buffer, Leaves, sizeofInTime, sizeofSender, true_or, not_true_eq_false,
        iff_false]
      omega
    · rw [Write.text_inside_iff, CString.length_append]
      simp [Leaves]
    · rw [Write.text_inside_iff, urlDecrypt_length, bid]
      simp [Leaves]
  · split at copied
    · cases copied
    · obtain rfl := List.mem_singleton.mp copied
      rw [Write.text_inside_iff, CString.length_append, name, folder, ids, fpathSize]
      simp only [Write.text_buffer, Leaves, reduceCtorEq, false_and, or_self, not_false_eq_true,
        iff_true]
      omega

theorem not_allInside_wanted {row : Row} {sender : CString} (regular : RegularRow row sender) :
    ¬ Write.AllInside (wantedFileWrites store rpcName row sender) := by
  intro inside
  have member : Write.text DownloadBuffer.rpcDownName
      (4 + rpcName.length + sizeofInTime + sizeofSender) (rpcDownName rpcName row.version sender) ∈
        wantedFileWrites store rpcName row sender :=
    List.mem_append_left _ List.mem_cons_self
  exact (wantedFileWrites_inside_iff regular member).mp (inside _ member) (.inl rfl)

theorem downloadLoopWrites_inside_iff {rows : List Row} (regular : Regular serval rpcName sid rows)
    {write : Write DownloadBuffer}
    (member : write ∈ downloadLoopWrites serval store rpcName sid rows) :
    write.Inside ↔ ¬ Leaves rpcName write.buffer := by
  induction rows with
  | nil => cases member
  | cons row rows inductionHypothesis =>
    obtain ⟨here, later⟩ := List.forall_mem_cons.mp regular
    obtain rfl | member := List.mem_cons.mp member
    · have inside := rpcCmpName_inside rpcName
      simp only [inside, Write.text_buffer, Leaves, reduceCtorEq, false_and, or_self, not_false_eq_true]
    · cases filter : wantedFile serval rpcName sid row with
      | error fault =>
        rw [filter] at member
        cases member
      | ok taken =>
        rw [filter] at member
        cases taken with
        | none => exact inductionHypothesis later member
        | some sender => exact wantedFileWrites_inside_iff (here sender filter) member

/-- A listing is gone through within the arrays exactly when the filter takes none of its rows. -/
theorem downloadLoopWrites_allInside_iff {rows : List Row}
    (regular : Regular serval rpcName sid rows) :
    Write.AllInside (downloadLoopWrites serval store rpcName sid rows) ↔
      ¬ ∃ row, FirstWanted serval rpcName sid rows row := by
  induction rows with
  | nil => simp [downloadLoopWrites, not_firstWanted_nil]
  | cons row rows inductionHypothesis =>
    obtain ⟨here, later⟩ := List.forall_mem_cons.mp regular
    have front := rpcCmpName_inside rpcName
    simp only [downloadLoopWrites, Write.allInside_cons_iff, front, true_and, firstWanted_cons_iff]
    cases filter : wantedFile serval rpcName sid row with
    | error fault => simp [Wanted, filter]
    | ok taken =>
      cases taken with
      | none => simpa [Wanted, filter] using inductionHypothesis later
      | some sender =>
        have outside := @not_allInside_wanted store rpcName _ _ (here sender filter)
        simp [Wanted, filter, outside]

end Listing

/-! ## Waiting for a file -/

section Waiting

variable (serval : Serval) (rpcName sid : CString)

/-- The filter takes no row of the listing, and follows no null pointer in it. -/
def Skipped (store : StoreWorld) : Prop :=
  ∀ rows, store.listing = some rows → ∀ row ∈ rows, wantedFile serval rpcName sid row = .ok none

/-- A round of the waiting loop comes to a row that the filter takes. -/
inductive MeetsMatching : List StoreWorld → Prop where
  | here {store : StoreWorld} {later : List StoreWorld} {rows : List Row} {row : Row} :
      store.listing = some rows → FirstWanted serval rpcName sid rows row →
      MeetsMatching (store :: later)
  | later {store : StoreWorld} {later : List StoreWorld} :
      Skipped serval rpcName sid store → MeetsMatching later → MeetsMatching (store :: later)

/-- The rows that the filter takes are regular in all listings. -/
def RegularStores (stores : List StoreWorld) : Prop :=
  ∀ store ∈ stores, ∀ rows, store.listing = some rows → Regular serval rpcName sid rows

variable {serval rpcName sid}

theorem downloadLoop_of_skipped {store : StoreWorld} {rows : List Row}
    (skipped : ∀ row ∈ rows, wantedFile serval rpcName sid row = .ok none) :
    downloadLoop serval store rpcName sid rows = .ok ⟨-1, none⟩ := by
  induction rows with
  | nil => rfl
  | cons row rows inductionHypothesis =>
    obtain ⟨here, later⟩ := List.forall_mem_cons.mp skipped
    rw [downloadLoop, here]
    exact inductionHypothesis later

/-- A listing without a row to take makes the caller wait for the next one. -/
theorem download_of_skipped {store : StoreWorld} (skipped : Skipped serval rpcName sid store) :
    ∃ download, rpcDownloadFile serval store rpcName sid = .ok download ∧
      download.returnCode ≠ 1 := by
  unfold rpcDownloadFile
  cases listed : store.listing with
  | none => exact ⟨⟨-1, none⟩, rfl, by decide⟩
  | some rows =>
    dsimp only
    split
    · exact ⟨⟨0, none⟩, rfl, by decide⟩
    · exact ⟨⟨-1, none⟩, downloadLoop_of_skipped (skipped rows listed), by decide⟩

theorem skipped_of_downloadLoop {store : StoreWorld} {rows : List Row} {download : Download}
    (looped : downloadLoop serval store rpcName sid rows = .ok download)
    (noRow : ¬ ∃ row, FirstWanted serval rpcName sid rows row) :
    ∀ row ∈ rows, wantedFile serval rpcName sid row = .ok none := by
  induction rows with
  | nil => exact List.forall_mem_nil _
  | cons row rows inductionHypothesis =>
    obtain ⟨taken, filter, looped⟩ := bind_eq_ok_iff.mp looped
    cases taken with
    | none =>
      refine List.forall_mem_cons.mpr ⟨filter, inductionHypothesis looped ?_⟩
      rintro ⟨other, first⟩
      exact noRow ⟨other, (firstWanted_cons_iff _ _ _).mpr (.inr ⟨filter, first⟩)⟩
    | some sender =>
      exact absurd ⟨row, (firstWanted_cons_iff _ _ _).mpr (.inl ⟨rfl, sender, filter⟩)⟩ noRow

theorem skipped_of_download {store : StoreWorld} {download : Download}
    (downloaded : rpcDownloadFile serval store rpcName sid = .ok download)
    (noRow : ¬ ∃ rows row, store.listing = some rows ∧ FirstWanted serval rpcName sid rows row) :
    Skipped serval rpcName sid store := by
  intro rows listed row member
  rw [rpcDownloadFile, listed] at downloaded
  dsimp only at downloaded
  split at downloaded
  · rename_i empty
    rw [List.eq_nil_of_length_eq_zero empty] at member
    cases member
  · apply skipped_of_downloadLoop downloaded _ row member
    rintro ⟨other, first⟩
    exact noRow ⟨rows, other, listed, first⟩

theorem copyWrite_inside_iff (caller : DownloadCaller) (rpcName fpath : CString) :
    (caller.copyWrite rpcName fpath).Inside ↔
      ¬ Leaves rpcName (caller.copyWrite rpcName fpath).buffer := by
  have size : rpcPktSize = 960 := rfl
  cases caller with
  | serverExcecute => simp [DownloadCaller.copyWrite, Write.text, Write.Inside, Leaves]
  | clientCallMdp | clientRhizomeListen | clientMspHandler =>
    simp only [DownloadCaller.copyWrite, Write.Inside, Leaves, size, reduceCtorEq, true_and, false_or]
    omega

theorem awaitDownloadWrites_inside_iff (caller : DownloadCaller) {stores : List StoreWorld}
    (regular : RegularStores serval rpcName sid stores) {write : Write DownloadBuffer}
    (member : write ∈ awaitDownloadWrites caller serval rpcName sid stores) :
    write.Inside ↔ ¬ Leaves rpcName write.buffer := by
  induction stores with
  | nil => cases member
  | cons store stores inductionHypothesis =>
    obtain ⟨here, later⟩ := List.forall_mem_cons.mp regular
    obtain inRound | behind := List.mem_append.mp member
    · unfold downloadWrites at inRound
      cases listed : store.listing with
      | none =>
        rw [listed] at inRound
        cases inRound
      | some rows =>
        rw [listed] at inRound
        exact downloadLoopWrites_inside_iff (here rows listed) inRound
    · split at behind
      · cases behind
      · split at behind
        · obtain ⟨fpath, _, rfl⟩ := List.mem_map.mp behind
          exact copyWrite_inside_iff caller rpcName fpath
        · exact inductionHypothesis later behind

theorem downloadWrites_allInside_iff {store : StoreWorld}
    (regular : ∀ rows, store.listing = some rows → Regular serval rpcName sid rows) :
    Write.AllInside (downloadWrites serval store rpcName sid) ↔
      ¬ ∃ rows row, store.listing = some rows ∧ FirstWanted serval rpcName sid rows row := by
  unfold downloadWrites
  cases listed : store.listing with
  | none => simp
  | some rows => simpa using downloadLoopWrites_allInside_iff (regular rows listed)

theorem awaitDownloadWrites_allInside_iff (caller : DownloadCaller) {stores : List StoreWorld}
    (regular : RegularStores serval rpcName sid stores) :
    Write.AllInside (awaitDownloadWrites caller serval rpcName sid stores) ↔
      ¬ MeetsMatching serval rpcName sid stores := by
  induction stores with
  | nil =>
    simp only [awaitDownloadWrites, Write.allInside_nil, true_iff]
    rintro ⟨⟩
  | cons store stores inductionHypothesis =>
    obtain ⟨here, later⟩ := List.forall_mem_cons.mp regular
    rw [awaitDownloadWrites, Write.allInside_append_iff, downloadWrites_allInside_iff here]
    constructor
    · rintro ⟨noRow, behind⟩ meets
      cases meets with
      | here listed first => exact noRow ⟨_, _, listed, first⟩
      | later skipped meets =>
        obtain ⟨download, downloaded, failed⟩ := download_of_skipped skipped
        rw [downloaded] at behind
        simp only [failed, if_false] at behind
        exact (inductionHypothesis later).mp behind meets
    · intro noMeeting
      have noRow : ¬ ∃ rows row, store.listing = some rows ∧ FirstWanted serval rpcName sid rows row := by
        rintro ⟨rows, row, listed, first⟩
        exact noMeeting (.here listed first)
      refine ⟨noRow, ?_⟩
      cases downloaded : rpcDownloadFile serval store rpcName sid with
      | error fault => exact Write.allInside_nil
      | ok download =>
        dsimp only
        split
        · rename_i success
          obtain ⟨path, bytes, rfl⟩ := file_of_returnCode downloaded success
          obtain ⟨rows, row, listed, first, _⟩ := (download_file_iff bytes).mp ⟨path, downloaded⟩
          exact absurd ⟨rows, row, listed, first⟩ noRow
        · apply (inductionHypothesis later).mpr
          intro meets
          exact noMeeting (.later (skipped_of_download downloaded noRow) meets)

end Waiting

/-- The name and the path of the file are written past their arrays, and by the clients a path of
more than 829 letters of the name past `content`; all other writes of a waiting caller are inside.  No
row that matches is gone through within the arrays. -/
theorem downloads_leave_arrays (caller : DownloadCaller) (serval : Serval) (rpcName sid : CString)
    (stores : List StoreWorld) (regular : RegularStores serval rpcName sid stores) :
    (Write.AllInside (awaitDownloadWrites caller serval rpcName sid stores) ↔
      ¬ MeetsMatching serval rpcName sid stores) ∧
    ∀ write ∈ awaitDownloadWrites caller serval rpcName sid stores,
      write.Inside ↔ ¬ Leaves rpcName write.buffer :=
  ⟨awaitDownloadWrites_allInside_iff caller regular,
    fun _ => awaitDownloadWrites_inside_iff caller regular⟩

/-! ## A file of a caller -/

theorem fileRow_wanted {digit : UInt8} (letter : digit ∈ [(66 : UInt8), 65]) :
    wantedFile (Serval.executable sidAny) Download.complexName (tohexSidT Download.caller)
        (Download.fileRow digit) = .ok (some (tohexSidT Download.caller)) ∧
      RegularRow (Download.fileRow digit) (tohexSidT Download.caller) := by
  have ids : ∀ letter ∈ [(66 : UInt8), 65], (Download.fileRow letter).id.length = 64 := by
    decide +kernel
  have filter : ∀ letter ∈ [(66 : UInt8), 65], wantedFile (Serval.executable sidAny)
      Download.complexName (tohexSidT Download.caller) (Download.fileRow letter) =
        .ok (some (tohexSidT Download.caller)) := by decide +kernel
  have version : -2 ^ 63 ≤ (1 : Int) ∧ (1 : Int) < 2 ^ 63 := by decide
  exact ⟨filter digit letter, tohexSidT_length _, ids digit letter, version⟩

theorem twoFiles_regular : RegularStores (Serval.executable sidAny) Download.complexName
    (tohexSidT Download.caller) [Download.twoFiles] := by
  intro store member rows listed row inRows sender wanted
  obtain rfl := List.mem_singleton.mp member
  cases listed
  have isFile : ∃ digit ∈ [(66 : UInt8), 65], row = Download.fileRow digit := by
    simpa using inRows
  obtain ⟨digit, letter, rfl⟩ := isFile
  obtain ⟨taken, regular⟩ := fileRow_wanted letter
  cases taken.symm.trans wanted
  exact regular

theorem twoFiles_meets : MeetsMatching (Serval.executable sidAny) Download.complexName
    (tohexSidT Download.caller) [Download.twoFiles] := by
  have taken := (fileRow_wanted List.mem_cons_self).1
  exact .here rfl ((firstWanted_cons_iff _ _ _).mpr (.inl ⟨rfl, _, taken⟩))

/-- The file of a caller is downloaded by the server, and not within its arrays. -/
theorem downloads_leave_arrays_file :
    ¬ Write.AllInside (awaitDownloadWrites .serverExcecute (Serval.executable sidAny)
      Download.complexName (tohexSidT Download.caller) [Download.twoFiles]) := fun inside =>
  (downloads_leave_arrays .serverExcecute _ _ _ _ twoFiles_regular).1.mp inside twoFiles_meets

/-- `f_sum_1_` and the sender: 73 bytes with the NUL in an array of 23. -/
theorem download_name_too_long :
    RegularStores (Serval.executable sidAny) Download.complexName (tohexSidT Download.caller)
      [Download.twoFiles] ∧
    ⟨.rpcDownName, 23, 0, 73⟩ ∈ awaitDownloadWrites .serverExcecute (Serval.executable sidAny)
      Download.complexName (tohexSidT Download.caller) [Download.twoFiles] ∧
    ¬ Write.AllInside (awaitDownloadWrites .serverExcecute (Serval.executable sidAny)
      Download.complexName (tohexSidT Download.caller) [Download.twoFiles]) := by
  have member : ⟨.rpcDownName, 23, 0, 73⟩ ∈ awaitDownloadWrites .serverExcecute
      (Serval.executable sidAny) Download.complexName (tohexSidT Download.caller)
        [Download.twoFiles] := by decide +kernel
  refine ⟨twoFiles_regular, member, ?_⟩
  intro inside
  exact absurd (inside _ member) (by decide)

end ServalRpc.Verified.DownloadBounds
