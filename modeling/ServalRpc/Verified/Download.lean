import ServalRpc.Model.Store

/-! # Which file a download hands over

`_rpc_download_file` never sees the filehash that its caller recognised: it takes the newest
bundle that its filter wants.  The file handed over is the one that was named exactly when
that bundle holds the payload of a bundle with the filehash.
-/

namespace ServalRpc.Verified.Download

open CLib

section Download

variable (serval : Serval) (store : StoreWorld) (rpcName sid : CString)

/-- The filter of the download takes the row. -/
def Wanted (row : Row) : Prop :=
  ∃ sender, wantedFile serval rpcName sid row = .ok (some sender)

/-- The row is the first one of the listing that the filter takes. -/
def FirstWanted (rows : List Row) (row : Row) : Prop :=
  ∃ newer older, rows = newer ++ row :: older ∧ Wanted serval rpcName sid row ∧
    ∀ other ∈ newer, wantedFile serval rpcName sid other = .ok none

/-- The bytes are the payload of a bundle in the store whose filehash is `hash`. -/
def HoldsNamed (hash : CString) (bytes : List UInt8) : Prop :=
  ∃ rows, store.listing = some rows ∧
    ∃ named ∈ rows, named.filehash = hash ∧ store.decrypted named.id = some bytes

variable {serval store rpcName sid}

theorem not_firstWanted_nil (row : Row) : ¬ FirstWanted serval rpcName sid [] row := by
  rintro ⟨newer, older, split, _⟩
  exact absurd split.symm (by simp)

theorem firstWanted_cons_iff (head : Row) (rows : List Row) (row : Row) :
    FirstWanted serval rpcName sid (head :: rows) row ↔
      (row = head ∧ Wanted serval rpcName sid head) ∨
        wantedFile serval rpcName sid head = .ok none ∧ FirstWanted serval rpcName sid rows row := by
  constructor
  · rintro ⟨newer, older, split, wanted, skipped⟩
    cases newer with
    | nil =>
      obtain ⟨rfl, _⟩ := List.cons.inj split
      exact .inl ⟨rfl, wanted⟩
    | cons first newer =>
      obtain ⟨rfl, rest⟩ := List.cons.inj split
      obtain ⟨headSkipped, skipped⟩ := List.forall_mem_cons.mp skipped
      exact .inr ⟨headSkipped, newer, older, rest, wanted, skipped⟩
  · rintro (⟨rfl, wanted⟩ | ⟨headSkipped, newer, older, rfl, wanted, skipped⟩)
    · exact ⟨[], rows, rfl, wanted, by simp⟩
    · exact ⟨head :: newer, older, rfl, wanted, List.forall_mem_cons.mpr ⟨headSkipped, skipped⟩⟩

/-- A download that succeeds hands over the payload of the first row that the filter takes. -/
theorem downloadLoop_file_iff (rows : List Row) (bytes : List UInt8) :
    (∃ path, downloadLoop serval store rpcName sid rows = .ok ⟨1, some (path, bytes)⟩) ↔
      ∃ row, FirstWanted serval rpcName sid rows row ∧ store.decrypted row.id = some bytes := by
  induction rows with
  | nil => simp [downloadLoop, not_firstWanted_nil]
  | cons head rows inductionHypothesis =>
    simp only [firstWanted_cons_iff, downloadLoop]
    cases filter : wantedFile serval rpcName sid head with
    | error fault => simp [bind, Except.bind, Wanted, filter]
    | ok taken =>
      cases taken with
      | none => simpa [bind, Except.bind, Wanted, filter] using inductionHypothesis
      | some sender =>
        cases fetched : store.decrypted head.id <;>
          simp [bind, Except.bind, pure, Except.pure, Wanted, filter, fetched]

theorem download_file_iff (bytes : List UInt8) :
    (∃ path, rpcDownloadFile serval store rpcName sid = .ok ⟨1, some (path, bytes)⟩) ↔
      ∃ rows row, store.listing = some rows ∧ FirstWanted serval rpcName sid rows row ∧
        store.decrypted row.id = some bytes := by
  unfold rpcDownloadFile
  cases store.listing with
  | none => simp
  | some rows =>
    cases rows with
    | nil => simp [not_firstWanted_nil]
    | cons row rows => simpa using downloadLoop_file_iff (row :: rows) bytes

theorem file_of_returnCode {download : Download}
    (downloaded : rpcDownloadFile serval store rpcName sid = .ok download)
    (success : download.returnCode = 1) : ∃ path bytes, download = ⟨1, some (path, bytes)⟩ := by
  have loop : ∀ rows, downloadLoop serval store rpcName sid rows = .ok download →
      ∃ path bytes, download = ⟨1, some (path, bytes)⟩ := by
    intro rows
    induction rows with
    | nil => rintro ⟨⟩; exact absurd success (by decide)
    | cons row rows inductionHypothesis =>
      intro looped
      obtain ⟨taken, _, looped⟩ := bind_eq_ok_iff.mp looped
      cases taken with
      | none => exact inductionHypothesis looped
      | some sender =>
        cases fetched : store.decrypted row.id with
        | none =>
          simp only [fetched] at looped
          cases looped
          exact absurd success (by decide)
        | some bytes =>
          simp only [fetched] at looped
          cases looped
          exact ⟨_, _, rfl⟩
  unfold rpcDownloadFile at downloaded
  cases listed : store.listing with
  | none =>
    simp only [listed] at downloaded
    cases downloaded
    exact absurd success (by decide)
  | some rows =>
    simp only [listed] at downloaded
    split at downloaded
    · cases downloaded
      exact absurd success (by decide)
    · exact loop rows downloaded

/-- Every successful download is of the named file exactly when the first row that the filter
takes, once its payload is fetched, has the payload of a bundle with that filehash.  The server
downloads with the caller's id as `sid`, the clients with that of `SID_BROADCAST`. -/
theorem download_named_iff (serval : Serval) (store : StoreWorld) (rpcName sid hash : CString) :
    (∀ download, rpcDownloadFile serval store rpcName sid = .ok download →
      download.returnCode = 1 →
        ∃ path bytes, download.file = some (path, bytes) ∧ HoldsNamed store hash bytes) ↔
    ∀ rows row bytes, store.listing = some rows → FirstWanted serval rpcName sid rows row →
      store.decrypted row.id = some bytes →
        ∃ named ∈ rows, named.filehash = hash ∧ store.decrypted named.id = some bytes := by
  constructor
  · -- The row is what a download hands over, so the payload is that of the named bundle.
    intro handsOver rows row bytes listed first fetched
    obtain ⟨path, downloaded⟩ := (download_file_iff bytes).mpr ⟨rows, row, listed, first, fetched⟩
    obtain ⟨_, _, file, _, listed', holds⟩ := handsOver _ downloaded rfl
    obtain rfl := Option.some.inj (listed.symm.trans listed')
    cases file
    exact holds
  · intro condition download downloaded success
    obtain ⟨path, bytes, rfl⟩ := file_of_returnCode downloaded success
    obtain ⟨rows, row, listed, first, fetched⟩ := (download_file_iff bytes).mp ⟨path, downloaded⟩
    exact ⟨path, bytes, rfl, rows, listed, condition rows row bytes listed first fetched⟩

end Download

/-! ## Two files of one caller -/

/-- A caller, and the procedure it calls with two different files. -/
def caller : Sid := ⟨List.replicate 32 17, List.length_replicate⟩

def complexName : CString := CString.ofChars ['s', 'u', 'm']

def hashOf (digit : UInt8) : CString := CString.upToNul (List.replicate 128 digit)

/-- The row of a file that `caller` published for everybody; `digit` tells the files apart. -/
def fileRow (digit : UInt8) : Row where
  token := none
  service := some serviceRpc
  id := CString.upToNul (List.replicate 64 digit)
  version := 1
  inserttime := 1
  filesize := 1
  filehash := hashOf digit
  sender := some (tohexSidT caller)
  recipient := none
  name := some (CString.ofChars ['f', '_'] ++ complexName)

/-- The file `B...` is newer than the file `A...`. -/
def twoFiles : StoreWorld where
  listing := some [fileRow 66, fileRow 65]
  decrypted id := id.bytes.head?.map fun digit => [digit]

theorem hashOf_isFilehash : rpcStrIsFilehash (hashOf 65) = true := by
  have digits : (hashOf 65).bytes = List.replicate 128 65 :=
    CString.upToNul_bytes_of_nulFree (by simp)
  simp [rpcStrIsFilehash, CString.length, digits]

/-- The call that names the older file gets the newer one. -/
theorem download_newer_file :
    rpcStrIsFilehash (hashOf 65) = true ∧
    (∃ path, rpcDownloadFile (Serval.executable sidAny) twoFiles complexName (tohexSidT caller) =
      .ok ⟨1, some (path, [66])⟩) ∧
    HoldsNamed twoFiles (hashOf 65) [65] ∧ ¬ HoldsNamed twoFiles (hashOf 65) [66] := by
  refine ⟨hashOf_isFilehash, ⟨_, rfl⟩, ⟨_, rfl, fileRow 65, by simp, rfl, by decide⟩, ?_⟩
  rintro ⟨rows, listed, named, member, sameHash, payload⟩
  cases listed
  simp only [List.mem_cons, List.not_mem_nil, or_false] at member
  obtain rfl | rfl := member
  · exact absurd sameHash (by decide)
  · exact absurd payload (by decide)

end ServalRpc.Verified.Download
