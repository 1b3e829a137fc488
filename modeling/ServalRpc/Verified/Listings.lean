import ServalRpc.Model.Listing
import ServalRpc.Verified.JsonNumbers
import ServalRpc.Verified.ResultManifest

/-! # Which bodies are handled within bounds

The array for the body has no room for a NUL, so the parser is handed a string only when the body has
one itself; and what the parser returns is taken apart without a look at the pointers.  For each of
the three functions this says exactly which bodies give the parser a string, and of which bodies the
rows are gone through.
-/

namespace ServalRpc.Verified.Listings

open CLib
open ServalRpc.Verified.Download (FirstWanted firstWanted_cons_iff)
open ServalRpc.Verified.HandlerSteps (wantedRow_iff)
open ServalRpc.Verified.JsonNumbers (exactDoubles)
open ServalRpc.Verified.Representation (wantedFile_ok)
open ServalRpc.Verified.ResultManifest (interestingRow_iff)

/-! ## The body -/

/-- The body without its last byte is copied; an empty one has 2^64 - 1 bytes without it. -/
theorem jsonString_receivedBody (body : List UInt8) :
    jsonString (receivedBody body) =
      if body = [] then .error .readOutOfBounds else .ok body.dropLast := by
  have copied : jsonString (receivedBody body) =
      loadRange (body ++ [0]) 0 (sizeSub body.length 1) := rfl
  rw [copied]
  split
  · rename_i empty
    subst empty
    exact loadRange_of_lt (by simp [sizeSub])
  · rename_i nonempty
    have positive := List.length_pos_of_ne_nil nonempty
    have count : sizeSub body.length 1 = body.length - 1 := sizeSub_of_le positive
    have inside : 0 + (body.length - 1) ≤ (body ++ [0]).length := by
      rw [List.length_append]
      omega
    rw [count, loadRange_of_le inside, List.drop_zero, List.take_append_of_le_length (by omega),
      List.dropLast_eq_take]

theorem jsonString_eq_ok_iff {body string : List UInt8} :
    jsonString (receivedBody body) = .ok string ↔ body ≠ [] ∧ body.dropLast = string := by
  rw [jsonString_receivedBody]
  split
  · rename_i empty
    simp [empty]
  · rename_i nonempty
    simp [nonempty]

/-- The parser is handed a string: it ends in the array that the body has been copied to. -/
def Terminated (body : List UInt8) : Prop :=
  ∃ string, jsonString (receivedBody body) = .ok string ∧ 0 ∈ string

theorem terminated_iff (body : List UInt8) : Terminated body ↔ 0 ∈ body.dropLast := by
  constructor
  · rintro ⟨string, copied, ends⟩
    obtain ⟨-, rfl⟩ := jsonString_eq_ok_iff.mp copied
    exact ends
  · intro ends
    refine ⟨body.dropLast, jsonString_eq_ok_iff.mpr ⟨?_, rfl⟩, ends⟩
    rintro rfl
    cases ends

section Parsed

variable {D : Type} (doubles : Doubles D) (view : D → Int)

/-- The `rows` of what the parser makes of the bytes of a body that are copied. -/
def parsedRows (body : List UInt8) : Except ParseStop (Option Json) := do
  let incomingJson ← cJSONParse doubles body.dropLast
  pure (cJSONGetObjectItem (incomingJson.map (itemFields view none)) rowsKey)

variable {doubles view}

theorem listingRows_eq_ok_iff {body : List UInt8} {rows : Option Json} :
    listingRows doubles view (receivedBody body) = .ok rows ↔
      body ≠ [] ∧ parsedRows doubles view body = .ok rows := by
  rw [listingRows, jsonString_receivedBody]
  split
  · rename_i empty
    simp [empty, Except.mapError, bind, Except.bind]
  · rename_i nonempty
    simp only [nonempty, ne_eq, not_false_eq_true, true_and]
    exact Iff.rfl

/-- A function gets to the rows of a body that has some bytes. -/
theorem withRows_eq_ok_iff {α : Type} {body : List UInt8} {rowsRead : Option Json → Except Fault α}
    {final : α} :
    withRows doubles view (receivedBody body) rowsRead = .ok final ↔
      body ≠ [] ∧ ∃ rows, parsedRows doubles view body = .ok rows ∧ rowsRead rows = .ok final := by
  rw [withRows, bind_eq_ok_iff]
  constructor
  · rintro ⟨rows, listed, read⟩
    obtain ⟨nonempty, parsed⟩ := listingRows_eq_ok_iff.mp listed
    exact ⟨nonempty, rows, parsed, mapError_eq_ok_iff.mp read⟩
  · rintro ⟨nonempty, rows, parsed, read⟩
    exact ⟨rows, listingRows_eq_ok_iff.mpr ⟨nonempty, parsed⟩, mapError_eq_ok_iff.mpr read⟩

/-- The rows are the same in all worlds. -/
theorem forall_withRows_iff {α ι : Type} [Nonempty ι] {body : List UInt8}
    {rowsRead : ι → Option Json → Except Fault α} {complete : Option Json → Prop}
    (safe : ∀ rows, (∀ world, ∃ final, rowsRead world rows = .ok final) ↔ complete rows) :
    (∀ world, ∃ final, withRows doubles view (receivedBody body) (rowsRead world) = .ok final) ↔
      body ≠ [] ∧ ∃ rows, parsedRows doubles view body = .ok rows ∧ complete rows := by
  constructor
  · intro read
    obtain ⟨world⟩ := ‹Nonempty ι›
    obtain ⟨final, ended⟩ := read world
    obtain ⟨nonempty, rows, parsed, -⟩ := withRows_eq_ok_iff.mp ended
    refine ⟨nonempty, rows, parsed, (safe rows).mp fun other => ?_⟩
    obtain ⟨final, ended⟩ := read other
    obtain ⟨-, rows', parsed', ended⟩ := withRows_eq_ok_iff.mp ended
    cases parsed.symm.trans parsed'
    exact ⟨final, ended⟩
  · rintro ⟨nonempty, rows, parsed, isComplete⟩ world
    obtain ⟨final, ended⟩ := (safe rows).mpr isComplete world
    exact ⟨final, withRows_eq_ok_iff.mpr ⟨nonempty, rows, parsed, ended⟩⟩

end Parsed

/-! ## Rows -/

theorem readItems_eq_ok_iff (recentFile : Option Json) (positions : List Nat) :
    readItems recentFile positions = .ok () ↔
      ∀ position ∈ positions, (cJSONGetArrayItem recentFile position).isSome := by
  induction positions with
  | nil => simp [readItems, pure, Except.pure]
  | cons position positions inductionHypothesis =>
    have first : readItems recentFile (position :: positions) = (do
        let _ ← deref (cJSONGetArrayItem recentFile position)
        readItems recentFile positions) := by
      simp only [readItems, List.forM_eq_forM, List.forM_cons, bind_assoc, pure_bind]
    rw [first, List.forall_mem_cons, ← inductionHypothesis]
    cases cJSONGetArrayItem recentFile position with
    | none => simp [bind, Except.bind]
    | some item => simp [bind, Except.bind]

theorem arrayItem_isSome_iff (row : Json) (position : Nat) :
    (cJSONGetArrayItem (some row) position).isSome ↔ position < row.children.length := by
  simp [cJSONGetArrayItem]

/-- Items up to a position are there when the one at the position is. -/
theorem readItems_of_last {row : Json} {positions : List Nat} {last : Nat}
    (member : last ∈ positions) (bound : ∀ position ∈ positions, position ≤ last) :
    readItems (some row) positions = .ok () ↔ last < row.children.length := by
  simp only [readItems_eq_ok_iff, arrayItem_isSome_iff]
  constructor
  · intro all
    exact all last member
  · intro inside position isPosition
    exact Nat.lt_of_le_of_lt (bound position isPosition) inside

/-- The items that the loops visit are those of the array. -/
theorem recentFiles_all (tree : Json) :
    recentFiles (some tree) tree.children.length = tree.children.map some := by
  apply List.ext_getElem (by simp [recentFiles])
  intro index inside _
  have bound : index < tree.children.length := by simpa [recentFiles] using inside
  simp [recentFiles, cJSONGetArrayItem, bound]

theorem getArraySize_eq_ok_iff {rows : Option Json} {count : Nat} :
    cJSONGetArraySize rows = .ok count ↔ ∃ tree, rows = some tree ∧ tree.children.length = count := by
  cases rows with
  | none => simp [cJSONGetArraySize, bind, Except.bind]
  | some tree => simp [cJSONGetArraySize, bind, Except.bind, pure, Except.pure]

/-! ## The server -/

/-- What the server needs of a row: a service, an id, and a sender if the row is for it. -/
structure ServerRow (serval : Serval) (row : Json) : Prop where
  items : 12 < row.children.length
  service : (itemString (some row) 2).isSome
  id : (itemId (some row)).isSome
  sender : wantedRow serval [] (rowOf (some row)) = .ok true → (itemString (some row) 11).isSome

theorem serverItems_iff (row : Json) :
    readItems (some row) [2, 3, 9, 11, 12] = .ok () ↔ 12 < row.children.length :=
  readItems_of_last (by decide) (by decide)

theorem wantedRow_ok_iff (serval : Serval) (doneCalls : List CString) (row : Row) :
    (∃ wanted, wantedRow serval doneCalls row = .ok wanted) ↔ row.service.isSome := by
  unfold wantedRow
  cases row.service with
  | none => simp [bind, Except.bind]
  | some service => simp [bind, Except.bind, pure, Except.pure]

/-- Fewer calls that are done make more rows wanted. -/
theorem wantedRow_nil {serval : Serval} {doneCalls : List CString} {row : Row}
    (wanted : wantedRow serval doneCalls row = .ok true) : wantedRow serval [] row = .ok true := by
  obtain ⟨service, isService, isRpc, forUs, -, size⟩ := wantedRow_iff.mp wanted
  exact wantedRow_iff.mpr ⟨service, isService, isRpc, forUs, List.not_mem_nil, size⟩

/-- What the server does with a row that it has compared with its done calls. -/
def handleRow (serval : Serval) (handling : ServerHandling) (doneCalls : List CString)
    (recentFile : Option Json) : Except Fault (List CString × Bool) := do
  if !(← wantedRow serval doneCalls (rowOf recentFile)) then pure (doneCalls, true)
  else
    let bid ← deref (itemId recentFile)
    match handling with
    | .failed => pure (doneCalls, false)
    | .noCall => pure (doneCalls, true)
    | .call finished =>
      let sender ← deref (itemString recentFile 11)
      match serval.strToSidT sender with
      | none => pure (doneCalls, false)
      | some _ =>
        pure (if finished then rpcServerRhizomeFinished doneCalls bid else doneCalls, true)

theorem serverVisit_ok_iff {serval : Serval} {handling : ServerHandling} {doneCalls : List CString}
    {recentFile : Option Json} {result : List CString × Bool} :
    serverVisit serval handling doneCalls recentFile = .ok result ↔
      readItems recentFile [2, 3, 9, 11, 12] = .ok () ∧
        (doneCalls ≠ [] → (itemId recentFile).isSome) ∧
          handleRow serval handling doneCalls recentFile = .ok result := by
  have parts : serverVisit serval handling doneCalls recentFile = (do
      readItems recentFile [2, 3, 9, 11, 12]
      if doneCalls ≠ [] then do
        let _ ← deref (itemId recentFile)
        handleRow serval handling doneCalls recentFile
      else handleRow serval handling doneCalls recentFile) := rfl
  rw [parts, unit_bind_eq_ok_iff]
  by_cases compared : doneCalls ≠ []
  · cases itemId recentFile with
    | none => simp [compared, bind, Except.bind]
    | some id => simp [compared, bind, Except.bind]
  · simp [compared]

/-- A payload that is no call leaves everything as it is. -/
theorem handleRow_noCall {serval : Serval} {doneCalls : List CString} {recentFile : Option Json}
    {result : List CString × Bool}
    (handled : handleRow serval .noCall doneCalls recentFile = .ok result) :
    result = (doneCalls, true) := by
  obtain ⟨wanted, _, handled⟩ := bind_eq_ok_iff.mp handled
  cases wanted with
  | false =>
    cases handled
    rfl
  | true =>
    obtain ⟨bid, _, handled⟩ := bind_eq_ok_iff.mp handled
    cases handled
    rfl

theorem serverVisit_quiet {serval : Serval} (doneCalls : List CString) (recentFile : Option Json)
    (safe : VisitSafe (serverVisit serval) doneCalls recentFile) :
    ∃ handling, serverVisit serval handling doneCalls recentFile = .ok (doneCalls, true) := by
  obtain ⟨result, visited⟩ := safe .noCall
  rw [handleRow_noCall (serverVisit_ok_iff.mp visited).2.2] at visited
  exact ⟨.noCall, visited⟩

/-- The row is handled in all worlds exactly when the wanted one has an id and a sender. -/
theorem handleRow_ok {serval : Serval} {row : Json} (good : ServerRow serval row)
    (handling : ServerHandling) (doneCalls : List CString) :
    ∃ result, handleRow serval handling doneCalls (some row) = .ok result := by
  obtain ⟨wanted, isWanted⟩ := (wantedRow_ok_iff serval doneCalls (rowOf (some row))).mpr good.service
  obtain ⟨bid, isId⟩ := Option.isSome_iff_exists.mp good.id
  rw [handleRow, isWanted, ok_bind]
  cases wanted with
  | false => exact ⟨_, rfl⟩
  | true =>
    obtain ⟨sender, isSender⟩ := Option.isSome_iff_exists.mp (good.sender (wantedRow_nil isWanted))
    simp only [Bool.not_true, Bool.false_eq_true, if_false, isId, isSender, deref_some, ok_bind]
    cases handling with
    | failed => exact ⟨_, rfl⟩
    | noCall => exact ⟨_, rfl⟩
    | call finished => cases serval.strToSidT sender <;> exact ⟨_, rfl⟩

theorem serverVisit_safe_iff (serval : Serval) (row : Json) :
    (∀ doneCalls, VisitSafe (serverVisit serval) doneCalls (some row)) ↔ ServerRow serval row := by
  constructor
  · intro safe
    -- A call that is done makes the server read the id.
    obtain ⟨result, visited⟩ := safe [CString.ofChars []] .noCall
    obtain ⟨items, id, handled⟩ := serverVisit_ok_iff.mp visited
    obtain ⟨wanted, isWanted, -⟩ := bind_eq_ok_iff.mp handled
    refine ⟨(serverItems_iff row).mp items, ?_, id (List.cons_ne_nil _ _), ?_⟩
    · exact (wantedRow_ok_iff serval _ _).mp ⟨wanted, isWanted⟩
    · -- Without one, a call makes it read the sender of a wanted row.
      intro wantedFirst
      obtain ⟨result, visited⟩ := safe [] (.call false)
      obtain ⟨-, -, handled⟩ := serverVisit_ok_iff.mp visited
      rw [handleRow, wantedFirst, ok_bind] at handled
      obtain ⟨bid, -, handled⟩ := bind_eq_ok_iff.mp handled
      obtain ⟨sender, isSender, -⟩ := bind_eq_ok_iff.mp handled
      exact isSome_of_deref isSender
  · intro good doneCalls handling
    obtain ⟨result, handled⟩ := handleRow_ok good handling doneCalls
    exact ⟨result, serverVisit_ok_iff.mpr ⟨(serverItems_iff row).mpr good.items, fun _ => good.id,
      handled⟩⟩

/-! ## The download -/

/-- What the download needs of a row to compare it: a service and a name. -/
structure FileRow (row : Json) : Prop where
  items : 13 < row.children.length
  service : (itemString (some row) 2).isSome
  name : (itemString (some row) 13).isSome

/-- The rows up to the first one that the filter takes can be compared, and that one has an id. -/
def RowsUpToWanted (serval : Serval) (rpcName sid : CString) : List Json → Prop
  | [] => True
  | row :: rows =>
    FileRow row ∧
      (wantedFile serval rpcName sid (rowOf (some row)) ≠ .ok none → (itemId (some row)).isSome) ∧
      (wantedFile serval rpcName sid (rowOf (some row)) = .ok none →
        RowsUpToWanted serval rpcName sid rows)

section Download

variable {serval : Serval} {rpcName sid : CString}

theorem fileItems_iff (row : Json) :
    readItems (some row) [2, 4, 11, 12, 13] = .ok () ↔ 13 < row.children.length :=
  readItems_of_last (by decide) (by decide)

theorem wantedFile_ok_iff (row : Row) :
    (∃ found, wantedFile serval rpcName sid row = .ok found) ↔
      row.service.isSome ∧ row.name.isSome := by
  constructor
  · rintro ⟨found, wanted⟩
    obtain ⟨service, isService, wanted⟩ := bind_eq_ok_iff.mp wanted
    obtain ⟨name, isName, -⟩ := bind_eq_ok_iff.mp wanted
    exact ⟨isSome_of_deref isService, isSome_of_deref isName⟩
  · rintro ⟨service, name⟩
    exact wantedFile_ok serval rpcName sid service name

theorem downloadVisit_goesOn_iff {world : Unit} {found next : Option CString} {row : Json} :
    downloadVisit serval rpcName sid world found (some row) = .ok (next, true) ↔
      13 < row.children.length ∧ wantedFile serval rpcName sid (rowOf (some row)) = .ok none ∧
        next = found := by
  unfold downloadVisit
  rw [unit_bind_eq_ok_iff, fileItems_iff]
  refine and_congr_right fun _ => ?_
  constructor
  · intro visited
    obtain ⟨taken, filter, visited⟩ := bind_eq_ok_iff.mp visited
    cases taken with
    | none =>
      cases visited
      exact ⟨filter, rfl⟩
    | some sender =>
      obtain ⟨bid, _, visited⟩ := bind_eq_ok_iff.mp visited
      cases visited
  · rintro ⟨filter, rfl⟩
    rw [filter]
    rfl

theorem downloadVisit_safe_iff (found : Option CString) (row : Json) :
    VisitSafe (downloadVisit serval rpcName sid) found (some row) ↔
      FileRow row ∧
        (wantedFile serval rpcName sid (rowOf (some row)) ≠ .ok none →
          (itemId (some row)).isSome) := by
  constructor
  · intro safe
    obtain ⟨result, visited⟩ := safe ()
    obtain ⟨items, visited⟩ := unit_bind_eq_ok_iff.mp visited
    obtain ⟨taken, filter, visited⟩ := bind_eq_ok_iff.mp visited
    obtain ⟨service, name⟩ := (wantedFile_ok_iff (rowOf (some row))).mp ⟨taken, filter⟩
    refine ⟨⟨(fileItems_iff row).mp items, service, name⟩, ?_⟩
    intro wanted
    cases taken with
    | none => exact absurd filter wanted
    | some sender =>
      obtain ⟨bid, isId, -⟩ := bind_eq_ok_iff.mp visited
      exact isSome_of_deref isId
  · rintro ⟨file, id⟩ world
    obtain ⟨taken, filter⟩ : ∃ found, wantedFile serval rpcName sid (rowOf (some row)) = .ok found :=
      (wantedFile_ok_iff (rowOf (some row))).mpr ⟨file.service, file.name⟩
    unfold downloadVisit
    rw [(fileItems_iff row).mpr file.items, ok_bind, filter, ok_bind]
    cases taken with
    | none => exact ⟨_, rfl⟩
    | some sender =>
      obtain ⟨bid, isId⟩ := Option.isSome_iff_exists.mp (id (by simp [filter]))
      rw [isId]
      exact ⟨_, rfl⟩

theorem downloadWalk_safe_iff (rows : List Json) (found : Option CString) :
    WalkSafe (downloadVisit serval rpcName sid) (rows.map some) found ↔
      RowsUpToWanted serval rpcName sid rows := by
  induction rows generalizing found with
  | nil => simp [walkSafe_nil, RowsUpToWanted]
  | cons row rows inductionHypothesis =>
    rw [List.map_cons, walkSafe_cons_iff, downloadVisit_safe_iff, RowsUpToWanted, and_assoc]
    refine and_congr_right fun file => and_congr_right fun _ => ?_
    simp only [downloadVisit_goesOn_iff, file.items, true_and]
    constructor
    · intro rest skipped
      exact (inductionHypothesis found).mp (rest () found ⟨skipped, rfl⟩)
    · rintro rest _ next ⟨skipped, rfl⟩
      exact (inductionHypothesis next).mpr (rest skipped)

/-- The row whose payload is requested is the one that the loop over the rows of `Model.Store` takes. -/
theorem firstWanted_of_walk {rows : List Json} {worlds : Nat → Unit} {sender : CString}
    (walked : walk (downloadVisit serval rpcName sid) (rows.map some) worlds none =
      .ok (some sender)) :
    ∃ row, FirstWanted serval rpcName sid (rows.map fun row => rowOf (some row)) row ∧
      wantedFile serval rpcName sid row = .ok (some sender) := by
  induction rows generalizing worlds with
  | nil => cases walked
  | cons row rows inductionHypothesis =>
    obtain ⟨result, visited, walked⟩ := bind_eq_ok_iff.mp walked
    obtain ⟨-, visited⟩ := unit_bind_eq_ok_iff.mp visited
    obtain ⟨taken, filter, visited⟩ := bind_eq_ok_iff.mp visited
    cases taken with
    | none =>
      cases visited
      obtain ⟨found, first, isSender⟩ := inductionHypothesis walked
      exact ⟨found, (firstWanted_cons_iff _ _ _).mpr (.inr ⟨filter, first⟩), isSender⟩
    | some sender =>
      obtain ⟨bid, -, visited⟩ := bind_eq_ok_iff.mp visited
      cases visited
      cases walked
      exact ⟨_, (firstWanted_cons_iff _ _ _).mpr (.inl ⟨rfl, sender, filter⟩), filter⟩

end Download

/-! ## The client -/

/-- What the client needs of a row: a service and a name, and a sender and an id if the row is for it
at any time. -/
structure ListenRow (call : ClientCall) (row : Json) : Prop where
  items : 13 < row.children.length
  service : (itemString (some row) 2).isSome
  name : (itemString (some row) 13).isSome
  interesting : ∀ now, interestingRow call now (rowOf (some row)) = .ok true →
    (itemString (some row) 11).isSome ∧ (itemId (some row)).isSome

section Listen

variable {call : ClientCall}

theorem listenItems_iff (row : Json) :
    readItems (some row) [0, 2, 6, 11, 12, 13] = .ok () ↔ 13 < row.children.length :=
  readItems_of_last (by decide) (by decide)

theorem interestingRow_ok_iff (now : Int) (row : Row) :
    (∃ interesting, interestingRow call now row = .ok interesting) ↔
      row.service.isSome ∧ row.name.isSome := by
  unfold interestingRow
  cases row.service with
  | none => simp [bind, Except.bind]
  | some service => cases row.name <;> simp [bind, Except.bind, pure, Except.pure]

theorem listenVisit_independent (token token' : Option CString) (recentFile : Option Json)
    (safe : VisitSafe (listenVisit call) token recentFile) :
    VisitSafe (listenVisit call) token' recentFile :=
  safe

/-- A loop that goes on behind the rows that it handles goes on behind all rows. -/
theorem listenVisit_goesOn (token : Option CString) (recentFile : Option Json)
    (safe : VisitSafe (listenVisit call) token recentFile) :
    ∃ handling next, listenVisit call handling token recentFile = .ok (next, true) := by
  obtain ⟨result, visited⟩ := safe ⟨0, true, true⟩
  refine ⟨⟨0, true, true⟩, (rowOf recentFile).token, ?_⟩
  rw [visited]
  obtain ⟨_, visited⟩ := unit_bind_eq_ok_iff.mp visited
  obtain ⟨interesting, _, visited⟩ := bind_eq_ok_iff.mp visited
  cases interesting with
  | false =>
    cases visited
    rfl
  | true =>
    obtain ⟨_, _, visited⟩ := bind_eq_ok_iff.mp visited
    obtain ⟨_, _, visited⟩ := bind_eq_ok_iff.mp visited
    obtain ⟨_, visited⟩ := unit_bind_eq_ok_iff.mp visited
    cases visited
    rfl

theorem listenVisit_safe_iff (token : Option CString) (row : Json) :
    VisitSafe (listenVisit call) token (some row) ↔ ListenRow call row := by
  constructor
  · intro safe
    obtain ⟨result, visited⟩ := safe ⟨0, true, true⟩
    obtain ⟨items, visited⟩ := unit_bind_eq_ok_iff.mp visited
    obtain ⟨interesting, isInteresting, -⟩ := bind_eq_ok_iff.mp visited
    obtain ⟨service, name⟩ := (interestingRow_ok_iff _ _).mp ⟨interesting, isInteresting⟩
    refine ⟨(listenItems_iff row).mp items, service, name, ?_⟩
    intro now isInteresting
    obtain ⟨result, visited⟩ := safe ⟨now, true, true⟩
    obtain ⟨-, visited⟩ := unit_bind_eq_ok_iff.mp visited
    dsimp only at visited
    rw [isInteresting, ok_bind] at visited
    obtain ⟨sender, isSender, visited⟩ := bind_eq_ok_iff.mp visited
    obtain ⟨bid, isId, -⟩ := bind_eq_ok_iff.mp visited
    exact ⟨isSome_of_deref isSender, isSome_of_deref isId⟩
  · intro good handling
    obtain ⟨interesting, isInteresting⟩ :
        ∃ interesting, interestingRow call handling.now (rowOf (some row)) = .ok interesting :=
      (interestingRow_ok_iff handling.now (rowOf (some row))).mpr ⟨good.service, good.name⟩
    unfold listenVisit
    rw [(listenItems_iff row).mpr good.items, ok_bind]
    dsimp only
    rw [isInteresting, ok_bind]
    cases interesting with
    | false => exact ⟨_, rfl⟩
    | true =>
      obtain ⟨sender, id⟩ := good.interesting handling.now isInteresting
      obtain ⟨sender, isSender⟩ := Option.isSome_iff_exists.mp sender
      obtain ⟨bid, isId⟩ := Option.isSome_iff_exists.mp id
      have filesize : readItems (some row) [9] = .ok () := by
        apply (readItems_of_last List.mem_cons_self (by decide)).mpr
        have items := good.items
        omega
      have isSender' : (rowOf (some row)).sender = some sender := isSender
      simp only [Bool.not_true, Bool.false_eq_true, if_false, isSender', isId, deref_some, ok_bind,
        filesize]
      split
      · exact ⟨_, rfl⟩
      · exact ⟨_, rfl⟩

end Listen

/-! ## The three functions -/

/-- A function that reads a listing, with its arguments, and for the client with the token that it has
at the start of the round. -/
inductive ListingReader where
  | server (serval : Serval)
  | download (serval : Serval) (rpcName sid : CString)
  | listen (call : ClientCall) (token : Option CString)

namespace ListingReader

section Handles

variable {D : Type} (doubles : Doubles D) (view : D → Int) (body : List UInt8)

/-- Whatever else the function meets, it reads nothing outside its arrays and follows no null pointer
on its way through the rows. -/
def GoesThrough : ListingReader → Prop
  | server serval => ∀ doneCalls handlings, ∃ final,
    serverListing doubles view serval (receivedBody body) handlings doneCalls = .ok final
  | download serval rpcName sid => ∃ found,
    downloadListing doubles view serval rpcName sid (receivedBody body) = .ok found
  | listen call token => ∀ handlings, ∃ final,
    listenListing doubles view call (receivedBody body) handlings token = .ok final

/-- The function hands the parser a string and goes through the rows. -/
structure Handles (reader : ListingReader) : Prop where
  terminated : Terminated body
  goesThrough : reader.GoesThrough doubles view body

end Handles

/-- The rows that the function goes through have what it needs of them; in its first round the client
needs a row. -/
def Complete (rows : Option Json) : ListingReader → Prop
  | server serval => ∃ tree, rows = some tree ∧ ∀ row ∈ tree.children, ServerRow serval row
  | download serval rpcName sid => ∃ tree, rows = some tree ∧
    RowsUpToWanted serval rpcName sid tree.children
  | listen call (some _) => ∃ tree, rows = some tree ∧ ∀ row ∈ tree.children, ListenRow call row
  | listen call none => ∃ first, cJSONGetArrayItem rows 0 = some first ∧ ListenRow call first

end ListingReader

section Sized

variable {σ ω : Type} {visit : ω → σ → Option Json → Except Fault (σ × Bool)}

/-- Without rows there is nothing to go through. -/
theorem guarded_walk (rows : Option Json) (count : Nat) (worlds : Nat → ω) (state : σ) :
    (if count = 0 then pure state else walk visit (recentFiles rows count) worlds state) =
      walk visit (recentFiles rows count) worlds state := by
  split
  · rename_i empty
    subst empty
    rfl
  · rfl

/-- A function that asks for the size of the rows finds rows, and goes through all of them. -/
theorem sized_ok_iff {rows : Option Json} {worlds : Nat → ω} {state final : σ} :
    (do
      let count ← cJSONGetArraySize rows
      walk visit (recentFiles rows count) worlds state) = .ok final ↔
      ∃ tree, rows = some tree ∧ walk visit (tree.children.map some) worlds state = .ok final := by
  constructor
  · intro walked
    obtain ⟨count, sized, walked⟩ := bind_eq_ok_iff.mp walked
    obtain ⟨tree, rfl, rfl⟩ := getArraySize_eq_ok_iff.mp sized
    rw [recentFiles_all] at walked
    exact ⟨tree, rfl, walked⟩
  · rintro ⟨tree, rfl, walked⟩
    refine bind_eq_ok_iff.mpr ⟨_, getArraySize_eq_ok_iff.mpr ⟨tree, rfl, rfl⟩, ?_⟩
    rw [recentFiles_all]
    exact walked

/-- In all worlds: the walk over the rows is safe. -/
theorem sized_safe_iff [Nonempty ω] {rows : Option Json} {state : σ} :
    (∀ worlds, ∃ final, (do
      let count ← cJSONGetArraySize rows
      walk visit (recentFiles rows count) worlds state) = .ok final) ↔
      ∃ tree, rows = some tree ∧ WalkSafe visit (tree.children.map some) state := by
  constructor
  · intro safe
    obtain ⟨world⟩ := ‹Nonempty ω›
    obtain ⟨final, walked⟩ := safe fun _ => world
    obtain ⟨tree, rfl, -⟩ := sized_ok_iff.mp walked
    refine ⟨tree, rfl, fun worlds => ?_⟩
    obtain ⟨final, walked⟩ := safe worlds
    obtain ⟨tree', same, walked⟩ := sized_ok_iff.mp walked
    cases same
    exact ⟨final, walked⟩
  · rintro ⟨tree, rfl, safe⟩ worlds
    obtain ⟨final, walked⟩ := safe worlds
    exact ⟨final, sized_ok_iff.mpr ⟨tree, rfl, walked⟩⟩

end Sized

section Readers

variable {D : Type} (doubles : Doubles D) (view : D → Int) (body : List UInt8)

instance : Nonempty ServerHandling := ⟨.noCall⟩

instance : Nonempty ListenHandling := ⟨⟨0, true, true⟩⟩

theorem serverRows_safe_iff (serval : Serval) (rows : Option Json) :
    (∀ world : List CString × (Nat → ServerHandling), ∃ final,
      serverRows serval world.2 world.1 rows = .ok final) ↔
      (ListingReader.server serval).Complete rows := by
  have each (tree : Json) : (∀ doneCalls,
      WalkSafe (serverVisit serval) (tree.children.map some) doneCalls) ↔
        ∀ row ∈ tree.children, ServerRow serval row := by
    rw [forall_walkSafe_iff serverVisit_quiet, List.forall_mem_map]
    exact forall₂_congr fun row _ => serverVisit_safe_iff serval row
  simp only [serverRows, guarded_walk, Prod.forall, sized_safe_iff, ListingReader.Complete, ← each]
  constructor
  · intro safe
    obtain ⟨tree, found, -⟩ := safe []
    refine ⟨tree, found, fun doneCalls => ?_⟩
    obtain ⟨tree', found', walked⟩ := safe doneCalls
    cases found.symm.trans found'
    exact walked
  · rintro ⟨tree, found, walked⟩ doneCalls
    exact ⟨tree, found, walked doneCalls⟩

theorem downloadRows_safe_iff (serval : Serval) (rpcName sid : CString) (rows : Option Json) :
    (∀ _ : Unit, ∃ found, downloadRows serval rpcName sid rows = .ok found) ↔
      (ListingReader.download serval rpcName sid).Complete rows := by
  simp only [downloadRows, guarded_walk, ListingReader.Complete, ← downloadWalk_safe_iff _ none,
    ← sized_safe_iff, forall_const]
  constructor
  · intro safe worlds
    exact safe
  · intro safe
    exact safe fun _ => ()

theorem listenWalk_safe_iff (call : ClientCall) (rows : List Json) (token : Option CString) :
    WalkSafe (listenVisit call) (rows.map some) token ↔ ∀ row ∈ rows, ListenRow call row := by
  rw [walkSafe_iff_of_independent listenVisit_independent listenVisit_goesOn, List.forall_mem_map]
  exact forall₂_congr fun row _ => listenVisit_safe_iff token row

/-- The first round goes to the first row without asking how many there are. -/
theorem firstRow_safe_iff (call : ClientCall) (rows : Option Json) (token : Option CString) :
    WalkSafe (listenVisit call) (recentFiles rows 1) token ↔
      ∃ first, cJSONGetArrayItem rows 0 = some first ∧ ListenRow call first := by
  have single : recentFiles rows 1 = [cJSONGetArrayItem rows 0] := rfl
  rw [single]
  cases first : cJSONGetArrayItem rows 0 with
  | none =>
    simp only [reduceCtorEq, false_and, exists_false, iff_false]
    intro safe
    obtain ⟨result, visited⟩ := ((walkSafe_cons_iff _ _ _).mp safe).1 ⟨0, true, true⟩
    obtain ⟨items, _⟩ := unit_bind_eq_ok_iff.mp visited
    exact absurd ((readItems_eq_ok_iff none _).mp items 0 List.mem_cons_self) (by decide)
  | some row => simpa using listenWalk_safe_iff call [row] token

theorem listenRows_safe_iff (call : ClientCall) (token : Option CString) (rows : Option Json) :
    (∀ handlings, ∃ final, listenRows call handlings token rows = .ok final) ↔
      (ListingReader.listen call token).Complete rows := by
  cases token with
  | some token =>
    simp only [listenRows, sized_safe_iff, ListingReader.Complete, listenWalk_safe_iff]
  | none =>
    rw [ListingReader.Complete, ← firstRow_safe_iff call rows none]
    exact Iff.rfl

/-- The rows of a body are gone through when the parser comes back from what is copied of it with all
that the function goes through. -/
theorem goesThrough_iff (reader : ListingReader) :
    reader.GoesThrough doubles view body ↔
      body ≠ [] ∧ ∃ rows, parsedRows doubles view body = .ok rows ∧ reader.Complete rows := by
  cases reader with
  | server serval =>
    rw [← forall_withRows_iff (serverRows_safe_iff serval), Prod.forall]
    exact Iff.rfl
  | download serval rpcName sid =>
    rw [← forall_withRows_iff (downloadRows_safe_iff serval rpcName sid), forall_const]
    exact Iff.rfl
  | listen call token =>
    rw [← forall_withRows_iff (listenRows_safe_iff call token)]
    exact Iff.rfl

end Readers

/-- A function hands the parser a string and goes through the rows exactly when there is a NUL before
the last byte of the body, and the parser comes back with all that the function goes through.  The
rows of a body without a NUL are gone through under the same condition. -/
theorem listing_handled_iff (reader : ListingReader) {D : Type} (doubles : Doubles D)
    (view : D → Int) (body : List UInt8) :
    (reader.Handles doubles view body ↔
      0 ∈ body.dropLast ∧
        ∃ rows, parsedRows doubles view body = .ok rows ∧ reader.Complete rows) ∧
    (reader.GoesThrough doubles view body ↔
      body ≠ [] ∧ ∃ rows, parsedRows doubles view body = .ok rows ∧ reader.Complete rows) := by
  refine ⟨?_, goesThrough_iff doubles view body reader⟩
  constructor
  · rintro ⟨terminated, goesThrough⟩
    obtain ⟨-, complete⟩ := (goesThrough_iff doubles view body reader).mp goesThrough
    exact ⟨(terminated_iff body).mp terminated, complete⟩
  · rintro ⟨ends, complete⟩
    refine ⟨(terminated_iff body).mpr ends, ?_⟩
    refine (goesThrough_iff doubles view body reader).mpr ⟨?_, complete⟩
    rintro rfl
    cases ends

/-! ## Bodies of a daemon -/

/-- A text and a newline. -/
def lineBody (text : List Char) : List UInt8 := (CString.ofChars text).bytes ++ [10]

/-- `{}`, an object without rows. -/
def emptyObjectBody : List UInt8 := lineBody ['\x7b', '\x7d']

/-- A page that is no JSON. -/
def htmlBody : List UInt8 := lineBody ['<', 'h', 't', 'm', 'l', '>']

/-- `{"rows":[]}`, the empty listing. -/
def emptyListingBody : List UInt8 :=
  lineBody ['\x7b', '"', 'r', 'o', 'w', 's', '"', ':', '[', ']', '\x7d']

theorem not_goesThrough_of_no_rows {D : Type} {doubles : Doubles D} {view : D → Int}
    {body : List UInt8} (noRows : parsedRows doubles view body = .ok none) (reader : ListingReader) :
    ¬ reader.GoesThrough doubles view body := by
  rw [goesThrough_iff, noRows]
  rintro ⟨-, rows, same, complete⟩
  cases same
  cases reader with
  | server serval =>
    obtain ⟨tree, found, -⟩ := complete
    cases found
  | download serval rpcName sid =>
    obtain ⟨tree, found, -⟩ := complete
    cases found
  | listen call token =>
    cases token with
    | none =>
      obtain ⟨first, found, -⟩ := complete
      cases found
    | some token =>
      obtain ⟨tree, found, -⟩ := complete
      cases found

/-- The server and the client of the examples. -/
def someServer : ListingReader := .server (Serval.executable sidAny)

def someDownload : ListingReader :=
  .download (Serval.executable sidAny) Download.complexName (tohexSidT Download.caller)

def someClient : ListingReader := .listen ResultManifest.waitingCall none

/-- No function goes through an empty body, an object without rows or a page that is no JSON.  The
server goes through the empty listing, but the parser has not been handed a string. -/
theorem listings_not_handled :
    (¬ someServer.GoesThrough exactDoubles Rat.floor [] ∧
      ¬ someDownload.GoesThrough exactDoubles Rat.floor [] ∧
      ¬ someClient.GoesThrough exactDoubles Rat.floor []) ∧
    (¬ someServer.GoesThrough exactDoubles Rat.floor emptyObjectBody ∧
      ¬ someDownload.GoesThrough exactDoubles Rat.floor emptyObjectBody ∧
      ¬ someClient.GoesThrough exactDoubles Rat.floor emptyObjectBody) ∧
    (¬ someServer.GoesThrough exactDoubles Rat.floor htmlBody ∧
      ¬ someDownload.GoesThrough exactDoubles Rat.floor htmlBody ∧
      ¬ someClient.GoesThrough exactDoubles Rat.floor htmlBody) ∧
    someServer.GoesThrough exactDoubles Rat.floor emptyListingBody ∧
      ¬ someServer.Handles exactDoubles Rat.floor emptyListingBody := by
  have empty (reader : ListingReader) : ¬ reader.GoesThrough exactDoubles Rat.floor [] := by
    rw [goesThrough_iff]
    rintro ⟨nonempty, -⟩
    exact nonempty rfl
  have noRows : parsedRows exactDoubles Rat.floor emptyObjectBody = .ok none := rfl
  have noJson : parsedRows exactDoubles Rat.floor htmlBody = .ok none := rfl
  have object := not_goesThrough_of_no_rows noRows
  have page := not_goesThrough_of_no_rows noJson
  have parsed : parsedRows exactDoubles Rat.floor emptyListingBody =
      .ok (some (.node (some rowsKey) none 0 0 [])) := rfl
  refine ⟨⟨empty _, empty _, empty _⟩, ⟨object _, object _, object _⟩, ⟨page _, page _, page _⟩, ?_,
    ?_⟩
  · refine (goesThrough_iff _ _ _ _).mpr ⟨List.cons_ne_nil _ _, _, parsed, _, rfl, ?_⟩
    intro row member
    cases member
  · intro handled
    have ends := (terminated_iff _).mp handled.terminated
    revert ends
    decide

end ServalRpc.Verified.Listings
