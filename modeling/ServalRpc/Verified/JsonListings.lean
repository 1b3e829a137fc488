import ServalRpc.Verified.JsonMemory
import ServalRpc.Verified.Listings

/-! # Listings without their terminator

`json_string` lacks the terminator of the body and its last byte.  The parser goes no further than
the bracket that closes an object, so that a listing is read inside the array whenever something, say
a line break, follows it in the body.
-/

namespace ServalRpc.Verified.JsonListings

open CLib JsonFormat JsonNumbers JsonGrammar Listings

variable {D : Type}

/-- The array holds the item of an object exactly when it spells the object behind blanks; what
follows there does not matter. -/
theorem object_parsed_iff (doubles : Doubles D) (string : List UInt8)
    (members : List (CString × CJson D)) :
    cJSONParse doubles string = .ok (some (.object members)) ↔
      ∃ blank start after, Blank blank ∧ string = blank ++ start ∧
        Reads (jsonMeaning doubles) start (.object members) after := by
  rw [cJSONParse]
  constructor
  · intro parsed
    cases outcome : cJSONParseWithOpts doubles string false with
    | ok found =>
      rw [outcome] at parsed
      obtain ⟨c, after⟩ := found
      obtain rfl : c = .object members := by simpa using parsed
      obtain ⟨blank, start, isBlank, split, reads⟩ := reads_of_parsed outcome
      exact ⟨blank, start, after, isBlank, split, reads⟩
    | error stop =>
      rw [outcome] at parsed
      cases stop <;> cases parsed
  · rintro ⟨blank, start, after, isBlank, rfl, reads⟩
    have noNumber : ∀ number, JsonTree.object members = .number number → Stops after := by
      intro number same
      cases same
    rw [parsed_of_reads isBlank noNumber reads]

/-! ## Rows -/

section Rows

variable {view : D → Int}

theorem itemsFields_eq (view : D → Int) (items : List (CJson D)) :
    itemsFields view items = items.map (itemFields view none) := by
  induction items with
  | nil => rfl
  | cons item items inductionHypothesis =>
    rw [itemsFields, inductionHypothesis, List.map_cons]

theorem membersFields_eq (view : D → Int) (members : List (CString × CJson D)) :
    membersFields view members =
      members.map fun member => itemFields view (some member.1) member.2 := by
  induction members with
  | nil => rfl
  | cons member members inductionHypothesis =>
    rw [membersFields, inductionHypothesis, List.map_cons]

theorem itemFields_string (view : D → Int) (name : Option CString) (item : CJson D) :
    (itemFields view name item).string = name := by
  cases item <;> rfl

/-- The lookup of a member by its name. -/
theorem getObjectItem_members (view : D → Int) (members : List (CString × CJson D))
    (name : CString) :
    cJSONGetObjectItem (some (itemFields view none (.object members))) name =
      (members.find? fun member => strcasecmpEq (some member.1) name).map fun member =>
        itemFields view (some member.1) member.2 := by
  simp only [cJSONGetObjectItem, Option.bind_some, itemFields, Json.children, membersFields_eq,
    List.find?_map]
  congr 2
  funext member
  simp only [Function.comp_apply, itemFields_string]

/-- The rows of a body are those that it spells, in their order: nothing is read behind the array, as
long as something follows the object in the body. -/
theorem rows_listed (doubles : Doubles D) (view : D → Int) {blank start after : List UInt8}
    {members : List (CString × CJson D)} (isBlank : Blank blank)
    (reads : Reads (jsonMeaning doubles) start (.object members) after) {key : CString}
    {items : List (CJson D)}
    (found : members.find? (fun member => strcasecmpEq (some member.1) rowsKey) =
      some (key, .array items)) (last : UInt8) :
    ∃ rows, listingRows doubles view (receivedBody (blank ++ start ++ [last])) = .ok (some rows) ∧
      cJSONGetArraySize (some rows) = .ok items.length ∧
      recentFiles (some rows) items.length = items.map fun item => some (itemFields view none item) := by
  have parsed := (object_parsed_iff doubles (blank ++ start) members).mpr
    ⟨blank, start, after, isBlank, rfl, reads⟩
  refine ⟨itemFields view (some key) (.array items), ?_, ?_, ?_⟩
  · refine listingRows_eq_ok_iff.mpr ⟨List.concat_ne_nil last _, ?_⟩
    rw [parsedRows, List.dropLast_concat, parsed, ok_bind, Option.map_some, getObjectItem_members,
      found]
    rfl
  · simp only [cJSONGetArraySize, deref_some, ok_bind, itemFields, Json.children, itemsFields_eq,
      List.length_map]
    rfl
  · have all := recentFiles_all (itemFields view (some key) (.array items))
    rw [itemFields, Json.children, itemsFields_eq, List.length_map, List.map_map] at all
    rw [itemFields, itemsFields_eq]
    exact all

end Rows

/-- `{"rows":[["a",null],["b"]]}`. -/
def twoRowsText : List UInt8 :=
  (CString.ofChars ['\x7b', '"', 'r', 'o', 'w', 's', '"', ':', '[', '[', '"', 'a', '"', ',', 'n',
    'u', 'l', 'l', ']', ',', '[', '"', 'b', '"', ']', ']', '\x7d']).bytes

def twoRowsItem : CJson ℚ :=
  .object [(rowsKey, .array [.array [.string (CString.ofChars ['a']), .null],
    .array [.string (CString.ofChars ['b'])]])]

/-- A listing of two rows and a line break: the first row has a null. -/
theorem rows_listed_two : ∃ rows,
    listingRows exactDoubles Rat.floor (receivedBody (twoRowsText ++ [10])) = .ok (some rows) ∧
      cJSONGetArraySize (some rows) = .ok 2 ∧
      recentFiles (some rows) 2 =
        [some (.node none none 0 0 [.node none (some (CString.ofChars ['a'])) 0 0 [],
          .node none none 0 0 []]),
        some (.node none none 0 0 [.node none (some (CString.ofChars ['b'])) 0 0 []])] := by
  have parsed : cJSONParseWithOpts exactDoubles twoRowsText false = .ok (twoRowsItem, []) := rfl
  obtain ⟨blank, start, isBlank, split, reads⟩ := reads_of_parsed parsed
  rw [split]
  exact rows_listed exactDoubles Rat.floor isBlank reads rfl 10

end ServalRpc.Verified.JsonListings
