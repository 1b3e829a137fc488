import ServalRpc.CLib.Strtok
import ServalRpc.Model.Store

/-! # Manifests

A bundle is inserted with a manifest of `key=value` lines, and the daemon lists it with the values
of these keys.  The reading of a manifest is the daemon's; the structure `Daemon` has the laws that
the program relies on.
-/

namespace ServalRpc

open CLib

/-- A line that the daemon takes apart at its first `=`. -/
structure ManifestField where
  key : CString
  value : CString
  keyNonempty : key.bytes ≠ []
  keyNoEquals : 61 ∉ key.bytes
  keyNoNewline : 10 ∉ key.bytes
  valueNoNewline : 10 ∉ value.bytes

def ManifestField.text (field : ManifestField) : List UInt8 :=
  field.key.bytes ++ 61 :: field.value.bytes

def manifestText (fields : List ManifestField) : List UInt8 :=
  fields.flatMap fun field => field.text ++ [10]

def ManifestField.valueOf (fields : List ManifestField) (key : CString) : Option CString :=
  (fields.find? fun field => field.key == key).map ManifestField.value

structure Daemon where
  /-- The value of a key; `none` when the manifest does not have the key. -/
  manifestField : CString → CString → Option CString
  manifestField_text : ∀ manifest fields, manifest.bytes = manifestText fields →
    (fields.map ManifestField.key).Nodup →
      ∀ key, 61 ∉ key.bytes → manifestField manifest key = ManifestField.valueOf fields key
  /-- A value ends with its line. -/
  manifestField_line : ∀ manifest key value, manifestField manifest key = some value →
    10 ∉ value.bytes

def serviceKey : CString := CString.ofChars ['s', 'e', 'r', 'v', 'i', 'c', 'e']

def nameKey : CString := CString.ofChars ['n', 'a', 'm', 'e']

def senderKey : CString := CString.ofChars ['s', 'e', 'n', 'd', 'e', 'r']

def recipientKey : CString := CString.ofChars ['r', 'e', 'c', 'i', 'p', 'i', 'e', 'n', 't']

/-- `valueint` of a JSON number that is a size. -/
def valueint (number : Nat) : Int := castInt number

theorem valueint_of_lt {number : Nat} (small : number < 2 ^ 31) : valueint number = number :=
  castInt_of_inside (by omega)

/-- A size that passes for a small one is the size of the content. -/
theorem sizeOfInt_valueint {number limit : Nat} (small : limit < 2 ^ 31) :
    0 < sizeOfInt (valueint number) ∧ sizeOfInt (valueint number) ≤ limit ↔
      0 < number ∧ number ≤ limit := by
  unfold sizeOfInt valueint castInt
  split <;> omega

theorem sizeOfInt_valueint_of_lt {number : Nat} (small : number < 2 ^ 31) :
    sizeOfInt (valueint number) = number := by
  rw [valueint_of_lt small]
  exact sizeOfInt_natCast (by omega)

/-- The daemon lists a bundle with this manifest and content in this row. -/
structure Daemon.Lists (daemon : Daemon) (row : Row) (manifest : CString) (content : List UInt8) :
    Prop where
  service : row.service = daemon.manifestField manifest serviceKey
  name : row.name = daemon.manifestField manifest nameKey
  sender : row.sender = daemon.manifestField manifest senderKey
  recipient : row.recipient = daemon.manifestField manifest recipientKey
  filesize : row.filesize = valueint content.length

/-! ## An executable daemon -/

/-- The value in a line, if the line is about this key. -/
def lineValue (key line : CString) : Option CString :=
  if key.bytes ++ [61] <+: line.bytes then
    some (CString.upToNul (line.bytes.drop (key.bytes.length + 1)))
  else none

def readManifest (manifest key : CString) : Option CString :=
  (tokens 10 manifest.bytes).findSome? (lineValue key)

theorem takeWhile_key {key : List UInt8} (noEquals : 61 ∉ key) (rest : List UInt8) :
    (key ++ 61 :: rest).takeWhile (· != 61) = key := by
  have skipped : ∀ byte ∈ key, (byte != 61) = true := by
    intro byte member
    simpa using fun equals : byte = 61 => noEquals (equals ▸ member)
  simp [List.takeWhile_append_of_pos skipped]

theorem ManifestField.key_prefix_iff (field : ManifestField) {key : CString}
    (noEquals : 61 ∉ key.bytes) : key.bytes ++ [61] <+: field.text ↔ field.key = key := by
  constructor
  · rintro ⟨rest, whole⟩
    rw [ManifestField.text, List.append_assoc, List.singleton_append] at whole
    have keys := congrArg (List.takeWhile (· != 61)) whole
    rw [takeWhile_key noEquals, takeWhile_key field.keyNoEquals] at keys
    exact CString.ext keys.symm
  · rintro rfl
    exact ⟨field.value.bytes, by simp [ManifestField.text]⟩

theorem ManifestField.text_ne_nil (field : ManifestField) : field.text ≠ [] :=
  List.append_ne_nil_of_left_ne_nil field.keyNonempty _

theorem ManifestField.text_noNewline (field : ManifestField) : 10 ∉ field.text := by
  simp [ManifestField.text, field.keyNoNewline, field.valueNoNewline]

theorem ManifestField.text_nulFree (field : ManifestField) : 0 ∉ field.text := by
  simp [ManifestField.text, field.key.nulFree, field.value.nulFree]

theorem ManifestField.lineValue_text (field : ManifestField) {key : CString}
    (noEquals : 61 ∉ key.bytes) :
    lineValue key (CString.upToNul field.text) = if field.key == key then some field.value else none := by
  have bytes := CString.upToNul_bytes_of_nulFree field.text_nulFree
  rw [lineValue, bytes]
  simp only [field.key_prefix_iff noEquals, beq_iff_eq]
  split
  · rename_i same
    subst same
    have value : field.text.drop (field.key.bytes.length + 1) = field.value.bytes := by
      rw [ManifestField.text, ← List.singleton_append, ← List.append_assoc]
      exact List.drop_left' (by simp)
    rw [value, CString.upToNul_bytes]
  · rfl

theorem tokens_manifestText (fields : List ManifestField) :
    tokens 10 (manifestText fields) =
      fields.map fun field => CString.upToNul field.text := by
  induction fields with
  | nil => exact tokens_nil
  | cons field fields inductionHypothesis =>
    rw [manifestText, List.flatMap_cons, List.append_assoc, List.singleton_append,
      tokens_word_delimiter field.text_ne_nil field.text_noNewline, List.map_cons]
    exact congrArg _ inductionHypothesis

theorem readManifest_text (manifest : CString) (fields : List ManifestField)
    (text : manifest.bytes = manifestText fields) (key : CString) (noEquals : 61 ∉ key.bytes) :
    readManifest manifest key = ManifestField.valueOf fields key := by
  rw [readManifest, text, tokens_manifestText, ManifestField.valueOf]
  clear text
  induction fields with
  | nil => rfl
  | cons field fields inductionHypothesis =>
    rw [List.map_cons, List.findSome?_cons, field.lineValue_text noEquals, List.find?_cons]
    cases field.key == key with
    | true => rfl
    | false => exact inductionHypothesis

theorem readManifest_line {manifest key value : CString}
    (found : readManifest manifest key = some value) : 10 ∉ value.bytes := by
  obtain ⟨line, member, isValue⟩ := List.exists_of_findSome?_eq_some found
  unfold lineValue at isValue
  split at isValue
  · obtain rfl := Option.some.inj isValue
    intro newline
    have inLine := List.mem_of_mem_drop ((List.takeWhile_sublist _).subset newline)
    exact (mem_tokens manifest.nulFree member).2 inLine
  · cases isValue

/-- A daemon that takes the first line with the key. -/
def Daemon.executable : Daemon where
  manifestField := readManifest
  manifestField_text manifest fields text _ := readManifest_text manifest fields text
  manifestField_line _ _ _ := readManifest_line

end ServalRpc
