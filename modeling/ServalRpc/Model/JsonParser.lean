import ServalRpc.CLib.CString
import ServalRpc.CLib.JsonFormat

/-! # The parser of cJSON

A pointer into the text is what is left of the memory there, up to the end of the object that the
text lies in.  The parser stops for a read or a store outside an object, or fails with the error
pointer.  Memory is there whenever the parser allocates some.
-/

namespace ServalRpc

open CLib JsonFormat

inductive ParseStop where
  | fault (fault : Fault)
  | failed (ep : List UInt8)
  /-- More nested calls, or rounds of a loop, than have been provided for. -/
  | deep
  deriving DecidableEq

/-- From a pointer to a result and the pointer behind what it has been parsed from. -/
abbrev Parser (α : Type) := List UInt8 → Except ParseStop (α × List UInt8)

/-- `memory[index]`. -/
def byteAt (memory : List UInt8) (index : Nat) : Except ParseStop UInt8 :=
  (load memory index).mapError .fault

def skip : List UInt8 → Except ParseStop (List UInt8)
  | [] => .error (.fault .readOutOfBounds)
  | byte :: rest => if IsBlank byte then skip rest else .ok (byte :: rest)

/-- `!strncmp(value, word, strlen(word))`. -/
def startsWith : List UInt8 → List UInt8 → Except ParseStop Bool
  | [], _ => .ok true
  | _ :: _, [] => .error (.fault .readOutOfBounds)
  | letter :: word, byte :: value => if byte = letter then startsWith word value else .ok false

/-! ## Numbers -/

/-- What the parser does with a `double`: `pow` is that of the C library, `toInt` the cast. -/
structure Doubles (D : Type) where
  ofInt : Int → D
  add : D → D → D
  sub : D → D → D
  mul : D → D → D
  pow : D → D → D
  toInt : D → Int

/-- An `int` that has wrapped. -/
def intOf (value : Int) : Int := Int.bmod value (2 ^ 32)

/-- The fields of an item of type `cJSON_Number`. -/
structure CJsonNumber (D : Type) where
  valuedouble : D
  valueint : Int
  deriving DecidableEq

/-- The loops over digits. -/
def readDigits {σ : Type} (digit : σ → UInt8 → σ) : σ → Parser σ
  | _, [] => .error (.fault .readOutOfBounds)
  | state, byte :: num =>
      if IsDigit byte then readDigits digit (digit state byte) num else .ok (state, byte :: num)

section Numbers

variable {D : Type} (doubles : Doubles D)

def wholeDigit (n : D) (digit : UInt8) : D :=
  doubles.add (doubles.mul n (doubles.ofInt 10)) (doubles.ofInt (digitValue digit))

def fractionDigit (state : D × D) (digit : UInt8) : D × D :=
  (wholeDigit doubles state.1 digit, doubles.sub state.2 (doubles.ofInt 1))

def subscaleDigit (subscale : Int) (digit : UInt8) : Int :=
  intOf (subscale * 10 + digitValue digit)

/-- The digits before the point, other than a zero that stands first. -/
def parseWhole (num : List UInt8) : Except ParseStop (D × List UInt8) := do
  let first ← byteAt num 0
  if 49 ≤ first ∧ first ≤ 57 then readDigits (wholeDigit doubles) (doubles.ofInt 0) num
  else pure (doubles.ofInt 0, num)

/-- Whether `num` is at a point with a digit behind it. -/
def atFraction (num : List UInt8) : Except ParseStop Bool := do
  if (← byteAt num 0) = point then
    let digit ← byteAt num 1
    pure (decide (IsDigit digit))
  else pure false

/-- `n` and `scale` behind the fractional part. -/
def parseFraction (n : D) (num : List UInt8) : Except ParseStop ((D × D) × List UInt8) := do
  if ← atFraction num then readDigits (fractionDigit doubles) (n, doubles.ofInt 0) (num.drop 1)
  else pure ((n, doubles.ofInt 0), num)

/-- `signsubscale`. -/
def parseExponentSign (num : List UInt8) : Except ParseStop (Int × List UInt8) := do
  let sign ← byteAt num 0
  if sign = plus then pure (1, num.drop 1)
  else if sign = minus then pure (-1, num.drop 1)
  else pure (1, num)

/-- `subscale * signsubscale`. -/
def parseExponent (num : List UInt8) : Except ParseStop (Int × List UInt8) := do
  let letter ← byteAt num 0
  if letter = 101 ∨ letter = 69 then
    let (signsubscale, num) ← parseExponentSign (num.drop 1)
    let (subscale, num) ← readDigits subscaleDigit 0 num
    pure (intOf (subscale * signsubscale), num)
  else pure (0, num)

/-- A byte that is skipped if it is there. -/
def optionalByte (byte : UInt8) (num : List UInt8) : Except ParseStop (Bool × List UInt8) := do
  if (← byteAt num 0) = byte then pure (true, num.drop 1) else pure (false, num)

/-- The number of these parts. -/
def scaled (negative : Bool) (n scale : D) (exponent : Int) : CJsonNumber D :=
  let sign := doubles.ofInt (if negative then -1 else 1)
  let n := doubles.mul (doubles.mul sign n)
    (doubles.pow (doubles.ofInt 10) (doubles.add scale (doubles.ofInt exponent)))
  ⟨n, doubles.toInt n⟩

def parseNumber (num : List UInt8) : Except ParseStop (CJsonNumber D × List UInt8) := do
  let (negative, num) ← optionalByte minus num
  let (_, num) ← optionalByte 48 num
  let (n, num) ← parseWhole doubles num
  let ((n, scale), num) ← parseFraction doubles n num
  let (exponent, num) ← parseExponent num
  pure (scaled doubles negative n scale exponent, num)

end Numbers

/-! ## Strings -/

/-- The digits that are left of `parse_hex4`, after others have made `h`. -/
def hexDigits : Nat → Nat → List UInt8 → Except ParseStop Nat
  | 0, h, _ => .ok h
  | count + 1, h, str => do
      match hexDigit (← byteAt str 0) with
      | some digit => hexDigits count (h * 16 + digit) (str.drop 1)
      | none => pure 0

def parseHex4 (str : List UInt8) : Except ParseStop Nat := hexDigits 4 0 str

/-- `(uc | 0x80) & 0xBF`, in a `char`. -/
def continuationByte (uc : Nat) : UInt8 := UInt8.ofNat ((uc ||| 0x80) &&& 0xBF)

/-- The stores of `switch (len)`, in the order of their cells. -/
def utf8 (uc : Nat) : List UInt8 :=
  if uc < 0x80 then [UInt8.ofNat (uc ||| 0x00)]
  else if uc < 0x800 then [UInt8.ofNat ((uc >>> 6) ||| 0xC0), continuationByte uc]
  else if uc < 0x10000 then
    [UInt8.ofNat ((uc >>> 12) ||| 0xE0), continuationByte (uc >>> 6), continuationByte uc]
  else
    [UInt8.ofNat ((uc >>> 18) ||| 0xF0), continuationByte (uc >>> 12), continuationByte (uc >>> 6),
      continuationByte uc]

/-- How far it is to `end_ptr`, and `len`. -/
def scanString : List UInt8 → Except ParseStop (Nat × Nat)
  | [] => .error (.fault .readOutOfBounds)
  | byte :: rest =>
      if byte = quote ∨ byte = 0 then .ok (0, 0)
      else if byte = backslash then
        match rest with
        | [] => .error (.fault .readOutOfBounds)
        | _ :: rest => do
            let (distance, len) ← scanString rest
            pure (distance + 2, len + 1)
      else do
        let (distance, len) ← scanString rest
        pure (distance + 1, len + 1)

/-- The second half of a surrogate pair, at `ptr + 1`; `left` is `end_ptr - ptr`. -/
def parseLow (str ptr : List UInt8) (left uc : Nat) : Except ParseStop Nat := do
  if left < 6 then throw (.failed str)
  if (← byteAt ptr 1) ≠ backslash then throw (.failed str)
  if (← byteAt ptr 2) ≠ letterU then throw (.failed str)
  let uc2 ← parseHex4 (ptr.drop 3)
  if uc2 < 0xDC00 ∨ 0xDFFF < uc2 then throw (.failed str)
  pure (0x10000 + (((uc &&& 0x3FF) <<< 10) ||| (uc2 &&& 0x3FF)))

/-- What `\u` at `ptr` stores, and by how much the round takes `ptr` further. -/
def parseCode (str ptr : List UInt8) (left : Nat) : Except ParseStop (List UInt8 × Nat) := do
  let uc ← parseHex4 (ptr.drop 2)
  if left ≤ 5 then throw (.failed str)
  if (0xDC00 ≤ uc ∧ uc ≤ 0xDFFF) ∨ uc = 0 then throw (.failed str)
  if 0xD800 ≤ uc ∧ uc ≤ 0xDBFF then
    let uc ← parseLow str (ptr.drop 5) (left - 5) uc
    pure (utf8 uc, 12)
  else pure (utf8 uc, 6)

/-- A round of the second loop of `parse_string`, with `left` bytes before `end_ptr`. -/
def unescapeRound (str ptr : List UInt8) (left : Nat) : Except ParseStop (List UInt8 × Nat) := do
  let byte ← byteAt ptr 0
  if byte ≠ backslash then pure ([byte], 1)
  else
    let escape ← byteAt ptr 1
    match escape with
    | 98 => pure ([8], 2)
    | 102 => pure ([12], 2)
    | 110 => pure ([10], 2)
    | 114 => pure ([13], 2)
    | 116 => pure ([9], 2)
    | 117 => parseCode str ptr left
    | escape => pure ([escape], 2)

/-- Stores behind those to `out`, in an object of `size` cells. -/
def emit (size : Nat) (out cells : List UInt8) : Except ParseStop (List UInt8) :=
  if out.length + cells.length ≤ size then .ok (out ++ cells)
  else .error (.fault .writeOutOfBounds)

/-- The second loop of `parse_string`. -/
def unescape (str : List UInt8) (size : Nat) :
    Nat → List UInt8 → Nat → List UInt8 → Except ParseStop (List UInt8 × List UInt8)
  | _, ptr, 0, out => .ok (out, ptr)
  | 0, _, _ + 1, _ => .error .deep
  | fuel + 1, ptr, left + 1, out => do
      let (cells, advance) ← unescapeRound str ptr (left + 1)
      let out ← emit size out cells
      unescape str size fuel (ptr.drop advance) (left + 1 - advance) out

def parseString (str : List UInt8) : Except ParseStop (CString × List UInt8) := do
  if (← byteAt str 0) ≠ quote then throw (.failed str)
  let (distance, len) ← scanString (str.drop 1)
  let (out, ptr) ← unescape str (len + 1) distance (str.drop 1) distance []
  let out ← emit (len + 1) out [0]
  let ptr := if (← byteAt ptr 0) = quote then ptr.drop 1 else ptr
  pure (CString.upToNul out, ptr)

/-! ## Values -/

/-- `struct cJSON` of a value, under the type of its constructor. -/
abbrev CJson (D : Type) := JsonTree (CJsonNumber D) CString

section Lists

variable {α : Type}

/-- The items from `value` on, with the loop over those behind a comma. -/
def parseItems (parseItem : Parser α) : Nat → Parser (List α)
  | 0, _ => .error .deep
  | fuel + 1, value => do
      let (item, value) ← parseItem value
      let value ← skip value
      if (← byteAt value 0) = comma then
        let (items, value) ← parseItems parseItem fuel (value.drop 1)
        pure (item :: items, value)
      else pure ([item], value)

/-- `parse_array` and `parse_object`, by how they parse an item and by their brackets. -/
def parseList (parseItem : Parser α) (opening closing : UInt8) (value : List UInt8) :
    Except ParseStop (List α × List UInt8) := do
  if (← byteAt value 0) ≠ opening then throw (.failed value)
  let value ← skip (value.drop 1)
  if (← byteAt value 0) = closing then pure ([], value.drop 1)
  else
    let (items, value) ← parseItems parseItem value.length value
    if (← byteAt value 0) = closing then pure (items, value.drop 1)
    else throw (.failed value)

end Lists

section Values

variable {D : Type}

/-- An item of an array, by how values are parsed. -/
def parseElement (parse : Parser (CJson D)) (value : List UInt8) :
    Except ParseStop (CJson D × List UInt8) := do
  parse (← skip value)

/-- A member of an object, by how values are parsed. -/
def parseMember (parse : Parser (CJson D)) (value : List UInt8) :
    Except ParseStop ((CString × CJson D) × List UInt8) := do
  let (string, value) ← parseString (← skip value)
  let value ← skip value
  if (← byteAt value 0) ≠ colon then throw (.failed value)
  let (item, value) ← parse (← skip (value.drop 1))
  pure ((string, item), value)

def parseArray (parse : Parser (CJson D)) (value : List UInt8) :
    Except ParseStop (CJson D × List UInt8) := do
  let (items, value) ← parseList (parseElement parse) openBracket closeBracket value
  pure (.array items, value)

def parseObject (parse : Parser (CJson D)) (value : List UInt8) :
    Except ParseStop (CJson D × List UInt8) := do
  let (members, value) ← parseList (parseMember parse) openBrace closeBrace value
  pure (.object members, value)

variable (doubles : Doubles D)

/-- `parse_value`, with how deep the calls may be nested. -/
def parseValue : Nat → Parser (CJson D)
  | 0, _ => .error .deep
  | depth + 1, value => do
      if ← startsWith wordNull value then pure (.null, value.drop 4)
      else if ← startsWith wordFalse value then pure (.bool false, value.drop 5)
      else if ← startsWith wordTrue value then pure (.bool true, value.drop 4)
      else
        let first ← byteAt value 0
        if first = quote then
          let (string, value) ← parseString value
          pure (.string string, value)
        else if first = minus ∨ IsDigit first then
          let (number, value) ← parseNumber doubles value
          pure (.number number, value)
        else if first = openBracket then parseArray (parseValue depth) value
        else if first = openBrace then parseObject (parseValue depth) value
        else throw (.failed value)

/-- `cJSON_ParseWithOpts`; the pointer is that of `return_parse_end`. -/
def cJSONParseWithOpts (value : List UInt8) (requireNullTerminated : Bool) :
    Except ParseStop (CJson D × List UInt8) := do
  let (c, rest) ← parseValue doubles (value.length + 1) (← skip value)
  if requireNullTerminated then
    let rest ← skip rest
    if (← byteAt rest 0) ≠ 0 then throw (.failed rest)
    pure (c, rest)
  else pure (c, rest)

/-- `cJSON_Parse`: the item, or the null pointer when the text is malformed. -/
def cJSONParse (value : List UInt8) : Except ParseStop (Option (CJson D)) :=
  match cJSONParseWithOpts doubles value false with
  | .ok (c, _) => .ok (some c)
  | .error (.failed _) => .ok none
  | .error stop => .error stop

end Values

/-! ## The fields of an item -/

/-- `struct cJSON`, with the items of an array or object in order; a JSON null has no
`valuestring`. -/
inductive Json where
  | node (string valuestring : Option CString) (valueint valuedouble : Int) (children : List Json)

namespace Json

def string : Json → Option CString
  | node string _ _ _ _ => string

def valuestring : Json → Option CString
  | node _ valuestring _ _ _ => valuestring

def valueint : Json → Int
  | node _ _ valueint _ _ => valueint

def valuedouble : Json → Int
  | node _ _ _ valuedouble _ => valuedouble

def children : Json → List Json
  | node _ _ _ _ children => children

end Json

mutual

/-- The fields that are read through the getters, with the `name` of a member.  The doubles are
seen as integers. -/
def itemFields {D : Type} (view : D → Int) (name : Option CString) : CJson D → Json
  | .null => .node name none 0 0 []
  | .bool value => .node name none (if value then 1 else 0) 0 []
  | .number number => .node name none number.valueint (view number.valuedouble) []
  | .string string => .node name (some string) 0 0 []
  | .array items => .node name none 0 0 (itemsFields view items)
  | .object members => .node name none 0 0 (membersFields view members)

def itemsFields {D : Type} (view : D → Int) : List (CJson D) → List Json
  | [] => []
  | item :: items => itemFields view none item :: itemsFields view items

def membersFields {D : Type} (view : D → Int) : List (CString × CJson D) → List Json
  | [] => []
  | (name, item) :: members => itemFields view (some name) item :: membersFields view members

end

/-! ## Getters -/

/-- `tolower` in the C locale. -/
def tolower (byte : UInt8) : UInt8 :=
  if 65 ≤ byte ∧ byte ≤ 90 then byte + 32 else byte

/-- `!cJSON_strcasecmp(name, string)`: an item without a name has none. -/
def strcasecmpEq (name : Option CString) (string : CString) : Bool :=
  match name with
  | none => false
  | some name => name.bytes.map tolower == string.bytes.map tolower

/-- `cJSON_GetArraySize`, which does not look at its pointer. -/
def cJSONGetArraySize (array : Option Json) : Except Fault Nat := do
  let array ← deref array
  pure array.children.length

/-- `cJSON_GetArrayItem`. -/
def cJSONGetArrayItem (array : Option Json) (item : Nat) : Option Json :=
  array.bind fun array => array.children[item]?

/-- `cJSON_GetObjectItem`. -/
def cJSONGetObjectItem (object : Option Json) (name : CString) : Option Json :=
  object.bind fun object => object.children.find? fun item => strcasecmpEq item.string name

end ServalRpc
