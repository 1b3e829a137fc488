import ServalRpc.Verified.JsonNumbers

/-! # What the parser accepts

`parse_value` reads a value exactly when the text begins with the spelling of one, up to where that
ends, as long as a terminator comes after it; and no text is nested too deeply for the calls that
its length provides for.
-/

namespace ServalRpc.Verified.JsonGrammar

open CLib JsonFormat JsonStrings JsonNumbers

/-! ## Blanks and words -/

theorem skip_append {blank rest : List UInt8} {byte : UInt8} (isBlank : Blank blank)
    (solid : ¬ IsBlank byte) : skip (blank ++ byte :: rest) = .ok (byte :: rest) := by
  induction blank with
  | nil => simp [skip, solid]
  | cons first blank inductionHypothesis =>
    rw [Blank, List.forall_mem_cons] at isBlank
    rw [List.cons_append, skip, if_pos isBlank.1, inductionHypothesis isBlank.2]

theorem skip_ok {memory rest : List UInt8} (skipped : skip memory = .ok rest) :
    ∃ blank byte tail, Blank blank ∧ memory = blank ++ rest ∧ rest = byte :: tail ∧
      ¬ IsBlank byte := by
  induction memory with
  | nil => cases skipped
  | cons first memory inductionHypothesis =>
    by_cases isBlank : IsBlank first
    · rw [skip, if_pos isBlank] at skipped
      obtain ⟨blank, byte, tail, blanks, rfl, same, solid⟩ := inductionHypothesis skipped
      refine ⟨first :: blank, byte, tail, ?_, rfl, same, solid⟩
      rw [Blank, List.forall_mem_cons]
      exact ⟨isBlank, blanks⟩
    · rw [skip, if_neg isBlank] at skipped
      cases skipped
      exact ⟨[], first, memory, by simp [Blank], rfl, rfl, isBlank⟩

theorem startsWith_append (word rest : List UInt8) : startsWith word (word ++ rest) = .ok true := by
  induction word with
  | nil => rfl
  | cons letter word inductionHypothesis =>
    rw [List.cons_append, startsWith, if_pos rfl, inductionHypothesis]

theorem startsWith_ok {word value : List UInt8} (found : startsWith word value = .ok true) :
    ∃ rest, value = word ++ rest := by
  induction word generalizing value with
  | nil => exact ⟨value, rfl⟩
  | cons letter word inductionHypothesis =>
    cases value with
    | nil => cases found
    | cons byte value =>
      by_cases same : byte = letter
      · rw [startsWith, if_pos same] at found
        obtain ⟨rest, rfl⟩ := inductionHypothesis found
        exact ⟨rest, by rw [same, List.cons_append]⟩
      · rw [startsWith, if_neg same] at found
        cases found

theorem startsWith_other {letter byte : UInt8} (word rest : List UInt8) (other : byte ≠ letter) :
    startsWith (letter :: word) (byte :: rest) = .ok false := by
  rw [startsWith, if_neg other]

/-! ## Lists -/

section Lists

variable {α β γ : Type} {ReadsLabel : List UInt8 → β → List UInt8 → Prop}
  {ReadsOne : List UInt8 → α → List UInt8 → Prop} {item : β → α → γ} {close : UInt8}
  {parseItem : Parser γ}

/-- One item with its label. -/
def ReadsItem (ReadsLabel : List UInt8 → β → List UInt8 → Prop)
    (ReadsOne : List UInt8 → α → List UInt8 → Prop) (item : β → α → γ) (before : List UInt8)
    (found : γ) (after : List UInt8) : Prop :=
  ∃ label middle value, ReadsLabel before label middle ∧ ReadsOne middle value after ∧
    found = item label value

/-- Whatever is parsed as an item has been spelled behind blanks. -/
def Sound (parseItem : Parser γ) (Reads : List UInt8 → γ → List UInt8 → Prop) : Prop :=
  ∀ before found after, parseItem before = .ok (found, after) →
    ∃ blank middle, Blank blank ∧ before = blank ++ middle ∧ Reads middle found after

/-- Whatever is spelled in at most `size` bytes is parsed, when there is enough behind it. -/
def Complete (parseItem : Parser γ) (Reads : List UInt8 → γ → List UInt8 → Prop) (size : Nat) :
    Prop :=
  ∀ blank middle found after, Blank blank → middle.length ≤ size → Stops after →
    Reads middle found after → parseItem (blank ++ middle) = .ok (found, after)

theorem parseItems_ok (sound : Sound parseItem (ReadsItem ReadsLabel ReadsOne item)) {fuel : Nat}
    {value after : List UInt8} {items : List γ}
    (parsed : parseItems parseItem fuel value = .ok (items, close :: after)) :
    ∃ blank middle, Blank blank ∧ value = blank ++ middle ∧
      ReadsList ReadsLabel ReadsOne item close middle items after := by
  induction fuel generalizing value items with
  | zero => cases parsed
  | succ fuel inductionHypothesis =>
    rw [parseItems] at parsed
    obtain ⟨⟨found, behind⟩, parsedItem, going⟩ := bind_eq_ok_iff.mp parsed
    obtain ⟨rest, skipped, going'⟩ := bind_eq_ok_iff.mp going
    clear parsed going
    obtain ⟨blank, middle, isBlank, rfl, label, inner, one, labelled, reads, rfl⟩ :=
      sound _ _ _ parsedItem
    obtain ⟨blank', byte, tail, isBlank', rfl, rfl, solid⟩ := skip_ok skipped
    rw [byteAt_zero, ok_bind] at going'
    by_cases isComma : byte = comma
    · subst isComma
      rw [if_pos rfl] at going'
      obtain ⟨⟨others, final⟩, parsedOthers, ended⟩ := bind_eq_ok_iff.mp going'
      cases ended
      obtain ⟨blank'', next, isBlank'', split, others⟩ := inductionHypothesis parsedOthers
      have tailIs : tail = blank'' ++ next := split
      subst tailIs
      exact ⟨blank, middle, isBlank, rfl, .more labelled reads isBlank' isBlank'' others⟩
    · rw [if_neg isComma] at going'
      cases going'
      exact ⟨blank, middle, isBlank, rfl, .last labelled reads isBlank'⟩

theorem parseItems_of_reads {size : Nat}
    (complete : Complete parseItem (ReadsItem ReadsLabel ReadsOne item) size)
    (labels : ∀ before label after, ReadsLabel before label after → after <:+ before)
    (ones : ∀ before value after, ReadsOne before value after → Takes before after)
    (solid : ¬ IsBlank close) (notComma : close ≠ comma) (notPoint : close ≠ point)
    {middle after : List UInt8} {items : List γ}
    (reads : ReadsList ReadsLabel ReadsOne item close middle items after)
    (inside : middle.length ≤ size) {fuel : Nat}
    (rounds : middle.length ≤ fuel) (blank : List UInt8) (isBlank : Blank blank) :
    parseItems parseItem fuel (blank ++ middle) = .ok (items, close :: after) := by
  induction reads generalizing fuel blank with
  | @last before middle blank' after label value labelled one isBlank' =>
    have taken := (ones _ _ _ one).extend (labels _ _ _ labelled) (List.suffix_refl _)
    cases fuel with
    | zero => exact absurd (Nat.lt_of_lt_of_le taken.2 rounds) (Nat.not_lt_zero _)
    | succ fuel =>
      have parsed := complete blank before (item label value) (blank' ++ close :: after) isBlank
        inside (stops_of_mem (List.mem_append_right _ List.mem_cons_self) notPoint)
        ⟨label, middle, value, labelled, one, rfl⟩
      rw [parseItems, parsed, ok_bind]
      simp only [skip_append isBlank' solid, ok_bind, byteAt_zero, notComma, if_false]
      rfl
  | @more before middle blank' blank'' next after label value items labelled one isBlank' isBlank''
      others inductionHypothesis =>
    have taken : Takes before next := (ones _ _ _ one).extend (labels _ _ _ labelled)
      ⟨blank' ++ comma :: blank'', by simp⟩
    have smaller := taken.2
    cases fuel with
    | zero => exact absurd (Nat.lt_of_lt_of_le smaller rounds) (Nat.not_lt_zero _)
    | succ fuel =>
      have behind : Stops (blank' ++ comma :: (blank'' ++ next)) :=
        stops_of_mem (List.mem_append_right _ List.mem_cons_self) (by decide)
      have parsed := complete blank before (item label value) (blank' ++ comma :: (blank'' ++ next))
        isBlank inside behind ⟨label, middle, value, labelled, one, rfl⟩
      have next := inductionHypothesis (by omega)
        (show next.length ≤ fuel by omega) blank'' isBlank''
      rw [parseItems, parsed, ok_bind]
      simp only [skip_append isBlank' (show ¬ IsBlank comma by decide), ok_bind, byteAt_zero,
        if_true, List.drop_succ_cons, List.drop_zero, next]
      rfl

theorem parseList_ok {opening : UInt8}
    (sound : Sound parseItem (ReadsItem ReadsLabel ReadsOne item)) {value after : List UInt8}
    {items : List γ} (parsed : parseList parseItem opening close value = .ok (items, after)) :
    ∃ blank, Blank blank ∧
      (items = [] ∧ value = opening :: (blank ++ close :: after) ∨
      ∃ middle, value = opening :: (blank ++ middle) ∧
        ReadsList ReadsLabel ReadsOne item close middle items after) := by
  cases value with
  | nil => cases parsed
  | cons first rest =>
    by_cases opens : first = opening
    · subst opens
      simp only [parseList, byteAt_zero, ok_bind, ne_eq, not_true_eq_false, if_false,
        List.drop_succ_cons, List.drop_zero] at parsed
      obtain ⟨start, skipped, going⟩ := bind_eq_ok_iff.mp parsed
      clear parsed
      obtain ⟨blank, byte, tail, isBlank, rfl, rfl, solid⟩ := skip_ok skipped
      rw [byteAt_zero, ok_bind] at going
      by_cases closes : byte = close
      · subst closes
        rw [if_pos rfl] at going
        cases going
        exact ⟨blank, isBlank, .inl ⟨rfl, rfl⟩⟩
      · rw [if_neg closes] at going
        obtain ⟨⟨found, final⟩, parsedItems, ended⟩ := bind_eq_ok_iff.mp going
        clear going
        cases final with
        | nil => cases ended
        | cons last final =>
          dsimp only at ended
          rw [byteAt_zero, ok_bind] at ended
          by_cases closes : last = close
          · subst closes
            rw [if_pos rfl] at ended
            cases ended
            obtain ⟨blank', middle, isBlank', split, reads⟩ := parseItems_ok sound parsedItems
            refine ⟨blank ++ blank', ?_, .inr ⟨middle, ?_, reads⟩⟩
            · rw [Blank, List.forall_mem_append]
              exact ⟨isBlank, isBlank'⟩
            · rw [split, List.append_assoc]
          · rw [if_neg closes] at ended
            cases ended
    · simp only [parseList, byteAt_zero, ok_bind, ne_eq, opens, not_false_eq_true,
        if_true] at parsed
      cases parsed

theorem parseList_empty (parseItem : Parser γ) (opening : UInt8) {blank : List UInt8}
    (isBlank : Blank blank) (solid : ¬ IsBlank close) (after : List UInt8) :
    parseList parseItem opening close (opening :: (blank ++ close :: after)) = .ok ([], after) := by
  simp only [parseList, byteAt_zero, ok_bind, ne_eq, not_true_eq_false, if_false,
    List.drop_succ_cons, List.drop_zero, skip_append isBlank solid, if_true]
  rfl

theorem parseList_of_reads {size : Nat} (opening : UInt8)
    (complete : Complete parseItem (ReadsItem ReadsLabel ReadsOne item) size)
    (labels : ∀ before label after, ReadsLabel before label after → after <:+ before)
    (ones : ∀ before value after, ReadsOne before value after → Takes before after)
    (solid : ¬ IsBlank close) (notComma : close ≠ comma) (notPoint : close ≠ point)
    {blank middle after : List UInt8} {items : List γ} (isBlank : Blank blank)
    (reads : ReadsList ReadsLabel ReadsOne item close middle items after)
    (head : ∃ byte rest, middle = byte :: rest ∧ ¬ IsBlank byte ∧ byte ≠ close)
    (inside : middle.length ≤ size) :
    parseList parseItem opening close (opening :: (blank ++ middle)) = .ok (items, after) := by
  have parsed := parseItems_of_reads complete labels ones solid notComma notPoint reads inside
    (Nat.le_refl middle.length) [] (by simp [Blank])
  obtain ⟨byte, rest, rfl, solidHead, notClose⟩ := head
  rw [List.nil_append] at parsed
  simp only [parseList, byteAt_zero, ok_bind, ne_eq, not_true_eq_false, if_false,
    List.drop_succ_cons, List.drop_zero, skip_append isBlank solidHead, notClose, parsed, if_true]
  rfl

end Lists

/-! ## Values -/

section Values

variable {D : Type} {doubles : Doubles D} {parse : Parser (CJson D)}

/-- What the numbers and strings stand for in the items. -/
def jsonMeaning (doubles : Doubles D) : Meaning (CJsonNumber D) CString where
  number := literalValue doubles
  string := stringOf

/-- What is parsed as a value is spelled. -/
def SoundValues (doubles : Doubles D) (parse : Parser (CJson D)) : Prop :=
  ∀ before value after, parse before = .ok (value, after) →
    Reads (jsonMeaning doubles) before value after

/-- What is spelled as a value in at most `size` bytes is parsed, a number if it can be told to have
ended. -/
def CompleteValues (doubles : Doubles D) (parse : Parser (CJson D)) (size : Nat) : Prop :=
  ∀ before value after, before.length ≤ size →
    (∀ number, value = .number number → Stops after) →
    Reads (jsonMeaning doubles) before value after → parse before = .ok (value, after)

theorem parseElement_ok (sound : SoundValues doubles parse) :
    Sound (parseElement parse)
      (ReadsItem ReadsNothing (Reads (jsonMeaning doubles)) fun _ item => item) := by
  intro before found after parsed
  obtain ⟨start, skipped, parsedValue⟩ := bind_eq_ok_iff.mp parsed
  clear parsed
  obtain ⟨blank, byte, tail, isBlank, rfl, _⟩ := skip_ok skipped
  exact ⟨blank, start, isBlank, rfl, (), start, found, rfl, sound _ _ _ parsedValue, rfl⟩

theorem parseElement_of_reads {size : Nat} (complete : CompleteValues doubles parse size) :
    Complete (parseElement parse)
      (ReadsItem ReadsNothing (Reads (jsonMeaning doubles)) fun _ item => item) size := by
  rintro blank middle found after isBlank inside stops ⟨_, middle', value, rfl, reads, rfl⟩
  obtain ⟨byte, rest, rfl, solid, _⟩ := reads.head
  rw [parseElement, skip_append isBlank solid, ok_bind]
  exact complete _ _ _ inside (fun _ _ => stops) reads

theorem parseMember_ok (sound : SoundValues doubles parse) :
    Sound (parseMember parse)
      (ReadsItem (ReadsName (jsonMeaning doubles)) (Reads (jsonMeaning doubles)) Prod.mk) := by
  intro before found after parsed
  obtain ⟨start, skipped, going⟩ := bind_eq_ok_iff.mp parsed
  obtain ⟨⟨name, behind⟩, parsedName, going'⟩ := bind_eq_ok_iff.mp going
  obtain ⟨atColon, skipped', going''⟩ := bind_eq_ok_iff.mp going'
  clear parsed going going'
  obtain ⟨blank, byte, tail, isBlank, rfl, _⟩ := skip_ok skipped
  obtain ⟨units, reads, rfl⟩ := parseString_eq_ok_iff.mp parsedName
  obtain ⟨blank', first, rest, isBlank', rfl, rfl, _⟩ := skip_ok skipped'
  rw [byteAt_zero, ok_bind] at going''
  by_cases isColon : first = colon
  · subst isColon
    simp only [ne_eq, not_true_eq_false, if_false, List.drop_succ_cons, List.drop_zero] at going''
    obtain ⟨atValue, skipped'', last⟩ := bind_eq_ok_iff.mp going''
    obtain ⟨⟨value, final⟩, parsedValue, ended⟩ := bind_eq_ok_iff.mp last
    cases ended
    obtain ⟨blank'', first, rest, isBlank'', rfl, _⟩ := skip_ok skipped''
    exact ⟨blank, start, isBlank, rfl, stringOf units, atValue, value,
      ⟨units, blank', blank'', rfl, isBlank', isBlank'', reads⟩, sound _ _ _ parsedValue, rfl⟩
  · simp only [ne_eq, isColon, not_false_eq_true, if_true] at going''
    cases going''

theorem parseMember_of_reads {size : Nat} (complete : CompleteValues doubles parse size) :
    Complete (parseMember parse)
      (ReadsItem (ReadsName (jsonMeaning doubles)) (Reads (jsonMeaning doubles)) Prod.mk) size := by
  rintro blank middle found after isBlank inside stops
    ⟨label, middle', value, labelled, reads, rfl⟩
  have shorter : middle'.length ≤ size := Nat.le_trans labelled.suffix.length_le inside
  obtain ⟨units, blank', blank'', rfl, isBlank', isBlank'', name⟩ := labelled
  have parsedName := parseString_of_reads name
  have parsedValue := complete _ _ _ shorter (fun _ _ => stops) reads
  obtain ⟨byte, rest, rfl, solid, _⟩ := reads.head
  have quoted : ∃ tail, middle = quote :: tail := by
    obtain ⟨tail, rfl, _⟩ := name
    exact ⟨_, rfl⟩
  obtain ⟨tail, rfl⟩ := quoted
  simp only [parseMember, skip_append isBlank (show ¬ IsBlank quote by decide), ok_bind, parsedName,
    skip_append isBlank' (show ¬ IsBlank colon by decide), byteAt_zero, ne_eq, not_true_eq_false,
    if_false, List.drop_succ_cons, List.drop_zero, skip_append isBlank'' solid, parsedValue]
  rfl

theorem parseValue_ok (depth : Nat) : SoundValues doubles (parseValue doubles depth) := by
  induction depth with
  | zero =>
    intro before value after parsed
    cases parsed
  | succ depth inductionHypothesis =>
    intro before value after parsed
    rw [parseValue] at parsed
    obtain ⟨isNull, testedNull, notNull⟩ := bind_eq_ok_iff.mp parsed
    clear parsed
    cases isNull with
    | true =>
      cases notNull
      obtain ⟨rest, rfl⟩ := startsWith_ok testedNull
      exact .null
    | false =>
      obtain ⟨isFalse, testedFalse, notFalse⟩ := bind_eq_ok_iff.mp notNull
      clear notNull
      cases isFalse with
      | true =>
        cases notFalse
        obtain ⟨rest, rfl⟩ := startsWith_ok testedFalse
        exact .false
      | false =>
        obtain ⟨isTrue, testedTrue, notTrue⟩ := bind_eq_ok_iff.mp notFalse
        clear notFalse
        cases isTrue with
        | true =>
          cases notTrue
          obtain ⟨rest, rfl⟩ := startsWith_ok testedTrue
          exact .true
        | false =>
          obtain ⟨first, atFirst, byFirst⟩ := bind_eq_ok_iff.mp notTrue
          clear notTrue
          have head : before.head? = some first := by
            rw [List.head?_eq_getElem?]
            exact byteAt_eq_ok_iff.mp atFirst
          split at byFirst
          · obtain ⟨⟨string, rest⟩, parsedString, ended⟩ := bind_eq_ok_iff.mp byFirst
            cases ended
            obtain ⟨units, reads, rfl⟩ := parseString_eq_ok_iff.mp parsedString
            exact .string reads
          · split at byFirst
            · rename_i leads
              obtain ⟨⟨number, rest⟩, parsedNumber, ended⟩ := bind_eq_ok_iff.mp byFirst
              cases ended
              obtain ⟨literal, rfl, ends, notMinus, rfl⟩ := parseNumber_ok doubles parsedNumber
              exact .number (begins_of_head ends head leads fun positive => notMinus positive first head)
                ends
            · split at byFirst
              · obtain ⟨⟨items, rest⟩, parsedList, ended⟩ := bind_eq_ok_iff.mp byFirst
                cases ended
                obtain ⟨blank, isBlank, ⟨rfl, rfl⟩ | ⟨middle, rfl, reads⟩⟩ :=
                  parseList_ok (parseElement_ok inductionHypothesis) parsedList
                · exact .emptyArray isBlank
                · exact .array isBlank reads
              · split at byFirst
                · obtain ⟨⟨members, rest⟩, parsedList, ended⟩ := bind_eq_ok_iff.mp byFirst
                  cases ended
                  obtain ⟨blank, isBlank, ⟨rfl, rfl⟩ | ⟨middle, rfl, reads⟩⟩ :=
                    parseList_ok (parseMember_ok inductionHypothesis) parsedList
                  · exact .emptyObject isBlank
                  · exact .object isBlank reads
                · cases byFirst

/-- The words are looked for in vain where the first byte is another. -/
theorem parseValue_other (doubles : Doubles D) (depth : Nat) {byte : UInt8} (rest : List UInt8)
    (notNull : byte ≠ 110) (notFalse : byte ≠ 102) (notTrue : byte ≠ 116) :
    parseValue doubles (depth + 1) (byte :: rest) =
      if byte = quote then
        (parseString (byte :: rest)).map fun found => (.string found.1, found.2)
      else if byte = minus ∨ IsDigit byte then
        (parseNumber doubles (byte :: rest)).map fun found => (.number found.1, found.2)
      else if byte = openBracket then parseArray (parseValue doubles depth) (byte :: rest)
      else if byte = openBrace then parseObject (parseValue doubles depth) (byte :: rest)
      else .error (.failed (byte :: rest)) := by
  rw [parseValue, show wordNull = 110 :: [117, 108, 108] from rfl, startsWith_other _ _ notNull,
    ok_bind, if_neg Bool.false_ne_true, show wordFalse = 102 :: [97, 108, 115, 101] from rfl,
    startsWith_other _ _ notFalse, ok_bind, if_neg Bool.false_ne_true,
    show wordTrue = 116 :: [114, 117, 101] from rfl, startsWith_other _ _ notTrue, ok_bind,
    if_neg Bool.false_ne_true, byteAt_zero, ok_bind]
  split
  · cases parseString (byte :: rest) <;> rfl
  · split
    · cases parseNumber doubles (byte :: rest) <;> rfl
    · rfl

theorem parseValue_of_reads (depth : Nat) :
    CompleteValues doubles (parseValue doubles (depth + 1)) depth := by
  induction depth with
  | zero =>
    intro before value after inside stops reads
    have taken := reads.takes.2
    omega
  | succ depth inductionHypothesis =>
    intro before value after inside stops reads
    cases reads with
    | null => rw [parseValue, startsWith_append]; rfl
    | false => rfl
    | true => rfl
    | @string before after units string =>
      have parsed := parseString_of_reads string
      obtain ⟨tail, rfl, _⟩ := string
      rw [parseValue_other _ _ _ (by decide) (by decide) (by decide), if_pos rfl, parsed]
      rfl
    | @number after literal begins ends =>
      have parsed := parseNumber_append doubles begins ends (stops _ rfl)
      obtain ⟨byte, rest, text, leads⟩ := NumberLiteral.text_head begins
      have others : byte ≠ 110 ∧ byte ≠ 102 ∧ byte ≠ 116 ∧ byte ≠ quote := by
        refine ⟨?_, ?_, ?_, ?_⟩ <;>
        · rintro rfl
          exact absurd leads (by decide)
      rw [text, List.cons_append] at parsed ⊢
      rw [parseValue_other _ _ _ others.1 others.2.1 others.2.2.1, if_neg others.2.2.2,
        if_pos leads, parsed]
      rfl
    | @emptyArray blank after isBlank =>
      rw [parseValue_other _ _ _ (by decide) (by decide) (by decide), if_neg (by decide),
        if_neg (by decide), if_pos rfl, parseArray, parseList_empty _ _ isBlank (by decide)]
      rfl
    | @array blank before after items isBlank readsItems =>
      simp only [List.length_cons, List.length_append] at inside
      have head : ∃ byte rest, before = byte :: rest ∧ ¬ IsBlank byte ∧ byte ≠ closeBracket := by
        cases readsItems with
        | last labelled one =>
          cases labelled
          exact one.head
        | more labelled one =>
          cases labelled
          exact one.head
      have parsed := parseList_of_reads openBracket (parseElement_of_reads inductionHypothesis)
        (fun _ _ _ same => same.suffix) (fun _ _ _ one => one.takes) (by decide) (by decide) (by decide)
        isBlank readsItems head (by omega)
      rw [parseValue_other _ _ _ (by decide) (by decide) (by decide), if_neg (by decide),
        if_neg (by decide), if_pos rfl, parseArray, parsed]
      rfl
    | @emptyObject blank after isBlank =>
      rw [parseValue_other _ _ _ (by decide) (by decide) (by decide), if_neg (by decide),
        if_neg (by decide), if_neg (by decide), if_pos rfl, parseObject,
        parseList_empty _ _ isBlank (by decide)]
      rfl
    | @object blank before after members isBlank readsMembers =>
      simp only [List.length_cons, List.length_append] at inside
      have named : ∀ {name : CString} {middle : List UInt8},
          ReadsName (jsonMeaning doubles) before name middle →
          ∃ byte rest, before = byte :: rest ∧ ¬ IsBlank byte ∧ byte ≠ closeBrace := by
        rintro name middle ⟨units, _, _, _, _, _, tail, rfl, _⟩
        exact ⟨_, _, rfl, by decide, by decide⟩
      have head : ∃ byte rest, before = byte :: rest ∧ ¬ IsBlank byte ∧ byte ≠ closeBrace := by
        cases readsMembers with
        | last labelled => exact named labelled
        | more labelled => exact named labelled
      have parsed := parseList_of_reads openBrace (parseMember_of_reads inductionHypothesis)
        (fun _ _ _ name => name.suffix) (fun _ _ _ one => one.takes) (by decide) (by decide) (by decide)
        isBlank readsMembers head (by omega)
      rw [parseValue_other _ _ _ (by decide) (by decide) (by decide), if_neg (by decide),
        if_neg (by decide), if_neg (by decide), if_pos rfl, parseObject, parsed]
      rfl

theorem reads_of_parsed {memory after : List UInt8} {c : CJson D}
    (parsed : cJSONParseWithOpts doubles memory false = .ok (c, after)) :
    ∃ blank start, Blank blank ∧ memory = blank ++ start ∧
      Reads (jsonMeaning doubles) start c after := by
  obtain ⟨start, skipped, going⟩ := bind_eq_ok_iff.mp parsed
  obtain ⟨⟨found, rest⟩, parsedValue, ended⟩ := bind_eq_ok_iff.mp going
  cases ended
  obtain ⟨blank, byte, tail, isBlank, rfl, _⟩ := skip_ok skipped
  exact ⟨blank, start, isBlank, rfl, parseValue_ok _ _ _ _ parsedValue⟩

theorem parsed_of_reads {blank start after : List UInt8} {c : CJson D} (isBlank : Blank blank)
    (stops : ∀ number, c = .number number → Stops after)
    (reads : Reads (jsonMeaning doubles) start c after) :
    cJSONParseWithOpts doubles (blank ++ start) false = .ok (c, after) := by
  have inside : start.length ≤ (blank ++ start).length := by
    rw [List.length_append]
    omega
  have parsed := parseValue_of_reads _ _ _ _ inside stops reads
  obtain ⟨byte, rest, rfl, solid, _⟩ := reads.head
  rw [cJSONParseWithOpts, skip_append isBlank solid, ok_bind, parsed]
  rfl

/-- `cJSON_Parse` returns an item and stops behind it exactly when the memory begins with the spelling
of one, behind blanks.  Behind a number there has to be enough to tell that it has ended; nothing is
read behind any other item, not even its terminator. -/
theorem parse_reads_iff (doubles : Doubles D) {memory after : List UInt8} {c : CJson D}
    (stops : ∀ number, c = .number number → Stops after) :
    cJSONParseWithOpts doubles memory false = .ok (c, after) ↔
      ∃ blank start, Blank blank ∧ memory = blank ++ start ∧
        Reads (jsonMeaning doubles) start c after := by
  constructor
  · exact reads_of_parsed
  · rintro ⟨blank, start, isBlank, rfl, reads⟩
    exact parsed_of_reads isBlank stops reads

end Values

/-- The text of a listing without rows, without its terminator. -/
def rowsText : List UInt8 := [123, 34, 114, 111, 119, 115, 34, 58, 91, 93, 125]

def rowsItem : CJson ℚ := .object [(CString.ofChars ['r', 'o', 'w', 's'], .array [])]

theorem parse_reads_rows : ∃ blank start, Blank blank ∧ rowsText = blank ++ start ∧
    Reads (jsonMeaning exactDoubles) start rowsItem [] := by
  have noNumber : ∀ number, rowsItem = .number number → Stops [] := by
    intro number same
    cases same
  exact (parse_reads_iff exactDoubles noNumber).mp rfl

end ServalRpc.Verified.JsonGrammar
