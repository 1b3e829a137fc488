import Mathlib.Algebra.Ring.Nat
import Mathlib.Data.List.Basic

/-! # Command lines

The part of the grammar of `sh` that decides whether a line is one simple command whose words are
fixed: unquoted blanks separate words, quotes and backslashes protect bytes, and operators,
expansions, patterns and comments keep their meaning.  A line that needs more than that, or whose
words depend on variables, users or files, denotes no fixed command here.
-/

namespace CLib.Shell

/-! ## Scanning -/

/-- A byte of a word, and whether it was quoted. -/
structure ShellByte where
  byte : UInt8
  quoted : Bool
  deriving DecidableEq

abbrev Word := List ShellByte

def Word.bytes (word : Word) : List UInt8 := word.map ShellByte.byte

def unquoted (bytes : List UInt8) : Word := bytes.map fun byte => ⟨byte, false⟩

/-- A space or a tab. -/
def isBlank (byte : UInt8) : Bool := byte == 32 || byte == 9

/-- One of `& ( ) ; < > |`. -/
def isOperator (byte : UInt8) : Bool := [38, 40, 41, 59, 60, 62, 124].contains byte

/-- A dollar sign or a backquote, which also expand in double quotes. -/
def isExpansion (byte : UInt8) : Bool := byte == 36 || byte == 96

inductive Quoting where
  | unquoted
  | escaped
  | single
  | double
  | doubleEscaped
  deriving DecidableEq

def push (current : Option Word) (byte : UInt8) (quoted : Bool) : Option Word :=
  some (current.getD [] ++ [⟨byte, quoted⟩])

/-- The words of a line; `current` is the word that the scan is in, if it is in one. -/
def scan : Quoting → Option Word → List UInt8 → Option (List Word)
  | .unquoted, current, [] => some current.toList
  | .escaped, _, [] => none
  | .single, _, [] => none
  | .double, _, [] => none
  | .doubleEscaped, _, [] => none
  | .unquoted, current, byte :: line =>
    if isBlank byte then (scan .unquoted none line).map (current.toList ++ ·)
    else if byte = 39 then scan .single (some (current.getD [])) line
    else if byte = 34 then scan .double (some (current.getD [])) line
    else if byte = 92 then scan .escaped current line
    -- A comment extends to the end of the line.
    else if byte = 35 ∧ current = none then if 10 ∈ line then none else some []
    -- Behind its newline a single command may only have empty lines.
    else if byte = 10 then
      if line.all fun byte => isBlank byte || byte == 10 then some current.toList else none
    else if isOperator byte || isExpansion byte then none
    else scan .unquoted (push current byte false) line
  | .escaped, current, byte :: line =>
    scan .unquoted (if byte = 10 then current else push current byte true) line
  | .single, current, byte :: line =>
    if byte = 39 then scan .unquoted current line else scan .single (push current byte true) line
  | .double, current, byte :: line =>
    if byte = 34 then scan .unquoted current line
    else if byte = 92 then scan .doubleEscaped current line
    else if isExpansion byte then none
    else scan .double (push current byte true) line
  | .doubleEscaped, current, byte :: line =>
    -- Before any other byte the backslash stands for itself.
    if byte = 10 then scan .double current line
    else if isExpansion byte || byte == 34 || byte == 92 then
      scan .double (push current byte true) line
    else scan .double (push (push current 92 true) byte true) line

/-! ## Simple commands -/

/-- Behind an unquoted `[`, or the `!` after it: a `]` closes a bracket expression unless it comes
first, and no slash stands between. -/
def closesBracket (word : Word) : Bool :=
  match if (word.head?.map ShellByte.byte) = some 33 then word.tail else word with
  | [] => false
  | first :: rest =>
    first.byte != 47 && (rest.takeWhile fun next => next.byte != 47).contains ⟨93, false⟩

/-- The word is a pattern for pathnames. -/
def isPattern : Word → Bool
  | [] => false
  | first :: rest =>
    !first.quoted && (first.byte == 42 || first.byte == 63 || first.byte == 91 && closesBracket rest)
      || isPattern rest

/-- The word starts with an unquoted tilde. -/
def isTilde (word : Word) : Bool := word.head? == some ⟨126, false⟩

def isNameByte (byte : UInt8) : Bool :=
  48 ≤ byte && byte ≤ 57 || 65 ≤ byte && byte ≤ 90 || byte == 95 || 97 ≤ byte && byte ≤ 122

/-- `name=value`: in front of a command this is an assignment. -/
def isAssignment (word : Word) : Bool :=
  let name := word.takeWhile fun next => !next.quoted && isNameByte next.byte
  (name.head?.any fun first => !(48 ≤ first.byte && first.byte ≤ 57)) &&
    (word.drop name.length).head? == some ⟨61, false⟩

/-- `! { }`, and the reserved words that consist of letters. -/
def reservedWords : List (List UInt8) :=
  [[33], [123], [125]] ++
    [['c', 'a', 's', 'e'], ['d', 'o'], ['d', 'o', 'n', 'e'], ['e', 'l', 'i', 'f'],
      ['e', 'l', 's', 'e'], ['e', 's', 'a', 'c'], ['f', 'i'], ['f', 'o', 'r'], ['i', 'f'],
      ['i', 'n'], ['t', 'h', 'e', 'n'], ['u', 'n', 't', 'i', 'l'],
      ['w', 'h', 'i', 'l', 'e']].map (List.map fun letter => UInt8.ofNat letter.toNat)

def isReserved (word : Word) : Bool := reservedWords.any fun reserved => word == unquoted reserved

/-- The word stands for its own bytes, whatever variables, users and files there are. -/
def isFixed (word : Word) : Bool := !isPattern word && !isTilde word

/-- The words of the simple command that a line denotes. -/
def simpleCommand (line : List UInt8) : Option (List (List UInt8)) :=
  match scan .unquoted none line with
  | none => none
  | some words =>
    if words.all isFixed && words.head?.any fun first => !isAssignment first && !isReserved first then
      some (words.map Word.bytes)
    else none

/-! ## What a scan gives back -/

@[simp] theorem bytes_unquoted (bytes : List UInt8) : (unquoted bytes).bytes = bytes := by
  induction bytes with
  | nil => rfl
  | cons byte bytes inductionHypothesis => exact congrArg (byte :: ·) inductionHypothesis

theorem unquoted_bytes {word : Word} (plain : ∀ next ∈ word, next.quoted = false) :
    unquoted word.bytes = word := by
  induction word with
  | nil => rfl
  | cons first rest inductionHypothesis =>
    obtain ⟨head, tail⟩ := List.forall_mem_cons.mp plain
    have here : (⟨first.byte, false⟩ : ShellByte) = first := by rw [← head]
    exact congrArg₂ List.cons here (inductionHypothesis tail)

/-- The bytes of the words, with one byte to end each of them. -/
def weight (words : List Word) : Nat := (words.map fun word => word.length + 1).sum

@[simp] theorem weight_nil : weight [] = 0 := rfl

@[simp] theorem weight_cons (word : Word) (words : List Word) :
    weight (word :: words) = word.length + 1 + weight words := rfl

@[simp] theorem weight_append (left right : List Word) :
    weight (left ++ right) = weight left + weight right := by
  simp [weight]

theorem weight_toList (current : Option Word) :
    weight current.toList ≤ (current.getD []).length + 1 := by
  cases current <;> simp

/-- The weight that the scan may still give back without reading a byte.  A quotation has its
closing quote to read. -/
def capacity (quoting : Quoting) (current : Option Word) : Nat :=
  match quoting with
  | .unquoted | .escaped | .doubleEscaped => (current.getD []).length + 1
  | .single | .double => (current.getD []).length

@[simp] theorem length_push (current : Option Word) (byte : UInt8) (quoted : Bool) :
    ((push current byte quoted).getD []).length = (current.getD []).length + 1 := by
  simp [push]

/-- What a byte does to the scan: a blank ends the word, the line may end at a comment or a newline,
or the scan goes on and has gained one byte at most. -/
theorem scan_cons_cases {quoting : Quoting} {current : Option Word} {byte : UInt8}
    {line : List UInt8} {words : List Word}
    (scanned : scan quoting current (byte :: line) = some words) :
    (quoting = .unquoted ∧
      ((∃ rest, scan .unquoted none line = some rest ∧ words = current.toList ++ rest) ∨
        words = [] ∨ words = current.toList)) ∨
    ∃ quoting' current', scan quoting' current' line = some words ∧
      capacity quoting' current' ≤ capacity quoting current + 1 := by
  cases quoting with
  | unquoted =>
    rw [scan] at scanned
    split_ifs at scanned
    · obtain ⟨rest, later, rfl⟩ := Option.map_eq_some_iff.mp scanned
      exact .inl ⟨rfl, .inl ⟨rest, later, rfl⟩⟩
    · exact .inr ⟨_, _, scanned, Nat.le_add_right _ 2⟩
    · exact .inr ⟨_, _, scanned, Nat.le_add_right _ 2⟩
    · exact .inr ⟨_, _, scanned, Nat.le_succ _⟩
    · exact .inl ⟨rfl, .inr (.inl (Option.some.inj scanned).symm)⟩
    · exact .inl ⟨rfl, .inr (.inr (Option.some.inj scanned).symm)⟩
    · exact .inr ⟨_, _, scanned, by simp only [capacity, length_push, le_refl]⟩
  | escaped =>
    rw [scan] at scanned
    refine .inr ⟨_, _, scanned, ?_⟩
    split
    · exact Nat.le_succ _
    · simp only [capacity, length_push, le_refl]
  | single =>
    rw [scan] at scanned
    split_ifs at scanned
    · exact .inr ⟨_, _, scanned, le_refl _⟩
    · exact .inr ⟨_, _, scanned, by simp only [capacity, length_push, le_refl]⟩
  | double =>
    rw [scan] at scanned
    split_ifs at scanned
    · exact .inr ⟨_, _, scanned, le_refl _⟩
    · exact .inr ⟨_, _, scanned, le_refl _⟩
    · exact .inr ⟨_, _, scanned, by simp only [capacity, length_push, le_refl]⟩
  | doubleEscaped =>
    rw [scan] at scanned
    split_ifs at scanned
    · exact .inr ⟨_, _, scanned, Nat.le_add_right _ 2⟩
    · exact .inr ⟨_, _, scanned, by simp only [capacity, length_push]; omega⟩
    · exact .inr ⟨_, _, scanned, by simp only [capacity, length_push, le_refl]⟩

/-- No byte of the line counts twice in the words. -/
theorem scan_weight_le {quoting : Quoting} {current : Option Word} {line : List UInt8}
    {words : List Word} (scanned : scan quoting current line = some words) :
    weight words ≤ line.length + capacity quoting current := by
  have ended : weight current.toList ≤ capacity .unquoted current := weight_toList current
  induction line generalizing quoting current words with
  | nil =>
    cases quoting with
    | unquoted =>
      cases scanned
      omega
    | _ => cases scanned
  | cons byte line inductionHypothesis =>
    rw [List.length_cons]
    obtain ⟨rfl, ⟨rest, later, rfl⟩ | rfl | rfl⟩ | ⟨quoting', current', later, gained⟩ :=
      scan_cons_cases scanned
    · -- The blank pays for the end of the word.
      have bound := inductionHypothesis later (weight_toList none)
      rw [weight_append, show capacity .unquoted none = 1 from rfl] at *
      omega
    · exact Nat.zero_le _
    · omega
    · have bound := inductionHypothesis later (weight_toList current')
      omega

/-! ## Plain words -/

/-- A byte that stands for itself within a word. -/
def isOrdinary (byte : UInt8) : Bool :=
  !(isBlank byte || byte == 39 || byte == 34 || byte == 92 || byte == 10 || isOperator byte ||
    isExpansion byte)

/-- A word that needs no quotes. -/
def isPlain (bytes : List UInt8) : Bool :=
  !bytes.isEmpty && bytes.all isOrdinary && bytes.head? != some 35 && isFixed (unquoted bytes)

/-- A word that needs no quotes as the name of a command. -/
def isPlainCommand (bytes : List UInt8) : Bool :=
  isPlain bytes && !isAssignment (unquoted bytes) && !isReserved (unquoted bytes)

theorem isPlain_iff (bytes : List UInt8) :
    isPlain bytes = true ↔ bytes ≠ [] ∧ (∀ byte ∈ bytes, isOrdinary byte = true) ∧
      bytes.head? ≠ some 35 ∧ isFixed (unquoted bytes) = true := by
  simp [isPlain, and_assoc]

theorem scan_push {current : Option Word} {byte : UInt8} (ordinary : isOrdinary byte = true)
    (inside : byte = 35 → current ≠ none) (line : List UInt8) :
    scan .unquoted current (byte :: line) = scan .unquoted (push current byte false) line := by
  simp only [isOrdinary, Bool.not_eq_true', Bool.or_eq_false_iff, beq_eq_false_iff_ne] at ordinary
  obtain ⟨⟨⟨⟨⟨⟨blank, single⟩, double⟩, backslash⟩, newline⟩, operator⟩, expansion⟩ := ordinary
  have noComment : ¬ (byte = 35 ∧ current = none) := fun comment => inside comment.1 comment.2
  rw [scan]
  simp [blank, single, double, backslash, noComment, newline, operator, expansion]

/-- The scan of ordinary bytes goes on with the word that it is in. -/
theorem scan_ordinary {bytes : List UInt8} (ordinary : ∀ byte ∈ bytes, isOrdinary byte = true)
    (word : Word) (line : List UInt8) :
    scan .unquoted (some word) (bytes ++ line) =
      scan .unquoted (some (word ++ unquoted bytes)) line := by
  induction bytes generalizing word with
  | nil => simp [unquoted]
  | cons byte bytes inductionHypothesis =>
    obtain ⟨here, later⟩ := List.forall_mem_cons.mp ordinary
    rw [List.cons_append, scan_push here (fun _ => Option.some_ne_none word), push,
      Option.getD_some, inductionHypothesis later]
    simp [unquoted]

theorem scan_word {bytes : List UInt8} (plain : isPlain bytes = true) (line : List UInt8) :
    scan .unquoted none (bytes ++ line) = scan .unquoted (some (unquoted bytes)) line := by
  obtain ⟨nonempty, ordinary, noComment, _⟩ := (isPlain_iff bytes).mp plain
  cases bytes with
  | nil => exact absurd rfl nonempty
  | cons byte bytes =>
    obtain ⟨here, later⟩ := List.forall_mem_cons.mp ordinary
    have first : byte ≠ 35 := fun comment => noComment (congrArg some comment)
    rw [List.cons_append, scan_push here (fun comment => absurd comment first), push,
      scan_ordinary later]
    simp [unquoted]

theorem scan_blank (current : Option Word) (line : List UInt8) :
    scan .unquoted current (32 :: line) =
      (scan .unquoted none line).map (current.toList ++ ·) := by
  rw [scan]
  simp [isBlank]

theorem scan_plain {rest : List (List UInt8)} (plain : ∀ bytes ∈ rest, isPlain bytes = true)
    (word : Word) :
    scan .unquoted (some word) (rest.flatMap (32 :: ·)) = some (word :: rest.map unquoted) := by
  induction rest generalizing word with
  | nil => rfl
  | cons bytes rest inductionHypothesis =>
    obtain ⟨here, later⟩ := List.forall_mem_cons.mp plain
    rw [List.flatMap_cons, List.cons_append, scan_blank, scan_word here, inductionHypothesis later]
    rfl

/-- A word that a scan has read without quotes. -/
structure Bare (word : Word) : Prop where
  nonempty : word ≠ []
  noComment : word.head? ≠ some ⟨35, false⟩
  plain : ∀ next ∈ word, next.quoted = false

theorem bare_push {current : Option Word} {byte : UInt8} (begun : ∀ word ∈ current, Bare word)
    (inside : byte = 35 → current ≠ none) : ∀ word ∈ push current byte false, Bare word := by
  intro word member
  obtain rfl := Option.some.inj member
  cases current with
  | none =>
    have first : byte ≠ 35 := fun comment => inside comment rfl
    exact ⟨List.cons_ne_nil _ _, by simpa using first, by simp⟩
  | some word =>
    obtain ⟨nonempty, noComment, plain⟩ := begun word rfl
    refine ⟨List.append_ne_nil_of_left_ne_nil nonempty _, ?_, ?_⟩
    · rwa [Option.getD_some, List.head?_append_of_ne_nil _ nonempty]
    · intro next member
      obtain old | new := List.mem_append.mp member
      · exact plain next old
      · rw [List.mem_singleton.mp new]

/-- What a scan has read that gives back every byte of its line. -/
structure Exact (line : List UInt8) (words : List Word) : Prop where
  ordinary : ∀ byte ∈ line, isBlank byte = true ∨ isOrdinary byte = true
  blanks : words.length = line.countP isBlank + 1
  bare : ∀ word ∈ words, Bare word

/-- Quotes, comments and empty words lose bytes; the line of a scan that loses none has neither. -/
theorem exact_of_weight {current : Option Word} {line : List UInt8} {words : List Word}
    (scanned : scan .unquoted current line = some words)
    (weighs : weight words = line.length + capacity .unquoted current)
    (begun : ∀ word ∈ current, Bare word) : Exact line words := by
  induction line generalizing current words with
  | nil =>
    cases scanned
    cases current with
    | none => simp [capacity] at weighs
    | some word => exact ⟨by simp, rfl, by simpa using begun⟩
  | cons byte line inductionHypothesis =>
    rw [List.length_cons] at weighs
    have ended := weight_toList current
    rw [scan] at scanned
    split_ifs at scanned with blank single double backslash comment _ newline _ special
    · obtain ⟨rest, read, rfl⟩ := Option.map_eq_some_iff.mp scanned
      have bound := scan_weight_le read
      simp only [capacity, Option.getD_none, List.length_nil, weight_append] at bound weighs
      cases current with
      | none =>
        simp only [Option.toList_none, weight_nil, Option.getD_none, List.length_nil] at weighs
        omega
      | some word =>
        simp only [Option.toList_some, weight_cons, weight_nil, Option.getD_some] at weighs
        have weighs' : weight rest = line.length + capacity .unquoted none := by
          simp only [capacity, Option.getD_none, List.length_nil]
          omega
        have later := inductionHypothesis read weighs' (fun _ member => nomatch member)
        refine ⟨?_, ?_, ?_⟩
        · exact List.forall_mem_cons.mpr ⟨.inl blank, later.ordinary⟩
        · rw [Option.toList_some, List.singleton_append, List.length_cons, later.blanks,
            List.countP_cons_of_pos blank]
        · exact List.forall_mem_cons.mpr ⟨begun word rfl, later.bare⟩
    -- A quote or a backslash takes a byte that no word gives back.
    · have bound := scan_weight_le scanned
      simp only [capacity, Option.getD_some] at bound weighs
      omega
    · have bound := scan_weight_le scanned
      simp only [capacity, Option.getD_some] at bound weighs
      omega
    · have bound := scan_weight_le scanned
      simp only [capacity] at bound weighs
      omega
    · cases scanned
      simp only [weight_nil] at weighs
      omega
    · cases scanned
      simp only [capacity] at weighs
      omega
    · have ordinary : isOrdinary byte = true := by
        simp only [Bool.or_eq_true, not_or, Bool.not_eq_true] at special
        simp [isOrdinary, blank, single, double, backslash, newline, special]
      have weighs' : weight words = line.length + capacity .unquoted (push current byte false) := by
        simp only [capacity, length_push] at weighs ⊢
        omega
      have begun' := bare_push begun fun first none => comment ⟨first, none⟩
      have later := inductionHypothesis scanned weighs' begun'
      refine ⟨List.forall_mem_cons.mpr ⟨.inr ordinary, later.ordinary⟩, ?_, later.bare⟩
      rw [later.blanks, List.countP_cons_of_neg blank]

theorem countP_flatMap_blank (rest : List (List UInt8)) :
    (rest.flatMap (32 :: ·)).countP isBlank =
      rest.length + (rest.map (List.countP isBlank)).sum := by
  induction rest with
  | nil => rfl
  | cons bytes rest inductionHypothesis =>
    have separator : isBlank 32 = true := rfl
    rw [List.flatMap_cons, List.countP_append, List.countP_cons_of_pos separator,
      inductionHypothesis, List.length_cons, List.map_cons, List.sum_cons]
    omega

theorem weight_eq_length_join {words : List Word} {first : List UInt8} {rest : List (List UInt8)}
    (bytes : words.map Word.bytes = first :: rest) :
    weight words = (first ++ rest.flatMap (32 :: ·)).length + 1 := by
  have lengths : words.map List.length = (first :: rest).map List.length := by
    rw [← bytes, List.map_map]
    simp [Function.comp_def, Word.bytes]
  have each : weight words = ((words.map List.length).map (· + 1)).sum := by
    simp [weight, Function.comp_def]
  rw [each, lengths]
  simp [List.length_flatMap, Function.comp_def]
  omega

/-- The words of a line of words with single spaces between them are read as they are only if none
of them has a blank. -/
theorem ordinary_of_exact {words : List Word} {first : List UInt8} {rest : List (List UInt8)}
    (bytes : words.map Word.bytes = first :: rest)
    (exactly : Exact (first ++ rest.flatMap (32 :: ·)) words) :
    ∀ word ∈ first :: rest, ∀ byte ∈ word, isOrdinary byte = true := by
  have count : words.length = rest.length + 1 := by
    rw [← List.length_map (f := Word.bytes), bytes, List.length_cons]
  have blanks := exactly.blanks
  rw [List.countP_append, countP_flatMap_blank, count] at blanks
  have none : ((first :: rest).map (List.countP isBlank)).sum = 0 := by
    rw [List.map_cons, List.sum_cons]
    omega
  intro word member byte inside
  have noBlank : ¬ isBlank byte = true := by
    have zero := List.sum_eq_zero_iff_forall_eq_nat.mp none _ (List.mem_map_of_mem member)
    exact List.countP_eq_zero.mp zero byte inside
  have onLine : byte ∈ first ++ rest.flatMap (32 :: ·) := by
    obtain rfl | later := List.mem_cons.mp member
    · exact List.mem_append_left _ inside
    · refine List.mem_append_right _ (List.mem_flatMap.mpr ⟨word, later, ?_⟩)
      exact List.mem_cons_of_mem _ inside
  exact (exactly.ordinary byte onLine).resolve_left noBlank

/-- A line of words with single spaces between them is the command of these words exactly when
none of them needs quotes. -/
theorem simpleCommand_join_iff (first : List UInt8) (rest : List (List UInt8)) :
    simpleCommand (first ++ rest.flatMap (32 :: ·)) = some (first :: rest) ↔
      isPlainCommand first = true ∧ ∀ bytes ∈ rest, isPlain bytes = true := by
  unfold simpleCommand
  constructor
  · intro command
    split at command
    · cases command
    · rename_i words scanned
      split_ifs at command with accepted
      have bytes := Option.some.inj command
      have exactly := exact_of_weight scanned (weight_eq_length_join bytes)
        (fun _ member => nomatch member)
      have ordinary := ordinary_of_exact bytes exactly
      simp only [Bool.and_eq_true, List.all_eq_true] at accepted
      obtain ⟨fixed, commandWord⟩ := accepted
      have plain : ∀ word ∈ words, isPlain word.bytes = true := by
        intro word member
        obtain ⟨nonempty, noComment, bare⟩ := exactly.bare word member
        have same := unquoted_bytes bare
        refine (isPlain_iff _).mpr ⟨?_, ?_, ?_, ?_⟩
        · simpa [Word.bytes] using nonempty
        · exact ordinary _ (bytes ▸ List.mem_map_of_mem member)
        · intro comment
          rw [← same, unquoted, List.head?_map, comment] at noComment
          exact noComment rfl
        · rw [same]
          exact fixed word member
      cases words with
      | nil => cases bytes
      | cons word words =>
        obtain ⟨rfl, rfl⟩ := List.cons.inj bytes
        obtain ⟨here, later⟩ := List.forall_mem_cons.mp plain
        refine ⟨?_, List.forall_mem_map.mpr later⟩
        rw [isPlainCommand, here, unquoted_bytes (exactly.bare word List.mem_cons_self).plain]
        simpa using commandWord
  · rintro ⟨command, plain⟩
    simp only [isPlainCommand, Bool.and_eq_true] at command
    obtain ⟨⟨here, noAssignment⟩, noReserved⟩ := command
    have scanned : scan .unquoted none (first ++ rest.flatMap (32 :: ·)) =
        some (unquoted first :: rest.map unquoted) := by
      rw [scan_word here, scan_plain plain]
    have fixed : ∀ bytes ∈ first :: rest, isFixed (unquoted bytes) = true := by
      intro bytes member
      have each : ∀ bytes ∈ first :: rest, isPlain bytes = true :=
        List.forall_mem_cons.mpr ⟨here, plain⟩
      exact ((isPlain_iff bytes).mp (each bytes member)).2.2.2
    rw [scanned]
    have all : (unquoted first :: rest.map unquoted).all isFixed = true := by
      simpa using fixed
    have bytes : (unquoted first :: rest.map unquoted).map Word.bytes = first :: rest := by
      simp [Function.comp_def]
    simp [all, noAssignment, noReserved, bytes]

end CLib.Shell
