import ServalRpc.Model.Offering
import ServalRpc.Verified.ParseCall

/-! # The offering check

On a well-formed `rpc.conf` the loop of `_rpc_server_offering` depends on the first two
fields of each line only.  It compares up to the end of the field of the file, so a field
that is a prefix passes, and its result is that of the last line it has read, so a last line
whose name passes makes the result non-zero whatever its count says.
-/

namespace ServalRpc.Verified.Offering

open CLib

/-! ## Reading the lines -/

/-- The bytes of a line behind its name and its count. -/
def ConfLine.types (line : ConfLine) : List UInt8 :=
  [32].intercalate ((line.type :: line.moreTypes).map fun field => field.text.bytes)

theorem text_eq (line : ConfLine) :
    line.text = line.name.text.bytes ++ 32 :: (line.count.text.bytes ++ 32 :: ConfLine.types line) := by
  simp [ConfLine.text, ConfLine.types]

theorem text_ne_nil (line : ConfLine) : line.text ≠ [] := by
  simp [text_eq]

theorem not_mem_intercalate {byte separator : UInt8} (differ : byte ≠ separator)
    {pieces : List (List UInt8)} (free : ∀ piece ∈ pieces, byte ∉ piece) :
    byte ∉ [separator].intercalate pieces := by
  induction pieces with
  | nil => simp
  | cons piece pieces inductionHypothesis =>
    obtain ⟨head, tail⟩ := List.forall_mem_cons.mp free
    cases pieces with
    | nil => simpa using head
    | cons next pieces =>
      rw [List.intercalate_cons_cons]
      simp only [List.mem_append, List.mem_singleton, not_or]
      exact ⟨⟨head, differ⟩, inductionHypothesis tail⟩

theorem newline_not_mem_text (line : ConfLine) : 10 ∉ line.text := by
  apply not_mem_intercalate (by decide)
  intro piece member
  obtain ⟨field, _, rfl⟩ := List.mem_map.mp member
  exact field.noNewline

theorem getlines_append_newline {text : List UInt8} (free : 10 ∉ text) (content : List UInt8) :
    getlines (text ++ 10 :: content) = (text ++ [10]) :: getlines content := by
  induction text with
  | nil => simp [getlines]
  | cons byte text inductionHypothesis =>
    simp only [List.mem_cons, not_or] at free
    simp [getlines, Ne.symm free.1, inductionHypothesis free.2]

theorem getlines_last {text : List UInt8} (nonempty : text ≠ []) (free : 10 ∉ text) :
    getlines text = [text] := by
  induction text with
  | nil => exact absurd rfl nonempty
  | cons byte text inductionHypothesis =>
    simp only [List.mem_cons, not_or] at free
    cases text with
    | nil => simp [getlines, Ne.symm free.1]
    | cons next text =>
      rw [getlines, if_neg (Ne.symm free.1), inductionHypothesis (by simp) free.2]

/-- What the loop reads of a file: each line with a newline, which the last one may lack. -/
def readLines (finalNewline : Bool) : List ConfLine → List (List UInt8)
  | [] => []
  | [line] => [line.text ++ if finalNewline then [10] else []]
  | line :: next :: lines => (line.text ++ [10]) :: readLines finalNewline (next :: lines)

theorem getlines_content (finalNewline : Bool) (lines : List ConfLine) :
    getlines (confContent finalNewline lines) = readLines finalNewline lines := by
  induction lines with
  | nil => rfl
  | cons line lines inductionHypothesis =>
    cases lines with
    | nil =>
      cases finalNewline
      · simpa [confContent, readLines] using
          getlines_last (text_ne_nil line) (newline_not_mem_text line)
      · simpa [confContent, readLines, getlines] using
          getlines_append_newline (newline_not_mem_text line) []
    | cons next lines =>
      rw [confContent, readLines, getlines_append_newline (newline_not_mem_text line),
        inductionHypothesis]

/-! ## One round of the loop -/

def NamePasses (line : ConfLine) (rp : RPCProcedure) : Prop :=
  line.name.text.bytes <+: rp.name.bytes

def CountPasses (line : ConfLine) (rp : RPCProcedure) : Prop :=
  line.count.text.bytes <+: rp.paramc.paramcS.bytes

instance (line : ConfLine) (rp : RPCProcedure) : Decidable (NamePasses line rp) :=
  inferInstanceAs (Decidable (_ <+: _))

instance (line : ConfLine) (rp : RPCProcedure) : Decidable (CountPasses line rp) :=
  inferInstanceAs (Decidable (_ <+: _))

theorem strtok_field (field : ConfField) (memory : List UInt8) :
    strtok 32 (field.text.bytes ++ 32 :: memory) = .ok (some field.text, memory) := by
  have call := strtok_word field.nonempty field.noSpace field.text.nulFree (.inl rfl) memory
  rwa [CString.upToNul_bytes, if_neg (by decide)] at call

theorem offeringLoop_line (rp : RPCProcedure) (ret : Int) (line : ConfLine) (ending : List UInt8)
    (lines : List (List UInt8)) :
    offeringLoop rp ret ((line.text ++ ending) :: lines) =
      if NamePasses line rp then
        if CountPasses line rp then .ok 2 else offeringLoop rp 1 lines
      else offeringLoop rp 0 lines := by
  have first := strtok_field line.name
    (line.count.text.bytes ++ 32 :: (ConfLine.types line ++ ending ++ [0]))
  have second := strtok_field line.count (ConfLine.types line ++ ending ++ [0])
  have memory : line.text ++ ending ++ [0] = line.name.text.bytes ++
      32 :: (line.count.text.bytes ++ 32 :: (ConfLine.types line ++ ending ++ [0])) := by
    simp [text_eq]
  rw [offeringLoop, memory, first]
  simp only [bind, Except.bind, deref_some, second, CString.strncmpEq_length_iff]
  by_cases name : NamePasses line rp <;> by_cases count : CountPasses line rp <;>
    simp_all [NamePasses, CountPasses]

/-- The result of the loop on a well-formed file, from its lines. -/
def offeringOf (rp : RPCProcedure) (ret : Int) : List ConfLine → Int
  | [] => ret
  | line :: lines =>
    if NamePasses line rp then
      if CountPasses line rp then 2 else offeringOf rp 1 lines
    else offeringOf rp 0 lines

theorem offeringLoop_readLines (rp : RPCProcedure) (ret : Int) (finalNewline : Bool)
    (lines : List ConfLine) :
    offeringLoop rp ret (readLines finalNewline lines) = .ok (offeringOf rp ret lines) := by
  induction lines generalizing ret with
  | nil => rfl
  | cons line lines inductionHypothesis =>
    have round : offeringLoop rp ret (readLines finalNewline (line :: lines)) =
        if NamePasses line rp then
          if CountPasses line rp then .ok 2
          else offeringLoop rp 1 (readLines finalNewline lines)
        else offeringLoop rp 0 (readLines finalNewline lines) := by
      cases lines with
      | nil => exact offeringLoop_line rp ret line _ []
      | cons next lines => exact offeringLoop_line rp ret line _ _
    rw [round, inductionHypothesis, inductionHypothesis, offeringOf]
    split
    · split <;> rfl
    · rfl

/-- On a well-formed file the check never faults. -/
theorem offering_content (conf : Conf) (rp : RPCProcedure) :
    rpcServerOffering (some conf.content) rp = .ok (offeringOf rp 0 conf.lines) := by
  rw [rpcServerOffering, Conf.content, getlines_content, offeringLoop_readLines]

/-! ## What a non-zero result means -/

theorem offeringOf_ne_zero_iff (rp : RPCProcedure) (ret : Int) (lines : List ConfLine) :
    offeringOf rp ret lines ≠ 0 ↔
      (∃ line ∈ lines, NamePasses line rp ∧ CountPasses line rp) ∨
      (∃ last, lines.getLast? = some last ∧ NamePasses last rp) ∨ lines = [] ∧ ret ≠ 0 := by
  induction lines generalizing ret with
  | nil => simp [offeringOf]
  | cons line lines inductionHypothesis =>
    rw [offeringOf]
    -- A line that passes in its name only leaves a 1 for the case that it is the last one.
    by_cases name : NamePasses line rp
    · by_cases count : CountPasses line rp
      · simp [name, count]
      · rw [if_pos name, if_neg count, inductionHypothesis]
        cases lines <;> simp [name, count]
    · rw [if_neg name, inductionHypothesis]
      cases lines <;> simp [name]

/-- A line declares the procedure that was called. -/
def Declares (line : ConfLine) (rp : RPCProcedure) : Prop :=
  line.name.text = rp.name ∧ line.count.text = rp.paramc.paramcS

instance (line : ConfLine) (rp : RPCProcedure) : Decidable (Declares line rp) :=
  inferInstanceAs (Decidable (_ ∧ _))

theorem Declares.passes {line : ConfLine} {rp : RPCProcedure} (declares : Declares line rp) :
    NamePasses line rp ∧ CountPasses line rp := by
  rw [NamePasses, CountPasses, declares.1, declares.2]
  exact ⟨List.prefix_refl _, List.prefix_refl _⟩

/-- The check agrees with the declarations exactly when some line declares the procedure, or
when no line passes in both fields and the last line does not pass in its name. -/
theorem offering_exact_iff (conf : Conf) (rp : RPCProcedure) :
    ∃ ret, rpcServerOffering (some conf.content) rp = .ok ret ∧
      ((ret ≠ 0 ↔ ∃ line ∈ conf.lines, Declares line rp) ↔
        (∃ line ∈ conf.lines, Declares line rp) ∨
        (∀ line ∈ conf.lines, ¬ (NamePasses line rp ∧ CountPasses line rp)) ∧
          ∀ last, conf.lines.getLast? = some last → ¬ NamePasses last rp) := by
  refine ⟨_, offering_content conf rp, ?_⟩
  have nonzero := offeringOf_ne_zero_iff rp 0 conf.lines
  -- What is declared passes, so the check errs in one direction only.
  have declared : (∃ line ∈ conf.lines, Declares line rp) → offeringOf rp 0 conf.lines ≠ 0 :=
    fun ⟨line, member, declares⟩ => nonzero.mpr (.inl ⟨line, member, declares.passes⟩)
  constructor
  · intro agrees
    by_cases passed : offeringOf rp 0 conf.lines ≠ 0
    · exact .inl (agrees.mp passed)
    · rw [nonzero, not_or, not_or] at passed
      refine .inr ⟨fun line member passes => passed.1 ⟨line, member, passes⟩, ?_⟩
      exact fun last isLast passes => passed.2.1 ⟨last, isLast, passes⟩
  · rintro (exact | ⟨noLine, noLast⟩)
    · exact ⟨fun _ => exact, declared⟩
    · refine ⟨fun passed => ?_, declared⟩
      obtain ⟨line, member, passes⟩ | ⟨last, isLast, passes⟩ | ⟨_, zero⟩ := nonzero.mp passed
      · exact absurd passes (noLine line member)
      · exact absurd passes (noLast last isLast)
      · exact absurd rfl zero

/-- The file of the documentation, `add 2 int int`. -/
def addConf : Conf where
  lines := [{
    name := ⟨CString.ofChars ['a', 'd', 'd'], by decide, by decide, by decide⟩
    count := ⟨CString.ofChars ['2'], by decide, by decide, by decide⟩
    type := ⟨CString.ofChars ['i', 'n', 't'], by decide, by decide, by decide⟩
    moreTypes := [⟨CString.ofChars ['i', 'n', 't'], by decide, by decide, by decide⟩] }]
  finalNewline := true

/-- A procedure with the name and the count of the declaration is offered. -/
theorem add_offered {rp : RPCProcedure} (name : rp.name = CString.ofChars ['a', 'd', 'd'])
    (count : rp.paramc.paramcS = CString.decimal 2) :
    rpcServerOffering (some addConf.content) rp = .ok 2 := by
  rw [offering_content, addConf, offeringOf, if_pos, if_pos]
  · rw [CountPasses, count]
    decide
  · simp [NamePasses, name]

/-- A call of `add` with three parameters is offered, though `add` is declared with two. -/
theorem offering_undeclared_count :
    rpcServerParseCall
        ([0, 0, 0, 0, 0, 3] ++
          (CString.ofChars ['a', 'd', 'd', '|', '1', '|', '2', '|', '3']).bytes ++ [0]) 16 =
      .ok (ParseCall.parsedProcedure 3 (CString.ofChars ['a', 'd', 'd'])
        [CString.ofChars ['1'], CString.ofChars ['2'], CString.ofChars ['3']]) ∧
    rpcServerOffering (some addConf.content) (ParseCall.parsedProcedure 3
        (CString.ofChars ['a', 'd', 'd'])
        [CString.ofChars ['1'], CString.ofChars ['2'], CString.ofChars ['3']]) = .ok 1 ∧
    ¬ ∃ line ∈ addConf.lines, Declares line (ParseCall.parsedProcedure 3
        (CString.ofChars ['a', 'd', 'd'])
        [CString.ofChars ['1'], CString.ofChars ['2'], CString.ofChars ['3']]) := by
  refine ⟨?_, ?_, ?_⟩
  · exact ParseCall.parse_named (by decide) (by decide)
  · rw [offering_content]
    decide
  · decide

end ServalRpc.Verified.Offering
