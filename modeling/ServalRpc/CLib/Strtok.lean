import Mathlib.Data.List.Basic
import ServalRpc.CLib.CString

/-! # `strtok`

`tokens` says what a string splits into: the non-empty pieces between delimiters.  `strtok`
is one call of the library function on the bytes from its save pointer on, with the read of
every byte checked against the end of the object, and `strtokFold` is the loop that calls
it until it returns `NULL`.  The loop visits exactly `tokens` when the object holds a NUL
and leaves the object when it does not.
-/

namespace CLib

/-! ## The pieces of a string -/

def tokens (delimiter : UInt8) (text : List UInt8) : List CString :=
  ((text.splitOn delimiter).filter (· ≠ [])).map CString.upToNul

section Tokens

variable {delimiter : UInt8}

@[simp] theorem tokens_nil : tokens delimiter [] = [] := by
  simp [tokens, List.splitOn_nil]

@[simp] theorem tokens_delimiter (text : List UInt8) :
    tokens delimiter (delimiter :: text) = tokens delimiter text := by
  simp [tokens, List.splitOn_cons_eq_if_modifyHead]

theorem tokens_word {word : List UInt8} (nonempty : word ≠ []) (free : delimiter ∉ word) :
    tokens delimiter word = [CString.upToNul word] := by
  simp [tokens, List.splitOn_eq_singleton free, nonempty]

theorem tokens_word_delimiter {word : List UInt8} (nonempty : word ≠ [])
    (free : delimiter ∉ word) (text : List UInt8) :
    tokens delimiter (word ++ delimiter :: text) =
      CString.upToNul word :: tokens delimiter text := by
  simp [tokens, List.splitOn_append_cons_self_of_not_mem free, nonempty]

theorem tokens_append (left right : List UInt8) :
    tokens delimiter (left ++ delimiter :: right) =
      tokens delimiter left ++ tokens delimiter right := by
  simp [tokens, List.splitOn_append_cons_self]

/-- Joining texts adds no token and merges none. -/
theorem tokens_joined (texts : List (List UInt8)) :
    tokens delimiter ([delimiter].intercalate texts) = texts.flatMap (tokens delimiter) := by
  induction texts with
  | nil => simp
  | cons first texts inductionHypothesis =>
    cases texts with
    | nil => simp
    | cons second texts =>
      rw [List.intercalate_cons_cons, List.append_assoc, List.singleton_append, tokens_append,
        inductionHypothesis]
      rfl

/-- A text starts with a delimiter, or with a word that ends at a delimiter or with the text. -/
theorem word_cases (delimiter : UInt8) (text : List UInt8) :
    text = [] ∨ (∃ rest, text = delimiter :: rest) ∨
      ∃ word, word ≠ [] ∧ delimiter ∉ word ∧
        (text = word ∨ ∃ rest, text = word ++ delimiter :: rest) := by
  cases text with
  | nil => exact .inl rfl
  | cons byte text =>
    by_cases isDelimiter : byte = delimiter
    · subst isDelimiter
      exact .inr (.inl ⟨text, rfl⟩)
    · refine .inr (.inr ?_)
      by_cases later : delimiter ∈ text
      · obtain ⟨word, rest, rfl, free⟩ := List.eq_append_cons_of_mem later
        refine ⟨byte :: word, by simp, ?_, .inr ⟨rest, rfl⟩⟩
        simpa [Ne.symm isDelimiter] using free
      · exact ⟨byte :: text, by simp, by simp [Ne.symm isDelimiter, later], .inl rfl⟩

/-- Only a text of delimiters has no token. -/
theorem tokens_eq_nil_iff (text : List UInt8) :
    tokens delimiter text = [] ↔ ∀ byte ∈ text, byte = delimiter := by
  induction text with
  | nil => simp
  | cons byte text inductionHypothesis =>
    obtain none | ⟨rest, starts⟩ | ⟨word, nonempty, free, whole⟩ :=
      word_cases delimiter (byte :: text)
    · cases none
    · cases starts
      simpa using inductionHypothesis
    · -- The first byte of a word is in the text and no delimiter.
      obtain ⟨first, word, rfl⟩ := List.exists_cons_of_ne_nil nonempty
      have differs : first ≠ delimiter := fun equal => free (equal ▸ List.mem_cons_self)
      obtain whole | ⟨rest, whole⟩ := whole
      · rw [whole, tokens_word nonempty free]
        simp [differs]
      · rw [whole, tokens_word_delimiter nonempty free]
        simp [differs]

/-- Every token is a non-empty string without the delimiter. -/
theorem mem_tokens {text : List UInt8} (nulFree : 0 ∉ text) {token : CString}
    (member : token ∈ tokens delimiter text) :
    token.bytes ≠ [] ∧ delimiter ∉ token.bytes := by
  induction size : text.length using Nat.strongRecOn generalizing text with
  | ind size inductionHypothesis =>
    obtain rfl | ⟨rest, rfl⟩ | ⟨word, nonempty, free, rfl | ⟨rest, rfl⟩⟩ :=
      word_cases delimiter text
    · simp at member
    · simp only [tokens_delimiter] at member
      simp only [List.mem_cons, not_or] at nulFree
      exact inductionHypothesis rest.length (by simp [← size]) nulFree.2 member rfl
    · rw [tokens_word nonempty free, List.mem_singleton] at member
      subst member
      rw [CString.upToNul_bytes_of_nulFree nulFree]
      exact ⟨nonempty, free⟩
    · simp only [List.mem_append, List.mem_cons, not_or] at nulFree
      rw [tokens_word_delimiter nonempty free, List.mem_cons] at member
      obtain rfl | member := member
      · rw [CString.upToNul_bytes_of_nulFree nulFree.1]
        exact ⟨nonempty, free⟩
      · exact inductionHypothesis rest.length (by simp [← size]; omega) nulFree.2.2 member rfl

/-- Joining non-empty delimiter-free strings and splitting again gives the strings back. -/
theorem tokens_intercalate (strings : List CString) (present : strings ≠ [])
    (clean : ∀ string ∈ strings, string.bytes ≠ [] ∧ delimiter ∉ string.bytes) :
    tokens delimiter ([delimiter].intercalate (strings.map CString.bytes)) = strings := by
  have split : ([delimiter].intercalate (strings.map CString.bytes)).splitOn delimiter =
      strings.map CString.bytes := by
    apply List.splitOn_intercalate
    · intro piece member
      obtain ⟨string, inside, rfl⟩ := List.mem_map.mp member
      exact (clean string inside).2
    · simpa using present
  have kept : (strings.map CString.bytes).filter (· ≠ []) = strings.map CString.bytes := by
    apply List.filter_eq_self.mpr
    intro piece member
    obtain ⟨string, inside, rfl⟩ := List.mem_map.mp member
    simpa using (clean string inside).1
  rw [tokens, split, kept, List.map_map]
  exact List.map_id'' (fun string => CString.upToNul_bytes string) strings

end Tokens

/-! ## One call -/

/-- `strtok` on the bytes from its save pointer on: the token, if there is one, and the
bytes from the new save pointer on.  At a NUL the save pointer stays where it is. -/
def strtok (delimiter : UInt8) (memory : List UInt8) :
    Except Fault (Option CString × List UInt8) :=
  let start := memory.dropWhile (· == delimiter)
  let token := start.takeWhile fun byte => byte != delimiter && byte != 0
  match start.drop token.length with
  | [] => .error .readOutOfBounds
  | stop :: after =>
    if token = [] then .ok (none, stop :: after)
    else if stop = 0 then .ok (some (CString.upToNul token), stop :: after)
    else .ok (some (CString.upToNul token), after)

section Strtok

variable {delimiter : UInt8}

@[simp] theorem strtok_nil : strtok delimiter [] = .error .readOutOfBounds := rfl

@[simp] theorem strtok_delimiter (memory : List UInt8) :
    strtok delimiter (delimiter :: memory) = strtok delimiter memory := by
  simp [strtok]

theorem strtok_nul (proper : delimiter ≠ 0) (memory : List UInt8) :
    strtok delimiter (0 :: memory) = .ok (none, 0 :: memory) := by
  simp [strtok, proper.symm]

/-- The scan over a word that ends at `memory`. -/
theorem strtok_scan {word : List UInt8} (nonempty : word ≠ []) (free : delimiter ∉ word)
    (nulFree : 0 ∉ word) (memory : List UInt8)
    (ends : ∀ byte, memory.head? = some byte → byte = delimiter ∨ byte = 0) :
    (word ++ memory).dropWhile (· == delimiter) = word ++ memory ∧
      (word ++ memory).takeWhile (fun byte => byte != delimiter && byte != 0) = word := by
  constructor
  · cases word with
    | nil => exact absurd rfl nonempty
    | cons byte word =>
      simp only [List.mem_cons, not_or] at free
      simp [Ne.symm free.1]
  · have inWord : ∀ byte ∈ word, (byte != delimiter && byte != 0) = true := by
      intro byte member
      simp only [Bool.and_eq_true, bne_iff_ne]
      exact ⟨fun equal => free (equal ▸ member), fun equal => nulFree (equal ▸ member)⟩
    rw [List.takeWhile_append_of_pos inWord]
    cases memory with
    | nil => simp
    | cons stop after => rcases ends stop rfl with rfl | rfl <;> simp

theorem strtok_word {word : List UInt8} (nonempty : word ≠ []) (free : delimiter ∉ word)
    (nulFree : 0 ∉ word) {stop : UInt8} (ends : stop = delimiter ∨ stop = 0)
    (after : List UInt8) :
    strtok delimiter (word ++ stop :: after) =
      .ok (some (CString.upToNul word), if stop = 0 then stop :: after else after) := by
  obtain ⟨start, token⟩ := strtok_scan nonempty free nulFree (stop :: after)
    (fun byte head => by cases head; exact ends)
  simp only [strtok, start, token, List.drop_left, if_neg nonempty]
  split <;> rfl

theorem strtok_unterminated {word : List UInt8} (nonempty : word ≠ []) (free : delimiter ∉ word)
    (nulFree : 0 ∉ word) : strtok delimiter word = .error .readOutOfBounds := by
  obtain ⟨start, token⟩ := strtok_scan nonempty free nulFree [] (by simp)
  rw [List.append_nil] at start token
  simp only [strtok, start, token, List.drop_length]

/-- On a terminated text one call returns the first token, and the rest of the text holds the
other ones. -/
theorem strtok_terminated (proper : delimiter ≠ 0) {text : List UInt8} (nulFree : 0 ∉ text)
    (after : List UInt8) :
    (tokens delimiter text = [] ∧
        strtok delimiter (text ++ 0 :: after) = .ok (none, 0 :: after)) ∨
      ∃ token rest, tokens delimiter text = token :: tokens delimiter rest ∧ 0 ∉ rest ∧
        strtok delimiter (text ++ 0 :: after) = .ok (some token, rest ++ 0 :: after) := by
  induction text with
  | nil => exact .inl ⟨tokens_nil, strtok_nul proper after⟩
  | cons byte text inductionHypothesis =>
    obtain none | ⟨rest, starts⟩ | ⟨word, nonempty, free, whole | ⟨rest, whole⟩⟩ :=
      word_cases delimiter (byte :: text)
    · cases none
    · cases starts
      simp only [List.mem_cons, not_or] at nulFree
      simpa using inductionHypothesis nulFree.2
    · rw [whole] at nulFree ⊢
      refine .inr ⟨CString.upToNul word, [], ?_, List.not_mem_nil, ?_⟩
      · rw [tokens_word nonempty free, tokens_nil]
      · simpa using strtok_word nonempty free nulFree (.inr rfl) after
    · rw [whole] at nulFree ⊢
      simp only [List.mem_append, List.mem_cons, not_or] at nulFree
      refine .inr ⟨CString.upToNul word, rest, tokens_word_delimiter nonempty free rest,
        nulFree.2.2, ?_⟩
      simpa [proper] using strtok_word nonempty free nulFree.1 (.inl rfl) (rest ++ 0 :: after)

/-- Without a NUL one call faults, or leaves a rest that has no NUL either. -/
theorem strtok_of_not_mem {memory : List UInt8} (nulFree : 0 ∉ memory) :
    strtok delimiter memory = .error .readOutOfBounds ∨
      ∃ token rest, strtok delimiter memory = .ok (some token, rest) ∧ 0 ∉ rest := by
  induction memory with
  | nil => exact .inl strtok_nil
  | cons byte memory inductionHypothesis =>
    obtain none | ⟨rest, starts⟩ | ⟨word, nonempty, free, whole | ⟨rest, whole⟩⟩ :=
      word_cases delimiter (byte :: memory)
    · cases none
    · cases starts
      simp only [List.mem_cons, not_or] at nulFree
      simpa using inductionHypothesis nulFree.2
    · rw [whole] at nulFree ⊢
      exact .inl (strtok_unterminated nonempty free nulFree)
    · rw [whole] at nulFree ⊢
      simp only [List.mem_append, List.mem_cons, not_or] at nulFree
      have call := strtok_word nonempty free nulFree.1 (.inl rfl) rest
      rw [if_neg (Ne.symm nulFree.2.1)] at call
      exact .inr ⟨_, rest, call, nulFree.2.2⟩

theorem strtok_rest_lt {memory rest : List UInt8} {token : CString}
    (found : strtok delimiter memory = .ok (some token, rest)) : rest.length < memory.length := by
  have shorter := (List.dropWhile_sublist (l := memory) (· == delimiter)).length_le
  simp only [strtok] at found
  split at found
  · cases found
  · rename_i stop after dropped
    have consumed := congrArg List.length dropped
    simp only [List.length_drop, List.length_cons] at consumed
    split at found
    · cases found
    · rename_i nonempty
      have positive := List.length_pos_iff.mpr nonempty
      split at found <;> cases found
      · simp only [List.length_cons]; omega
      · omega

end Strtok

/-! ## The loop -/

/-- `while ((token = strtok(NULL, delimiter))) state = body(state, token);` -/
def strtokFold {σ : Type} (delimiter : UInt8) (body : σ → CString → σ) (state : σ)
    (memory : List UInt8) : Except Fault σ :=
  match _found : strtok delimiter memory with
  | .error fault => .error fault
  | .ok (none, _) => .ok state
  | .ok (some token, rest) => strtokFold delimiter body (body state token) rest
termination_by memory.length
decreasing_by exact strtok_rest_lt _found

section StrtokFold

variable {σ : Type} {delimiter : UInt8} {body : σ → CString → σ}

theorem strtokFold_error {memory : List UInt8} {fault : Fault}
    (found : strtok delimiter memory = .error fault) (state : σ) :
    strtokFold delimiter body state memory = .error fault := by
  rw [strtokFold]
  split <;> simp_all

theorem strtokFold_none {memory rest : List UInt8}
    (found : strtok delimiter memory = .ok (none, rest)) (state : σ) :
    strtokFold delimiter body state memory = .ok state := by
  rw [strtokFold]
  split <;> simp_all

theorem strtokFold_some {memory rest : List UInt8} {token : CString}
    (found : strtok delimiter memory = .ok (some token, rest)) (state : σ) :
    strtokFold delimiter body state memory = strtokFold delimiter body (body state token) rest := by
  rw [strtokFold]
  split <;> simp_all

/-- The loop visits the tokens of a terminated text in order. -/
theorem strtokFold_terminated (proper : delimiter ≠ 0) {text : List UInt8} (nulFree : 0 ∉ text)
    (after : List UInt8) (state : σ) :
    strtokFold delimiter body state (text ++ 0 :: after) =
      .ok ((tokens delimiter text).foldl body state) := by
  induction size : text.length using Nat.strongRecOn generalizing text state with
  | ind size inductionHypothesis =>
    obtain ⟨none, call⟩ | ⟨token, rest, first, restNulFree, call⟩ :=
      strtok_terminated proper nulFree after
    · rw [strtokFold_none call, none, List.foldl_nil]
    · have shorter := strtok_rest_lt call
      simp only [List.length_append, List.length_cons] at shorter
      rw [strtokFold_some call, first, List.foldl_cons]
      exact inductionHypothesis rest.length (by omega) restNulFree _ rfl

/-- Without a NUL the loop runs off the end of the object. -/
theorem strtokFold_of_not_mem {memory : List UInt8} (nulFree : 0 ∉ memory) (state : σ) :
    strtokFold delimiter body state memory = .error .readOutOfBounds := by
  induction size : memory.length using Nat.strongRecOn generalizing memory state with
  | ind size inductionHypothesis =>
    obtain call | ⟨token, rest, call, restNulFree⟩ := strtok_of_not_mem nulFree
    · exact strtokFold_error call state
    · have shorter := strtok_rest_lt call
      rw [strtokFold_some call]
      exact inductionHypothesis rest.length (by omega) restNulFree _ rfl

end StrtokFold

end CLib
