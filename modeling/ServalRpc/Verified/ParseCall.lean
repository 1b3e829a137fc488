import ServalRpc.Model.Call

/-! # What the call parser does with every packet

The parser reads the parameter count, takes the bytes behind the six header bytes as a
string, and splits it.  Each outcome is one lemma, so that later proofs never unfold it.
-/

namespace ServalRpc.Verified.ParseCall

open CLib

/-- The text of a packet: the bytes behind the header, up to the first NUL. -/
def callText (payload : List UInt8) : List UInt8 :=
  (CString.upToNul (payload.drop 6)).bytes

/-- The parameter count in the header of a packet. -/
def callCount (payload : List UInt8) : UInt8 :=
  payload.getD 5 0

/-- The procedure that the parser builds from a count and the tokens of the text. -/
def parsedProcedure (count : UInt8) (name : CString) (params : List CString) : RPCProcedure :=
  ⟨name, ⟨count, CString.decimal count.toNat⟩,
    (Block.calloc count.toNat none).storeFrom 0 (params.map some), none⟩

theorem foldl_storeParam (params : List CString) (block : Block (Option CString)) (i : Nat) :
    params.foldl storeParam (block, i) =
      (block.storeFrom i (params.map some), i + params.length) := by
  induction params generalizing block i with
  | nil => rfl
  | cons param params inductionHypothesis =>
    rw [List.foldl_cons, storeParam, inductionHypothesis, List.map_cons, Block.storeFrom,
      List.length_cons, Nat.add_assoc, Nat.add_comm 1]

theorem parse_short {payload : List UInt8} (short : payload.length < 6) (len : Nat) :
    rpcServerParseCall payload len = .error .readOutOfBounds := by
  rw [rpcServerParseCall, load_of_le (Nat.le_of_lt_succ short)]
  rfl

/-- Behind a complete header the parser is left with the splitting of the body. -/
theorem parse_of_header {payload : List UInt8} (header : 6 ≤ payload.length) :
    rpcServerParseCall payload payload.length = (do
      let (tok, rest) ← strtok 124 (payload.drop 6)
      let name ← deref tok
      let (params, _) ← strtokFold 124 storeParam
        (Block.calloc (callCount payload).toNat none, 0) rest
      pure ⟨name, ⟨callCount payload, CString.decimal (callCount payload).toNat⟩, params, none⟩) := by
  have count : load payload 5 = .ok (callCount payload) := by
    have inside : 5 < payload.length := by omega
    simp [load_of_lt inside, callCount, inside]
  have body : loadRange payload 6 (sizeSub payload.length 6) = .ok (payload.drop 6) := by
    rw [sizeSub_of_le header, loadRange_of_le (by omega), List.take_of_length_le (by simp)]
  rw [rpcServerParseCall, count, body]
  rfl

theorem parse_unterminated {payload : List UInt8} (unterminated : 0 ∉ payload.drop 6) :
    rpcServerParseCall payload payload.length = .error .readOutOfBounds := by
  obtain short | header := Nat.lt_or_ge payload.length 6
  · exact parse_short short _
  · rw [parse_of_header header]
    obtain call | ⟨token, rest, call, restNulFree⟩ := strtok_of_not_mem unterminated
    · rw [call]
      rfl
    · rw [call]
      simp only [bind, Except.bind, deref_some, strtokFold_of_not_mem restNulFree]

theorem header_of_terminated {payload : List UInt8} (terminated : 0 ∈ payload.drop 6) :
    6 < payload.length := by
  have positive := List.length_pos_of_mem terminated
  rw [List.length_drop] at positive
  omega

/-- A body of delimiters only has no name. -/
theorem parse_nameless {payload : List UInt8} (terminated : 0 ∈ payload.drop 6)
    (nameless : tokens 124 (callText payload) = []) :
    rpcServerParseCall payload payload.length = .error .nullPointer := by
  obtain ⟨after, split⟩ := CString.exists_eq_append_of_mem terminated
  have nulFree := (CString.upToNul (payload.drop 6)).nulFree
  rw [parse_of_header (Nat.le_of_lt (header_of_terminated terminated)), split]
  obtain ⟨_, call⟩ | ⟨token, rest, first, _, _⟩ :=
    strtok_terminated (show (124 : UInt8) ≠ 0 by decide) nulFree after
  · rw [call]
    rfl
  · exact absurd (first.symm.trans nameless) (List.cons_ne_nil _ _)

theorem parse_named {payload : List UInt8} (terminated : 0 ∈ payload.drop 6) {name : CString}
    {params : List CString} (named : tokens 124 (callText payload) = name :: params) :
    rpcServerParseCall payload payload.length =
      .ok (parsedProcedure (callCount payload) name params) := by
  obtain ⟨after, split⟩ := CString.exists_eq_append_of_mem terminated
  have nulFree := (CString.upToNul (payload.drop 6)).nulFree
  rw [parse_of_header (Nat.le_of_lt (header_of_terminated terminated)), split]
  obtain ⟨none, _⟩ | ⟨token, rest, first, restNulFree, call⟩ :=
    strtok_terminated (show (124 : UInt8) ≠ 0 by decide) nulFree after
  · exact absurd (none.symm.trans named) (List.cons_ne_nil _ _).symm
  · obtain ⟨rfl, rfl⟩ := List.cons.inj (first.symm.trans named)
    rw [call]
    simp only [bind, Except.bind, deref_some, strtokFold_terminated (show (124 : UInt8) ≠ 0 by decide)
      restNulFree after, foldl_storeParam]
    rfl

end ServalRpc.Verified.ParseCall
