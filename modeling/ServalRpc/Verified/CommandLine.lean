import ServalRpc.CLib.Shell
import ServalRpc.Verified.CallCodec
import ServalRpc.Verified.Download
import ServalRpc.Verified.HandlerSteps
import ServalRpc.Verified.Offering

/-! # What a call makes the shell run

`_rpc_server_excecute` joins the path of the binary and the parameters with spaces and leaves the
line to `sh`.  The line denotes the binary with these parameters exactly when none of them needs
quotes.
-/

namespace ServalRpc.Verified.CommandLine

open CLib ParseCall CallCodec HandlerSteps

variable {serval : Serval}

/-- The path of the binary. -/
def binary (world : ExecuteWorld) (rp : RPCProcedure) : CString :=
  world.sysconfdir ++ binFolder ++ rp.name

/-- The execution hands this line to `popen`: it depends on what `popen` returns for it. -/
def Opened (serval : Serval) (world : ExecuteWorld) (resultPayload : Block UInt8)
    (rp : RPCProcedure) (command : CString) : Prop :=
  ∃ run, rpcServerExcecute serval
      { world with popen := fun line => if line = command then some run else none }
      resultPayload rp ≠
    rpcServerExcecute serval { world with popen := fun _ => none } resultPayload rp

/-- The line denotes one simple command: the binary with the parameters of the call, each as one
word with its own bytes. -/
def OneCommand (world : ExecuteWorld) (rp : RPCProcedure) (command : CString) : Prop :=
  ∃ params, derefRange rp.params.cells rp.paramc.paramcN.toNat = .ok params ∧
    Shell.simpleCommand command.bytes = some ((binary world rp).bytes :: params.map CString.bytes)

/-! ## The line that is opened -/

theorem fetchFirstParam_of_noFilehash {world : ExecuteWorld} {rp : RPCProcedure}
    {first : CString} (present : derefAt rp.params.cells 0 = .ok first)
    (noFilehash : rpcStrIsFilehash first = false) :
    fetchFirstParam serval world rp = .ok (some rp) := by
  rw [fetchFirstParam, present, ok_bind, noFilehash]
  rfl

/-- The rest of an execution, once `popen` has returned. -/
def afterPopen (world : ExecuteWorld) (resultPayload : Block UInt8) (rp : RPCProcedure) :
    Option ProcessRun → Except Fault (Option ExecuteResult)
  | none => .ok (some ⟨0, resultPayload, rp⟩)
  | some run => do
    let resultPayload ← collectResult world run.output resultPayload
    pure (some ⟨if run.exitStatus ≠ 0 then 0 else 1, resultPayload, rp⟩)

theorem excecute_of_params {world : ExecuteWorld} {resultPayload : Block UInt8} {rp : RPCProcedure}
    {params : List CString} (installed : world.binExists (binary world rp) = true)
    (fetched : fetchFirstParam serval world rp = .ok (some rp))
    (read : derefRange rp.params.cells rp.paramc.paramcN.toNat = .ok params) :
    rpcServerExcecute serval world resultPayload rp = afterPopen world resultPayload rp
      (world.popen (binary world rp ++ flatParams (CString.ofChars [' ']) params)) := by
  unfold binary at installed
  have flattened := flatten_of_walked read (CString.ofChars [' '])
  simp only [rpcServerExcecute, installed, fetched, flattened, ok_bind, Bool.not_true,
    Bool.false_eq_true, if_false]
  unfold binary
  cases world.popen (world.sysconfdir ++ binFolder ++ rp.name ++
    flatParams (CString.ofChars [' ']) params) with
  | none => rfl
  | some run => rfl

/-- The only line that is handed to `popen`. -/
theorem opened_iff {world : ExecuteWorld} {resultPayload : Block UInt8} {rp : RPCProcedure}
    {command first : CString} (present : derefAt rp.params.cells 0 = .ok first)
    (noFilehash : rpcStrIsFilehash first = false) :
    Opened serval world resultPayload rp command ↔
      world.binExists (binary world rp) = true ∧
      ∃ params, derefRange rp.params.cells rp.paramc.paramcN.toNat = .ok params ∧
        command = binary world rp ++ flatParams (CString.ofChars [' ']) params := by
  have fetched (popen : CString → Option ProcessRun) :
      fetchFirstParam serval { world with popen := popen } rp = .ok (some rp) :=
    fetchFirstParam_of_noFilehash present noFilehash
  have executed (popen : CString → Option ProcessRun) {params : List CString}
      (installed : world.binExists (binary world rp) = true)
      (read : derefRange rp.params.cells rp.paramc.paramcN.toNat = .ok params) :
      rpcServerExcecute serval { world with popen := popen } resultPayload rp =
        afterPopen { world with popen := popen } resultPayload rp
          (popen (binary world rp ++ flatParams (CString.ofChars [' ']) params)) :=
    excecute_of_params installed (fetched popen) read
  constructor
  · rintro ⟨run, differ⟩
    cases installed : world.binExists (binary world rp) with
    | false =>
      unfold binary at installed
      simp [rpcServerExcecute, installed] at differ
    | true =>
      refine ⟨rfl, ?_⟩
      cases read : derefRange rp.params.cells rp.paramc.paramcN.toNat with
      | error fault =>
        unfold binary at installed
        simp [rpcServerExcecute, installed, fetched, rpcFlattenParams, read, bind, Except.bind]
          at differ
      | ok params =>
        refine ⟨params, rfl, ?_⟩
        by_contra other
        rw [executed _ installed read, executed _ installed read,
          if_neg fun same => other same.symm] at differ
        exact differ rfl
  · rintro ⟨installed, params, read, rfl⟩
    -- A process that prints nothing and succeeds changes the return code.
    refine ⟨⟨[], 0⟩, ?_⟩
    rw [executed _ installed read, executed _ installed read, if_pos rfl]
    intro same
    obtain ⟨collected, _, result⟩ := bind_eq_ok_iff.mp same
    cases result

/-! ## The words of the line -/

theorem binary_flatParams_bytes (world : ExecuteWorld) (rp : RPCProcedure) (params : List CString) :
    (binary world rp ++ flatParams (CString.ofChars [' ']) params).bytes =
      (binary world rp).bytes ++ (params.map CString.bytes).flatMap (32 :: ·) := by
  have space : (CString.ofChars [' ']).bytes = [32] := by decide
  rw [CString.append_bytes, flatParams_bytes, space, List.flatMap_map]
  rfl

/-- For an accepted call whose first parameter is no filehash, the line that is handed to `popen`
denotes the binary with the parameters exactly when the path and the parameters need no quotes. -/
theorem command_faithful_iff (serval : Serval) (conf : Option (List UInt8)) (payload : List UInt8)
    (sender : Option CString) (rp : RPCProcedure)
    (accepted : admitCall serval conf payload sender = .ok (.accepted rp)) (first : CString)
    (present : derefAt rp.params.cells 0 = .ok first)
    (noFilehash : rpcStrIsFilehash first = false) (world : ExecuteWorld)
    (resultPayload : Block UInt8) (command : CString)
    (opened : Opened serval world resultPayload rp command) :
    OneCommand world rp command ↔
      Shell.isPlainCommand (binary world rp).bytes = true ∧
      ∀ param, some param ∈ rp.params.cells → Shell.isPlain param.bytes = true := by
  obtain ⟨_, params, read, rfl⟩ := (opened_iff present noFilehash).mp opened
  have cells : rp.params.cells = params.map some := by
    obtain ⟨_, callerSid, parsed, _, _, parsing, rfl⟩ := admitCall_accepted accepted
    obtain ⟨name, fields, _, rfl⟩ := parsed_tokens parsing
    obtain ⟨_, whole⟩ := derefRange_eq_ok_iff.mp read
    rwa [List.take_of_length_le] at whole
    exact Nat.le_of_eq ((Block.storeFrom_length _ _ _).trans List.length_replicate)
  have words : Shell.simpleCommand (binary world rp ++
      flatParams (CString.ofChars [' ']) params).bytes =
        some ((binary world rp).bytes :: params.map CString.bytes) ↔
      Shell.isPlainCommand (binary world rp).bytes = true ∧
        ∀ param ∈ params, Shell.isPlain param.bytes = true := by
    rw [binary_flatParams_bytes, Shell.simpleCommand_join_iff, List.forall_mem_map]
  have members : (∀ param, some param ∈ rp.params.cells → Shell.isPlain param.bytes = true) ↔
      ∀ param ∈ params, Shell.isPlain param.bytes = true := by
    simp [cells]
  rw [members, ← words]
  constructor
  · rintro ⟨others, read', command⟩
    cases read.symm.trans read'
    exact command
  · intro command
    exact ⟨params, read, command⟩

/-! ## A call that runs more than its binary -/

def addName : CString := CString.ofChars ['a', 'd', 'd']

/-- The call of `add` with two parameters. -/
def addOf (left right : List Char) : List UInt8 :=
  [0, 0, 0, 0, 0, 2] ++ (CString.ofChars (['a', 'd', 'd', '|'] ++ left ++ ['|'] ++ right)).bytes ++ [0]

def addProcedure (left right : List Char) : RPCProcedure :=
  { parsedProcedure 2 addName [CString.ofChars left, CString.ofChars right] with
    callerSid := some Download.caller }

def addWorld : ExecuteWorld where
  sysconfdir := CString.ofChars ['/', 'e', 't', 'c']
  binExists _ := true
  downloads := []
  popen _ := none
  resultExists _ := false
  filehash := List.replicate rpcPktSize 0

def addLine (left right : List Char) : CString :=
  binary addWorld (addProcedure left right) ++
    flatParams (CString.ofChars [' ']) [CString.ofChars left, CString.ofChars right]

theorem addOf_accepted {left right : List Char} (terminated : 0 ∈ (addOf left right).drop 6)
    (named : tokens 124 (callText (addOf left right)) =
      [addName, CString.ofChars left, CString.ofChars right]) :
    admitCall (Serval.executable sidAny) (some Offering.addConf.content) (addOf left right)
      (some (tohexSidT Download.caller)) = .ok (.accepted (addProcedure left right)) := by
  exact admitCall_of_offered terminated named Download.caller (Offering.add_offered rfl rfl)
    (show (2 : Int) ≠ 0 by decide)

theorem addProcedure_params (left right : List Char) : derefRange
    (addProcedure left right).params.cells (addProcedure left right).paramc.paramcN.toNat =
      .ok [CString.ofChars left, CString.ofChars right] :=
  derefRange_eq_ok_iff.mpr ⟨Nat.le_refl 2, rfl⟩

theorem addLine_opened {left right : List Char}
    (noFilehash : rpcStrIsFilehash (CString.ofChars left) = false) :
    Opened (Serval.executable sidAny) addWorld (Block.calloc rpcPktSize 0)
      (addProcedure left right) (addLine left right) :=
  (opened_iff rfl noFilehash).mpr ⟨rfl, _, addProcedure_params left right, rfl⟩

/-- The call `add|1|2`. -/
theorem command_faithful_add :
    OneCommand addWorld (addProcedure ['1'] ['2']) (addLine ['1'] ['2']) := by
  have opened := @addLine_opened ['1'] ['2'] (by decide)
  refine (command_faithful_iff (Serval.executable sidAny) (some Offering.addConf.content)
    (addOf ['1'] ['2']) (some (tohexSidT Download.caller)) _
    (addOf_accepted (by decide) (by decide)) (CString.ofChars ['1']) rfl (by decide) addWorld _ _
    opened).mpr ⟨by decide, ?_⟩
  intro param member
  have cells : (addProcedure ['1'] ['2']).params.cells =
      [some (CString.ofChars ['1']), some (CString.ofChars ['2'])] := rfl
  rw [cells] at member
  simp only [List.mem_cons, Option.some.injEq, List.not_mem_nil, or_false] at member
  obtain rfl | rfl := member
  · decide
  · decide

/-- The accepted call `add|1;x|2` runs a second command, and the accepted call `add|1 2|3` passes
three parameters. -/
theorem command_injected :
    (admitCall (Serval.executable sidAny) (some Offering.addConf.content)
        (addOf ['1', ';', 'x'] ['2']) (some (tohexSidT Download.caller)) =
        .ok (.accepted (addProcedure ['1', ';', 'x'] ['2'])) ∧
      Opened (Serval.executable sidAny) addWorld (Block.calloc rpcPktSize 0)
        (addProcedure ['1', ';', 'x'] ['2']) (addLine ['1', ';', 'x'] ['2']) ∧
      ¬ OneCommand addWorld (addProcedure ['1', ';', 'x'] ['2']) (addLine ['1', ';', 'x'] ['2'])) ∧
    admitCall (Serval.executable sidAny) (some Offering.addConf.content)
        (addOf ['1', ' ', '2'] ['3']) (some (tohexSidT Download.caller)) =
        .ok (.accepted (addProcedure ['1', ' ', '2'] ['3'])) ∧
      Opened (Serval.executable sidAny) addWorld (Block.calloc rpcPktSize 0)
        (addProcedure ['1', ' ', '2'] ['3']) (addLine ['1', ' ', '2'] ['3']) ∧
      ¬ OneCommand addWorld (addProcedure ['1', ' ', '2'] ['3']) (addLine ['1', ' ', '2'] ['3']) := by
  refine ⟨⟨addOf_accepted (by decide) (by decide), addLine_opened (by decide), ?_⟩,
    addOf_accepted (by decide) (by decide), addLine_opened (by decide), ?_⟩
  · rintro ⟨params, _, command⟩
    have several : Shell.simpleCommand (addLine ['1', ';', 'x'] ['2']).bytes = none := by decide
    cases several.symm.trans command
  · rintro ⟨params, read, command⟩
    cases (addProcedure_params ['1', ' ', '2'] ['3']).symm.trans read
    exact absurd command (by decide)

end ServalRpc.Verified.CommandLine
