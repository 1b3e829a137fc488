import ServalRpc.Model.Main
import ServalRpc.Verified.RequirementLists
import ServalRpc.Verified.RequirementsRoundTrip

/-! # From the command line to the call

`ClientLine` is an `argv` of the client with a destination and a procedure name.  `main` passes the
parameters behind the name on exactly when there is at least one of them, and it issues the call
whatever `rpc_client_prepare_requirements` thinks of the requirements.
-/

namespace ServalRpc.Verified.ClientInvocation

open CLib
open ServalRpc.Verified.Requirements (InRange prepare_of_outOfRange)

def separator : CString := .ofChars ['-', '-']

/-- The arguments of a client: the mode and one more argument, or the separator alone, then the
destination, the name of the procedure and what follows it. -/
structure ClientLine where
  program : CString
  command : CString
  mode : CString
  behindMode : List CString
  destination : CString
  rpcName : CString
  arguments : List CString
  client : checksCall command = true
  shape : behindMode.length = if mode = separator then 0 else 1
  fits : 5 + behindMode.length + arguments.length < 2 ^ 31

theorem checkCli_iff (arg option abbreviation : CString) :
    checkCli arg option abbreviation = true ↔
      (CString.ofChars ['-', '-'] ++ option).bytes <+: arg.bytes ∨
        (CString.ofChars ['-'] ++ abbreviation).bytes <+: arg.bytes := by
  simp only [checkCli, Bool.or_eq_true, CString.strncmpEq_comm arg,
    CString.strncmpEq_length_iff]

theorem requirementValues_ok (lastArg : CString) :
    ∃ values, requirementValues lastArg = .ok values :=
  ⟨_, RequirementLists.strToIntArr_eq _ _⟩

namespace ClientLine

/-- The arguments before the destination. -/
def front (line : ClientLine) : List CString :=
  line.program :: line.command :: line.mode :: line.behindMode

def argv (line : ClientLine) : Argv where
  args := line.front ++ line.destination :: line.rpcName :: line.arguments
  fits := by
    have bound := line.fits
    simp only [front, List.length_append, List.length_cons]
    omega

def offset (line : ClientLine) : Nat := 3 + line.behindMode.length

/-- The last argument, which may be the name of the procedure. -/
def lastArg (line : ClientLine) : CString :=
  (line.rpcName :: line.arguments).getLast (List.cons_ne_nil _ _)

/-- What follows the name, without a requirements list in the last place. -/
def parameters (line : ClientLine) : List CString :=
  if takesAsRequirements line.lastArg then line.arguments.dropLast else line.arguments

/-! ## The cells of `argv` -/

theorem argc_eq (line : ClientLine) :
    line.argv.argc = line.offset + 2 + line.arguments.length := by
  simp only [Argv.argc, argv, front, offset, List.length_append, List.length_cons]
  omega

theorem front_length (line : ClientLine) : (line.front.map some).length = line.offset := by
  simp only [front, offset, List.length_map, List.length_cons]
  omega

theorem cells_eq (line : ClientLine) :
    line.argv.cells = line.front.map some ++
      (some line.destination :: some line.rpcName :: (line.arguments.map some ++ [none])) := by
  simp [Argv.cells, argv]

theorem load_offset (line : ClientLine) (index : Nat) :
    load line.argv.cells (line.offset + index) =
      load (some line.destination :: some line.rpcName :: (line.arguments.map some ++ [none]))
        index := by
  rw [cells_eq, ← line.front_length, load_append_right]

theorem offset_eq (line : ClientLine) : (if line.mode = separator then 3 else 4) = line.offset := by
  have shape := line.shape
  unfold offset
  split at shape
  · rw [if_pos ‹_›, shape]
  · rw [if_neg ‹_›, shape]

theorem derefAt_last (line : ClientLine) :
    derefAt line.argv.cells (line.argv.argc - 1) = .ok line.lastArg := by
  rw [derefAt_eq_ok_iff, argc_eq, cells_eq]
  have position : line.offset + 2 + line.arguments.length - 1 =
      (line.front.map some).length + (line.arguments.length + 1) := by
    rw [front_length]
    omega
  rw [position, List.getElem?_append_right (Nat.le_add_right _ _), Nat.add_sub_cancel_left,
    List.getElem?_cons_succ, ← List.cons_append, ← List.map_cons,
    List.getElem?_append_left (by simp), List.getElem?_map, lastArg, List.getLast_eq_getElem]
  simp

/-- The command of a client is not that of a server. -/
theorem not_listen (line : ClientLine) : checksListen line.command = false := by
  rw [Bool.eq_false_iff]
  intro listen
  obtain call | call := (checkCli_iff _ _ _).mp line.client <;>
  obtain listen | listen := (checkCli_iff _ _ _).mp listen <;>
  exact absurd (List.prefix_or_prefix_of_prefix call listen) (by decide)

/-! ## Copying the parameters -/

theorem parameters_prefix (line : ClientLine) : line.parameters <+: line.arguments := by
  unfold parameters
  split
  · exact List.dropLast_prefix _
  · exact List.prefix_refl _

theorem load_parameter (line : ClientLine) {j : Nat} (inside : j < line.parameters.length) :
    load line.argv.cells (line.offset + (2 + j)) = .ok (some line.parameters[j]) := by
  have length := line.parameters_prefix.length_le
  rw [load_offset, load_of_lt (by simp; omega)]
  simp only [Nat.add_comm 2 j, List.getElem_cons_succ]
  rw [List.getElem_append_left (by simpa using Nat.lt_of_lt_of_le inside length), List.getElem_map]
  exact congrArg (fun param => Except.ok (some param)) (line.parameters_prefix.getElem inside).symm

theorem parameters_bound (line : ClientLine) :
    line.offset + line.parameters.length + 2 < 2 ^ 31 := by
  have bound := line.fits
  have length := line.parameters_prefix.length_le
  unfold offset
  omega

/-- A difference of two counts at type `unsigned int`. -/
theorem ofNat_sub_toNat {left right : Nat} (ordered : right ≤ left) (bound : left < 2 ^ 32) :
    (UInt32.ofNat left - UInt32.ofNat right).toNat = left - right := by
  rw [UInt32.toNat_sub, UInt32.toNat_ofNat', UInt32.toNat_ofNat']
  omega

/-- Behind the name the unsigned difference counts the parameters. -/
theorem paramFields_toNat (line : ClientLine) (behind : line.arguments ≠ []) :
    (paramFields line.argv line.offset line.lastArg).toNat = line.parameters.length := by
  have some := List.length_pos_iff.mpr behind
  have bound := line.fits
  have position : line.offset = 3 + line.behindMode.length := rfl
  unfold paramFields parameters
  rw [argc_eq]
  split
  · rw [ofNat_sub_toNat (by omega) (by omega), List.length_dropLast]
    omega
  · rw [ofNat_sub_toNat (by omega) (by omega)]
    omega

/-- With the first `i + 1` parameters in place the loop copies the others, and leaves the cells
behind the last one alone. -/
theorem copyParams_eq (line : ClientLine) {nfields : UInt32}
    (count : nfields.toNat = line.parameters.length) (i : Nat)
    (inside : i < line.parameters.length) (tail : List (Option CString))
    (room : tail.length = line.parameters.length - i) :
    copyParams line.argv line.offset nfields i
        ((line.parameters.take (i + 1)).map some ++ tail) =
      .ok (line.parameters.map some ++ tail.drop (line.parameters.length - 1 - i)) := by
  have last : (nfields - 1).toNat = line.parameters.length - 1 := by
    rw [UInt32.toNat_sub, count]
    have bound := line.parameters_bound
    simp
    omega
  induction remaining : line.parameters.length - 1 - i generalizing i tail with
  | zero =>
    rw [copyParams, if_neg (by omega), List.take_of_length_le (by omega), List.drop_zero]
    rfl
  | succ remaining inductionHypothesis =>
    have bound := line.parameters_bound
    have next : i + 1 < line.parameters.length := by omega
    have position : (line.offset + 3 + i) % 2 ^ 32 = line.offset + (2 + (i + 1)) := by omega
    have stored := storeRange_at_end ((line.parameters.take (i + 1)).map some) tail
      [some line.parameters[i + 1]] (i + 1) (by simp; omega) (by simp; omega)
    rw [copyParams, if_pos (by omega)]
    simp only [position, line.load_parameter next, stored, ok_bind]
    rw [← List.map_singleton, ← List.map_append, ← List.take_succ_eq_append_getElem next,
      inductionHypothesis (i + 1) next _ (by simp; omega) (by omega), List.drop_drop]
    simp [Nat.add_comm]

/-- The array of the call: the first parameter is stored before the loop. -/
theorem copied_params (line : ClientLine) (present : line.parameters ≠ []) (world : MainWorld) :
    ∃ param1, load line.argv.cells (line.offset + 2) = .ok param1 ∧
      ∃ params, storeRange ((List.range
            (paramFields line.argv line.offset line.lastArg + 1).toNat).map world.stackParams)
          0 [param1] = .ok params ∧
        copyParams line.argv line.offset (paramFields line.argv line.offset line.lastArg) 0 params =
          .ok (line.parameters.map some ++ [world.stackParams line.parameters.length]) := by
  have positive := List.length_pos_iff.mpr present
  have behind : line.arguments ≠ [] := fun none =>
    present (List.prefix_nil.mp (none ▸ line.parameters_prefix))
  have count := line.paramFields_toNat behind
  have size : (paramFields line.argv line.offset line.lastArg + 1).toNat =
      line.parameters.length + 1 := by
    have bound := line.parameters_bound
    rw [UInt32.toNat_add, count]
    simp
    omega
  have stored : storeRange ((List.range (line.parameters.length + 1)).map world.stackParams) 0
        [some line.parameters[0]] =
      .ok ((line.parameters.take (0 + 1)).map some ++
        (List.range' 1 line.parameters.length).map world.stackParams) := by
    rw [storeRange, if_pos (by simp), List.take_succ_eq_append_getElem positive,
      List.range_eq_range', List.range'_succ]
    simp
  have copied := line.copyParams_eq count 0 positive
    ((List.range' 1 line.parameters.length).map world.stackParams) (by simp)
  have last : ((List.range' 1 line.parameters.length).map world.stackParams).drop
      (line.parameters.length - 1 - 0) = [world.stackParams line.parameters.length] := by
    obtain ⟨front, whole⟩ : ∃ count, line.parameters.length = count + 1 :=
      ⟨line.parameters.length - 1, by omega⟩
    rw [whole, List.range'_concat]
    simp [Nat.add_comm]
  rw [last] at copied
  exact ⟨_, line.load_parameter positive, _, by rw [size, stored], copied⟩

/-! ## Without parameters -/

/-- With no parameter left the count is zero, or the unsigned difference has wrapped. -/
theorem paramFields_of_none (line : ClientLine) (none : line.parameters = []) :
    paramFields line.argv line.offset line.lastArg = 0 ∨
      paramFields line.argv line.offset line.lastArg + 1 = 0 := by
  by_cases behind : line.arguments = []
  · have argc := line.argc_eq
    rw [behind, List.length_nil, Nat.add_zero] at argc
    unfold paramFields
    rw [argc]
    split
    · exact .inr (by rw [UInt32.ofNat_add line.offset 2, UInt32.ofNat_add line.offset 3]; grind)
    · exact .inl (UInt32.sub_self _)
  · refine .inl (UInt32.toNat.inj ?_)
    rw [line.paramFields_toNat behind, none]
    rfl

/-- The loop takes `nfields - 1` for its bound, so at zero it runs on. -/
theorem copyParams_zero (argv : Argv) (offset : Nat) (cell : Option CString) :
    ∃ fault, copyParams argv offset 0 0 [cell] = .error fault := by
  have full : ∀ arg : Option CString, storeRange [cell] (0 + 1) [arg] = .error .writeOutOfBounds :=
    fun _ => rfl
  rw [copyParams, if_pos (by decide)]
  dsimp only
  cases load argv.cells ((offset + 3 + 0) % 2 ^ 32) with
  | error fault => exact ⟨fault, rfl⟩
  | ok arg =>
    simp only [ok_bind, full]
    exact ⟨.writeOutOfBounds, rfl⟩

theorem copy_stops_without_parameters (line : ClientLine) (none : line.parameters = [])
    (world : MainWorld) (param1 : Option CString) :
    ∃ fault, (do
      let nfields := paramFields line.argv line.offset line.lastArg
      let params ← storeRange ((List.range (nfields + 1).toNat).map world.stackParams) 0 [param1]
      copyParams line.argv line.offset nfields 0 params) = .error fault := by
  obtain zero | wrapped := line.paramFields_of_none none
  · have one : (0 + 1 : UInt32).toNat = 1 := by decide
    have stored : storeRange ((List.range 1).map world.stackParams) 0 [param1] = .ok [param1] := rfl
    simp only [zero, one, stored, ok_bind]
    exact copyParams_zero line.argv line.offset param1
  · have empty : storeRange ((List.range 0).map world.stackParams) 0 [param1] =
        .error .writeOutOfBounds := rfl
    simp only [wrapped, UInt32.toNat_zero, empty]
    exact ⟨.writeOutOfBounds, rfl⟩

/-! ## The client part -/

theorem main_eq_mainClient (line : ClientLine) (serval : Serval) (world : MainWorld)
    (running : world.serverPid ≠ 0) :
    main serval world line.argv = mainClient serval world line.argv := by
  have enough : ¬ line.argv.argc < 2 := by
    rw [argc_eq]
    omega
  have command : derefAt line.argv.cells 1 = .ok line.command := by
    rw [cells_eq]
    rfl
  rw [main, if_neg running, if_neg enough, command, ok_bind, line.not_listen, line.client]
  simp

section MainClient

variable {serval : Serval} {line : ClientLine} (world : MainWorld)

/-- The arguments that the client part reads before it converts the destination. -/
theorem mainClient_reads (line : ClientLine) :
    derefAt line.argv.cells 2 = .ok line.mode ∧
      load line.argv.cells line.offset = .ok (some line.destination) ∧
      load line.argv.cells (line.offset + 1) = .ok (some line.rpcName) ∧
      ∃ param1, load line.argv.cells (line.offset + 2) = .ok param1 := by
  refine ⟨?_, line.load_offset 0, line.load_offset 1, _,
    (line.load_offset 2).trans (load_of_lt (by simp))⟩
  rw [cells_eq]
  rfl

theorem mainClient_of_unknown (unknown : parseDestination serval line.destination = none) :
    mainClient serval world line.argv = .ok (.returns (-1)) := by
  obtain ⟨mode, destination, name, param1, loaded⟩ := line.mainClient_reads
  have offset := line.offset_eq
  unfold separator at offset
  simp only [mainClient, mode, ok_bind, offset, destination, name, loaded, deref_some, unknown]
  rfl

/-- From a known destination on the client part copies the parameters and reads the requirements. -/
theorem mainClient_of_known {sid : Sid} (known : parseDestination serval line.destination = some sid)
    {param1 : Option CString} (loaded : load line.argv.cells (line.offset + 2) = .ok param1) :
    mainClient serval world line.argv = (do
      let params ← storeRange ((List.range
        (paramFields line.argv line.offset line.lastArg + 1).toNat).map world.stackParams) 0 [param1]
      let params ← copyParams line.argv line.offset
        (paramFields line.argv line.offset line.lastArg) 0 params
      let values ← requirementValues line.lastArg
      pure (issueCall world line.mode sid (some line.rpcName)
        (paramFields line.argv line.offset line.lastArg) params
        fun i => (values i).getD (world.stackValues i))) := by
  obtain ⟨mode, destination, name, -⟩ := line.mainClient_reads
  have offset := line.offset_eq
  unfold separator at offset
  simp only [mainClient, mode, ok_bind, offset, destination, name, loaded, deref_some, known,
    line.derefAt_last]

end MainClient

end ClientLine

/-! ## The parameters of the call -/

/-- The function that `main` calls: there is no broadcast over MSP. -/
def calledFunction (mode : CString) (sid : Sid) : Option ClientFunction :=
  if clientFunction mode = some .rpcClientCallMsp ∧ (sid = sidBroadcast ∨ sid = sidAny) then none
  else clientFunction mode

theorem issueCall_calls (world : MainWorld) (mode : CString) (sid : Sid) (name : Option CString)
    (nfields : UInt32) (params : List (Option CString)) (values : Fin 8 → Int) :
    (issueCall world mode sid name nfields params values).calls =
      (calledFunction mode sid).toList.map fun function =>
        ⟨function, sid, name, nfields, params, rpcClientPrepareRequirements values⟩ := by
  unfold issueCall calledFunction
  cases clientFunction mode with
  | none => rfl
  | some function =>
    cases function with
    | rpcClientCallMsp =>
      by_cases everyone : sid = sidBroadcast ∨ sid = sidAny
      · simp [everyone, MainOutcome.returns]
      · simp [everyone, callClientFunction]
    | rpcClientCallRhizome => rfl
    | rpcClientCallMdp => rfl
    | rpcClientCall => rfl

/-- The destination that `main` finds, and the function that it calls for it. -/
def called (serval : Serval) (line : ClientLine) : Option (Sid × ClientFunction) := do
  let sid ← parseDestination serval line.destination
  let function ← calledFunction line.mode sid
  pure (sid, function)

/-- `main` ends without a stray access, and its call gets the parameters in order, their number,
and nothing in the cell behind them. -/
def PassesParameters (serval : Serval) (line : ClientLine) : Prop :=
  ∀ world : MainWorld, world.serverPid ≠ 0 →
    ∃ outcome nfields requirements, main serval world line.argv = .ok outcome ∧
      nfields.toNat = line.parameters.length ∧
      outcome.calls = (called serval line).toList.map fun call =>
        ⟨call.2, call.1, some line.rpcName, nfields,
          line.parameters.map some ++ [world.stackParams line.parameters.length], requirements⟩

theorem passes_of_no_destination {serval : Serval} {line : ClientLine}
    (unknown : parseDestination serval line.destination = none) : PassesParameters serval line := by
  intro world running
  have bound := line.parameters_bound
  refine ⟨.returns (-1), UInt32.ofNat line.parameters.length, 0, ?_, ?_, ?_⟩
  · rw [line.main_eq_mainClient serval world running]
    exact ClientLine.mainClient_of_unknown world unknown
  · rw [UInt32.toNat_ofNat']
    omega
  · simp [called, unknown, MainOutcome.returns]

theorem passes_of_parameters {serval : Serval} {line : ClientLine}
    (present : line.parameters ≠ []) : PassesParameters serval line := by
  intro world running
  have behind : line.arguments ≠ [] := fun none =>
    present (List.prefix_nil.mp (none ▸ line.parameters_prefix))
  have count := line.paramFields_toNat behind
  cases parsed : parseDestination serval line.destination with
  | none => exact passes_of_no_destination parsed world running
  | some sid =>
    obtain ⟨values, filled⟩ := requirementValues_ok line.lastArg
    obtain ⟨param1, loaded, params, stored, copied⟩ := line.copied_params present world
    have ended : main serval world line.argv = .ok (issueCall world line.mode sid
        (some line.rpcName) (paramFields line.argv line.offset line.lastArg)
        (line.parameters.map some ++ [world.stackParams line.parameters.length])
        fun i => (values i).getD (world.stackValues i)) := by
      rw [line.main_eq_mainClient serval world running,
        ClientLine.mainClient_of_known world parsed loaded]
      simp only [ok_bind, stored, copied, filled]
      rfl
    refine ⟨_, _, rpcClientPrepareRequirements fun i => (values i).getD (world.stackValues i),
      ended, count, ?_⟩
    rw [issueCall_calls, called, parsed, Option.bind_eq_bind, Option.bind_some]
    cases calledFunction line.mode sid with
    | none => rfl
    | some function => rfl

/-- A world in which a daemon runs and no call brings results. -/
def someWorld : MainWorld :=
  ⟨1, fun _ => 0, fun _ => -1, fun _ => 0, fun _ => none⟩

theorem not_passes_without_parameters {serval : Serval} {line : ClientLine} {sid : Sid}
    (parsed : parseDestination serval line.destination = some sid)
    (none : line.parameters = []) : ¬ PassesParameters serval line := by
  intro passes
  obtain ⟨outcome, -, -, ended, -⟩ := passes someWorld (by decide)
  obtain ⟨-, -, -, param1, loaded⟩ := line.mainClient_reads
  obtain ⟨fault, stopped⟩ := line.copy_stops_without_parameters none someWorld param1
  rw [line.main_eq_mainClient serval someWorld (by decide),
    ClientLine.mainClient_of_known someWorld parsed loaded] at ended
  obtain ⟨params, stored, ended⟩ := bind_eq_ok_iff.mp ended
  obtain ⟨params, copied, -⟩ := bind_eq_ok_iff.mp ended
  dsimp only at stopped
  rw [stored, ok_bind, copied] at stopped
  cases stopped

/-- `main` passes the parameters on, unless there is none for a destination that it can convert. -/
theorem passes_parameters_iff (serval : Serval) (line : ClientLine) :
    PassesParameters serval line ↔
      parseDestination serval line.destination = none ∨ line.parameters ≠ [] := by
  constructor
  · intro passes
    rw [or_iff_not_imp_left]
    intro known none
    obtain ⟨sid, parsed⟩ := Option.ne_none_iff_exists'.mp known
    exact not_passes_without_parameters parsed none passes
  · rintro (unknown | present)
    · exact passes_of_no_destination unknown
    · exact passes_of_parameters present

/-- `servalrpc -c -d -- broadcast f` -/
def bareLine : ClientLine where
  program := .ofChars ['s', 'e', 'r', 'v', 'a', 'l', 'r', 'p', 'c']
  command := .ofChars ['-', 'c']
  mode := .ofChars ['-', 'd']
  behindMode := [separator]
  destination := broadcastName
  rpcName := .ofChars ['f']
  arguments := []
  client := by decide
  shape := by decide
  fits := by decide

/-- A procedure without parameters cannot be called: the copying loop leaves `argv`. -/
theorem no_parameter_is_passed :
    bareLine.arguments = [] ∧
      called (.executable sidAny) bareLine = some (sidBroadcast, .rpcClientCallMdp) ∧
      ¬ PassesParameters (.executable sidAny) bareLine :=
  ⟨rfl, by decide, @not_passes_without_parameters _ _ sidBroadcast (by decide)
    (List.prefix_nil.mp bareLine.parameters_prefix)⟩

/-! ## Requirements that are out of range -/

/-- Requirements out of range are told apart from every valid array and keep `main` from calling;
otherwise its call carries the encoding. -/
structure RefusesOutOfRange (values : Fin 8 → Int) : Prop where
  error : ¬ InRange values →
    (∀ valid, InRange valid →
      rpcClientPrepareRequirements values ≠ rpcClientPrepareRequirements valid) ∧
    ∀ world mode sid name nfields params,
      (issueCall world mode sid name nfields params values).calls = []
  call : InRange values → ∀ world mode sid name nfields params function,
    calledFunction mode sid = some function →
    ∃ requirements, (issueCall world mode sid name nfields params values).calls =
        [⟨function, sid, name, nfields, params, requirements⟩] ∧
      requirements.toNat = ∑ i : Fin 8, (values i).toNat * 16 ^ (7 - i.val)

/-- The error value is the encoding of eight zeros. -/
theorem not_refuses_of_outOfRange {values : Fin 8 → Int} (outside : ¬ InRange values) :
    ¬ RefusesOutOfRange values := by
  intro refuses
  have zeros : InRange fun _ => 0 := fun _ => by simp
  apply (refuses.error outside).1 (fun _ => 0) zeros
  rw [prepare_of_outOfRange outside]
  apply UInt32.toNat.inj
  simp [Requirements.prepare_toNat zeros]

/-- Only arrays in range are handled as they should be. -/
theorem refuses_out_of_range_iff (values : Fin 8 → Int) :
    RefusesOutOfRange values ↔ InRange values := by
  constructor
  · intro refuses
    by_contra outside
    exact not_refuses_of_outOfRange outside refuses
  · intro inRange
    refine ⟨fun outside => absurd inRange outside, ?_⟩
    intro _ world mode sid name nfields params function selected
    refine ⟨rpcClientPrepareRequirements values, ?_, Requirements.prepare_toNat inRange⟩
    rw [issueCall_calls, selected]
    rfl

/-- The call goes out with the requirements of eight zeros. -/
theorem out_of_range_is_called :
    ¬ InRange ![16, 1, 1, 1, 1, 1, 1, 1] ∧
      (issueCall someWorld (.ofChars ['-', 'd']) sidBroadcast (some (.ofChars ['f'])) 0 []
        ![16, 1, 1, 1, 1, 1, 1, 1]).calls =
          [⟨.rpcClientCallMdp, sidBroadcast, some (.ofChars ['f']), 0, [], 0⟩] ∧
      ¬ RefusesOutOfRange ![16, 1, 1, 1, 1, 1, 1, 1] := by
  have outside : ¬ InRange ![16, 1, 1, 1, 1, 1, 1, 1] := by decide
  refine ⟨outside, ?_, not_refuses_of_outOfRange outside⟩
  rw [issueCall_calls, prepare_of_outOfRange outside]
  decide

end ServalRpc.Verified.ClientInvocation
