import ServalRpc.CLib.Atoi
import ServalRpc.CLib.Strtok
import ServalRpc.Model.Requirements
import ServalRpc.Model.Serval

/-! # The command line

`main` finds the destination, the procedure, its parameters and the requirements in `argv` and
calls the function of the chosen mode.  The functions that it calls are part of the world: they
give a return code, and `main` keeps the list of the calls it has made.
-/

namespace ServalRpc

open CLib

/-- The arguments of the program; their number is an `int`. -/
structure Argv where
  args : List CString
  fits : args.length < 2 ^ 31

namespace Argv

def argc (argv : Argv) : Nat := argv.args.length

/-- The pointers of `argv`, with the null pointer at `argc`. -/
def cells (argv : Argv) : List (Option CString) := argv.args.map some ++ [none]

end Argv

/-! ## Options -/

/-- `_check_cli`. -/
def checkCli (arg option abbreviation : CString) : Bool :=
  let lngOption := CString.ofChars ['-', '-'] ++ option
  let lngAbbrev := CString.ofChars ['-'] ++ abbreviation
  CString.strncmpEq arg lngOption lngOption.length ||
    CString.strncmpEq arg lngAbbrev lngAbbrev.length

inductive ServerFunction where
  | rpcServerListenMsp
  | rpcServerListenMdpBroadcast
  | rpcServerListenRhizome
  | rpcServerListen
  deriving DecidableEq

inductive ClientFunction where
  | rpcClientCallMsp
  | rpcClientCallRhizome
  | rpcClientCallMdp
  | rpcClientCall
  deriving DecidableEq

def checksListen (arg : CString) : Bool :=
  checkCli arg (.ofChars ['l', 'i', 's', 't', 'e', 'n']) (.ofChars ['l'])

def checksCall (arg : CString) : Bool :=
  checkCli arg (.ofChars ['c', 'a', 'l', 'l']) (.ofChars ['c'])

def checksMsp (arg : CString) : Bool :=
  checkCli arg (.ofChars ['m', 's', 'p']) (.ofChars ['s'])

def checksMdp (arg : CString) : Bool :=
  checkCli arg (.ofChars ['m', 'd', 'p']) (.ofChars ['d'])

def checksRhizome (arg : CString) : Bool :=
  checkCli arg (.ofChars ['r', 'h', 'i', 'z', 'o', 'm', 'e']) (.ofChars ['r'])

/-- The transparent mode has no option: in its place stands the separator. -/
def checksTransparent (arg : CString) : Bool :=
  checkCli arg (.ofChars ['-']) (.ofChars ['-'])

/-- The branches of the client over `argv[2]`, in their order. -/
def clientFunction (arg : CString) : Option ClientFunction :=
  if checksMsp arg then some .rpcClientCallMsp
  else if checksRhizome arg then some .rpcClientCallRhizome
  else if checksMdp arg then some .rpcClientCallMdp
  else if checksTransparent arg then some .rpcClientCall
  else none

/-! ## Destination -/

def broadcastName : CString := .ofChars ['b', 'r', 'o', 'a', 'd', 'c', 'a', 's', 't']

/-- The subscriber id that `sidhex` names; `none` when it cannot be converted. -/
def parseDestination (serval : Serval) (sidhex : CString) : Option Sid :=
  let sidhex := if CString.strncmpEq sidhex (.ofChars ['a', 'l', 'l']) 3 then broadcastName else sidhex
  if CString.strncmpEq sidhex (.ofChars ['a', 'n', 'y']) 3 then some sidAny
  else serval.strToSidT sidhex

/-! ## Requirements -/

/-- The loop that counts the commas of the last argument.  At a comma it moves its index on, and
elsewhere the pointer that `lastArg` starts at; it ends at the terminator. -/
def countCommas (numCommas : Nat) (lastArg : List UInt8) : Nat :=
  if inside : numCommas < lastArg.length then
    if lastArg[numCommas] = 44 then countCommas (numCommas + 1) lastArg
    else countCommas numCommas lastArg.tail
  else numCommas
termination_by lastArg.length - numCommas
decreasing_by
  · omega
  · rw [List.length_tail]
    omega

/-- `num_commas == 7 && last_arg_len == 15`. -/
def takesAsRequirements (lastArg : CString) : Bool :=
  countCommas 0 lastArg.bytes == 7 && lastArg.length == 15

/-- One round of the loop of `_str_to_int_arr`.  The rounds behind the eighth one, which the loop
leaves out, would change nothing. -/
def storeValue (state : (Fin 8 → Option Int) × Nat) (valStr : CString) :
    (Fin 8 → Option Int) × Nat :=
  if inside : state.2 < 8 then
    (Function.update state.1 ⟨state.2, inside⟩ (some (atoi valStr)), state.2 + 1)
  else state

/-- `_str_to_int_arr`; an entry that is not initialised is `none`. -/
def strToIntArr (values : Fin 8 → Option Int) (inputString : CString) :
    Except Fault (Fin 8 → Option Int) := do
  let (values, _) ← strtokFold 44 storeValue (values, 0) inputString.terminated
  pure values

/-- `def`. -/
def defaultRequirements : CString :=
  .ofChars ['0', ',', '0', ',', '0', ',', '0', ',', '0', ',', '0', ',', '0', ',', '0']

/-- The array `values` when `rpc_client_prepare_requirements` gets it. -/
def requirementValues (lastArg : CString) : Except Fault (Fin 8 → Option Int) :=
  strToIntArr (fun _ => none)
    (if takesAsRequirements lastArg then lastArg else defaultRequirements)

/-! ## Parameters -/

/-- `nfields`, an `unsigned int`. -/
def paramFields (argv : Argv) (offset : Nat) (lastArg : CString) : UInt32 :=
  if takesAsRequirements lastArg then UInt32.ofNat argv.argc - UInt32.ofNat (offset + 3)
  else UInt32.ofNat argv.argc - UInt32.ofNat (offset + 2)

/-- The loop that copies the parameters behind the first one, from index `i` on. -/
def copyParams (argv : Argv) (offset : Nat) (nfields : UInt32) (i : Nat)
    (params : List (Option CString)) : Except Fault (List (Option CString)) :=
  if i < (nfields - 1).toNat then do
    let n := (offset + 3 + i) % 2 ^ 32
    let arg ← load argv.cells n
    let params ← storeRange params (i + 1) [arg]
    copyParams argv offset nfields (i + 1) params
  else pure params
termination_by (nfields - 1).toNat - i

/-! ## The program -/

/-- The arguments of a client function; `params` is the whole array. -/
structure Invocation where
  function : ClientFunction
  serverSid : Sid
  rpcName : Option CString
  nfields : UInt32
  params : List (Option CString)
  requirements : UInt32
  deriving DecidableEq

/-- What `main` finds: the daemon, the functions that it calls, and the cells of its two arrays
before it stores to them. -/
structure MainWorld where
  serverPid : Int
  listen : ServerFunction → Int
  call : Invocation → Int
  stackValues : Fin 8 → Int
  stackParams : Nat → Option CString

structure MainOutcome where
  calls : List Invocation
  code : Int

/-- A return before any call of a client function. -/
def MainOutcome.returns (code : Int) : MainOutcome := ⟨[], code⟩

/-- The end of the client part.  Only the code 2 of a client function stands for results. -/
def callClientFunction (world : MainWorld) (invocation : Invocation) : MainOutcome :=
  ⟨[invocation], if world.call invocation = 2 then 0 else -1⟩

/-- The client part from the requirements on. -/
def issueCall (world : MainWorld) (mode : CString) (sid : Sid) (name : Option CString)
    (nfields : UInt32) (params : List (Option CString)) (values : Fin 8 → Int) : MainOutcome :=
  let requirements := rpcClientPrepareRequirements values
  match clientFunction mode with
  | some .rpcClientCallMsp =>
    if isSidTBroadcast sid || isSidTAny sid then .returns (-1)
    else callClientFunction world ⟨.rpcClientCallMsp, sid, name, nfields, params, requirements⟩
  | some function => callClientFunction world ⟨function, sid, name, nfields, params, requirements⟩
  | none => .returns (-1)

/-- The client part. -/
def mainClient (serval : Serval) (world : MainWorld) (argv : Argv) :
    Except Fault MainOutcome := do
  let mode ← derefAt argv.cells 2
  let offset := if mode = .ofChars ['-', '-'] then 3 else 4
  let sidhex ← load argv.cells offset
  let name ← load argv.cells (offset + 1)
  let param1 ← load argv.cells (offset + 2)
  let sidhex ← deref sidhex
  match parseDestination serval sidhex with
  | none => pure (.returns (-1))
  | some sid =>
    let lastArg ← derefAt argv.cells (argv.argc - 1)
    let nfields := paramFields argv offset lastArg
    let params := (List.range (nfields + 1).toNat).map world.stackParams
    let params ← storeRange params 0 [param1]
    let params ← copyParams argv offset nfields 0 params
    let values ← requirementValues lastArg
    pure (issueCall world mode sid name nfields params
      fun i => (values i).getD (world.stackValues i))

/-- The server part. -/
def mainServer (world : MainWorld) (argv : Argv) : Except Fault MainOutcome :=
  if argv.argc = 3 then do
    let mode ← derefAt argv.cells 2
    if checksMsp mode then pure (.returns (world.listen .rpcServerListenMsp))
    else if checksMdp mode then pure (.returns (world.listen .rpcServerListenMdpBroadcast))
    else if checksRhizome mode then pure (.returns (world.listen .rpcServerListenRhizome))
    else pure (.returns (-1))
  else if argv.argc = 2 then pure (.returns (world.listen .rpcServerListen))
  else pure (.returns 0)

def main (serval : Serval) (world : MainWorld) (argv : Argv) : Except Fault MainOutcome := do
  if world.serverPid = 0 then pure (.returns (-1))
  else if argv.argc < 2 then pure (.returns (-1))
  else
    let command ← derefAt argv.cells 1
    if checksListen command then mainServer world argv
    else if checksCall command then mainClient serval world argv
    else pure (.returns 0)

end ServalRpc
