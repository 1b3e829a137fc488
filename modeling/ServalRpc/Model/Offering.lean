import ServalRpc.CLib.Strtok
import ServalRpc.Model.Call
import ServalRpc.Model.Requirements

/-! # The offering and acceptance checks

`rpc.conf` declares one procedure a line: `<name> <param_count> <param_type_1> ...`.
-/

namespace ServalRpc

open CLib

/-- The lines that `getline` returns one after the other, with their newline. -/
def getlines (content : List UInt8) : List (List UInt8) :=
  match content with
  | [] => []
  | byte :: content =>
    if byte = 10 then [10] :: getlines content
    else match getlines content with
      | [] => [[byte]]
      | line :: lines => (byte :: line) :: lines

/-- The loop of `_rpc_server_offering` over the lines, with `ret` from the line before. -/
def offeringLoop (rp : RPCProcedure) (ret : Int) : List (List UInt8) → Except Fault Int
  | [] => .ok ret
  | line :: lines => do
    let (name, rest) ← strtok 32 (line ++ [0])
    let name ← deref name
    -- The comparison stops at the end of the field in the file, so a prefix passes.
    let ret : Int := if CString.strncmpEq name rp.name name.length then 1 else 0
    let (paramc, _) ← strtok 32 rest
    if ret ≠ 0 then
      let paramc ← deref paramc
      if CString.strncmpEq paramc rp.paramc.paramcS paramc.length then .ok 2
      -- The 1 of the name stays when there is no next line to reset it.
      else offeringLoop rp ret lines
    else offeringLoop rp ret lines

/-- `_rpc_server_offering`; `conf` is the content of `rpc.conf`, if there is such a file. -/
def rpcServerOffering (conf : Option (List UInt8)) (rp : RPCProcedure) : Except Fault Int :=
  match conf with
  | none => .ok 0
  | some content => offeringLoop rp 0 (getlines content)

/-- `_rpc_server_accepts` parses the requirements and accepts every call. -/
def rpcServerAccepts (_rp : RPCProcedure) (requirementsRaw : UInt32) : Int :=
  let _requirements := rpcServerParseRequirements (fun _ => 0) requirementsRaw
  1

/-! ## Declarations -/

/-- A field of a line of `rpc.conf`. -/
structure ConfField where
  text : CString
  nonempty : text.bytes ≠ []
  noSpace : 32 ∉ text.bytes
  noNewline : 10 ∉ text.bytes
  deriving DecidableEq

/-- `<name> <count> <type> ...`. -/
structure ConfLine where
  name : ConfField
  count : ConfField
  type : ConfField
  moreTypes : List ConfField
  deriving DecidableEq

/-- The text of a line: its fields, separated by single spaces. -/
def ConfLine.text (line : ConfLine) : List UInt8 :=
  [32].intercalate
    ((line.name :: line.count :: line.type :: line.moreTypes).map fun field => field.text.bytes)

/-- The content of a file made of lines; the newline of the last line may be missing. -/
structure Conf where
  lines : List ConfLine
  finalNewline : Bool
  deriving DecidableEq

def confContent (finalNewline : Bool) : List ConfLine → List UInt8
  | [] => []
  | [line] => line.text ++ if finalNewline then [10] else []
  | line :: next :: lines => line.text ++ 10 :: confContent finalNewline (next :: lines)

def Conf.content (conf : Conf) : List UInt8 :=
  confContent conf.finalNewline conf.lines

end ServalRpc
