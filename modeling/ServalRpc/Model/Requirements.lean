import Mathlib.Logic.Function.Basic

/-! # Requirement vectors

Eight values of four bits each travel in one `uint32_t`: `rpc_client_prepare_requirements`
packs them and `_rpc_server_parse_requirements` takes them out again.
-/

namespace ServalRpc

/-- The loop of `rpc_client_prepare_requirements` from index `i` on. -/
def rpcClientPrepareRequirementsFrom (values : Fin 8 → Int) (i : Nat) (requirements : UInt32) :
    UInt32 :=
  if inside : i < 7 then
    let first := values ⟨i, by omega⟩
    let second := values ⟨i + 1, by omega⟩
    if first < 0 ∨ first > 15 ∨ second < 0 ∨ second > 15 then 0
    else
      let requirements := requirements ||| UInt32.ofNat first.toNat
      let requirements := requirements <<< 4
      let requirements := requirements ||| UInt32.ofNat second.toNat
      let requirements := if i + 1 = 7 then requirements else requirements <<< 4
      rpcClientPrepareRequirementsFrom values (i + 2) requirements
  else requirements
termination_by 7 - i

def rpcClientPrepareRequirements (values : Fin 8 → Int) : UInt32 :=
  rpcClientPrepareRequirementsFrom values 0 0

/-- The extraction loop of `_rpc_server_parse_requirements` from index `i` on. -/
def extractRequirementsFrom (i : Nat) (rawCopy : UInt32) (result : Fin 8 → Int) : Fin 8 → Int :=
  if inside : i < 8 then
    extractRequirementsFrom (i + 1) (rawCopy >>> 4)
      (Function.update result ⟨i, inside⟩ (rawCopy &&& 15).toNat)
  else result
termination_by 8 - i

/-- The reversal loop of `_rpc_server_parse_requirements` from the pair `i`, `j` on. -/
def swapRequirementsFrom (i j : Nat) (inside : j < 8) (result : Fin 8 → Int) : Fin 8 → Int :=
  if ordered : i < j then
    let tmp := result ⟨i, by omega⟩
    let result := Function.update result ⟨i, by omega⟩ (result ⟨j, inside⟩)
    let result := Function.update result ⟨j, inside⟩ tmp
    swapRequirementsFrom (i + 1) (j - 1) (by omega) result
  else result
termination_by j - i

/-- `result` is the caller's array before the call. -/
def rpcServerParseRequirements (result : Fin 8 → Int) (raw : UInt32) : Fin 8 → Int :=
  -- Both indices of the reversal loop start at 0, so it never swaps.
  swapRequirementsFrom 0 0 (by decide) (extractRequirementsFrom 0 raw result)

end ServalRpc
