import ServalRpc.CLib.Heap

/-! # cURL memory

The record in which the functions that talk to the daemon collect the body of a response.  One
record serves all requests of a function; between two of them it is initialised again.
-/

namespace ServalRpc

open CLib

/-- `struct CurlResultMemory`. -/
structure CurlResultMemory where
  memory : Option (List UInt8)
  size : Nat
  deriving DecidableEq

/-- `_rpc_curl_init_memory`: the fields of the record are not read. -/
def rpcCurlInitMemory (granted : Bool) : CurlResultMemory where
  memory := calloc granted 1 0
  size := 0

/-- `_rpc_curl_reinit_memory`.  Apart from the release of the old memory it starts anew. -/
def rpcCurlReinitMemory (granted : Bool) (_ : CurlResultMemory) : CurlResultMemory where
  memory := calloc granted 1 0
  size := 0

/-- `_rpc_curl_write_response`: the return value and the record behind the call. -/
def rpcCurlWriteResponse (heap : Option (Nat → UInt8)) (contents : List UInt8) (size nmemb : Nat)
    (mem : CurlResultMemory) : Except Fault (Nat × CurlResultMemory) := do
  let realsize := size * nmemb % 2 ^ 64
  match realloc heap mem.memory ((mem.size + realsize + 1) % 2 ^ 64) with
  -- The old memory is lost, its size is not.
  | none => .ok (0, { mem with memory := none })
  | some memory =>
    let memory ← storeRange memory mem.size (← loadRange contents 0 realsize)
    let size := (mem.size + realsize) % 2 ^ 64
    let memory ← storeRange memory size [0]
    .ok (realsize, ⟨some memory, size⟩)

/-! ## Calls in sequence -/

/-- A call of one of the three functions, with the answer of the heap to its request. -/
inductive CurlCall where
  | init (granted : Bool)
  | reinit (granted : Bool)
  | write (heap : Option (Nat → UInt8)) (contents : List UInt8) (size nmemb : Nat)

/-- What a call does; the functions that return nothing give 0. -/
def CurlCall.perform (mem : CurlResultMemory) : CurlCall → Except Fault (Nat × CurlResultMemory)
  | .init granted => .ok (0, rpcCurlInitMemory granted)
  | .reinit granted => .ok (0, rpcCurlReinitMemory granted mem)
  | .write heap contents size nmemb => rpcCurlWriteResponse heap contents size nmemb mem

/-- The bytes that a call hands over. -/
def CurlCall.chunk : CurlCall → List UInt8
  | .init _ => []
  | .reinit _ => []
  | .write _ contents size nmemb => contents.take (size * nmemb)

/-- The heap grants the request of the call. -/
def CurlCall.Allocates (mem : CurlResultMemory) : CurlCall → Prop
  | .init granted => granted = true
  | .reinit granted => granted = true
  | .write heap _ size nmemb =>
    (realloc heap mem.memory ((mem.size + size * nmemb % 2 ^ 64 + 1) % 2 ^ 64)).isSome = true

/-- What cURL promises: `size * nmemb` bytes of an object, a number that a `size_t` holds. -/
def CurlCall.HandsOver : CurlCall → Prop
  | .init _ => True
  | .reinit _ => True
  | .write _ contents size nmemb => size * nmemb ≤ contents.length ∧ contents.length ≤ ptrdiffMax

end ServalRpc
