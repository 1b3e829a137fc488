import ServalRpc.Verified.Delivery
import ServalRpc.Verified.SlotOrigins

/-! # The books of the servers

On every channel a server accepts calls, executes them, and tells the client of both.  As long as
every packet under the sid of a server goes back to one of its two books, so does what the client's
table holds.
-/

namespace ServalRpc.Verified.CallBooks

open CLib HandlerSteps ListenerSteps ClientTable Delivery SlotOrigins

/-! ## Executions -/

/-- The execution of the call has succeeded with this packet. -/
def Returned (served : ServedCall) (payload : List UInt8) : Prop :=
  ∃ result, excecuteCall served.server served.execute served.rp = .ok result ∧
    result.returnCode ≠ 0 ∧ result.resultPayload.cells = payload

theorem Returned.load_type {served : ServedCall} {payload : List UInt8}
    (returned : Returned served payload) : load payload 0 = .ok rpcPktCallResponse := by
  obtain ⟨result, executed, succeeded, rfl⟩ := returned
  exact load_of_head? (resultPacket_of_executed executed succeeded).type

theorem Returned.length {served : ServedCall} {payload : List UInt8}
    (returned : Returned served payload) : payload.length = rpcPktSize := by
  obtain ⟨result, executed, succeeded, rfl⟩ := returned
  exact (resultPacket_of_executed executed succeeded).size

/-! ## Books -/

/-- The calls that servers have accepted, and those that they have executed. -/
structure Books (α : Type) where
  accepted : List α
  executed : List α

namespace Books

variable {α : Type}

def empty : Books α := ⟨[], []⟩

def accept (books : Books α) (attempt : α) : Books α :=
  { books with accepted := books.accepted ++ [attempt] }

def execute (books : Books α) (attempt : α) : Books α :=
  { books with executed := books.executed ++ [attempt] }

/-- Nothing is taken back. -/
structure Grows (books next : Books α) : Prop where
  accepted : books.accepted ⊆ next.accepted
  executed : books.executed ⊆ next.executed

theorem grows_refl (books : Books α) : books.Grows books :=
  ⟨List.Subset.refl _, List.Subset.refl _⟩

theorem grows_accept (books : Books α) (attempt : α) : books.Grows (books.accept attempt) :=
  ⟨List.subset_append_left _ _, List.Subset.refl _⟩

theorem grows_execute (books : Books α) (attempt : α) : books.Grows (books.execute attempt) :=
  ⟨List.Subset.refl _, List.subset_append_left _ _⟩

theorem Grows.trans {first second third : Books α} (left : first.Grows second)
    (right : second.Grows third) : first.Grows third :=
  ⟨List.Subset.trans left.accepted right.accepted, List.Subset.trans left.executed right.executed⟩

theorem mem_accept (books : Books α) (attempt : α) : attempt ∈ (books.accept attempt).accepted :=
  List.mem_append_right _ (List.mem_singleton_self attempt)

theorem mem_execute (books : Books α) (attempt : α) : attempt ∈ (books.execute attempt).executed :=
  List.mem_append_right _ (List.mem_singleton_self attempt)

end Books

/-! ## Carriers of a call -/

/-- How the client and the servers deal with each other on what carries a call: which sids are those of
servers, what holds of an accepted call, which calls are the client's at the server of a sid, which
contents are an ACK or the result of a call, and what the client makes of a result. -/
structure Carrier (α : Type) where
  isServer : Sid → Prop
  admitted : α → Prop
  isOurs : Sid → α → Prop
  isAck : List UInt8 → Prop
  isResult : α → List UInt8 → Prop
  answers : α → List UInt8 → Prop

variable {α : Type} (carrier : Carrier α)

/-- A server sends ACKs of calls that it has accepted and results of executions. -/
inductive Reply (books : Books α) (sid : Sid) (content : List UInt8) : Prop where
  | ack {attempt : α} : carrier.isAck content → attempt ∈ books.accepted →
      carrier.isOurs sid attempt → Reply books sid content
  | result {attempt : α} : attempt ∈ books.executed → carrier.isOurs sid attempt →
      carrier.isResult attempt content → Reply books sid content

/-- If the sid is that of a server, the server has accepted a call of the client. -/
def Acked (books : Books α) (sid : Sid) : Prop :=
  carrier.isServer sid → ∃ attempt ∈ books.accepted, carrier.isOurs sid attempt

/-- If the sid is that of a server, the bytes are what the client makes of the result of such a
call. -/
def Answered (books : Books α) (sid : Sid) (bytes : List UInt8) : Prop :=
  carrier.isServer sid →
    ∃ attempt ∈ books.executed, carrier.isOurs sid attempt ∧ carrier.answers attempt bytes

structure Sound (books : Books α) (rpcResult : ResultTable) : Prop where
  admitted : ∀ attempt ∈ books.accepted, carrier.admitted attempt
  executed : books.executed ⊆ books.accepted
  slots : ∀ slot ∈ rpcResult.cells, Vouched (Acked carrier books) (Answered carrier books) slot

variable {carrier} {books next : Books α} {rpcResult : ResultTable}

theorem Reply.mono {sid : Sid} {content : List UInt8} (grows : books.Grows next)
    (reply : Reply carrier books sid content) : Reply carrier next sid content := by
  cases reply with
  | ack isAck accepted ours => exact .ack isAck (grows.accepted accepted) ours
  | result executed ours isResult => exact .result (grows.executed executed) ours isResult

theorem vouched_mono {slot : RPCResult} (grows : books.Grows next)
    (vouched : Vouched (Acked carrier books) (Answered carrier books) slot) :
    Vouched (Acked carrier next) (Answered carrier next) slot := by
  refine vouched.mono (fun sid acked isServer => ?_) (fun sid bytes answered isServer => ?_)
  · obtain ⟨attempt, accepted, ours⟩ := acked isServer
    exact ⟨attempt, grows.accepted accepted, ours⟩
  · obtain ⟨attempt, executed, answer⟩ := answered isServer
    exact ⟨attempt, grows.executed executed, answer⟩

theorem sound_empty : Sound carrier .empty .empty := by
  refine ⟨?_, List.nil_subset _, vouched_empty⟩
  intro attempt accepted
  cases accepted

namespace Sound

theorem accept {attempt : α} (sound : Sound carrier books rpcResult)
    (admits : carrier.admitted attempt) : Sound carrier (books.accept attempt) rpcResult := by
  refine ⟨fun other member => ?_, fun other member => ?_, fun slot member => ?_⟩
  · obtain before | new := List.mem_append.mp member
    · exact sound.admitted other before
    · obtain rfl := List.mem_singleton.mp new
      exact admits
  · exact List.mem_append_left _ (sound.executed member)
  · exact vouched_mono (books.grows_accept attempt) (sound.slots slot member)

/-- Only a call that has been accepted is executed. -/
theorem execute {attempt : α} (sound : Sound carrier books rpcResult)
    (accepted : attempt ∈ books.accepted) :
    Sound carrier (books.execute attempt) rpcResult := by
  refine ⟨sound.admitted, fun other member => ?_, fun slot member => ?_⟩
  · obtain before | new := List.mem_append.mp member
    · exact sound.executed before
    · obtain rfl := List.mem_singleton.mp new
      exact accepted
  · exact vouched_mono (books.grows_execute attempt) (sound.slots slot member)

/-- A packet leaves slots that the servers have vouched for, if it is a reply whenever it is under
the sid of one of them. -/
theorem react (sound : Sound carrier books rpcResult) {call : ClientCall} {packet : Packet}
    {reaction : Reaction} (reacted : reactToPacket call packet rpcResult = .ok reaction)
    (proper : packet.sender ≠ sidAny) {content : List UInt8}
    (reply : carrier.isServer packet.sender → Reply carrier books packet.sender content)
    (ack : carrier.isServer packet.sender → carrier.isAck content → IsAck packet)
    (answer : carrier.isServer packet.sender → ∀ attempt bytes, carrier.isResult attempt content →
      answerBytes call packet = .ok bytes → carrier.answers attempt bytes) :
    Sound carrier books (reactionTable rpcResult reaction) := by
  refine ⟨sound.admitted, sound.executed, vouched_of_react reacted proper ?_ ?_ sound.slots⟩
  · intro _ isServer
    cases reply isServer with
    | ack _ accepted ours => exact ⟨_, accepted, ours⟩
    | result executed ours _ => exact ⟨_, sound.executed executed, ours⟩
  · intro response bytes isAnswer isServer
    cases reply isServer with
    | ack isAck _ _ => exact absurd response (not_isResponse_of_isAck (ack isServer isAck))
    | result executed ours isResult =>
      exact ⟨_, executed, ours, answer isServer _ bytes isResult isAnswer⟩

/-- What a slot under the sid of a server tells. -/
theorem tells (sound : Sound carrier books rpcResult) {slot : RPCResult}
    (member : slot ∈ rpcResult.cells) (named : slot.serverSid ≠ sidAny)
    (isServer : carrier.isServer slot.serverSid) :
    (∃ attempt ∈ books.accepted, carrier.isOurs slot.serverSid attempt) ∧
      (slot.content = emptyResult.content ∨
        ∃ attempt ∈ books.executed, carrier.isOurs slot.serverSid attempt ∧
          ∃ bytes, carrier.answers attempt bytes ∧ bytes <+: slot.content) := by
  cases sound.slots slot member with
  | free => exact absurd rfl named
  | claimed _ acked => exact ⟨acked isServer, .inl rfl⟩
  | filled bytes _ answered holds =>
    obtain ⟨attempt, executed, ours, answer⟩ := answered isServer
    exact ⟨⟨attempt, sound.executed executed, ours⟩,
      .inr ⟨attempt, executed, ours, bytes, answer, holds⟩⟩

end Sound

end ServalRpc.Verified.CallBooks
